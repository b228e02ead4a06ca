import SigmaForge.Foundation.Json.Decode

/-!
# The budget of `json.loads` suffices

Every procedure of the scanner uses up some of its input, so the calls nest at
most twice as deep as the text is long.
-/

namespace SigmaForge
namespace Json

open Text

theorem prepend_eq_some
    {c : CodePoint}
    {result : Option (Str × Str)}
    {text rest : Str}
    (prepended : prepend c result = some (text, rest)) :
    ∃ tail, result = some (tail, rest) := by
  cases result with
  | none => simp [prepend] at prepended
  | some pair =>
      obtain ⟨tail, others⟩ := pair
      simp only [prepend, Option.some.injEq, Prod.mk.injEq] at prepended
      exact ⟨tail, by rw [prepended.2]⟩

/-- A string uses up at least its closing quote. -/
theorem scanString_length
    {input text rest : Str}
    (scanned : scanString input = some (text, rest)) :
    rest.length < input.length := by
  induction size : input.length using Nat.strong_induction_on generalizing input text with
  | _ size inductionHypothesis =>
      subst size
      have step : ∀ {c : CodePoint} {shorter : Str}, shorter.length < input.length →
          prepend c (scanString shorter) = some (text, rest) → rest.length < input.length := by
        intro c shorter smaller prepended
        obtain ⟨tail, inner⟩ := prepend_eq_some prepended
        exact Nat.lt_trans (inductionHypothesis _ smaller inner rfl) smaller
      rw [scanString.eq_def] at scanned
      split at scanned
      · contradiction
      · split_ifs at scanned with isQuote isControl isPlain
        · simp only [Option.some.injEq, Prod.mk.injEq] at scanned
          rw [← scanned.2]
          exact Nat.lt_succ_self _
        · exact step (by simp) scanned
        · split at scanned
          · contradiction
          · split_ifs at scanned with isLetter
            · split at scanned
              · exact step (by simp only [List.length_cons]; omega) scanned
              · contradiction
            · split at scanned
              · split at scanned
                · contradiction
                · split at scanned
                  · exact step (by simp only [List.length_cons]; omega) scanned
                  · exact step (by simp only [List.length_cons]; omega) scanned
              · contradiction

theorem length_dropWhile_le (p : CodePoint → Bool) (text : Str) :
    (text.dropWhile p).length ≤ text.length :=
  (List.dropWhile_suffix p).length_le

theorem skipWhitespace_length (text : Str) : (skipWhitespace text).length ≤ text.length :=
  length_dropWhile_le _ text

/-- A number uses up at least one digit. -/
theorem scanNumber_length
    {floats : FloatText}
    {input rest : Str}
    {number : Scalar}
    (scanned : scanNumber floats input = .ok (number, rest)) :
    rest.length < input.length := by
  have sign : ∀ text : Str, (takeSign text).2.length ≤ text.length := by
    intro text
    unfold takeSign
    split
    · exact Nat.le_refl _
    · split_ifs
      · exact Nat.le_succ _
      · exact Nat.le_refl _
  have whole : ∀ {text digits rest : Str}, takeWhole text = some (digits, rest) →
      rest.length < text.length := by
    intro text digits rest taken
    unfold takeWhole at taken
    split at taken
    · contradiction
    · split_ifs at taken
      · simp only [Option.some.injEq, Prod.mk.injEq] at taken
        simp [← taken.2]
      · simp only [Option.some.injEq, Prod.mk.injEq] at taken
        rw [← taken.2]
        exact Nat.lt_succ_of_le (length_dropWhile_le _ _)
  have fraction : ∀ text : Str, (takeFraction text).2.length ≤ text.length := by
    intro text
    unfold takeFraction
    split
    · split_ifs
      · exact Nat.le_succ_of_le (Nat.le_succ_of_le (length_dropWhile_le _ _))
      · exact Nat.le_refl _
    · exact Nat.le_refl _
  have exponentSign : ∀ text : Str, (takeExponentSign text).2.length ≤ text.length := by
    intro text
    unfold takeExponentSign
    split
    · exact Nat.le_refl _
    · split_ifs
      · exact Nat.le_succ _
      · exact Nat.le_refl _
  have exponent : ∀ text : Str, (takeExponent text).2.length ≤ text.length := by
    intro text
    unfold takeExponent
    split
    · exact Nat.le_refl _
    · rename_i e text
      dsimp only
      split_ifs
      · exact Nat.le_refl _
      · exact Nat.le_succ_of_le
          (Nat.le_trans (length_dropWhile_le _ _) (exponentSign text))
      · exact Nat.le_refl _
  unfold scanNumber at scanned
  dsimp only at scanned
  split at scanned
  · contradiction
  · rename_i digits afterWhole taken
    have used : (takeExponent (takeFraction afterWhole).2).2.length < input.length :=
      calc (takeExponent (takeFraction afterWhole).2).2.length
          ≤ (takeFraction afterWhole).2.length := exponent _
        _ ≤ afterWhole.length := fraction _
        _ < (takeSign input).2.length := whole taken
        _ ≤ input.length := sign input
    split_ifs at scanned
    all_goals
      simp only [Except.ok.injEq, Prod.mk.injEq] at scanned
      rw [← scanned.2]
      exact used

theorem hooked_eq_ok
    {result : Option Value}
    {text rest : Str}
    {value : Value}
    (ok : hooked result text = .ok (value, rest)) :
    text = rest := by
  unfold hooked at ok
  split at ok
  · simp only [Except.ok.injEq, Prod.mk.injEq] at ok
    exact ok.2
  · contradiction

theorem hooked_ne_recursionError (result : Option Value) (text : Str) :
    hooked result text ≠ .error .recursionError := by
  unfold hooked
  split <;> simp

/-- A literal uses up at least one character, and needs no budget. -/
theorem scanLiteral_spec (floats : FloatText) (hooks : Hooks) (text : Str) :
    scanLiteral floats hooks text ≠ .error .recursionError ∧
      ∀ value rest, scanLiteral floats hooks text = .ok (value, rest) →
        rest.length < text.length := by
  have dropped : ∀ (word : Str) (size : Nat), word.isPrefixOf text = true →
      word.length = size → 0 < size → (text.drop size).length < text.length := by
    intro word size isStart length positive
    have atLeast := (List.isPrefixOf_iff_prefix.mp isStart).length_le
    rw [List.length_drop]
    omega
  have number : scanNumber floats text ≠ .error .recursionError := by
    unfold scanNumber
    dsimp only
    split
    · simp
    · split_ifs <;> simp
  unfold scanLiteral
  split_ifs with null isTrue isFalse nan infinity minusInfinity
  · exact ⟨by simp, fun value rest ok => by
      simp only [Except.ok.injEq, Prod.mk.injEq] at ok
      exact ok.2 ▸ dropped _ 4 null (by decide) (by decide)⟩
  · exact ⟨by simp, fun value rest ok => by
      simp only [Except.ok.injEq, Prod.mk.injEq] at ok
      exact ok.2 ▸ dropped _ 4 isTrue (by decide) (by decide)⟩
  · exact ⟨by simp, fun value rest ok => by
      simp only [Except.ok.injEq, Prod.mk.injEq] at ok
      exact ok.2 ▸ dropped _ 5 isFalse (by decide) (by decide)⟩
  · exact ⟨hooked_ne_recursionError _ _, fun value rest ok =>
      hooked_eq_ok ok ▸ dropped _ 3 nan (by decide) (by decide)⟩
  · exact ⟨hooked_ne_recursionError _ _, fun value rest ok =>
      hooked_eq_ok ok ▸ dropped _ 8 infinity (by decide) (by decide)⟩
  · exact ⟨hooked_ne_recursionError _ _, fun value rest ok =>
      hooked_eq_ok ok ▸ dropped _ 9 minusInfinity (by decide) (by decide)⟩
  · split
    · rename_i failure failed
      refine ⟨?_, by simp⟩
      intro isRecursion
      rw [Except.error.injEq] at isRecursion
      exact number (isRecursion ▸ failed)
    · rename_i scalar after scanned
      refine ⟨by simp, fun value rest ok => ?_⟩
      simp only [Except.ok.injEq, Prod.mk.injEq] at ok
      exact ok.2 ▸ scanNumber_length scanned

/-- What a scanner returns is shorter than what it was given, and it does not
run out of a budget that suits the length of its input. -/
structure WithinBudget
    {α : Type}
    (scan : Str → Except LoadError (α × Str))
    (Enough : Nat → Prop) : Prop where
  shorter : ∀ {text value rest}, scan text = .ok (value, rest) → rest.length < text.length
  completes : ∀ text, Enough text.length → scan text ≠ .error .recursionError

section Budget

variable
    {floats : FloatText}
    {hooks : Hooks}
    {depth : Nat}

theorem scanOnce_withinBudget
    (items : WithinBudget (scanItems floats hooks depth) fun size => 2 * size + 2 ≤ depth)
    (members : WithinBudget (scanMembers floats hooks depth) fun size => 2 * size + 2 ≤ depth) :
    WithinBudget (scanOnce floats hooks (depth + 1)) fun size => 2 * size + 1 ≤ depth + 1 := by
  constructor
  · intro text value rest scanned
    cases text with
    | nil => simp [scanOnce] at scanned
    | cons c text =>
        have skipped := skipWhitespace_length text
        rw [List.length_cons]
        unfold scanOnce at scanned
        split_ifs at scanned
        · split at scanned
          · contradiction
          · rename_i content after isString
            simp only [Except.ok.injEq, Prod.mk.injEq] at scanned
            have shorter := scanString_length isString
            rw [← scanned.2]
            omega
        · split at scanned
          · contradiction
          · rename_i d tail isTail
            rw [isTail, List.length_cons] at skipped
            split_ifs at scanned
            · rw [← hooked_eq_ok scanned]
              omega
            · split at scanned
              · contradiction
              · rename_i found after isFound
                have shorter := members.shorter isFound
                rw [List.length_cons] at shorter
                rw [← hooked_eq_ok scanned]
                omega
        · split at scanned
          · contradiction
          · rename_i d tail isTail
            rw [isTail, List.length_cons] at skipped
            split_ifs at scanned
            · simp only [Except.ok.injEq, Prod.mk.injEq] at scanned
              rw [← scanned.2]
              omega
            · split at scanned
              · contradiction
              · rename_i found after isFound
                have shorter := items.shorter isFound
                rw [List.length_cons] at shorter
                simp only [Except.ok.injEq, Prod.mk.injEq] at scanned
                rw [← scanned.2]
                omega
        · exact (scanLiteral_spec floats hooks _).2 _ _ scanned
  · intro text enough
    cases text with
    | nil => simp [scanOnce]
    | cons c text =>
        have skipped := skipWhitespace_length text
        rw [List.length_cons] at enough
        unfold scanOnce
        split_ifs
        · split <;> simp
        · split
          · simp
          · rename_i d tail isTail
            rw [isTail, List.length_cons] at skipped
            split_ifs
            · exact hooked_ne_recursionError _ _
            · have completes := members.completes (d :: tail)
                (by rw [List.length_cons]; omega)
              split
              · rename_i failure isFailure
                rw [isFailure] at completes
                exact fun isRecursion => completes (by simpa using isRecursion)
              · exact hooked_ne_recursionError _ _
        · split
          · simp
          · rename_i d tail isTail
            rw [isTail, List.length_cons] at skipped
            split_ifs
            · simp
            · have completes := items.completes (d :: tail)
                (by rw [List.length_cons]; omega)
              split
              · rename_i failure isFailure
                rw [isFailure] at completes
                exact fun isRecursion => completes (by simpa using isRecursion)
              · simp
        · exact (scanLiteral_spec floats hooks _).1

theorem scanItems_withinBudget
    (once : WithinBudget (scanOnce floats hooks depth) fun size => 2 * size + 1 ≤ depth)
    (items : WithinBudget (scanItems floats hooks depth) fun size => 2 * size + 2 ≤ depth) :
    WithinBudget (scanItems floats hooks (depth + 1)) fun size => 2 * size + 2 ≤ depth + 1 := by
  constructor
  · intro text value rest scanned
    unfold scanItems at scanned
    split at scanned
    · contradiction
    · rename_i item after isItem
      have first := once.shorter isItem
      have skipped := skipWhitespace_length after
      split at scanned
      · contradiction
      · rename_i c tail isTail
        rw [isTail, List.length_cons] at skipped
        split_ifs at scanned
        · simp only [Except.ok.injEq, Prod.mk.injEq] at scanned
          rw [← scanned.2]
          omega
        · split at scanned
          · contradiction
          · rename_i others last isOthers
            have shorter := items.shorter isOthers
            have skippedTail := skipWhitespace_length tail
            simp only [Except.ok.injEq, Prod.mk.injEq] at scanned
            rw [← scanned.2]
            omega
  · intro text enough
    have completes := once.completes text (by omega)
    unfold scanItems
    split
    · rename_i failure isFailure
      rw [isFailure] at completes
      exact fun isRecursion => completes (by simpa using isRecursion)
    · rename_i item after isItem
      have first := once.shorter isItem
      have skipped := skipWhitespace_length after
      split
      · simp
      · rename_i c tail isTail
        rw [isTail, List.length_cons] at skipped
        have skippedTail := skipWhitespace_length tail
        have remaining := items.completes (skipWhitespace tail) (by omega)
        split_ifs
        · simp
        · split
          · rename_i failure isFailure
            rw [isFailure] at remaining
            exact fun isRecursion => remaining (by simpa using isRecursion)
          · simp
        · simp

theorem scanMembers_withinBudget
    (once : WithinBudget (scanOnce floats hooks depth) fun size => 2 * size + 1 ≤ depth)
    (members : WithinBudget (scanMembers floats hooks depth) fun size => 2 * size + 2 ≤ depth) :
    WithinBudget (scanMembers floats hooks (depth + 1)) fun size => 2 * size + 2 ≤ depth + 1 := by
  constructor
  · intro text value rest scanned
    cases text with
    | nil => simp [scanMembers] at scanned
    | cons quote text =>
        rw [List.length_cons]
        unfold scanMembers at scanned
        split_ifs at scanned
        split at scanned
        · contradiction
        · rename_i key afterKey isKey
          have keyLength := scanString_length isKey
          have skippedKey := skipWhitespace_length afterKey
          split at scanned
          · contradiction
          · rename_i colon afterColon isColon
            rw [isColon, List.length_cons] at skippedKey
            have skippedColon := skipWhitespace_length afterColon
            split_ifs at scanned
            split at scanned
            · contradiction
            · rename_i content after isContent
              have contentLength := once.shorter isContent
              have skipped := skipWhitespace_length after
              split at scanned
              · contradiction
              · rename_i c tail isTail
                rw [isTail, List.length_cons] at skipped
                split_ifs at scanned
                · simp only [Except.ok.injEq, Prod.mk.injEq] at scanned
                  rw [← scanned.2]
                  omega
                · split at scanned
                  · contradiction
                  · rename_i others last isOthers
                    have shorter := members.shorter isOthers
                    have skippedTail := skipWhitespace_length tail
                    simp only [Except.ok.injEq, Prod.mk.injEq] at scanned
                    rw [← scanned.2]
                    omega
  · intro text enough
    cases text with
    | nil => simp [scanMembers]
    | cons quote text =>
        rw [List.length_cons] at enough
        unfold scanMembers
        split_ifs
        · simp
        · split
          · simp
          · rename_i key afterKey isKey
            have keyLength := scanString_length isKey
            have skippedKey := skipWhitespace_length afterKey
            split
            · simp
            · rename_i colon afterColon isColon
              rw [isColon, List.length_cons] at skippedKey
              have skippedColon := skipWhitespace_length afterColon
              have completes := once.completes (skipWhitespace afterColon) (by omega)
              split_ifs
              · simp
              · split
                · rename_i failure isFailure
                  rw [isFailure] at completes
                  exact fun isRecursion => completes (by simpa using isRecursion)
                · rename_i content after isContent
                  have contentLength := once.shorter isContent
                  have skipped := skipWhitespace_length after
                  split
                  · simp
                  · rename_i c tail isTail
                    rw [isTail, List.length_cons] at skipped
                    have skippedTail := skipWhitespace_length tail
                    have remaining := members.completes (skipWhitespace tail)
                      (by omega)
                    split_ifs
                    · simp
                    · split
                      · rename_i failure isFailure
                        rw [isFailure] at remaining
                        exact fun isRecursion => remaining (by simpa using isRecursion)
                      · simp
                    · simp

/-- Each of the three procedures stays within a budget linear in the length. -/
theorem scan_withinBudget (depth : Nat) :
    WithinBudget (scanOnce floats hooks depth) (fun size => 2 * size + 1 ≤ depth) ∧
    WithinBudget (scanItems floats hooks depth) (fun size => 2 * size + 2 ≤ depth) ∧
    WithinBudget (scanMembers floats hooks depth) (fun size => 2 * size + 2 ≤ depth) := by
  induction depth with
  | zero =>
      refine ⟨⟨?_, ?_⟩, ⟨?_, ?_⟩, ⟨?_, ?_⟩⟩
      all_goals simp [scanOnce, scanItems, scanMembers]
  | succ depth inductionHypothesis =>
      obtain ⟨once, items, members⟩ := inductionHypothesis
      exact ⟨scanOnce_withinBudget items members, scanItems_withinBudget once items,
        scanMembers_withinBudget once members⟩

/-- `json.loads` never runs out of its budget. -/
theorem loads_ne_recursionError (text : Str) :
    loads floats hooks text ≠ .error .recursionError := by
  have skipped := skipWhitespace_length text
  have completes : scanOnce floats hooks (scanBudget text) (skipWhitespace text) ≠
      .error .recursionError :=
    (scan_withinBudget (scanBudget text)).1.completes _ (by rw [scanBudget]; omega)
  unfold loads
  split_ifs
  · simp
  · split
    · rename_i failure isFailure
      rw [isFailure] at completes
      exact fun isRecursion => completes (by simpa using isRecursion)
    · split <;> simp

end Budget

end Json
end SigmaForge
