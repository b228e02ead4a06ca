import SigmaForge.Detection.Condition.WellFormed

/-!
# How deep the calls of the condition parser nest

An opening parenthesis nests three calls and a `not` one.  The check of the parentheses
bounds the former, and the length of the text the latter.
-/

namespace SigmaForge
namespace Detection

open Text Scanner SepBy

/-- `_well_formed_boolean_condition`, when the calls of its parser may nest this deep. -/
def wellFormedWithin (depth : Nat) (condition : Str) : Except Stop Bool :=
  let expression := beforeFirst (chr '|') condition
  if withinNesting 0 expression = false then .ok false
  else
    let found := finditer conditionTokens expression
    if found.1.isEmpty then .ok false
    else if found.1.any fun token => !(strip token.skipped).isEmpty then .ok false
    else if !(strip found.2).isEmpty then .ok false
    else if (windows found.1).any concatenatedQuantifier then .ok false
    else
      match disjunction depth found.1 with
      | .ok rest => .ok rest.isEmpty
      | .error .rejected => .ok false
      | .error .recursionError => .error .recursionError

/-! ## Larger budgets -/

/-- A larger budget of nested calls changes nothing but the lack of it. -/
theorem parser_succ (depth : Nat) :
    AgreesUnless .recursionError (atom depth) (atom (depth + 1)) ∧
      AgreesUnless .recursionError (conjunction depth) (conjunction (depth + 1)) ∧
      AgreesUnless .recursionError (disjunction depth) (disjunction (depth + 1)) := by
  induction depth with
  | zero => exact ⟨fun _ => .inl rfl, fun _ => .inl rfl, fun _ => .inl rfl⟩
  | succ depth inductionHypothesis =>
      obtain ⟨atomAgrees, conjunctionAgrees, disjunctionAgrees⟩ := inductionHypothesis
      refine ⟨?_, atomAgrees.sepBy1, conjunctionAgrees.sepBy1⟩
      intro tokens
      cases tokens with
      | nil => exact .inr rfl
      | cons token rest =>
          by_cases isNot : lower token.group = lit "not"
          · simp only [atom, if_pos isNot]
            exact atomAgrees rest
          · by_cases isOpening : token.group = lit "("
            · simp only [atom, if_neg isNot, if_pos isOpening]
              rcases disjunctionAgrees rest with isFailure | same
              · exact .inl (by rw [isFailure])
              · exact .inr (by rw [same])
            · right
              simp only [atom, if_neg isNot, if_neg isOpening]

theorem disjunction_of_le
    {depth depth' : Nat}
    (isLarger : depth ≤ depth')
    {tokens : List Match}
    (isEnough : disjunction depth tokens ≠ .error .recursionError) :
    disjunction depth' tokens = disjunction depth tokens := by
  induction isLarger with
  | refl => rfl
  | @step depth' _ inductionHypothesis =>
      rcases (parser_succ depth').2.2 tokens with isFailure | same
      · exact absurd (inductionHypothesis.symm.trans isFailure) isEnough
      · exact same.trans inductionHypothesis

/-! ## Places in a text -/

/-- The tokens go on inside of so many parentheses, in a text that passes the check of the
parentheses. -/
structure Inside (nesting : Nat) (tail : Str) (tokens : List Match) : Prop where
  isBounded : nesting ≤ maxConditionNesting
  blank : ∀ token ∈ tokens, Blank token.skipped
  nests : withinNesting nesting (render tokens tail) = true

section Places

variable
    {nesting : Nat}
    {tail : Str}
    {token : Match}
    {rest : List Match}

theorem length_render_cons (token : Match) (rest : List Match) (tail : Str) :
    (render (token :: rest) tail).length =
      token.skipped.length + token.group.length + (render rest tail).length := by
  simp [render, Nat.add_assoc]

theorem length_render_append_le (first rest : List Match) (tail : Str) :
    (render rest tail).length ≤ (render (first ++ rest) tail).length := by
  induction first with
  | nil => exact Nat.le_refl _
  | cons token first inductionHypothesis =>
      rw [List.cons_append, length_render_cons]
      omega

/-- Behind a word, nothing has changed. -/
theorem Inside.of_word
    (inside : Inside nesting tail (token :: rest))
    (isWord : IsWord token.group) :
    Inside nesting tail rest where
  isBounded := inside.isBounded
  blank other isOther := inside.blank other (List.mem_cons_of_mem _ isOther)
  nests := by
    have isToken := withinNesting_token nesting (inside.blank token List.mem_cons_self)
      isWord.flat rest tail
    rw [← isToken]
    exact inside.nests

/-- Behind an opening parenthesis, there is one more of them. -/
theorem Inside.of_opening
    (inside : Inside nesting tail (token :: rest))
    (isOpening : token.group = lit "(") :
    Inside (nesting + 1) tail rest := by
  have opened : withinNesting nesting (render (token :: rest) tail) =
      if nesting + 1 > maxConditionNesting then false
      else withinNesting (nesting + 1) (render rest tail) := by
    simp only [render, List.foldr_cons]
    rw [withinNesting_flat nesting (inside.blank token List.mem_cons_self).flat, isOpening]
    rfl
  have nests := opened.symm.trans inside.nests
  split_ifs at nests with tooDeep
  exact ⟨Nat.le_of_not_lt tooDeep,
    fun other isOther => inside.blank other (List.mem_cons_of_mem _ isOther), nests⟩

/-- Behind an item and an operator, the place is in the same parentheses. -/
theorem Inside.of_item
    {level : Level}
    {consumed : List Match}
    {operator : Match}
    (isItem : Language level consumed)
    (isWord : IsWord operator.group)
    (inside : Inside nesting tail (consumed ++ operator :: rest)) :
    Inside nesting tail rest := by
  obtain ⟨tree, derives⟩ := isItem
  have nests := inside.nests
  rw [derives.withinNesting_append (fun other isOther =>
    inside.blank other (List.mem_append_left _ isOther)) nesting inside.isBounded,
    Bool.and_eq_true] at nests
  have behind : Inside nesting tail (operator :: rest) := ⟨inside.isBounded,
    fun other isOther => inside.blank other (List.mem_append_right _ isOther), nests.2⟩
  exact behind.of_word isWord

end Places

/-! ## The bound -/

/-- How deep calls nest at a place: three for each parenthesis that may still be opened, one
for each three letters of the remaining text, and those that the procedure needs itself. -/
def nestedCalls (nesting : Nat) (tail : Str) (tokens : List Match) (own : Nat) : Nat :=
  3 * (maxConditionNesting - nesting) + (render tokens tail).length / 3 + own

/-- The budget suffices for a procedure at every place that has it. -/
def Suffices (depth own : Nat) (procedure : List Match → Except Stop (List Match)) : Prop :=
  ∀ nesting tail tokens, Inside nesting tail tokens →
    nestedCalls nesting tail tokens own ≤ depth → procedure tokens ≠ .error .recursionError

/-- If the budget suffices for the items of a list, it suffices for the list. -/
theorem Suffices.sepBy1
    {depth own : Nat}
    {level : Level}
    {keyword : Str}
    {item : List Match → Except Stop (List Match)}
    (sound : Sound item (Language level))
    (isKeyword' : keyword ∈ conditionKeywords)
    (enough : Suffices depth own item) :
    Suffices (depth + 1) (own + 1) (sepBy1 (isKeyword keyword) item) := by
  intro nesting tail tokens inside within failed
  obtain ⟨remaining, ⟨isInside, isWithin⟩, isFailure⟩ := sepBy1_error sound
    (fun remaining => Inside nesting tail remaining ∧
      nestedCalls nesting tail remaining own ≤ depth)
    (by
      rintro consumed operator rest isItem isOperator ⟨isInside, isWithin⟩
      have isWord : IsWord operator.group :=
        isWord_of_keyword ((isKeyword_iff keyword operator).mp isOperator ▸ isKeyword')
      refine ⟨isInside.of_item isItem isWord, ?_⟩
      have isShorter := length_render_append_le (consumed ++ [operator]) rest tail
      rw [List.append_assoc, List.singleton_append] at isShorter
      unfold nestedCalls at isWithin ⊢
      omega)
    ⟨inside, Nat.le_of_succ_le_succ within⟩ failed
  exact enough nesting tail remaining isInside isWithin isFailure

/-- One more call suffices for `atom`. -/
theorem suffices_atom
    {depth : Nat}
    (atomEnough : Suffices depth 1 (atom depth))
    (disjunctionEnough : Suffices depth 3 (disjunction depth)) :
    Suffices (depth + 1) 1 (atom (depth + 1)) := by
  intro nesting tail tokens inside within failed
  cases tokens with
  | nil => simp [atom] at failed
  | cons token rest =>
      unfold nestedCalls at within
      rw [length_render_cons] at within
      simp only [atom] at failed
      split at failed
      · -- a `not` takes three letters
        rename_i isNot
        have isWord : IsWord token.group :=
          isWord_of_keyword (by simp [isNot, conditionKeywords])
        have isLong : token.group.length = 3 := by
          have sameLength := congrArg List.length isNot
          rw [lower, List.length_map] at sameLength
          exact sameLength
        refine atomEnough nesting tail rest (inside.of_word isWord) ?_ failed
        unfold nestedCalls
        omega
      split at failed
      · -- a parenthesis takes one of those that may still be opened
        rename_i isOpening
        have isInside := inside.of_opening isOpening
        have isBounded := isInside.isBounded
        have isEnough : disjunction depth rest ≠ .error .recursionError := by
          refine disjunctionEnough (nesting + 1) tail rest isInside ?_
          unfold nestedCalls
          omega
        split at failed
        · rename_i failure isFailure
          rw [Except.error.inj failed] at isFailure
          exact isEnough isFailure
        · simp at failed
        · split at failed <;> simp at failed
      split at failed
      · split at failed
        · simp at failed
        · split at failed
          · split at failed
            · simp at failed
            · split at failed <;> simp at failed
          · simp at failed
      split at failed
      · simp at failed
      · split at failed <;> simp at failed

theorem parser_suffices (depth : Nat) :
    Suffices depth 1 (atom depth) ∧ Suffices depth 2 (conjunction depth) ∧
      Suffices depth 3 (disjunction depth) := by
  induction depth with
  | zero =>
      refine ⟨?_, ?_, ?_⟩ <;>
      · intro nesting tail tokens _ impossible
        unfold nestedCalls at impossible
        omega
  | succ depth inductionHypothesis =>
      obtain ⟨atomEnough, conjunctionEnough, disjunctionEnough⟩ := inductionHypothesis
      obtain ⟨atomSound, conjunctionSound, _⟩ := parser_sound depth
      exact ⟨suffices_atom atomEnough disjunctionEnough,
        atomEnough.sepBy1 atomSound (by simp [conditionKeywords]),
        conjunctionEnough.sepBy1 conjunctionSound (by simp [conditionKeywords])⟩

theorem length_beforeFirst_le (sep : CodePoint) (text : Str) :
    (beforeFirst sep text).length ≤ text.length :=
  (List.takeWhile_sublist _).length_le

/-- The unbounded parser, on the tokens of a short text. -/
theorem disjunction_eq_of_short
    {tail : Str}
    {tokens : List Match}
    (inside : Inside 0 tail tokens)
    (isShort : (render tokens tail).length ≤ 512)
    {depth : Nat}
    (enough : 400 ≤ depth) :
    disjunction depth tokens = disjunction (callBudget tokens) tokens := by
  have isEnough : disjunction 400 tokens ≠ .error .recursionError := by
    refine (parser_suffices 400).2.2 0 tail tokens inside ?_
    unfold nestedCalls maxConditionNesting
    omega
  have isUnbounded : disjunction (callBudget tokens) tokens ≠ .error .recursionError :=
    (parser_within_budget (callBudget tokens)).2.2 tokens (Nat.le_refl _)
  calc disjunction depth tokens
      = disjunction 400 tokens := disjunction_of_le enough isEnough
    _ = disjunction (max 400 (callBudget tokens)) tokens :=
        (disjunction_of_le (Nat.le_max_left _ _) isEnough).symm
    _ = disjunction (callBudget tokens) tokens :=
        disjunction_of_le (Nat.le_max_right _ _) isUnbounded

/-- On a condition that is short enough to be checked, the calls of the parser nest at most
400 deep: this budget, and each larger one, gives the answer of the unbounded parser. -/
theorem wellFormedWithin_eq
    {condition : Str}
    (isShort : condition.length ≤ 512)
    {depth : Nat}
    (enough : 400 ≤ depth) :
    wellFormedWithin depth condition = .ok (wellFormedBooleanCondition condition) := by
  have isText := render_eq_of_tokenizes
    (finditer_tokenizes conditionTokens (beforeFirst (chr '|') condition))
  have isShorter := length_beforeFirst_le (chr '|') condition
  unfold wellFormedWithin wellFormedBooleanCondition
  dsimp only
  generalize beforeFirst (chr '|') condition = expression at isText isShorter ⊢
  generalize finditer conditionTokens expression = found at isText ⊢
  obtain ⟨tokens, tail⟩ := found
  dsimp only at isText ⊢
  split_ifs with unbalanced noTokens notBlank notBlankTail concatenated
  · rfl
  · rfl
  · rfl
  · rfl
  · rfl
  · have blank : ∀ token ∈ tokens, Blank token.skipped := by
      simpa [Blank, ← strip_eq_nil_iff] using notBlank
    have inside : Inside 0 tail tokens :=
      ⟨Nat.zero_le _, blank, by simpa [isText] using unbalanced⟩
    have isUnbounded : disjunction (callBudget tokens) tokens ≠ .error .recursionError :=
      (parser_within_budget (callBudget tokens)).2.2 tokens (Nat.le_refl _)
    rw [disjunction_eq_of_short inside (by rw [isText]; omega) enough]
    unfold parsesAll
    cases parsed : disjunction (callBudget tokens) tokens with
    | ok rest => cases rest <;> rfl
    | error failure =>
        cases failure with
        | rejected => rfl
        | recursionError => exact absurd parsed isUnbounded

/-- A mixture of `not` and parentheses. -/
def nestedNots : Str :=
  (List.replicate 56 (lit "not(not ")).flatten ++ lit "a" ++ List.replicate 56 (chr ')')

theorem nestedNots_within :
    wellFormedWithin 400 nestedNots = .ok (wellFormedBooleanCondition nestedNots) :=
  wellFormedWithin_eq (by decide +kernel) (Nat.le_refl _)

end Detection
end SigmaForge
