import SigmaForge.Detection.Condition.Syntax
import Mathlib.Tactic.Basic

/-!
# The grammar of rule conditions

The declarative grammar `E := T ('or' T)*`, `T := F ('and' F)*`,
`F := 'not' F | '(' E ')' | ('all' | number) 'of' word | name` over matches of
the scanner, with the trees it derives, and the proof that the recursive
descent of the source recognizes it.
-/

namespace SigmaForge
namespace Detection

open Text Scanner SepBy

/-- A word `[A-Za-z][A-Za-z0-9_*]*`. -/
def IsWord (token : Str) : Prop :=
  ∃ c body, token = c :: body ∧ isLetter c = true ∧ ∀ d ∈ body, isWordChar d = true

/-- The quantity of a quantifier: `all`, or a number of at least one. -/
def IsQuantity (token : Str) : Prop :=
  lower token = lit "all" ∨ (isdigit token = true ∧ 1 ≤ int token)

/-- A selector name: a word without `*` that is not a keyword. -/
def IsName (token : Str) : Prop :=
  IsWord token ∧ chr '*' ∉ token ∧ lower token ∉ conditionKeywords

/-- A parse tree of a condition. -/
inductive Condition
  | selector (name : Match)
  | quantifier (quantity operator target : Match)
  | not (body : Condition)
  | group (body : Condition)
  | and (left right : Condition)
  | or (left right : Condition)

/-- The levels of the grammar: `E`, `T` and `F`. -/
inductive Level
  | disjunction
  | conjunction
  | atom

/-- The tokens derive the tree at the given level.  The starred productions are
unrolled from the left: `E := T | T 'or' E` and `T := F | F 'and' T`. -/
inductive Derives : Level → List Match → Condition → Prop
  | term {tokens : List Match} {tree : Condition} :
      Derives .conjunction tokens tree → Derives .disjunction tokens tree
  | or {left right : List Match} {operator : Match} {leftTree rightTree : Condition} :
      Derives .conjunction left leftTree → lower operator.group = lit "or" →
      Derives .disjunction right rightTree →
      Derives .disjunction (left ++ operator :: right) (.or leftTree rightTree)
  | factor {tokens : List Match} {tree : Condition} :
      Derives .atom tokens tree → Derives .conjunction tokens tree
  | and {left right : List Match} {operator : Match} {leftTree rightTree : Condition} :
      Derives .atom left leftTree → lower operator.group = lit "and" →
      Derives .conjunction right rightTree →
      Derives .conjunction (left ++ operator :: right) (.and leftTree rightTree)
  | not {operator : Match} {tokens : List Match} {tree : Condition} :
      lower operator.group = lit "not" → Derives .atom tokens tree →
      Derives .atom (operator :: tokens) (.not tree)
  | group {opening closing : Match} {tokens : List Match} {tree : Condition} :
      opening.group = lit "(" → Derives .disjunction tokens tree →
      closing.group = lit ")" →
      Derives .atom (opening :: (tokens ++ [closing])) (.group tree)
  | quantifier {quantity operator target : Match} :
      IsQuantity quantity.group → lower operator.group = lit "of" →
      IsWord target.group →
      Derives .atom [quantity, operator, target] (.quantifier quantity operator target)
  | selector {name : Match} :
      IsName name.group → Derives .atom [name] (.selector name)

/-! ## What the character tests of the parser mean -/

theorem conditionPattern_iff (token : Str) :
    conditionPattern token = true ↔ IsWord token := by
  cases token with
  | nil => simp [conditionPattern, IsWord]
  | cons c body => simp [conditionPattern, IsWord]

theorem selectorName_iff (token : Str) :
    selectorName token = true ↔ IsWord token ∧ chr '*' ∉ token := by
  have starNotLetter : isLetter (chr '*') = false := by decide
  have starNotName : isNameChar (chr '*') = false := by decide
  cases token with
  | nil => simp [selectorName, IsWord]
  | cons c body =>
      constructor
      · intro named
        simp only [selectorName, Bool.and_eq_true, List.all_eq_true] at named
        obtain ⟨letter, names⟩ := named
        refine ⟨⟨c, body, rfl, letter, fun d member => ?_⟩, ?_⟩
        · simp [isWordChar, names d member]
        · intro starMember
          rcases List.mem_cons.mp starMember with isFirst | inBody
          · rw [isFirst, letter] at starNotLetter
            contradiction
          · rw [names _ inBody] at starNotName
            contradiction
      · rintro ⟨⟨c', body', equal, letter, words⟩, noStar⟩
        obtain ⟨rfl, rfl⟩ := List.cons.inj equal
        simp only [selectorName, Bool.and_eq_true, List.all_eq_true]
        refine ⟨letter, fun d member => ?_⟩
        have isWordOrStar := words d member
        simp only [isWordChar, Bool.or_eq_true, beq_iff_eq] at isWordOrStar
        rcases isWordOrStar with isName | isStar
        · exact isName
        · exact absurd (isStar ▸ List.mem_cons_of_mem c member) noStar

/-- A word is not a number. -/
theorem IsWord.not_isdigit {token : Str} (isWord : IsWord token) :
    isdigit token = false := by
  obtain ⟨c, body, rfl, letter, _⟩ := isWord
  simp [isdigit, isLetter_not_isDigit letter]

/-- A word is no parenthesis. -/
theorem IsWord.ne_parenthesis {token : Str} (isWord : IsWord token) :
    token ≠ lit "(" ∧ token ≠ lit ")" := by
  obtain ⟨c, body, rfl, letter, _⟩ := isWord
  constructor <;>
  · intro equal
    have isFirst := (List.cons.inj equal).1
    rw [isFirst] at letter
    revert letter
    decide

/-- A keyword, in any case, is a word. -/
theorem isWord_of_keyword
    {token : Str}
    (keyword : lower token ∈ conditionKeywords) :
    IsWord token := by
  have letters : conditionKeywords.all
      (fun word => !word.isEmpty && word.all isLetter) = true := by
    decide +kernel
  have isLetters := List.all_eq_true.mp letters _ keyword
  cases token with
  | nil => simp [lower] at isLetters
  | cons c body =>
      simp only [Bool.and_eq_true, List.all_eq_true] at isLetters
      replace isLetters : ∀ d ∈ c :: body, isLetter d = true := fun d member =>
        isLetter_of_lowerChar (isLetters.2 _ (List.mem_map_of_mem member))
      exact ⟨c, body, rfl, isLetters c List.mem_cons_self, fun d member => by
        simp [isWordChar, isNameChar, isLetters d (List.mem_cons_of_mem c member)]⟩

theorem isKeyword_iff (keyword : Str) (token : Match) :
    isKeyword keyword token = true ↔ lower token.group = keyword := by
  simp [isKeyword]

/-! ## Soundness -/

/-- The token lists of one level. -/
def Language (level : Level) (tokens : List Match) : Prop :=
  ∃ tree, Derives level tokens tree

theorem SepBy1.language_conjunction
    {tokens : List Match}
    (isList : SepBy1 (Language .atom) (isKeyword (lit "and")) tokens) :
    Language .conjunction tokens := by
  induction isList with
  | last isItem =>
      obtain ⟨tree, derives⟩ := isItem
      exact ⟨tree, .factor derives⟩
  | more isItem isSep _ inductionHypothesis =>
      obtain ⟨left, leftDerives⟩ := isItem
      obtain ⟨right, rightDerives⟩ := inductionHypothesis
      exact ⟨.and left right,
        .and leftDerives ((isKeyword_iff _ _).mp isSep) rightDerives⟩

theorem SepBy1.language_disjunction
    {tokens : List Match}
    (isList : SepBy1 (Language .conjunction) (isKeyword (lit "or")) tokens) :
    Language .disjunction tokens := by
  induction isList with
  | last isItem =>
      obtain ⟨tree, derives⟩ := isItem
      exact ⟨tree, .term derives⟩
  | more isItem isSep _ inductionHypothesis =>
      obtain ⟨left, leftDerives⟩ := isItem
      obtain ⟨right, rightDerives⟩ := inductionHypothesis
      exact ⟨.or left right,
        .or leftDerives ((isKeyword_iff _ _).mp isSep) rightDerives⟩

/-- The three procedures consume only what the grammar derives. -/
theorem parser_sound (depth : Nat) :
    Sound (atom depth) (Language .atom) ∧
      Sound (conjunction depth) (Language .conjunction) ∧
      Sound (disjunction depth) (Language .disjunction) := by
  induction depth with
  | zero =>
      refine ⟨?_, ?_, ?_⟩ <;>
      · intro tokens rest parsed
        simp [atom, conjunction, disjunction] at parsed
  | succ depth inductionHypothesis =>
      obtain ⟨atomSound, conjunctionSound, disjunctionSound⟩ := inductionHypothesis
      refine ⟨?_, ?_, ?_⟩
      · intro tokens rest parsed
        cases tokens with
        | nil => simp [atom] at parsed
        | cons token remaining =>
            simp only [atom] at parsed
            split at parsed
            · rename_i isNot
              obtain ⟨consumed, split, tree, derives⟩ := atomSound _ _ parsed
              exact ⟨token :: consumed, by simp [split], .not tree, .not isNot derives⟩
            split at parsed
            · rename_i isOpening
              split at parsed
              · contradiction
              · contradiction
              · rename_i closing after inner
                split at parsed
                · rename_i isClosing
                  obtain ⟨consumed, split, tree, derives⟩ := disjunctionSound _ _ inner
                  simp only [Except.ok.injEq] at parsed
                  exact ⟨token :: (consumed ++ [closing]), by simp [split, parsed],
                    .group tree, .group isOpening derives isClosing⟩
                · contradiction
            split at parsed
            · rename_i isQuantity
              split at parsed
              · contradiction
              · rename_i notZero
                split at parsed
                · rename_i operator target after
                  split at parsed
                  · contradiction
                  · rename_i isOf
                    split at parsed
                    · rename_i isTarget
                      simp only [Except.ok.injEq] at parsed
                      have word : IsWord target.group := by
                        rcases isTarget with isThem | isPattern
                        · exact isWord_of_keyword (by simp [isThem, conditionKeywords])
                        · exact (conditionPattern_iff _).mp isPattern
                      refine ⟨[token, operator, target], by simp [parsed], _,
                        .quantifier ?_ (not_not.mp isOf) word⟩
                      rcases isQuantity with isAll | isNumber
                      · exact .inl isAll
                      · right
                        refine ⟨isNumber, ?_⟩
                        by_contra tooSmall
                        exact notZero ⟨isNumber, by omega⟩
                    · contradiction
                · contradiction
            split at parsed
            · contradiction
            · rename_i notReserved
              split at parsed
              · rename_i isSelector
                simp only [Except.ok.injEq] at parsed
                obtain ⟨isWord, noStar⟩ := (selectorName_iff _).mp isSelector
                exact ⟨[token], by simp [parsed], _, .selector
                  ⟨isWord, noStar, fun keyword => notReserved (.inl keyword)⟩⟩
              · contradiction
      · intro tokens rest parsed
        obtain ⟨consumed, split, isList⟩ := sepBy1_sound atomSound tokens rest parsed
        exact ⟨consumed, split, SepBy1.language_conjunction isList⟩
      · intro tokens rest parsed
        obtain ⟨consumed, split, isList⟩ := sepBy1_sound conjunctionSound tokens rest parsed
        exact ⟨consumed, split, SepBy1.language_disjunction isList⟩

/-! ## Completeness -/

theorem Derives.ne_nil
    {level : Level}
    {tokens : List Match}
    {tree : Condition}
    (derives : Derives level tokens tree) :
    tokens ≠ [] := by
  induction derives with
  | term _ inductionHypothesis => exact inductionHypothesis
  | factor _ inductionHypothesis => exact inductionHypothesis
  | or => simp
  | and => simp
  | not => simp
  | group => simp
  | quantifier => simp
  | selector => simp

/-- The token lists of one level that are no longer than a bound. -/
def BoundedLanguage (level : Level) (bound : Nat) (tokens : List Match) : Prop :=
  Language level tokens ∧ tokens.length ≤ bound

theorem Derives.sepBy1_conjunction
    {level : Level}
    {tokens : List Match}
    {tree : Condition}
    (derives : Derives level tokens tree)
    (isConjunction : level = .conjunction)
    (bound : Nat)
    (bounded : tokens.length ≤ bound) :
    SepBy1 (BoundedLanguage .atom bound) (isKeyword (lit "and")) tokens := by
  induction derives with
  | factor factor => exact .last ⟨⟨_, factor⟩, bounded⟩
  | and left isAnd _ _ inductionHypothesis =>
      simp only [List.length_append, List.length_cons] at bounded
      exact .more ⟨⟨_, left⟩, by omega⟩ ((isKeyword_iff _ _).mpr isAnd)
        (inductionHypothesis rfl (by omega))
  | term => contradiction
  | or => contradiction
  | not => contradiction
  | group => contradiction
  | quantifier => contradiction
  | selector => contradiction

theorem Derives.sepBy1_disjunction
    {level : Level}
    {tokens : List Match}
    {tree : Condition}
    (derives : Derives level tokens tree)
    (isDisjunction : level = .disjunction)
    (bound : Nat)
    (bounded : tokens.length ≤ bound) :
    SepBy1 (BoundedLanguage .conjunction bound) (isKeyword (lit "or")) tokens := by
  induction derives with
  | term term => exact .last ⟨⟨_, term⟩, bounded⟩
  | or left isOr _ _ inductionHypothesis =>
      simp only [List.length_append, List.length_cons] at bounded
      exact .more ⟨⟨_, left⟩, by omega⟩ ((isKeyword_iff _ _).mpr isOr)
        (inductionHypothesis rfl (by omega))
  | factor => contradiction
  | and => contradiction
  | not => contradiction
  | group => contradiction
  | quantifier => contradiction
  | selector => contradiction

/-- A parenthesis is no keyword. -/
theorem lower_parenthesis_not_keyword
    {token : Str}
    (isParenthesis : token = lit "(" ∨ token = lit ")") :
    lower token ∉ conditionKeywords := by
  intro keyword
  obtain ⟨notOpening, notClosing⟩ := (isWord_of_keyword keyword).ne_parenthesis
  rcases isParenthesis with isOpening | isClosing
  · exact notOpening isOpening
  · exact notClosing isClosing

theorem IsQuantity.not_keyword
    {token : Str}
    (isQuantity : IsQuantity token) :
    lower token ≠ lit "not" ∧ token ≠ lit "(" := by
  rcases isQuantity with isAll | ⟨digits, _⟩
  · refine ⟨?_, ?_⟩
    · rw [isAll]
      decide
    · exact (isWord_of_keyword (by simp [isAll, conditionKeywords])).ne_parenthesis.1
  · refine ⟨?_, ?_⟩
    · intro isNot
      have isWord : IsWord token := isWord_of_keyword (by simp [isNot, conditionKeywords])
      rw [isWord.not_isdigit] at digits
      contradiction
    · rintro rfl
      revert digits
      decide

/-- One factor is consumed, whatever follows it. -/
private theorem atom_complete
    (depth : Nat)
    (atomComplete : Complete (atom depth)
      (fun tokens => Language .atom tokens ∧ 3 * tokens.length + 1 ≤ depth) fun _ => True)
    (disjunctionComplete : Complete (disjunction depth)
      (fun tokens => Language .disjunction tokens ∧ 3 * tokens.length + 3 ≤ depth)
      fun rest => NotNext (isKeyword (lit "and")) rest ∧
        NotNext (isKeyword (lit "or")) rest) :
    Complete (atom (depth + 1))
      (fun tokens => Language .atom tokens ∧ 3 * tokens.length + 1 ≤ depth + 1)
      fun _ => True := by
  rintro tokens rest ⟨⟨tree, derives⟩, enough⟩ -
  cases derives with
  | @not operator body tree isNot inner =>
      simp only [List.length_cons] at enough
      simp only [List.cons_append, atom, isNot, if_true]
      exact atomComplete body rest ⟨⟨_, inner⟩, by omega⟩ trivial
  | @group opening closing body tree isOpening inner isClosing =>
      simp only [List.length_cons, List.length_append, List.length_nil] at enough
      have notKeyword := lower_parenthesis_not_keyword (.inl isOpening)
      have notNot : lower opening.group ≠ lit "not" := by
        intro isNot
        exact notKeyword (by simp [isNot, conditionKeywords])
      have closingKeyword := lower_parenthesis_not_keyword (.inr isClosing)
      have parsed := disjunctionComplete body (closing :: rest)
        ⟨⟨_, inner⟩, by omega⟩ ⟨?_, ?_⟩
      · rw [isOpening] at notNot
        simp only [List.cons_append, List.append_assoc, List.nil_append, atom, isOpening,
          notNot, if_false, if_true, parsed, isClosing]
      · refine NotNext.cons ?_ rest
        rw [Bool.eq_false_iff, Ne, isKeyword_iff]
        intro isAnd
        exact closingKeyword (by simp [isAnd, conditionKeywords])
      · refine NotNext.cons ?_ rest
        rw [Bool.eq_false_iff, Ne, isKeyword_iff]
        intro isOr
        exact closingKeyword (by simp [isOr, conditionKeywords])
  | @quantifier quantity operator target isQuantity isOf isWord =>
      obtain ⟨notNot, notOpening⟩ := isQuantity.not_keyword
      have enters : lower quantity.group = lit "all" ∨ isdigit quantity.group = true :=
        isQuantity.imp id And.left
      have notZero : ¬(isdigit quantity.group = true ∧ int quantity.group < 1) := by
        rintro ⟨digits, tooSmall⟩
        rcases isQuantity with isAll | ⟨_, positive⟩
        · have allIsWord : IsWord quantity.group :=
            isWord_of_keyword (by simp [isAll, conditionKeywords])
          rw [allIsWord.not_isdigit] at digits
          contradiction
        · omega
      simp only [List.cons_append, List.nil_append, atom, notNot, if_false, notOpening,
        enters, if_true, notZero, isOf, ne_eq, not_true_eq_false,
        (conditionPattern_iff _).mpr isWord, or_true]
  | @selector name isName =>
      obtain ⟨isWord, noStar, notKeyword⟩ := isName
      have notNot : lower name.group ≠ lit "not" := by
        intro isNot
        exact notKeyword (by simp [isNot, conditionKeywords])
      have notQuantity : ¬(lower name.group = lit "all" ∨ isdigit name.group = true) := by
        rintro (isAll | digits)
        · exact notKeyword (by simp [isAll, conditionKeywords])
        · rw [isWord.not_isdigit] at digits
          contradiction
      have notReserved : ¬(lower name.group ∈ conditionKeywords ∨
          name.group = lit ")" ∨ chr '*' ∈ name.group) := by
        rintro (keyword | isClosing | star)
        · exact notKeyword keyword
        · exact isWord.ne_parenthesis.2 isClosing
        · exact noStar star
      simp only [List.cons_append, List.nil_append, atom, notNot, if_false,
        isWord.ne_parenthesis.1, notQuantity, notReserved,
        (selectorName_iff _).mpr ⟨isWord, noStar⟩, if_true]

/-- With enough calls, the three procedures consume everything the grammar
derives, unless the text goes on with an operator of their own level. -/
theorem parser_complete (depth : Nat) :
    Complete (atom depth)
        (fun tokens => Language .atom tokens ∧ 3 * tokens.length + 1 ≤ depth)
        (fun _ => True) ∧
      Complete (conjunction depth)
        (fun tokens => Language .conjunction tokens ∧ 3 * tokens.length + 2 ≤ depth)
        (fun rest => NotNext (isKeyword (lit "and")) rest) ∧
      Complete (disjunction depth)
        (fun tokens => Language .disjunction tokens ∧ 3 * tokens.length + 3 ≤ depth)
        (fun rest => NotNext (isKeyword (lit "and")) rest ∧
          NotNext (isKeyword (lit "or")) rest) := by
  induction depth with
  | zero =>
      refine ⟨?_, ?_, ?_⟩ <;>
      · rintro tokens rest ⟨_, impossible⟩
        omega
  | succ depth inductionHypothesis =>
      obtain ⟨atomComplete, conjunctionComplete, disjunctionComplete⟩ := inductionHypothesis
      obtain ⟨atomSound, conjunctionSound, _⟩ := parser_sound depth
      refine ⟨atom_complete depth atomComplete disjunctionComplete, ?_, ?_⟩
      · rintro tokens rest ⟨⟨tree, derives⟩, enough⟩ stops
        have items : Complete (atom depth)
            (BoundedLanguage .atom tokens.length) fun _ => True := by
          rintro item after ⟨isItem, bounded⟩ -
          exact atomComplete item after ⟨isItem, by omega⟩ trivial
        exact sepBy1_complete atomSound items (fun _ _ _ => trivial) tokens rest
          (derives.sepBy1_conjunction rfl _ (Nat.le_refl _)) ⟨trivial, stops⟩
      · rintro tokens rest ⟨⟨tree, derives⟩, enough⟩ ⟨notAnd, notOr⟩
        have items : Complete (conjunction depth)
            (BoundedLanguage .conjunction tokens.length)
            (fun after => NotNext (isKeyword (lit "and")) after) := by
          rintro item after ⟨isItem, bounded⟩ stops
          exact conjunctionComplete item after ⟨isItem, by omega⟩ stops
        refine sepBy1_complete conjunctionSound items ?_ tokens rest
          (derives.sepBy1_disjunction rfl _ (Nat.le_refl _)) ⟨notAnd, notOr⟩
        intro separator after isOr
        refine NotNext.cons ?_ after
        rw [Bool.eq_false_iff, Ne, isKeyword_iff, (isKeyword_iff _ _).mp isOr]
        decide

/-- The call budget of a token list is never exceeded. -/
theorem parser_within_budget (depth : Nat) :
    (∀ tokens : List Match, 3 * tokens.length + 1 ≤ depth →
        atom depth tokens ≠ .error .recursionError) ∧
      (∀ tokens : List Match, 3 * tokens.length + 2 ≤ depth →
        conjunction depth tokens ≠ .error .recursionError) ∧
      (∀ tokens : List Match, 3 * tokens.length + 3 ≤ depth →
        disjunction depth tokens ≠ .error .recursionError) := by
  induction depth with
  | zero =>
      refine ⟨?_, ?_, ?_⟩ <;>
      · intro tokens impossible
        omega
  | succ depth inductionHypothesis =>
      obtain ⟨atomWithin, conjunctionWithin, disjunctionWithin⟩ := inductionHypothesis
      obtain ⟨atomSound, conjunctionSound, _⟩ := parser_sound depth
      have shorter : ∀ bound (consumed : List Match) operator rest,
          3 * (consumed ++ operator :: rest).length + bound ≤ depth →
          3 * rest.length + bound ≤ depth := by
        intro bound consumed operator rest enough
        simp only [List.length_append, List.length_cons] at enough
        omega
      refine ⟨?_, ?_, ?_⟩
      · intro tokens enough failed
        cases tokens with
        | nil => simp [atom] at failed
        | cons token rest =>
            simp only [List.length_cons] at enough
            simp only [atom] at failed
            split at failed
            · exact atomWithin rest (by omega) failed
            split at failed
            · split at failed
              · rename_i failure inner
                simp only [Except.error.injEq] at failed
                rw [failed] at inner
                exact disjunctionWithin rest (by omega) inner
              · simp at failed
              · split at failed <;> simp at failed
            split at failed
            · split at failed
              · simp at failed
              · split at failed
                · split at failed
                  · simp at failed
                  · split at failed <;> simp at failed
                · simp at failed
            split at failed
            · simp at failed
            · split at failed <;> simp at failed
      · intro tokens enough failed
        obtain ⟨remaining, enough', itemFailed⟩ := sepBy1_error atomSound
          (fun remaining => 3 * remaining.length + 1 ≤ depth)
          (fun consumed operator rest _ _ => shorter 1 consumed operator rest) (by omega) failed
        exact atomWithin remaining enough' itemFailed
      · intro tokens enough failed
        obtain ⟨remaining, enough', itemFailed⟩ := sepBy1_error conjunctionSound
          (fun remaining => 3 * remaining.length + 2 ≤ depth)
          (fun consumed operator rest _ _ => shorter 2 consumed operator rest) (by omega) failed
        exact conjunctionWithin remaining enough' itemFailed

/-- Whatever larger budget of nested calls the parser is given, it accepts
exactly the token lists that the grammar derives. -/
theorem disjunction_eq_ok_nil_iff
    (tokens : List Match)
    (depth : Nat)
    (enough : callBudget tokens ≤ depth) :
    disjunction depth tokens = .ok [] ↔ Language .disjunction tokens := by
  constructor
  · intro parsed
    obtain ⟨consumed, split, derives⟩ := (parser_sound depth).2.2 tokens [] parsed
    simpa [split] using derives
  · intro derives
    have parsed := (parser_complete depth).2.2 tokens [] ⟨derives, enough⟩
      ⟨NotNext.nil _, NotNext.nil _⟩
    simpa using parsed

/-- `disjunction() and index == len(tokens)` decides the grammar. -/
theorem parsesAll_iff (tokens : List Match) :
    parsesAll tokens = true ↔ Language .disjunction tokens := by
  rw [← disjunction_eq_ok_nil_iff tokens (callBudget tokens) (Nat.le_refl _)]
  unfold parsesAll
  split
  · rename_i parsed
    simp [parsed]
  · rename_i notAll
    simp only [Bool.false_eq_true, false_iff]
    exact notAll

end Detection
end SigmaForge
