import SigmaForge.Detection.Condition.Grammar

/-!
# Exactness of the condition check

`_well_formed_boolean_condition` accepts a text exactly if the part before the
first pipe is, white space aside, a sequence of longest-match tokens that the
grammar derives, with separated quantifiers and bounded parentheses.  The
separator check slides over all triples of tokens; on a derivable sequence
those it can reject are the quantifiers of the tree and nothing else.
-/

namespace SigmaForge
namespace Detection

open Text Scanner

namespace Condition

/-- The quantifiers of a tree, from left to right. -/
def quantifiers : Condition → List (Match × Match × Match)
  | .selector _ => []
  | .quantifier quantity operator target => [(quantity, operator, target)]
  | .not body => body.quantifiers
  | .group body => body.quantifiers
  | .and left right => left.quantifiers ++ right.quantifiers
  | .or left right => left.quantifiers ++ right.quantifiers

/-- How deep the parentheses of a tree nest. -/
def nesting : Condition → Nat
  | .selector _ => 0
  | .quantifier _ _ _ => 0
  | .not body => body.nesting
  | .group body => body.nesting + 1
  | .and left right => max left.nesting right.nesting
  | .or left right => max left.nesting right.nesting

/-- Every quantifier has text on both sides of its `of`. -/
def Separated (tree : Condition) : Prop :=
  ∀ quantity operator target, (quantity, operator, target) ∈ tree.quantifiers →
    operator.skipped ≠ [] ∧ target.skipped ≠ []

end Condition

/-! ## Windows -/

/-- A word or number that can stand in front of `of`. -/
def isQuantity (token : Match) : Bool :=
  isdigit token.group || lower token.group == lit "all"

/-- A window whose first two tokens begin a quantifier. -/
def isQuantifierWindow : Match × Match × Match → Bool
  | (first, operator, _) => isQuantity first && lower operator.group == lit "of"

/-- The next token is no `of`. -/
def NotOf (tokens : List Match) : Prop :=
  ∀ token, tokens.head? = some token → lower token.group ≠ lit "of"

theorem NotOf.nil : NotOf [] := by
  intro token isHead
  simp at isHead

theorem NotOf.cons
    {token : Match}
    (different : lower token.group ≠ lit "of")
    (rest : List Match) :
    NotOf (token :: rest) := by
  intro head isHead
  simp only [List.head?_cons, Option.some.injEq] at isHead
  rwa [← isHead]

/-- The quantifier windows of a token list. -/
def quantifierWindows (tokens : List Match) : List (Match × Match × Match) :=
  (windows tokens).filter isQuantifierWindow

/-- No quantifier window starts at a token that is no quantity, or in front of
a token that is no `of`. -/
theorem quantifierWindows_cons
    (token : Match)
    (rest : List Match)
    (noWindow : isQuantity token = false ∨ NotOf rest) :
    quantifierWindows (token :: rest) = quantifierWindows rest := by
  match rest with
  | [] => rfl
  | [_] => rfl
  | operator :: target :: rest =>
      have notWindow : isQuantifierWindow (token, operator, target) = false := by
        rcases noWindow with notQuantity | notOf
        · simp [isQuantifierWindow, notQuantity]
        · simp [isQuantifierWindow, notOf operator rfl]
      simp [quantifierWindows, windows, notWindow]

theorem isQuantity_eq_false_of_keyword
    {token : Match}
    {keyword : Str}
    (isKeyword : lower token.group = keyword)
    (reserved : keyword ∈ conditionKeywords)
    (notAll : keyword ≠ lit "all") :
    isQuantity token = false := by
  have isWord : IsWord token.group := isWord_of_keyword (isKeyword ▸ reserved)
  simp [isQuantity, isWord.not_isdigit, isKeyword, notAll]

theorem isQuantity_eq_false_of_parenthesis
    {token : Match}
    (isParenthesis : token.group = lit "(" ∨ token.group = lit ")") :
    isQuantity token = false := by
  rcases isParenthesis with isOpening | isClosing
  · rw [isQuantity, isOpening]
    decide
  · rw [isQuantity, isClosing]
    decide

/-- The quantifier windows of a derivable token list are the quantifiers of its
tree, as long as no `of` follows. -/
theorem Derives.quantifierWindows_append
    {level : Level}
    {tokens : List Match}
    {tree : Condition}
    (derives : Derives level tokens tree)
    (rest : List Match)
    (notOf : NotOf rest) :
    quantifierWindows (tokens ++ rest) = tree.quantifiers ++ quantifierWindows rest := by
  induction derives generalizing rest with
  | term _ inductionHypothesis => exact inductionHypothesis rest notOf
  | factor _ inductionHypothesis => exact inductionHypothesis rest notOf
  | @or left right operator leftTree rightTree _ isOr _ leftHypothesis rightHypothesis =>
      have operatorNotOf : lower operator.group ≠ lit "of" := by
        rw [isOr]
        decide
      have skipped := quantifierWindows_cons operator (right ++ rest)
        (.inl (isQuantity_eq_false_of_keyword isOr (by simp [conditionKeywords]) (by decide)))
      rw [List.append_assoc, List.cons_append, leftHypothesis _ (.cons operatorNotOf _),
        skipped, rightHypothesis rest notOf, Condition.quantifiers, List.append_assoc]
  | @and left right operator leftTree rightTree _ isAnd _ leftHypothesis rightHypothesis =>
      have operatorNotOf : lower operator.group ≠ lit "of" := by
        rw [isAnd]
        decide
      have skipped := quantifierWindows_cons operator (right ++ rest)
        (.inl (isQuantity_eq_false_of_keyword isAnd (by simp [conditionKeywords]) (by decide)))
      rw [List.append_assoc, List.cons_append, leftHypothesis _ (.cons operatorNotOf _),
        skipped, rightHypothesis rest notOf, Condition.quantifiers, List.append_assoc]
  | @not operator tokens tree isNot _ inductionHypothesis =>
      have skipped := quantifierWindows_cons operator (tokens ++ rest)
        (.inl (isQuantity_eq_false_of_keyword isNot (by simp [conditionKeywords]) (by decide)))
      rw [List.cons_append, skipped, inductionHypothesis rest notOf, Condition.quantifiers]
  | @group opening closing tokens tree isOpening _ isClosing inductionHypothesis =>
      have closingNotOf : lower closing.group ≠ lit "of" := by
        rw [isClosing]
        decide
      have skippedOpening := quantifierWindows_cons opening (tokens ++ closing :: rest)
        (.inl (isQuantity_eq_false_of_parenthesis (.inl isOpening)))
      have skippedClosing := quantifierWindows_cons closing rest
        (.inl (isQuantity_eq_false_of_parenthesis (.inr isClosing)))
      rw [List.cons_append, List.append_assoc, List.singleton_append, skippedOpening,
        inductionHypothesis _ (.cons closingNotOf rest), skippedClosing,
        Condition.quantifiers]
  | @quantifier quantity operator target isQuantity' isOf isWord =>
      have starts : isQuantifierWindow (quantity, operator, target) = true := by
        rcases isQuantity' with isAll | ⟨digits, _⟩
        · simp [isQuantifierWindow, isQuantity, isAll, isOf]
        · simp [isQuantifierWindow, isQuantity, digits, isOf]
      have first : quantifierWindows ([quantity, operator, target] ++ rest) =
          (quantity, operator, target) :: quantifierWindows (operator :: target :: rest) := by
        simp [quantifierWindows, windows, starts]
      have second := quantifierWindows_cons operator (target :: rest)
        (.inl (isQuantity_eq_false_of_keyword isOf (by simp [conditionKeywords]) (by decide)))
      have third := quantifierWindows_cons target rest (.inr notOf)
      rw [first, second, third, Condition.quantifiers, List.singleton_append]
  | @selector name isName =>
      have notQuantity : isQuantity name = false := by
        have notAll : lower name.group ≠ lit "all" := by
          intro isAll
          exact isName.2.2 (by simp [isAll, conditionKeywords])
        simp [isQuantity, isName.1.not_isdigit, notAll]
      rw [List.singleton_append, quantifierWindows_cons name rest (.inl notQuantity),
        Condition.quantifiers, List.nil_append]

theorem Derives.quantifierWindows_eq
    {level : Level}
    {tokens : List Match}
    {tree : Condition}
    (derives : Derives level tokens tree) :
    quantifierWindows tokens = tree.quantifiers := by
  have appended := derives.quantifierWindows_append [] NotOf.nil
  simpa [quantifierWindows, windows] using appended

/-- On a derivable token list the separator check passes exactly if every
quantifier of the tree is separated. -/
theorem Derives.separated_iff
    {level : Level}
    {tokens : List Match}
    {tree : Condition}
    (derives : Derives level tokens tree) :
    (windows tokens).any concatenatedQuantifier = false ↔ tree.Separated := by
  have members : ∀ window, window ∈ tree.quantifiers ↔
      window ∈ windows tokens ∧ isQuantifierWindow window = true := by
    intro window
    rw [← derives.quantifierWindows_eq, quantifierWindows, List.mem_filter]
  constructor
  · intro passed quantity operator target member
    obtain ⟨isWindow, starts⟩ := (members _).mp member
    rw [List.any_eq_false] at passed
    have notRejected := passed _ isWindow
    simp only [isQuantifierWindow, isQuantity, Bool.and_eq_true] at starts
    simpa [concatenatedQuantifier, starts.1, starts.2] using notRejected
  · intro separated
    rw [List.any_eq_false]
    rintro ⟨quantity, operator, target⟩ isWindow rejected
    simp only [concatenatedQuantifier, Bool.and_eq_true, Bool.or_eq_true,
      List.isEmpty_iff] at rejected
    obtain ⟨⟨quantityRejected, ofRejected⟩, touches⟩ := rejected
    have starts : isQuantifierWindow (quantity, operator, target) = true := by
        simpa [isQuantifierWindow, isQuantity, ofRejected] using quantityRejected
    obtain ⟨before, after⟩ := separated _ _ _ ((members _).mpr ⟨isWindow, starts⟩)
    rcases touches with touchesBefore | touchesAfter
    · exact before touchesBefore
    · exact after touchesAfter

/-! ## Nesting -/

/-- The text that a decomposition decomposes. -/
def render (tokens : List Match) (tail : Str) : Str :=
  tokens.foldr (fun token text => token.skipped ++ (token.group ++ text)) tail

theorem render_eq_of_tokenizes
    {classes : TokenClass}
    {text tail : Str}
    {tokens : List Match}
    (tokenizes : Tokenizes classes text tokens tail) :
    render tokens tail = text := by
  induction tokenizes with
  | done => rfl
  | token _ _ _ _ inductionHypothesis =>
      simp only [render, List.foldr_cons] at inductionHypothesis ⊢
      rw [inductionHypothesis]

/-- A text without parentheses. -/
def Flat (text : Str) : Prop := ∀ c ∈ text, c ≠ chr '(' ∧ c ≠ chr ')'

theorem withinNesting_flat
    (depth : Nat)
    {text : Str}
    (flat : Flat text)
    (rest : Str) :
    withinNesting depth (text ++ rest) = withinNesting depth rest := by
  induction text with
  | nil => rfl
  | cons c text inductionHypothesis =>
      obtain ⟨notOpening, notClosing⟩ := flat c List.mem_cons_self
      have remaining := inductionHypothesis
        fun d member => flat d (List.mem_cons_of_mem _ member)
      simp [withinNesting, notOpening, notClosing, remaining]

/-- White space only. -/
def Blank (text : Str) : Prop := ∀ c ∈ text, isspace c = true

theorem Blank.flat {text : Str} (blank : Blank text) : Flat text := by
  intro c member
  have space := blank c member
  constructor <;>
  · rintro rfl
    revert space
    decide

theorem flat_of_all
    {text : Str}
    (wordChars : ∀ c ∈ text, isWordChar c = true) :
    Flat text := by
  intro c member
  have isWordChar := wordChars c member
  constructor <;>
  · rintro rfl
    revert isWordChar
    decide

theorem IsWord.flat {token : Str} (isWord : IsWord token) : Flat token := by
  obtain ⟨c, body, rfl, letter, wordChars⟩ := isWord
  refine flat_of_all fun d member => ?_
  rcases List.mem_cons.mp member with rfl | inBody
  · simp [isWordChar, isNameChar, letter]
  · exact wordChars d inBody

theorem IsQuantity.flat {token : Str} (isQuantity : IsQuantity token) : Flat token := by
  rcases isQuantity with isAll | ⟨digits, _⟩
  · exact (isWord_of_keyword (by simp [isAll, conditionKeywords])).flat
  · simp only [isdigit, Bool.and_eq_true, List.all_eq_true] at digits
    exact flat_of_all fun d member => by
      simp [isWordChar, isNameChar, digits.2 d member]

/-- A token without parentheses leaves the nesting alone. -/
theorem withinNesting_token
    (depth : Nat)
    {token : Match}
    (blank : Blank token.skipped)
    (flat : Flat token.group)
    (more : List Match)
    (tail : Str) :
    withinNesting depth (render (token :: more) tail) =
      withinNesting depth (render more tail) := by
  simp only [render, List.foldr_cons]
  rw [withinNesting_flat depth blank.flat, withinNesting_flat depth flat]

/-- The nesting scan runs through a derivable token list exactly if its tree
fits into the remaining depth, and leaves at the depth it entered. -/
theorem Derives.withinNesting_append
    {level : Level}
    {tokens : List Match}
    {tree : Condition}
    (derives : Derives level tokens tree)
    (blank : ∀ token ∈ tokens, Blank token.skipped)
    (depth : Nat)
    (within : depth ≤ maxConditionNesting)
    (more : List Match)
    (tail : Str) :
    withinNesting depth (render (tokens ++ more) tail) =
      (decide (depth + tree.nesting ≤ maxConditionNesting) &&
        withinNesting depth (render more tail)) := by
  induction derives generalizing depth more with
  | term _ inductionHypothesis => exact inductionHypothesis blank depth within more
  | factor _ inductionHypothesis => exact inductionHypothesis blank depth within more
  | @or left right operator leftTree rightTree _ isOr _ leftHypothesis rightHypothesis =>
      simp only [List.mem_append, List.mem_cons] at blank
      have isWord : IsWord operator.group :=
        isWord_of_keyword (by simp [isOr, conditionKeywords])
      rw [List.append_assoc, List.cons_append,
        leftHypothesis (fun token member => blank token (.inl member)) depth within,
        withinNesting_token depth (blank operator (.inr (.inl rfl))) isWord.flat,
        rightHypothesis (fun token member => blank token (.inr (.inr member))) depth within,
        ← Bool.and_assoc, ← Bool.decide_and, Condition.nesting]
      congr 2
      simp only [eq_iff_iff]
      omega
  | @and left right operator leftTree rightTree _ isAnd _ leftHypothesis rightHypothesis =>
      simp only [List.mem_append, List.mem_cons] at blank
      have isWord : IsWord operator.group :=
        isWord_of_keyword (by simp [isAnd, conditionKeywords])
      rw [List.append_assoc, List.cons_append,
        leftHypothesis (fun token member => blank token (.inl member)) depth within,
        withinNesting_token depth (blank operator (.inr (.inl rfl))) isWord.flat,
        rightHypothesis (fun token member => blank token (.inr (.inr member))) depth within,
        ← Bool.and_assoc, ← Bool.decide_and, Condition.nesting]
      congr 2
      simp only [eq_iff_iff]
      omega
  | @not operator tokens tree isNot _ inductionHypothesis =>
      simp only [List.mem_cons] at blank
      have isWord : IsWord operator.group :=
        isWord_of_keyword (by simp [isNot, conditionKeywords])
      rw [List.cons_append,
        withinNesting_token depth (blank operator (.inl rfl)) isWord.flat,
        inductionHypothesis (fun token member => blank token (.inr member)) depth within,
        Condition.nesting]
  | @group opening closing tokens tree isOpening _ isClosing inductionHypothesis =>
      simp only [List.mem_cons, List.mem_append, List.not_mem_nil, or_false] at blank
      have opened : withinNesting depth
            (render (opening :: (tokens ++ closing :: more)) tail) =
          if depth + 1 > maxConditionNesting then false
          else withinNesting (depth + 1) (render (tokens ++ closing :: more) tail) := by
        simp only [render, List.foldr_cons]
        rw [withinNesting_flat depth (blank opening (.inl rfl)).flat, isOpening]
        rfl
      have closed : withinNesting (depth + 1) (render (closing :: more) tail) =
          withinNesting depth (render more tail) := by
        simp only [render, List.foldr_cons]
        rw [withinNesting_flat (depth + 1) (blank closing (.inr (.inr rfl))).flat, isClosing]
        rfl
      rw [List.cons_append, List.append_assoc, List.singleton_append, opened,
        Condition.nesting]
      split
      · have tooDeep : ¬depth + (tree.nesting + 1) ≤ maxConditionNesting := by omega
        simp [tooDeep]
      · rw [inductionHypothesis (fun token member => blank token (.inr (.inl member)))
          (depth + 1) (by omega), closed]
        congr 2
        simp only [eq_iff_iff]
        omega
  | @quantifier quantity operator target isQuantity' isOf isWord =>
      have operatorWord : IsWord operator.group :=
        isWord_of_keyword (by simp [isOf, conditionKeywords])
      simp only [List.mem_cons, List.not_mem_nil, or_false] at blank
      simp only [List.cons_append, List.nil_append]
      rw [withinNesting_token depth (blank quantity (.inl rfl)) isQuantity'.flat,
        withinNesting_token depth (blank operator (.inr (.inl rfl))) operatorWord.flat,
        withinNesting_token depth (blank target (.inr (.inr rfl))) isWord.flat]
      simp [Condition.nesting, within]
  | @selector name isName =>
      rw [List.singleton_append,
        withinNesting_token depth (blank name List.mem_cons_self) isName.1.flat]
      simp [Condition.nesting, within]

/-- On a derivable text the nesting scan passes exactly if the parentheses of
the tree nest at most 64 deep. -/
theorem Derives.withinNesting_iff
    {level : Level}
    {tokens : List Match}
    {tree : Condition}
    (derives : Derives level tokens tree)
    (blank : ∀ token ∈ tokens, Blank token.skipped)
    {tail : Str}
    (blankTail : Blank tail) :
    withinNesting 0 (render tokens tail) = true ↔ tree.nesting ≤ maxConditionNesting := by
  have scanned := derives.withinNesting_append blank 0 (by decide) [] tail
  have ended : withinNesting 0 (render [] tail) = true := by
    have flat := withinNesting_flat 0 blankTail.flat []
    simpa [render, withinNesting] using flat
  rw [List.append_nil] at scanned
  simp [scanned, ended]

/-! ## The whole check -/

/-- A parse of a condition: a decomposition of the text before the first pipe
into tokens with only white space between them, and a tree they derive. -/
structure Parse (condition : Str) where
  /-- The tokens. -/
  tokens : List Match
  /-- The text after the last token. -/
  tail : Str
  /-- The parse tree. -/
  tree : Condition
  tokenizes : Tokenizes conditionTokens (beforeFirst (chr '|') condition) tokens tail
  blank : ∀ token ∈ tokens, Blank token.skipped
  blankTail : Blank tail
  derives : Derives .disjunction tokens tree

/-- What the successive checks of `_well_formed_boolean_condition` test. -/
theorem wellFormedBooleanCondition_checks
    (condition tail : Str)
    (tokens : List Match)
    (scanned : finditer conditionTokens (beforeFirst (chr '|') condition) = (tokens, tail)) :
    wellFormedBooleanCondition condition = true ↔
      withinNesting 0 (beforeFirst (chr '|') condition) = true ∧ tokens ≠ [] ∧
        (∀ token ∈ tokens, Blank token.skipped) ∧ Blank tail ∧
        (windows tokens).any concatenatedQuantifier = false ∧
        Language .disjunction tokens := by
  unfold wellFormedBooleanCondition
  rw [← parsesAll_iff]
  simp only [scanned]
  cases nests : withinNesting 0 (beforeFirst (chr '|') condition) with
  | false => simp
  | true =>
      cases windowRejected : (windows tokens).any concatenatedQuantifier <;>
        simp [Blank, ← strip_eq_nil_iff]

/-- An accepted condition has a parse whose quantifiers are separated and whose
parentheses nest at most 64 deep. -/
theorem exists_parse_of_wellFormed
    {condition : Str}
    (accepted : wellFormedBooleanCondition condition = true) :
    ∃ parse : Parse condition,
      parse.tree.Separated ∧ parse.tree.nesting ≤ maxConditionNesting := by
  have tokenizes := finditer_tokenizes conditionTokens (beforeFirst (chr '|') condition)
  obtain ⟨nests, _, blank, blankTail, separated, tree, derives⟩ :=
    (wellFormedBooleanCondition_checks condition _ _ rfl).mp accepted
  rw [← render_eq_of_tokenizes tokenizes] at nests
  exact ⟨⟨_, _, tree, tokenizes, blank, blankTail, derives⟩,
    derives.separated_iff.mp separated,
    (derives.withinNesting_iff blank blankTail).mp nests⟩

/-- A condition with such a parse is accepted. -/
theorem Parse.wellFormed
    {condition : Str}
    (parse : Parse condition)
    (separated : parse.tree.Separated)
    (nests : parse.tree.nesting ≤ maxConditionNesting) :
    wellFormedBooleanCondition condition = true := by
  rw [wellFormedBooleanCondition_checks condition _ _ parse.tokenizes.finditer_eq]
  refine ⟨?_, parse.derives.ne_nil, parse.blank, parse.blankTail,
    parse.derives.separated_iff.mpr separated, parse.tree, parse.derives⟩
  rw [← render_eq_of_tokenizes parse.tokenizes]
  exact (parse.derives.withinNesting_iff parse.blank parse.blankTail).mpr nests

/-- The condition check accepts exactly its grammar: the text before the first
pipe is, white space aside, a sequence of longest-match tokens that `E`
derives, white space stands on both sides of the `of` of every quantifier, and
parentheses nest at most 64 deep. -/
theorem wellFormedBooleanCondition_iff (condition : Str) :
    wellFormedBooleanCondition condition = true ↔
      ∃ (tokens : List Match) (tail : Str) (tree : Condition),
        Tokenizes conditionTokens (beforeFirst (chr '|') condition) tokens tail ∧
        (∀ token ∈ tokens, Blank token.skipped) ∧ Blank tail ∧
        Derives .disjunction tokens tree ∧
        tree.Separated ∧ tree.nesting ≤ maxConditionNesting := by
  constructor
  · intro accepted
    obtain ⟨parse, separated, nests⟩ := exists_parse_of_wellFormed accepted
    exact ⟨parse.tokens, parse.tail, parse.tree, parse.tokenizes, parse.blank,
      parse.blankTail, parse.derives, separated, nests⟩
  · rintro ⟨tokens, tail, tree, tokenizes, blank, blankTail, derives, separated, nests⟩
    let parse : Parse condition := ⟨tokens, tail, tree, tokenizes, blank, blankTail, derives⟩
    exact parse.wellFormed separated nests

end Detection
end SigmaForge
