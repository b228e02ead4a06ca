import SigmaForge.Detection.Resolution

/-!
# Conditions that resolve

The checks of a condition string refuse none that has a parse in which every leaf
denotes a declared selector.
-/

namespace SigmaForge
namespace Detection

open Text Scanner

/-! ## Words of the text -/

/-- A word of the text that is no keyword is a name or a target of the tree. -/
theorem Derives.mem_words
    {level : Level}
    {tokens : List Match}
    {tree : Condition}
    (derives : Derives level tokens tree) :
    ∀ token ∈ tokens, IsWord token.group → lower token.group ∉ conditionKeywords →
      token ∈ tree.words := by
  induction derives with
  | term _ inductionHypothesis => exact inductionHypothesis
  | factor _ inductionHypothesis => exact inductionHypothesis
  | or _ isOr _ leftHypothesis rightHypothesis =>
      intro token isToken isWord notKeyword
      rcases List.mem_append.mp isToken with inLeft | isRest
      · exact List.mem_append_left _ (leftHypothesis token inLeft isWord notKeyword)
      · rcases List.mem_cons.mp isRest with rfl | inRight
        · exact absurd (by simp [isOr, conditionKeywords]) notKeyword
        · exact List.mem_append_right _ (rightHypothesis token inRight isWord notKeyword)
  | and _ isAnd _ leftHypothesis rightHypothesis =>
      intro token isToken isWord notKeyword
      rcases List.mem_append.mp isToken with inLeft | isRest
      · exact List.mem_append_left _ (leftHypothesis token inLeft isWord notKeyword)
      · rcases List.mem_cons.mp isRest with rfl | inRight
        · exact absurd (by simp [isAnd, conditionKeywords]) notKeyword
        · exact List.mem_append_right _ (rightHypothesis token inRight isWord notKeyword)
  | not isNot _ inductionHypothesis =>
      intro token isToken isWord notKeyword
      rcases List.mem_cons.mp isToken with rfl | isInner
      · exact absurd (by simp [isNot, conditionKeywords]) notKeyword
      · exact inductionHypothesis token isInner isWord notKeyword
  | group isOpening _ isClosing inductionHypothesis =>
      intro token isToken isWord notKeyword
      rcases List.mem_cons.mp isToken with rfl | isRest
      · exact absurd isOpening isWord.ne_parenthesis.1
      · rcases List.mem_append.mp isRest with isInner | isLast
        · exact inductionHypothesis token isInner isWord notKeyword
        · obtain rfl := List.mem_singleton.mp isLast
          exact absurd isClosing isWord.ne_parenthesis.2
  | @quantifier quantity operator target isQuantity isOf _ =>
      intro token isToken isWord notKeyword
      simp only [List.mem_cons, List.not_mem_nil, or_false] at isToken
      rcases isToken with rfl | rfl | rfl
      · rcases isQuantity with isAll | ⟨isNumber, _⟩
        · exact absurd (by simp [isAll, conditionKeywords]) notKeyword
        · rw [isWord.not_isdigit] at isNumber
          contradiction
      · exact absurd (by simp [isOf, conditionKeywords]) notKeyword
      · exact List.mem_singleton.mpr rfl
  | selector _ => exact fun token isToken _ _ => isToken

/-- A tree has a name or a target. -/
theorem Condition.words_ne_nil (tree : Condition) : tree.words ≠ [] := by
  induction tree with
  | selector name => simp [Condition.words]
  | quantifier quantity operator target => simp [Condition.words]
  | not body inductionHypothesis => exact inductionHypothesis
  | group body inductionHypothesis => exact inductionHypothesis
  | and left right leftHypothesis _ => simp [Condition.words, leftHypothesis]
  | or left right leftHypothesis _ => simp [Condition.words, leftHypothesis]

/-- The words of a resolving tree denote selectors, and those without a `*` other than
`them` are selectors. -/
theorem Condition.Resolves.word
    {selectors : List Str}
    {tree : Condition}
    (resolves : tree.Resolves selectors) :
    ∀ word ∈ tree.words, word.group ∈ selectors ∨ denoted selectors word.group ≠ [] := by
  induction tree with
  | selector name =>
      intro word isWord
      obtain rfl := List.mem_singleton.mp isWord
      exact .inl resolves
  | quantifier quantity operator target =>
      intro word isWord
      obtain rfl := List.mem_singleton.mp isWord
      exact .inr resolves.1
  | not body inductionHypothesis => exact inductionHypothesis resolves
  | group body inductionHypothesis => exact inductionHypothesis resolves
  | and left right leftHypothesis rightHypothesis =>
      intro word isWord
      rcases List.mem_append.mp isWord with inLeft | inRight
      · exact leftHypothesis resolves.1 word inLeft
      · exact rightHypothesis resolves.2 word inRight
  | or left right leftHypothesis rightHypothesis =>
      intro word isWord
      rcases List.mem_append.mp isWord with inLeft | inRight
      · exact leftHypothesis resolves.1 word inLeft
      · exact rightHypothesis resolves.2 word inRight

/-! ## The scans -/

section Scans

variable
    {condition : Str}
    {selectors : List Str}

/-- What the identifier scan finds are words. -/
theorem isWord_of_findall
    {text word : Str}
    (isFound : word ∈ findall conditionIdentifiers text) :
    IsWord word := by
  obtain ⟨token, isToken, rfl⟩ := List.mem_map.mp isFound
  obtain ⟨continues, c, body, isGroup, starts, inside⟩ :=
    (finditer_tokenizes conditionIdentifiers text).isToken isToken
  simp only [conditionIdentifiers, Option.ite_none_right_eq_some, Option.some.injEq] at starts
  obtain ⟨letter, rfl⟩ := starts
  exact ⟨c, body, isGroup, letter, inside⟩

/-- The references of the text are words of the tree. -/
theorem Parse.mem_words_of_findall
    (parse : Parse condition)
    {word : Str}
    (isFound : word ∈ findall conditionIdentifiers (beforeFirst (chr '|') condition))
    (notKeyword : lower word ∉ conditionKeywords) :
    ∃ leaf ∈ parse.tree.words, leaf.group = word := by
  have isWord := isWord_of_findall isFound
  rw [identifiers_restrict.findall_eq, List.mem_filter, findall, parse.tokenizes.finditer_eq,
    List.mem_map] at isFound
  obtain ⟨⟨token, isToken, rfl⟩, _⟩ := isFound
  exact ⟨token, parse.derives.mem_words token isToken isWord notKeyword, rfl⟩

/-- A text with a resolving parse refers to something. -/
theorem Parse.refers
    (parse : Parse condition)
    (notKeywords : ∀ name ∈ selectors, lower name ∉ conditionKeywords)
    (resolves : parse.tree.Resolves selectors) :
    ∃ word ∈ findall conditionIdentifiers (beforeFirst (chr '|') condition),
      lower word ∉ conditionKeywords ∨ lower word = lit "them" := by
  obtain ⟨leaf, isLeaf⟩ := List.exists_mem_of_ne_nil _ parse.tree.words_ne_nil
  refine ⟨leaf.group, parse.word_mem_findall isLeaf, ?_⟩
  by_contra isReserved
  simp only [not_or, not_not] at isReserved
  rcases resolves.word leaf isLeaf with isSelector | denotes
  · exact notKeywords _ isSelector isReserved.1
  · exact denotes (denoted_keyword notKeywords isReserved.1 isReserved.2)

/-- The reference check passes. -/
theorem Parse.references
    (parse : Parse condition)
    (noStar : ∀ name ∈ selectors, chr '*' ∉ name)
    (notKeywords : ∀ name ∈ selectors, lower name ∉ conditionKeywords)
    (resolves : parse.tree.Resolves selectors) :
    referencesKnownSelectors condition selectors = true := by
  unfold referencesKnownSelectors
  dsimp only
  split_ifs with refersToNothing
  · simp only [Bool.and_eq_true, List.isEmpty_iff, List.filter_eq_nil_iff,
      decide_eq_true_eq, Bool.not_eq_true', List.contains_eq_mem, decide_eq_false_iff_not,
      List.mem_map] at refersToNothing
    obtain ⟨noReference, noThem⟩ := refersToNothing
    obtain ⟨word, isFound, notKeyword | isThem⟩ := parse.refers notKeywords resolves
    · exact absurd notKeyword (noReference word isFound)
    · exact absurd ⟨word, isFound, isThem⟩ noThem
  · rw [List.all_eq_true]
    intro word isReference
    obtain ⟨isFound, notKeyword⟩ := List.mem_filter.mp isReference
    have notKeyword : lower word ∉ conditionKeywords := by simpa using notKeyword
    have notThem : lower word ≠ lit "them" :=
      fun isThem => notKeyword (by simp [isThem, conditionKeywords])
    obtain ⟨leaf, isLeaf, rfl⟩ := parse.mem_words_of_findall isFound notKeyword
    have isKnown : ∃ name ∈ selectors, fnmatchcase name leaf.group = true ∨ name = leaf.group := by
      rcases resolves.word leaf isLeaf with isSelector | denotes
      · exact ⟨leaf.group, isSelector, .inr rfl⟩
      · rw [denoted, if_neg notThem] at denotes
        obtain ⟨name, isDenoted⟩ := List.exists_mem_of_ne_nil _ denotes
        obtain ⟨isSelector, isMatch⟩ := List.mem_filter.mp isDenoted
        exact ⟨name, isSelector, .inl isMatch⟩
    obtain ⟨name, isSelector, isMatch⟩ := isKnown
    split_ifs with starred
    · rw [List.any_eq_true]
      refine ⟨name, isSelector, isMatch.resolve_right ?_⟩
      rintro rfl
      exact noStar _ isSelector starred
    · have isName : name = leaf.group :=
        isMatch.elim (fnmatchcase_of_not_mem name leaf.group starred).mp id
      rw [List.contains_iff_mem, ← isName]
      exact isSelector

/-- The feasibility check passes. -/
theorem Parse.feasible
    (parse : Parse condition)
    (distinct : selectors.Nodup)
    (resolves : parse.tree.Resolves selectors) :
    feasibleQuantifiers condition selectors = true := by
  unfold feasibleQuantifiers
  rw [List.all_eq_true]
  rintro ⟨count, operator, target⟩ isWindow
  rw [findall, parse.tokenizes.finditer_eq, windows_map, List.mem_map] at isWindow
  obtain ⟨⟨quantity, of, name⟩, isWindow, isGroups⟩ := isWindow
  obtain ⟨rfl, rfl, rfl⟩ : quantity.group = count ∧ of.group = operator ∧
      name.group = target := by simpa using isGroups
  change (if _ then true else _) = true
  split_ifs with skipped
  · rfl
  · simp only [Bool.or_eq_true, Bool.not_eq_true', bne_iff_ne, not_or, Bool.not_eq_false,
      not_not] at skipped
    have isQuantifier : (quantity, of, name) ∈ parse.tree.quantifiers := by
      rw [← parse.derives.quantifierWindows_eq, quantifierWindows, List.mem_filter]
      exact ⟨isWindow, by simp [isQuantifierWindow, isQuantity, skipped]⟩
    have isBounded := ((resolves.quantifier _ _ _ isQuantifier).2 skipped.1).2
    rw [length_denoted distinct] at isBounded
    simpa using isBounded

end Scans

/-! ## The aggregation boundary -/

theorem count_afterFirst_lt
    {sep : CodePoint}
    {text : Str}
    (isSplit : sep ∈ text) :
    (afterFirst sep text).count sep < text.count sep := by
  induction text with
  | nil => contradiction
  | cons c text inductionHypothesis =>
      by_cases isSep : c = sep
      · subst isSep
        simp [afterFirst]
      · have isRest : sep ∈ text := (List.mem_cons.mp isSplit).resolve_left (Ne.symm isSep)
        simpa [afterFirst, List.dropWhile_cons, isSep] using inductionHypothesis isRest

/-- The text before the pipe is not blank: the identifier scan finds something in it. -/
theorem Parse.strip_ne_nil
    {condition : Str}
    (parse : Parse condition) :
    strip (beforeFirst (chr '|') condition) ≠ [] := by
  intro stripped
  have blank := (strip_eq_nil_iff _).mp stripped
  have clear : Gap conditionIdentifiers (beforeFirst (chr '|') condition) := by
    intro c occurs
    rw [conditionIdentifiers, if_neg]
    intro letter
    have notSpace := isLetter_not_isspace letter
    rw [blank c occurs] at notSpace
    contradiction
  obtain ⟨word, isWord⟩ := List.exists_mem_of_ne_nil _ parse.tree.words_ne_nil
  have isFound := parse.word_mem_findall isWord
  rw [findall, (Tokenizes.done clear).finditer_eq] at isFound
  contradiction

/-- A condition with a parse passes the boundary check if it has no pipe, or one pipe
with a visible suffix. -/
theorem Parse.boundary
    {condition : Str}
    {python : Interpreter}
    (parse : Parse condition)
    (aggregates : chr '|' ∉ condition ∨
      (condition.count (chr '|') = 1 ∧
        hasVisibleCharacter python (afterFirst (chr '|') condition) = true)) :
    validAggregationBoundary (hasVisibleCharacter python) condition = true := by
  by_cases isSplit : chr '|' ∈ condition
  swap
  · simp [validAggregationBoundary, isSplit]
  obtain ⟨onePipe, visible⟩ := aggregates.resolve_left (not_not.mpr isSplit)
  have noMore : chr '|' ∉ afterFirst (chr '|') condition := by
    have fewer := count_afterFirst_lt isSplit
    rw [onePipe, Nat.lt_one_iff] at fewer
    exact List.count_eq_zero.mp fewer
  have notBlank : strip (afterFirst (chr '|') condition) ≠ [] := by
    rw [ne_eq, strip_eq_nil_iff]
    intro blank
    obtain ⟨c, isAfter, isVisible⟩ := List.any_eq_true.mp visible
    simp [blank c isAfter] at isVisible
  simp [validAggregationBoundary, isSplit, parse.strip_ne_nil, notBlank, visible, noMore]

/-! ## Preflight -/

/-- The checks of a condition refuse none that resolves: for distinct names that are
legal selector names and no keywords, and a condition without a pipe or with one pipe
before a visible suffix, a parse whose quantifiers are separated, whose parentheses
nest at most 64 deep and whose leaves denote declared names passes all four. -/
theorem preflight_accepts_resolvable
    (python : Interpreter)
    (selectors : List Str)
    (condition : Str)
    (distinct : selectors.Nodup)
    (legal : ∀ name ∈ selectors, selectorName name = true ∧ lower name ∉ conditionKeywords)
    (aggregates : chr '|' ∉ condition ∨
      (condition.count (chr '|') = 1 ∧
        hasVisibleCharacter python (afterFirst (chr '|') condition) = true))
    (parse : Parse condition)
    (separated : parse.tree.Separated)
    (nests : parse.tree.nesting ≤ maxConditionNesting)
    (resolves : parse.tree.Resolves selectors) :
    referencesKnownSelectors condition selectors = true ∧
      validAggregationBoundary (hasVisibleCharacter python) condition = true ∧
      wellFormedBooleanCondition condition = true ∧
      feasibleQuantifiers condition selectors = true := by
  have noStar : ∀ name ∈ selectors, chr '*' ∉ name :=
    fun name isName => ((selectorName_iff name).mp (legal name isName).1).2
  have notKeywords : ∀ name ∈ selectors, lower name ∉ conditionKeywords :=
    fun name isName => (legal name isName).2
  exact ⟨parse.references noStar notKeywords resolves, parse.boundary aggregates,
    parse.wellFormed separated nests, parse.feasible distinct resolves⟩

theorem counting_tokenizes :
    Tokenizes conditionTokens (beforeFirst (chr '|') (lit "2 of sel* | count() > 3"))
      [⟨[], lit "2"⟩, ⟨lit " ", lit "of"⟩, ⟨lit " ", lit "sel*"⟩] (lit " ") := by
  have scanned : finditer conditionTokens (beforeFirst (chr '|')
      (lit "2 of sel* | count() > 3")) =
        ([⟨[], lit "2"⟩, ⟨lit " ", lit "of"⟩, ⟨lit " ", lit "sel*"⟩], lit " ") := by
    decide +kernel
  have tokenizes := finditer_tokenizes conditionTokens (beforeFirst (chr '|')
    (lit "2 of sel* | count() > 3"))
  rwa [scanned] at tokenizes

theorem counting_blank :
    ∀ token ∈ [⟨[], lit "2"⟩, ⟨lit " ", lit "of"⟩, (⟨lit " ", lit "sel*"⟩ : Match)],
      Blank token.skipped := by
  simp [Blank, lit, chr, isspace]

theorem counting_blankTail : Blank (lit " ") := (strip_eq_nil_iff _).mp (by decide +kernel)

theorem counting_derives :
    Derives .disjunction [⟨[], lit "2"⟩, ⟨lit " ", lit "of"⟩, ⟨lit " ", lit "sel*"⟩]
      (.quantifier ⟨[], lit "2"⟩ ⟨lit " ", lit "of"⟩ ⟨lit " ", lit "sel*"⟩) :=
  .term (.factor (.quantifier (.inr (by decide +kernel)) (by decide +kernel)
    ((conditionPattern_iff _).mp (by decide +kernel))))

/-- The parse of a counting condition. -/
def countingParse : Parse (lit "2 of sel* | count() > 3") where
  tokens := [⟨[], lit "2"⟩, ⟨lit " ", lit "of"⟩, ⟨lit " ", lit "sel*"⟩]
  tail := lit " "
  tree := .quantifier ⟨[], lit "2"⟩ ⟨lit " ", lit "of"⟩ ⟨lit " ", lit "sel*"⟩
  tokenizes := counting_tokenizes
  blank := counting_blank
  blankTail := counting_blankTail
  derives := counting_derives

theorem preflight_accepts_counting :
    referencesKnownSelectors (lit "2 of sel* | count() > 3") [lit "sel_a", lit "sel_b"] = true ∧
      validAggregationBoundary (hasVisibleCharacter .coarse)
        (lit "2 of sel* | count() > 3") = true ∧
      wellFormedBooleanCondition (lit "2 of sel* | count() > 3") = true ∧
      feasibleQuantifiers (lit "2 of sel* | count() > 3") [lit "sel_a", lit "sel_b"] = true := by
  refine preflight_accepts_resolvable .coarse [lit "sel_a", lit "sel_b"]
    (lit "2 of sel* | count() > 3") (by decide) (by decide) (.inr (by decide +kernel))
    countingParse ?_ (by decide) ⟨by decide +kernel, fun _ => by decide +kernel⟩
  intro quantity operator target isQuantifier
  simp only [countingParse, Condition.quantifiers, List.mem_singleton,
    Prod.mk.injEq] at isQuantifier
  obtain ⟨rfl, rfl, rfl⟩ := isQuantifier
  decide

end Detection
end SigmaForge
