import SigmaForge.Detection.Condition.WellFormed
import SigmaForge.Foundation.Glob

/-!
# Selector references of a condition

`_references_known_selectors` and `_feasible_quantifiers` scan the text of a
condition without parsing it.  This module relates both scans to the leaves of
the parse tree: together with the parser they guarantee that every leaf
denotes a declared selector, except for `all of` in front of a keyword, which
neither scan looks at.
-/

namespace SigmaForge
namespace Detection

open Text Scanner

/-- `_references_known_selectors`.  The set of selectors is the list of its
elements. -/
def referencesKnownSelectors (condition : Str) (selectors : List Str) : Bool :=
  let selectorExpression := beforeFirst (chr '|') condition
  let words := findall conditionIdentifiers selectorExpression
  let references := words.filter fun word => lower word ∉ conditionKeywords
  if references.isEmpty && !(words.map lower).contains (lit "them") then false
  else
    references.all fun word =>
      if chr '*' ∈ word then selectors.any fun name => fnmatchcase name word
      else selectors.contains word

/-- How many selectors a quantifier target can match. -/
def available (selectors : List Str) (target : Str) : Nat :=
  if lower target = lit "them" then selectors.length
  else if chr '*' ∈ target then selectors.countP fun name => fnmatchcase name target
  else if target ∈ selectors then 1 else 0

/-- `_feasible_quantifiers`. -/
def feasibleQuantifiers (condition : Str) (selectors : List Str) : Bool :=
  let tokens := findall conditionTokens (beforeFirst (chr '|') condition)
  (windows tokens).all fun (count, operator, target) =>
    if !isdigit count || lower operator != lit "of" then true
    else int count ≤ available selectors target

/-! ## Order of the selectors -/

/-- The reference check takes the selectors as a set. -/
theorem referencesKnownSelectors_perm
    {selectors selectors' : List Str}
    (permuted : selectors.Perm selectors')
    (condition : Str) :
    referencesKnownSelectors condition selectors =
      referencesKnownSelectors condition selectors' := by
  have anyMatch : ∀ word : Str, (selectors.any fun name => fnmatchcase name word) =
      selectors'.any fun name => fnmatchcase name word := by
    intro word
    rw [Bool.eq_iff_iff, List.any_eq_true, List.any_eq_true]
    simp only [permuted.mem_iff]
  have contains : ∀ word : Str, selectors.contains word = selectors'.contains word := by
    intro word
    rw [Bool.eq_iff_iff, List.contains_iff_mem, List.contains_iff_mem, permuted.mem_iff]
  simp only [referencesKnownSelectors, anyMatch, contains]

/-- The feasibility check takes the selectors as a set. -/
theorem feasibleQuantifiers_perm
    {selectors selectors' : List Str}
    (permuted : selectors.Perm selectors')
    (condition : Str) :
    feasibleQuantifiers condition selectors = feasibleQuantifiers condition selectors' := by
  have counts : ∀ target, available selectors target = available selectors' target := by
    intro target
    unfold available
    rw [permuted.length_eq, permuted.countP_eq]
    simp only [permuted.mem_iff]
  simp only [feasibleQuantifiers, counts]

/-! ## What a condition refers to -/

/-- The declared selectors that a quantifier target denotes. -/
def denoted (selectors : List Str) (target : Str) : List Str :=
  if lower target = lit "them" then selectors
  else selectors.filter fun name => fnmatchcase name target

/-- Every leaf of the tree denotes a declared selector, and every numeric
quantity is at least one and at most the number of selectors denoted. -/
def Condition.Resolves (selectors : List Str) : Condition → Prop
  | .selector name => name.group ∈ selectors
  | .quantifier quantity _ target =>
      denoted selectors target.group ≠ [] ∧
        (isdigit quantity.group = true →
          1 ≤ int quantity.group ∧
            int quantity.group ≤ (denoted selectors target.group).length)
  | .not body => body.Resolves selectors
  | .group body => body.Resolves selectors
  | .and left right => left.Resolves selectors ∧ right.Resolves selectors
  | .or left right => left.Resolves selectors ∧ right.Resolves selectors

/-- `all of` in front of a keyword other than `them`. -/
def allOfKeyword : Match × Match × Match → Bool
  | (first, operator, target) =>
      lower first.group == lit "all" && lower operator.group == lit "of" &&
        conditionKeywords.contains (lower target.group) &&
        lower target.group != lit "them"

/-- Some `all of` of the condition is followed by a keyword other than `them`. -/
def quantifiesKeyword (condition : Str) : Bool :=
  (windows (finditer conditionTokens (beforeFirst (chr '|') condition)).1).any allOfKeyword

theorem windows_map {τ σ : Type} (f : τ → σ) (tokens : List τ) :
    windows (tokens.map f) = (windows tokens).map fun (a, b, c) => (f a, f b, f c) := by
  match tokens with
  | [] => rfl
  | [_] => rfl
  | [_, _] => rfl
  | first :: operator :: target :: rest =>
      have remaining := windows_map f (operator :: target :: rest)
      simp only [List.map_cons] at remaining
      simp only [List.map_cons, windows, remaining]

/-- A keyword contains no `*`. -/
theorem star_not_mem_of_keyword
    {token : Str}
    (keyword : lower token ∈ conditionKeywords) :
    chr '*' ∉ token := by
  intro star
  have lowered : chr '*' ∈ lower token := List.mem_map.mpr ⟨chr '*', star, by decide⟩
  have letters : conditionKeywords.all (fun word => !word.contains (chr '*')) = true := by
    decide +kernel
  have noStar := List.all_eq_true.mp letters _ keyword
  simp [lowered] at noStar

/-- The number a feasibility check compares with is the number of selectors
that the target denotes. -/
theorem length_denoted
    {selectors : List Str}
    (distinct : selectors.Nodup)
    (target : Str) :
    (denoted selectors target).length = available selectors target := by
  unfold denoted available
  split
  · rfl
  · split
    · rw [List.countP_eq_length_filter]
    · rename_i literal
      rw [← List.countP_eq_length_filter]
      have counts : selectors.countP (fun name => fnmatchcase name target) =
          selectors.count target := by
        rw [List.count]
        apply List.countP_congr
        intro name _
        simp [fnmatchcase_of_not_mem name target literal]
      rw [counts, distinct.count]

/-- A keyword other than `them` denotes no selector. -/
theorem denoted_keyword
    {selectors : List Str}
    (notKeywords : ∀ name ∈ selectors, lower name ∉ conditionKeywords)
    {target : Str}
    (keyword : lower target ∈ conditionKeywords)
    (notThem : lower target ≠ lit "them") :
    denoted selectors target = [] := by
  simp only [denoted, notThem, if_false, List.filter_eq_nil_iff]
  intro name member isMatch
  rw [fnmatchcase_of_not_mem name target (star_not_mem_of_keyword keyword)] at isMatch
  exact notKeywords name member (isMatch ▸ keyword)

/-! ## The scans and the leaves of the tree -/

/-- The names of a tree, and the targets of its quantifiers. -/
def Condition.words : Condition → List Match
  | .selector name => [name]
  | .quantifier _ _ target => [target]
  | .not body => body.words
  | .group body => body.words
  | .and left right => left.words ++ right.words
  | .or left right => left.words ++ right.words

/-- Names and targets are tokens of the text, and words. -/
theorem Derives.words_subset
    {level : Level}
    {tokens : List Match}
    {tree : Condition}
    (derives : Derives level tokens tree) :
    ∀ word ∈ tree.words, word ∈ tokens ∧ IsWord word.group := by
  induction derives with
  | term _ inductionHypothesis => exact inductionHypothesis
  | factor _ inductionHypothesis => exact inductionHypothesis
  | or _ _ _ leftHypothesis rightHypothesis =>
      intro word member
      rcases List.mem_append.mp member with inLeft | inRight
      · obtain ⟨isToken, isWord⟩ := leftHypothesis word inLeft
        exact ⟨List.mem_append_left _ isToken, isWord⟩
      · obtain ⟨isToken, isWord⟩ := rightHypothesis word inRight
        exact ⟨List.mem_append_right _ (List.mem_cons_of_mem _ isToken), isWord⟩
  | and _ _ _ leftHypothesis rightHypothesis =>
      intro word member
      rcases List.mem_append.mp member with inLeft | inRight
      · obtain ⟨isToken, isWord⟩ := leftHypothesis word inLeft
        exact ⟨List.mem_append_left _ isToken, isWord⟩
      · obtain ⟨isToken, isWord⟩ := rightHypothesis word inRight
        exact ⟨List.mem_append_right _ (List.mem_cons_of_mem _ isToken), isWord⟩
  | not _ _ inductionHypothesis =>
      intro word member
      obtain ⟨isToken, isWord⟩ := inductionHypothesis word member
      exact ⟨List.mem_cons_of_mem _ isToken, isWord⟩
  | group _ _ _ inductionHypothesis =>
      intro word member
      obtain ⟨isToken, isWord⟩ := inductionHypothesis word member
      exact ⟨List.mem_cons_of_mem _ (List.mem_append_left _ isToken), isWord⟩
  | quantifier _ _ isTarget =>
      intro word member
      obtain rfl := List.mem_singleton.mp member
      exact ⟨by simp, isTarget⟩
  | selector isName =>
      intro word member
      obtain rfl := List.mem_singleton.mp member
      exact ⟨by simp, isName.1⟩

/-- The identifier scan skips numbers and parentheses, and nothing that it
would match starts inside them. -/
theorem identifiers_restrict : Restricts conditionIdentifiers conditionTokens where
  kept c continues start := by
    simp only [conditionIdentifiers, Option.ite_none_right_eq_some] at start
    simp [conditionTokens, start.1, start.2]
  dropped c continues d notStart start inside := by
    have notLetter : isLetter c = false := by
      simpa [conditionIdentifiers] using notStart
    simp only [conditionTokens, notLetter, Bool.false_eq_true, if_false] at start
    split at start
    · simp only [Option.some.injEq] at start
      have digit : isDigit d = true := start ▸ inside
      have notLetter : isLetter d = false := by
        rw [Bool.eq_false_iff]
        intro letter
        rw [isLetter_not_isDigit letter] at digit
        contradiction
      simp [conditionIdentifiers, notLetter]
    · simp only [Option.ite_none_right_eq_some, Option.some.injEq] at start
      simp [← start.2] at inside

/-- Every word of the tree is a word of the identifier scan. -/
theorem Parse.word_mem_findall
    {condition : Str}
    (parse : Parse condition)
    {word : Match}
    (member : word ∈ parse.tree.words) :
    word.group ∈ findall conditionIdentifiers (beforeFirst (chr '|') condition) := by
  obtain ⟨isToken, c, body, isWord, letter, _⟩ := parse.derives.words_subset word member
  rw [identifiers_restrict.findall_eq, List.mem_filter]
  refine ⟨?_, ?_⟩
  · rw [findall, parse.tokenizes.finditer_eq]
    exact List.mem_map_of_mem isToken
  · simp [isWord, startsToken, conditionIdentifiers, letter]

/-- A word that is no keyword denotes a declared selector, once the reference
check has passed. -/
theorem denoted_of_references
    {condition : Str}
    {selectors : List Str}
    (references : referencesKnownSelectors condition selectors = true)
    (parse : Parse condition)
    {word : Match}
    (member : word ∈ parse.tree.words)
    (notKeyword : lower word.group ∉ conditionKeywords) :
    (chr '*' ∉ word.group → word.group ∈ selectors) ∧
      denoted selectors word.group ≠ [] := by
  have isReference : word.group ∈
      (findall conditionIdentifiers (beforeFirst (chr '|') condition)).filter
        fun word => lower word ∉ conditionKeywords :=
    List.mem_filter.mpr ⟨parse.word_mem_findall member, by simpa using notKeyword⟩
  have notThem : lower word.group ≠ lit "them" := by
    intro isThem
    exact notKeyword (by simp [isThem, conditionKeywords])
  simp only [referencesKnownSelectors] at references
  split at references
  · contradiction
  · have known := List.all_eq_true.mp references _ isReference
    by_cases starred : chr '*' ∈ word.group
    · simp only [starred, if_true, List.any_eq_true] at known
      obtain ⟨name, isSelector, isMatch⟩ := known
      refine ⟨fun literal => absurd starred literal, ?_⟩
      simp only [denoted, notThem, if_false, ne_eq, List.filter_eq_nil_iff, not_forall]
      exact ⟨name, isSelector, by simp [isMatch]⟩
    · have isSelector : word.group ∈ selectors := by simpa [starred] using known
      refine ⟨fun _ => isSelector, ?_⟩
      simp only [denoted, notThem, if_false, ne_eq, List.filter_eq_nil_iff, not_forall]
      exact ⟨word.group, isSelector,
        by simp [(fnmatchcase_of_not_mem word.group word.group starred).mpr rfl]⟩

/-- The feasibility check bounds the numeric quantifiers of the tree. -/
theorem quantity_le_of_feasible
    {condition : Str}
    {selectors : List Str}
    (distinct : selectors.Nodup)
    (feasible : feasibleQuantifiers condition selectors = true)
    (parse : Parse condition)
    {quantity operator target : Match}
    (member : (quantity, operator, target) ∈ parse.tree.quantifiers)
    (number : isdigit quantity.group = true) :
    int quantity.group ≤ (denoted selectors target.group).length := by
  rw [← parse.derives.quantifierWindows_eq, quantifierWindows, List.mem_filter] at member
  obtain ⟨isWindow, starts⟩ := member
  simp only [isQuantifierWindow, Bool.and_eq_true, beq_iff_eq] at starts
  have groups : (quantity.group, operator.group, target.group) ∈
      windows (findall conditionTokens (beforeFirst (chr '|') condition)) := by
    rw [findall, parse.tokenizes.finditer_eq, windows_map]
    exact List.mem_map.mpr ⟨_, isWindow, rfl⟩
  have bounded := List.all_eq_true.mp feasible _ groups
  rw [length_denoted distinct]
  simpa [number, starts.2] using bounded

/-- Every quantifier of a derivable tree has a quantity and a word as target. -/
theorem Derives.quantifier_shape
    {level : Level}
    {tokens : List Match}
    {tree : Condition}
    (derives : Derives level tokens tree) :
    ∀ quantity operator target, (quantity, operator, target) ∈ tree.quantifiers →
      IsQuantity quantity.group ∧ lower operator.group = lit "of" ∧
        target ∈ tree.words := by
  induction derives with
  | term _ inductionHypothesis => exact inductionHypothesis
  | factor _ inductionHypothesis => exact inductionHypothesis
  | or _ _ _ leftHypothesis rightHypothesis =>
      intro quantity operator target member
      rcases List.mem_append.mp member with inLeft | inRight
      · obtain ⟨isQuantity, isOf, isTarget⟩ := leftHypothesis _ _ _ inLeft
        exact ⟨isQuantity, isOf, List.mem_append_left _ isTarget⟩
      · obtain ⟨isQuantity, isOf, isTarget⟩ := rightHypothesis _ _ _ inRight
        exact ⟨isQuantity, isOf, List.mem_append_right _ isTarget⟩
  | and _ _ _ leftHypothesis rightHypothesis =>
      intro quantity operator target member
      rcases List.mem_append.mp member with inLeft | inRight
      · obtain ⟨isQuantity, isOf, isTarget⟩ := leftHypothesis _ _ _ inLeft
        exact ⟨isQuantity, isOf, List.mem_append_left _ isTarget⟩
      · obtain ⟨isQuantity, isOf, isTarget⟩ := rightHypothesis _ _ _ inRight
        exact ⟨isQuantity, isOf, List.mem_append_right _ isTarget⟩
  | not _ _ inductionHypothesis => exact inductionHypothesis
  | group _ _ _ inductionHypothesis => exact inductionHypothesis
  | quantifier isQuantity isOf _ =>
      intro quantity operator target member
      simp only [Condition.quantifiers, List.mem_singleton, Prod.mk.injEq] at member
      obtain ⟨rfl, rfl, rfl⟩ := member
      exact ⟨isQuantity, isOf, by simp [Condition.words]⟩
  | selector _ =>
      intro quantity operator target member
      simp [Condition.quantifiers] at member

/-- A tree resolves if its names are declared and its quantifiers resolve. -/
theorem Derives.resolves
    {level : Level}
    {tokens : List Match}
    {tree : Condition}
    {selectors : List Str}
    (derives : Derives level tokens tree)
    (names : ∀ word ∈ tree.words, IsName word.group → word.group ∈ selectors)
    (quantifiers : ∀ quantity operator target,
      (quantity, operator, target) ∈ tree.quantifiers →
      (Condition.quantifier quantity operator target).Resolves selectors) :
    tree.Resolves selectors := by
  induction derives with
  | term _ inductionHypothesis => exact inductionHypothesis names quantifiers
  | factor _ inductionHypothesis => exact inductionHypothesis names quantifiers
  | or _ _ _ leftHypothesis rightHypothesis =>
      simp only [Condition.words, Condition.quantifiers, List.mem_append] at names quantifiers
      exact ⟨leftHypothesis (fun word member => names word (.inl member))
          fun _ _ _ member => quantifiers _ _ _ (.inl member),
        rightHypothesis (fun word member => names word (.inr member))
          fun _ _ _ member => quantifiers _ _ _ (.inr member)⟩
  | and _ _ _ leftHypothesis rightHypothesis =>
      simp only [Condition.words, Condition.quantifiers, List.mem_append] at names quantifiers
      exact ⟨leftHypothesis (fun word member => names word (.inl member))
          fun _ _ _ member => quantifiers _ _ _ (.inl member),
        rightHypothesis (fun word member => names word (.inr member))
          fun _ _ _ member => quantifiers _ _ _ (.inr member)⟩
  | not _ _ inductionHypothesis => exact inductionHypothesis names quantifiers
  | group _ _ _ inductionHypothesis => exact inductionHypothesis names quantifiers
  | quantifier _ _ _ => exact quantifiers _ _ _ (by simp [Condition.quantifiers])
  | selector isName => exact names _ (by simp [Condition.words]) isName

/-- A resolving tree has resolving quantifiers. -/
theorem Condition.Resolves.quantifier
    {selectors : List Str}
    {tree : Condition}
    (resolves : tree.Resolves selectors) :
    ∀ quantity operator target, (quantity, operator, target) ∈ tree.quantifiers →
      (Condition.quantifier quantity operator target).Resolves selectors := by
  induction tree with
  | selector => simp [Condition.quantifiers]
  | quantifier quantity operator target =>
      intro quantity' operator' target' member
      simp only [Condition.quantifiers, List.mem_singleton, Prod.mk.injEq] at member
      obtain ⟨rfl, rfl, rfl⟩ := member
      exact resolves
  | not body inductionHypothesis => exact inductionHypothesis resolves
  | group body inductionHypothesis => exact inductionHypothesis resolves
  | and left right leftHypothesis rightHypothesis =>
      intro quantity operator target member
      rcases List.mem_append.mp member with inLeft | inRight
      · exact leftHypothesis resolves.1 _ _ _ inLeft
      · exact rightHypothesis resolves.2 _ _ _ inRight
  | or left right leftHypothesis rightHypothesis =>
      intro quantity operator target member
      rcases List.mem_append.mp member with inLeft | inRight
      · exact leftHypothesis resolves.1 _ _ _ inLeft
      · exact rightHypothesis resolves.2 _ _ _ inRight

/-- A condition that passes the parser, the reference check and the
feasibility check has a resolving parse exactly if none of its `all of`
quantifiers is in front of a keyword. -/
theorem exists_resolving_parse_iff
    {condition : Str}
    {selectors : List Str}
    (declared : selectors ≠ [])
    (distinct : selectors.Nodup)
    (notKeywords : ∀ name ∈ selectors, lower name ∉ conditionKeywords)
    (wellFormed : wellFormedBooleanCondition condition = true)
    (references : referencesKnownSelectors condition selectors = true)
    (feasible : feasibleQuantifiers condition selectors = true) :
    (∃ parse : Parse condition, parse.tree.Resolves selectors) ↔
      quantifiesKeyword condition = false := by
  constructor
  · rintro ⟨parse, resolves⟩
    rw [quantifiesKeyword, parse.tokenizes.finditer_eq, List.any_eq_false]
    rintro ⟨first, operator, target⟩ isWindow isAllOf
    simp only [allOfKeyword, Bool.and_eq_true, beq_iff_eq, bne_iff_ne,
      List.contains_iff_mem] at isAllOf
    obtain ⟨⟨⟨isAll, isOf⟩, keyword⟩, notThem⟩ := isAllOf
    have isQuantifier : (first, operator, target) ∈ parse.tree.quantifiers := by
      rw [← parse.derives.quantifierWindows_eq, quantifierWindows, List.mem_filter]
      exact ⟨isWindow, by simp [isQuantifierWindow, isQuantity, isAll, isOf]⟩
    exact (resolves.quantifier _ _ _ isQuantifier).1
      (denoted_keyword notKeywords keyword notThem)
  · intro noKeyword
    obtain ⟨parse, _, _⟩ := exists_parse_of_wellFormed wellFormed
    refine ⟨parse, parse.derives.resolves ?_ ?_⟩
    · intro word member isName
      exact (denoted_of_references references parse member isName.2.2).1 isName.2.1
    · intro quantity operator target member
      obtain ⟨isQuantity', isOf, isTarget⟩ :=
        parse.derives.quantifier_shape _ _ _ member
      have numeric : isdigit quantity.group = true →
          1 ≤ int quantity.group ∧
            int quantity.group ≤ (denoted selectors target.group).length := by
        intro number
        refine ⟨?_, quantity_le_of_feasible distinct feasible parse member number⟩
        rcases isQuantity' with isAll | ⟨_, positive⟩
        · have isWord : IsWord quantity.group :=
            isWord_of_keyword (by simp [isAll, conditionKeywords])
          rw [isWord.not_isdigit] at number
          contradiction
        · exact positive
      refine ⟨?_, numeric⟩
      by_cases isThem : lower target.group = lit "them"
      · simpa [denoted, isThem] using declared
      by_cases keyword : lower target.group ∈ conditionKeywords
      · rcases isQuantity' with isAll | ⟨number, _⟩
        · rw [quantifiesKeyword, parse.tokenizes.finditer_eq, List.any_eq_false] at noKeyword
          rw [← parse.derives.quantifierWindows_eq, quantifierWindows,
            List.mem_filter] at member
          exact absurd (by simp [allOfKeyword, isAll, isOf, keyword, isThem])
            (noKeyword _ member.1)
        · intro empty
          obtain ⟨positive, bounded⟩ := numeric number
          rw [empty, List.length_nil] at bounded
          omega
      · exact (denoted_of_references references parse isTarget keyword).2

end Detection
end SigmaForge
