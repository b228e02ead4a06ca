import SigmaForge.Detection.Validity
import SigmaForge.Foundation.Json.RoundTrip

/-!
# Resolution of accepted conditions

Which conditions of an accepted draft have a parse whose leaves all denote
declared selectors.
-/

namespace SigmaForge
namespace Detection

open Text Json

namespace RulePreflightRequest

/-- The names of the selectors are distinct, being keys of a dictionary. -/
theorem selectorNames_nodup
    {draft : RulePreflightRequest}
    (hasDicts : draft.HasDicts) :
    draft.selectorNames.Nodup := by
  have distinct : (draft.detection.map Prod.fst).Nodup := by
    cases hasDicts.detection with
    | object keys _ => exact keys
  have chosen : draft.selectors.Sublist draft.detection := List.filter_sublist
  exact (chosen.map Prod.fst).nodup distinct

end RulePreflightRequest

namespace Draft

variable {python : Interpreter}

/-- The condition strings of a draft. -/
def conditions (draft : Draft python) : List Str :=
  draft.request.conditions.getD []

theorem validCondition
    (draft : Draft python)
    {condition : Str}
    (isCondition : condition ∈ draft.conditions) :
    ValidCondition python draft.request.selectorNames condition := by
  obtain ⟨conditions, isConditions, _, _, valid⟩ := draft.valid.conditions
  rw [Draft.conditions, isConditions] at isCondition
  exact valid condition isCondition

/-- A condition of an accepted draft has a parse in which every leaf denotes a
declared selector exactly if none of its `all of` quantifiers is in front of a
keyword other than `them`. -/
theorem resolves_iff
    (draft : Draft python)
    (condition : Str)
    (isCondition : condition ∈ draft.conditions) :
    (∃ parse : Parse condition, parse.tree.Resolves draft.request.selectorNames) ↔
      quantifiesKeyword condition = false := by
  have checks := draft.validCondition isCondition
  have declared : draft.request.selectorNames ≠ [] := by
    rw [RulePreflightRequest.selectorNames, ne_eq, List.map_eq_nil_iff]
    exact draft.valid.declared
  exact exists_resolving_parse_iff declared
    (RulePreflightRequest.selectorNames_nodup draft.hasDicts)
    (fun name isName => (draft.valid.selectorNames name isName).2)
    checks.wellFormed checks.references checks.feasible

end Draft

/-! ## A small draft -/

/-- An interpreter that is exact on drafts in ASCII without floats. -/
def Interpreter.coarse : Interpreter := ⟨.coarse, .ofBits⟩

/-- A request with one selector `sel` and the given condition. -/
def oneSelector (condition : Str) : RulePreflightRequest where
  title := lit "Title"
  logsource := [(lit "product", lit "windows")]
  detection :=
    [(lit "sel", .object [(lit "EventID", .scalar (.int 1))]),
      (lit "condition", .scalar (.str condition))]

theorem oneSelector_hasDicts (condition : Str) : (oneSelector condition).HasDicts where
  logsource := by simp [oneSelector]
  detection := by
    have names : ((oneSelector condition).detection.map Prod.fst) =
        [lit "sel", lit "condition"] := rfl
    refine .object (by rw [names]; decide) fun member isMember => ?_
    simp only [oneSelector, List.mem_cons, List.not_mem_nil, or_false] at isMember
    rcases isMember with rfl | rfl
    · exact .object (by simp) (by simpa using .scalar trivial)
    · exact .scalar trivial

/-- A draft with the condition `sel`. -/
def Draft.sample : Draft .coarse where
  request := oneSelector (lit "sel")
  hasDicts := oneSelector_hasDicts _
  accepted := by decide +kernel

/-- A draft whose condition quantifies over its selectors. -/
def Draft.quantified : Draft .coarse where
  request := oneSelector (lit "all of sel* or not 1 of them")
  hasDicts := oneSelector_hasDicts _
  accepted := by decide +kernel

/-- A condition with two quantifiers resolves. -/
theorem sample_resolves_iff :
    lit "all of sel* or not 1 of them" ∈ Draft.quantified.conditions ∧
      ∃ parse : Parse (lit "all of sel* or not 1 of them"),
        parse.tree.Resolves Draft.quantified.request.selectorNames :=
  ⟨by decide +kernel,
    (Draft.quantified.resolves_iff (lit "all of sel* or not 1 of them") (by decide +kernel)).mpr
      (by decide +kernel)⟩

/-- A draft whose condition quantifies over the keyword `not`. -/
def Draft.allOfNot : Draft .coarse where
  request := oneSelector (lit "all of not and sel")
  hasDicts := oneSelector_hasDicts _
  accepted := by decide +kernel

/-- The draft is accepted although no parse of its condition resolves. -/
theorem allOfNot_unresolved :
    lit "all of not and sel" ∈ Draft.allOfNot.conditions ∧
      ¬∃ parse : Parse (lit "all of not and sel"),
        parse.tree.Resolves Draft.allOfNot.request.selectorNames := by
  have isCondition : lit "all of not and sel" ∈ Draft.allOfNot.conditions := by decide +kernel
  have checks := Draft.allOfNot.validCondition isCondition
  refine ⟨isCondition, ?_⟩
  rw [exists_resolving_parse_iff (by decide +kernel)
    (RulePreflightRequest.selectorNames_nodup Draft.allOfNot.hasDicts)
    (fun name isName => (Draft.allOfNot.valid.selectorNames name isName).2)
    checks.wellFormed checks.references checks.feasible]
  decide +kernel

end Detection
end SigmaForge
