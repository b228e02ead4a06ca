import SigmaForge.Detection.IdentityMap

/-!
# What the reading operations have seen

A reading operation that is served among others sees the rule row at one moment, and
each version that it reads at a later one.
-/

namespace SigmaForge
namespace Detection

open Text Json ReadCommitted

/-- The operation makes one query, which does not get a rule by its key. -/
def OneQuery {α : Type} (operation : Service α) : Prop :=
  ∃ (statement : Statement) (rest : Answer statement → Service α),
    GetsNoRule (.execute statement) ∧ operation = (execute statement).bind rest ∧
    ∀ answer, (rest answer).Only fun _ => False

section OneQuery

variable
    {python : Interpreter}
    {rule : DetectionRule}
    {currentVersionId : UUID}

theorem silent_decodeSnapshot (serialized : Str) :
    (decodeSnapshot python serialized).Only fun _ => False := by
  unfold decodeSnapshot
  split <;> trivial

theorem oneQuery_draftRest : OneQuery (draftRest python rule currentVersionId) := by
  refine ⟨.getVersion currentVersionId, _, trivial, rfl, fun version => ?_⟩
  · apply Program.Only.bind (Program.Only.ofOption _ _)
    intro version
    apply Program.Only.bind (Program.Only.ensure _ _)
    intro _
    exact Program.Only.bind (silent_decodeSnapshot _) fun _ => trivial

theorem oneQuery_versionsRest {ruleId : UUID} {limit offset : Nat} :
    OneQuery (versionsRest ruleId limit offset rule currentVersionId) :=
  ⟨.selectVersions ruleId offset (limit + 1), _, trivial, rfl, fun _ => trivial⟩

theorem oneQuery_versionRest {ruleId : UUID} {versionNumber : Int} :
    OneQuery (versionRest python ruleId versionNumber rule currentVersionId) := by
  refine ⟨.selectVersion ruleId versionNumber, _, trivial, rfl, fun version => ?_⟩
  · apply Program.Only.bind (Program.Only.ofOption _ _)
    intro version
    apply Program.Only.bind (Program.Only.ensure _ _)
    intro _
    exact Program.Only.bind (silent_decodeSnapshot _) fun _ => trivial

theorem OneQuery.bind
    {α β : Type}
    {operation : Service α}
    {next : α → Service β}
    (oneQuery : OneQuery operation)
    (silent : ∀ value, (next value).Only fun _ => False) :
    OneQuery (operation.bind next) := by
  obtain ⟨statement, rest, getsNone, rfl, silent'⟩ := oneQuery
  refine ⟨statement, fun answer => (rest answer).bind next, getsNone, ?_, fun answer => ?_⟩
  · exact Program.bind_assoc _ _ _
  · exact Program.Only.bind (silent' answer) silent

theorem silent_diffRest
    (ruleId : UUID)
    (versionNumber : Int)
    (previous current : RuleVersion) :
    (diffRest ruleId versionNumber previous current).Only fun _ => False := by
  apply Program.Only.bind (Program.Only.ensure _ _)
  intro _
  exact Program.Only.bind (Program.Only.ofOption _ _) fun _ => trivial

end OneQuery

section Sees

variable
    {python : Interpreter}
    {collation : Collation}
    {α : Type}
    {loaded : LoadedRules}
    {moments : List RuleStore}
    {ruleId ownerId : UUID}
    {result : Except ServiceError (α × LoadedRules)}

/-- One query, and what is computed from its answer. -/
theorem OneQuery.seen
    {operation : Service α}
    (oneQuery : OneQuery operation)
    (sees : Sees (schema collation) .database (operation.cached identityMap loaded) moments
      result)
    (returned : result ≠ .error .database) :
    ∃ store, moments = [store] ∧
      result = (operation.evaluate (onTables collation store)).map (·, loaded) := by
  obtain ⟨statement, rest, getsNone, rfl, silent⟩ := oneQuery
  obtain ⟨unknown, forgets⟩ := ignores_of_getsNoRule loaded _ getsNone
  obtain ⟨store, moments', rfl, ⟨answer, isAnswer, seen⟩ | ⟨_, isError⟩⟩ :=
    sees_unknown_bind unknown sees
  · rw [forgets] at seen
    obtain ⟨rfl, isResult⟩ := sees_of_silent (onTables collation store) (silent answer) seen
    refine ⟨store, rfl, isResult.trans ?_⟩
    have isQuery : (execute statement).evaluate (onTables collation store) = .ok answer := by
      unfold execute
      rw [Program.evaluate_perform]
      simp only [onTables, answersOn, isAnswer]
    rw [Program.evaluate_bind, isQuery]
    rfl
  · exact absurd isError returned

theorem readRule_eq_some_iff
    {store : RuleStore}
    {rule : DetectionRule}
    {currentVersionId : UUID} :
    readRule store ruleId ownerId = some (rule, currentVersionId) ↔
      store.rule ruleId = some rule ∧ rule.ownerId = ownerId ∧
        rule.currentVersionId = some currentVersionId := by
  unfold readRule RuleStore.ownedRule
  simp [Option.bind_eq_some_iff, Option.filter_eq_some_iff, and_assoc]

/-- The rule is read first, if the session has not loaded it. -/
theorem seen_withRule
    {rest : DetectionRule → UUID → Service α}
    (unknown : loaded ruleId = none)
    (sees : Sees (schema collation) .database
      ((withRule ruleId ownerId rest).cached identityMap loaded) moments result)
    (returned : result ≠ .error .database) :
    ∃ store moments', moments = store :: moments' ∧
      ((readRule store ruleId ownerId = none ∧ moments' = [] ∧ result = .error notFound) ∨
      ∃ rule currentVersionId, readRule store ruleId ownerId = some (rule, currentVersionId) ∧
        Sees (schema collation) .database
          ((rest rule currentVersionId).cached identityMap
            (Function.update loaded ruleId (some rule))) moments' result) := by
  have notKnown : identityMap.known loaded (.execute (.getRule ruleId)) = none := by
    simp only [identityMap, unknown, Option.map_none]
  rw [withRule_eq] at sees
  obtain ⟨store, moments', rfl, ⟨answer, isAnswer, seen⟩ | ⟨_, isError⟩⟩ :=
    sees_unknown_bind notKnown sees
  · refine ⟨store, moments', rfl, ?_⟩
    have isRule : answer = store.rule ruleId := (Option.some.inj isAnswer).symm
    subst isRule
    change (ownedBy ownerId (store.rule ruleId) = none ∧ _) ∨
      ∃ rule currentVersionId,
        ownedBy ownerId (store.rule ruleId) = some (rule, currentVersionId) ∧ _
    cases isRead : ownedBy ownerId (store.rule ruleId) with
    | none =>
        rw [isRead] at seen
        exact .inl ⟨rfl, seen⟩
    | some read =>
        obtain ⟨rule, currentVersionId⟩ := read
        obtain ⟨isRule, _⟩ := readRule_eq_some_iff.mp isRead
        rw [isRead, isRule] at seen
        exact .inr ⟨rule, currentVersionId, rfl, seen⟩
  · exact absurd isError returned

/-- A rule that the session has loaded is not read again. -/
theorem seen_withRule_loaded
    {rest : DetectionRule → UUID → Service α}
    {rule : DetectionRule}
    {currentVersionId : UUID}
    (isLoaded : loaded ruleId = some rule)
    (isOwned : rule.ownerId = ownerId)
    (isCurrent : rule.currentVersionId = some currentVersionId)
    (sees : Sees (schema collation) .database
      ((withRule ruleId ownerId rest).cached identityMap loaded) moments result) :
    Sees (schema collation) .database
      ((rest rule currentVersionId).cached identityMap loaded) moments result := by
  have isKnown : identityMap.known loaded (.execute (.getRule ruleId)) = some (some rule) := by
    simp only [identityMap, isLoaded, Option.map_some]
  rw [withRule_eq] at sees
  have seen := sees_recalled_bind isKnown sees
  have isRead : ownedBy ownerId (some rule) = some (rule, currentVersionId) := by
    rw [ownedBy_of_owned isOwned, isCurrent, Option.map_some]
  rw [isRead] at seen
  exact seen

/-- What is seen by an operation that reads the rule and makes one more query. -/
theorem seen_twice
    {rest : DetectionRule → UUID → Service α}
    (oneQuery : ∀ rule currentVersionId, OneQuery (rest rule currentVersionId))
    (unknown : loaded ruleId = none)
    (sees : Sees (schema collation) .database
      ((withRule ruleId ownerId rest).cached identityMap loaded) moments result)
    (returned : result ≠ .error .database) :
    (∃ store, moments = [store] ∧ readRule store ruleId ownerId = none ∧
      result = .error notFound) ∨
    ∃ first last rule currentVersionId, moments = [first, last] ∧
      readRule first ruleId ownerId = some (rule, currentVersionId) ∧
      result = ((rest rule currentVersionId).evaluate (onTables collation last)).map
        (·, Function.update loaded ruleId (some rule)) := by
  obtain ⟨store, moments', rfl, ⟨notRead, rfl, isError⟩ | ⟨rule, current, isRead, seen⟩⟩ :=
    seen_withRule unknown sees returned
  · exact .inl ⟨store, rfl, notRead, isError⟩
  · obtain ⟨last, rfl, isResult⟩ := (oneQuery rule current).seen seen returned
    exact .inr ⟨store, last, rule, current, rfl, isRead, isResult⟩

/-- What is seen by `diff_owned_rule_version`: both versions are compared with the same
rule row. -/
theorem seen_diff
    {versionNumber : Int}
    {result : Except ServiceError (RuleVersionDiff × LoadedRules)}
    (low : 2 ≤ versionNumber)
    (sees : Sees (schema collation) .database
      ((diffOwnedRuleVersion python ruleId ownerId versionNumber).cached identityMap
        fun _ => none) moments result)
    (returned : result ≠ .error .database) :
    (∃ store, moments = [store] ∧ readRule store ruleId ownerId = none ∧
      result = .error notFound) ∨
    ∃ first rule currentVersionId, readRule first ruleId ownerId = some (rule, currentVersionId) ∧
      ((∃ last error, moments = [first, last] ∧ result = .error error ∧
        (findVersion last ruleId (versionNumber - 1)).bind
          (versionBody python rule currentVersionId) = .error error) ∨
      ∃ second last previous loaded, moments = [first, second, last] ∧
        (findVersion second ruleId (versionNumber - 1)).bind
          (versionBody python rule currentVersionId) = .ok previous ∧
        result = (((findVersion last ruleId versionNumber).bind
          (versionBody python rule currentVersionId)).bind
            (diffBody ruleId versionNumber previous)).map (·, loaded)) := by
  rw [diffOwnedRuleVersion_eq, Program.ensure, if_pos low, Program.ret_bind,
    Program.cached_bind] at sees
  rcases sees_bind sees with ⟨⟨previous, loaded⟩, earlier, later, rfl, seen, rest⟩ |
    ⟨error, rfl, seen⟩
  · -- the previous version has been read, and the rule is in the identity map
    obtain ⟨_, _, _, isError⟩ | ⟨first, second, rule, current, rfl, isRead, isPrevious⟩ :=
      seen_twice (fun _ _ => oneQuery_versionRest) rfl seen (by simp)
    · contradiction
    rw [evaluate_versionRest] at isPrevious
    refine .inr ⟨first, rule, current, isRead, .inr ?_⟩
    cases isBody : (findVersion second ruleId (versionNumber - 1)).bind
        (versionBody python rule current) with
    | error error =>
        rw [isBody] at isPrevious
        contradiction
    | ok body =>
        rw [isBody] at isPrevious
        obtain ⟨rfl, rfl⟩ := Prod.mk.inj (Except.ok.inj isPrevious)
        obtain ⟨isRule, isOwned, isCurrent⟩ := readRule_eq_some_iff.mp isRead
        rw [getOwnedRuleVersion_eq, withRule_bind] at rest
        have isLoaded : Function.update (fun _ => none : LoadedRules) ruleId (some rule) ruleId =
            some rule := Function.update_self _ _ _
        obtain ⟨last, rfl, isResult⟩ :=
          (oneQuery_versionRest.bind (silent_diffRest ruleId versionNumber previous)).seen
            (seen_withRule_loaded isLoaded isOwned isCurrent rest) returned
        rw [Program.evaluate_bind, evaluate_versionRest] at isResult
        simp only [evaluate_diffRest] at isResult
        exact ⟨second, last, previous, _, rfl, isBody, isResult⟩
  · have firstReturned : (.error error : Except ServiceError (RuleVersion × LoadedRules)) ≠
        .error .database := by
      rintro isDatabase
      exact returned (congrArg Except.error (Except.error.inj isDatabase))
    obtain ⟨store, rfl, notRead, isError⟩ | ⟨first, last, rule, current, rfl, isRead, isError⟩ :=
      seen_twice (fun _ _ => oneQuery_versionRest) rfl seen firstReturned
    · exact .inl ⟨store, rfl, notRead, congrArg Except.error (Except.error.inj isError)⟩
    · rw [evaluate_versionRest] at isError
      refine .inr ⟨first, rule, current, isRead, .inl ⟨last, error, rfl, rfl, ?_⟩⟩
      cases isBody : (findVersion last ruleId (versionNumber - 1)).bind
          (versionBody python rule current) with
      | error error' =>
          rw [isBody] at isError
          exact congrArg Except.error (Except.error.inj isError).symm
      | ok body =>
          rw [isBody] at isError
          contradiction

/-- The response to a call is what its operation returns. -/
theorem seen_serveMapped
    {call : RuleCall python}
    {operation : Service α}
    {respond : α → Response}
    {response : Except ServiceError Response}
    (isProgram : call.program ownerId = operation.bind fun body => .ret (respond body))
    (sees : Sees (schema collation) .database (serveMapped (ownerId, call)) moments response) :
    ∃ result, response = result.map (fun body => respond body.1) ∧
      Sees (schema collation) .database (operation.cached identityMap fun _ => none) moments
        result := by
  have isMapped : serveMapped (ownerId, call) =
      (operation.cached identityMap fun _ => none).bind fun body => .ret (respond body.1) := by
    unfold serveMapped serve
    rw [isProgram, Program.cached_bind, Program.bind_assoc]
    rfl
  rw [isMapped] at sees
  rcases sees_bind sees with ⟨body, earlier, later, rfl, seen, rfl, rfl⟩ | ⟨error, rfl, seen⟩
  · rw [List.append_nil]
    exact ⟨.ok body, rfl, seen⟩
  · exact ⟨.error error, rfl, seen⟩

end Sees

end Detection
end SigmaForge
