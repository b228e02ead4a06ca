import SigmaForge.Detection.Reads
import SigmaForge.Foundation.Cache

/-!
# Sessions with an identity map

A session keeps the rules that it has loaded.  A second `session.get` returns such a
rule as it was, without a query.
-/

namespace SigmaForge
namespace Detection

open Text Json ReadCommitted

/-- The rules that a session has loaded. -/
abbrev LoadedRules := UUID → Option DetectionRule

/-- The identity map of a session. -/
def identityMap : Cache ServiceError (SessionAnswer Answer) LoadedRules where
  known loaded
    | .execute (.getRule id) => (loaded id).map some
    | _ => none
  record loaded
    | .execute (.getRule id), .ok (some rule) => Function.update loaded id (some rule)
    | _, _ => loaded

/-- What a session with an identity map runs. -/
def serveMapped {python : Interpreter} (request : UUID × RuleCall python) : Service Response :=
  ((serve request).cached identityMap fun _ => none).bind fun response => .ret response.1

/-- The operation does not get a rule by its key. -/
def GetsNoRule : SessionOp Statement → Prop
  | .execute (.getRule _) => False
  | _ => True

theorem ignores_of_getsNoRule
    (loaded : LoadedRules)
    (op : SessionOp Statement)
    (getsNone : GetsNoRule op) :
    identityMap.known loaded op = none ∧
      ∀ answer, identityMap.record loaded op answer = loaded := by
  match op, getsNone with
  | .execute (.getRule _), getsNone => exact getsNone.elim
  | .execute (.getVersion _), _ => exact ⟨rfl, fun _ => rfl⟩
  | .execute (.selectDrafts _ _ _), _ => exact ⟨rfl, fun _ => rfl⟩
  | .execute (.selectRuleForUpdate _ _), _ => exact ⟨rfl, fun _ => rfl⟩
  | .execute (.selectVersions _ _ _), _ => exact ⟨rfl, fun _ => rfl⟩
  | .execute (.selectVersion _ _), _ => exact ⟨rfl, fun _ => rfl⟩
  | .execute (.flush _), _ => exact ⟨rfl, fun _ => rfl⟩
  | .commit, _ => exact ⟨rfl, fun _ => rfl⟩
  | .rollback, _ => exact ⟨rfl, fun _ => rfl⟩
  | .now, _ => exact ⟨rfl, fun _ => rfl⟩

section Outlines

variable
    {python : Interpreter}
    {collation : Collation}

/-- The operations that write do not depend on the identity map. -/
theorem serveMapped_of_getsNoRule
    {request : UUID × RuleCall python}
    (getsNone : (serve request).Only GetsNoRule) :
    serveMapped request = serve request := by
  unfold serveMapped
  rw [Program.cached_of_only ignores_of_getsNoRule getsNone, Program.bind_assoc]
  exact Program.bind_ret _

theorem getsNoRule_create
    (ownerId : UUID)
    (draft : Draft python)
    (ids : FreshIds) :
    (serve (ownerId, .create draft ids)).Only GetsNoRule :=
  Program.Only.bind (only_createRuleDraft trivial trivial draft ownerId ids
    fun _ _ => trivial) fun _ => trivial

theorem getsNoRule_revise
    (ownerId ruleId versionId : UUID)
    (expectedVersion : Int)
    (draft : Draft python) :
    (serve (ownerId, .revise ruleId expectedVersion draft versionId)).Only GetsNoRule :=
  Program.Only.bind (only_reviseOwnedRuleDraft trivial trivial ruleId ownerId expectedVersion
    draft versionId trivial (fun _ => trivial) fun _ _ _ _ => trivial) fun _ => trivial

/-- Reading calls consist of queries, also with an identity map. -/
theorem queries_serveMapped
    {request : UUID × RuleCall python}
    (onlyReads : request.2.OnlyReads) :
    (serveMapped request).Only (IsQuery collation) :=
  Program.Only.bind (queries_program request.1 onlyReads).cached fun _ => trivial

/-- All sessions with identity maps follow the same outlines. -/
theorem outlined_serveMapped (python : Interpreter) (collation : Collation) :
    Outlined (ruleMachine python collation) (advancingOnly python collation) serveMapped Untouched
      fun pid request => Outcome collation pid request.1 request.2 := by
  have reading : ∀ (pid : ProcId) (request : UUID × RuleCall python), request.2.OnlyReads →
      Outline (ruleMachine python collation) (advancingOnly python collation) pid
        (serveMapped request) (Untouched pid) fun _ db => Uncommitted pid db.log :=
    fun pid request onlyReads => (outline_of_queries (queries_serveMapped onlyReads)).consequence
      fun _ _ _ holds => holds.2
  apply outlined_of_outlines
  · exact fun pid request result => stable_outcome request.1 request.2 result
  · intro pid request result db holds
    obtain ⟨ownerId, call⟩ := request
    cases call <;> cases result <;> exact holds
  · intro pid request
    obtain ⟨ownerId, call⟩ := request
    cases call with
    | create draft ids =>
        rw [serveMapped_of_getsNoRule (getsNoRule_create ownerId draft ids)]
        exact outline_program ownerId _
    | revise ruleId expectedVersion draft versionId =>
        rw [serveMapped_of_getsNoRule
          (getsNoRule_revise ownerId ruleId versionId expectedVersion draft)]
        exact outline_program ownerId _
    | get ruleId =>
        exact (reading pid (ownerId, .get ruleId) trivial).consequence fun _ _ _ holds => holds
    | list limit offset =>
        exact (reading pid (ownerId, .list limit offset) trivial).consequence
          fun _ _ _ holds => holds
    | listVersions ruleId limit offset =>
        exact (reading pid (ownerId, .listVersions ruleId limit offset) trivial).consequence
          fun _ _ _ holds => holds
    | getVersion ruleId versionNumber =>
        exact (reading pid (ownerId, .getVersion ruleId versionNumber) trivial).consequence
          fun _ _ _ holds => holds
    | diff ruleId versionNumber =>
        exact (reading pid (ownerId, .diff ruleId versionNumber) trivial).consequence
          fun _ _ _ holds => holds

/-- A request to write that is served while no other process holds a lock. -/
theorem steps_of_writing
    (pid : ProcId)
    {ownerId : UUID}
    {call : RuleCall python}
    {initial : RuleStore}
    {config : Config ServiceError (SessionAnswer Answer) (UUID × RuleCall python) RuleDb Response}
    (reachable : Reachable (ruleMachine python collation) serveMapped (Db.start initial 0) config)
    (getsNone : (serve (ownerId, call)).Only GetsNoRule)
    (isIdle : config.process pid = none)
    (noHolder : ∀ key, config.shared.holder key = none)
    (isClock : config.shared.clock = 0) :
    ∃ config', Steps (ruleMachine python collation) serveMapped config config' ∧
      (∀ other, other ≠ pid → config'.process other = config.process other) ∧
      config'.shared.committed (schema collation) =
        (request python collation ownerId call (config.shared.committed (schema collation))).2 ∧
      (∀ key, config'.shared.holder key = none) ∧ config'.shared.clock = 0 := by
  have isFresh : SigmaForge.Fresh serveMapped (config.process pid) := by
    rw [isIdle]
    trivial
  have untouched := untouched_of_fresh reachable isFresh
  obtain ⟨config', steps, isProcess, isCommitted, noHolder', isClock'⟩ :=
    steps_of_alone (schema collation) ServiceError.database 0 pid (ownerId, call) isIdle noHolder
      untouched.1 isClock
  refine ⟨config', steps, fun other different => ?_, ?_, noHolder', isClock'⟩
  · rw [isProcess, Function.update_of_ne different]
  · rw [isCommitted, serveMapped_of_getsNoRule getsNone]
    rfl

end Outlines

end Detection
end SigmaForge
