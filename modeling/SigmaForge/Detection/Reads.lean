import SigmaForge.Detection.History
import SigmaForge.Detection.Isolation
import SigmaForge.Foundation.Paging
import SigmaForge.Foundation.Queries

/-!
# What the reading operations return

The result of each reading operation as a function of what it reads.
-/

namespace SigmaForge
namespace Detection

open Text Json ReadCommitted

/-! ## What is computed from the rows -/

section Rows

variable (python : Interpreter)

/-- The rule of a user, with the id of its current version. -/
def readRule (store : RuleStore) (ruleId ownerId : UUID) : Option (DetectionRule × UUID) :=
  (store.ownedRule ownerId ruleId).bind fun rule => rule.currentVersionId.map (rule, ·)

/-- A rule to which a version has been added is read by its owner. -/
theorem Appended.readRule
    {before after : RuleStore}
    {ruleId versionId : UUID}
    {rule : RuleColumns}
    {version : VersionColumns}
    (appended : Appended before after ruleId rule versionId version) :
    readRule after ruleId rule.ownerId = some (⟨rule, ruleId⟩, versionId) := by
  have isOwned : after.ownedRule rule.ownerId ruleId = some ⟨rule, ruleId⟩ :=
    RuleStore.ownedRule_eq_some_iff.mpr ⟨rfl, appended.lookup_rule, rfl⟩
  rw [Detection.readRule, isOwned, Option.bind_some, appended.isCurrent, Option.map_some]

/-- The body of `get_owned_rule_draft` from the rows that it reads. -/
def draftBody (rule : DetectionRule) (version : Option DetectionRuleVersion) :
    Except ServiceError RuleDraft :=
  match version.filter fun version => version.ruleId = rule.id with
  | none => .error notFound
  | some version =>
      match decodeStoredRuleSnapshot python version.sigmaYaml with
      | .error exception => .error (.http exception)
      | .ok sigma => .ok {
          id := rule.id.str
          ruleUid := rule.ruleUid
          title := rule.title
          versionId := version.id.str
          versionNumber := version.versionNumber
          sigma := sigma
          validationLevel := structuralOnly }

/-- The body of `list_owned_rule_drafts` from the rows that it reads. -/
def draftsBody (rows : List (DetectionRule × DetectionRuleVersion)) (limit offset : Nat) :
    RuleDraftPage where
  items := (rows.take limit).map fun (rule, version) => {
    id := rule.id.str
    ruleUid := rule.ruleUid
    title := rule.title
    versionId := version.id.str
    versionNumber := version.versionNumber
    validationLevel := structuralOnly }
  limit := limit
  offset := offset
  hasMore := rows.length > limit

/-- The body of `list_owned_rule_versions` from the rows that it reads. -/
def versionsBody (rule : DetectionRule) (currentVersionId : UUID)
    (versions : List DetectionRuleVersion) (limit offset : Nat) : RuleVersionPage where
  id := rule.id.str
  items := (versions.take limit).map fun version => {
    versionId := version.id.str
    versionNumber := version.versionNumber
    isCurrent := version.id = currentVersionId }
  limit := limit
  offset := offset
  hasMore := versions.length > limit
  validationLevel := structuralOnly

/-- The body of `get_owned_rule_version` from the rows that it reads. -/
def versionBody (rule : DetectionRule) (currentVersionId : UUID)
    (version : Option DetectionRuleVersion) : Except ServiceError RuleVersion :=
  match version.filter fun version => version.ruleId = rule.id with
  | none => .error notFound
  | some version =>
      match decodeStoredRuleSnapshot python version.sigmaYaml with
      | .error exception => .error (.http exception)
      | .ok sigma => .ok {
          id := rule.id.str
          versionId := version.id.str
          versionNumber := version.versionNumber
          isCurrent := version.id = currentVersionId
          sigma := sigma
          validationLevel := structuralOnly }

/-- The body of `diff_owned_rule_version` from the two versions. -/
def diffBody (ruleId : UUID) (versionNumber : Int) (previous current : RuleVersion) :
    Except ServiceError RuleVersionDiff :=
  if IsDict previous.sigma ∧ IsDict current.sigma then
    match summarizeRuleVersionChanges previous.sigma current.sigma with
    | none => .error .keyError
    | some changes => .ok {
        id := ruleId.str
        previousVersionNumber := versionNumber - 1
        versionNumber := versionNumber
        isCurrent := current.isCurrent
        validationLevel := structuralOnly
        changes := changes }
  else .error notFound

/-- The version with the given number, if the driver accepts the number. -/
def findVersion (store : RuleStore) (ruleId : UUID) (versionNumber : Int) :
    Except ServiceError (Option DetectionRuleVersion) :=
  if IsInteger versionNumber then
    .ok ((store.versionList ruleId).find? fun version => version.versionNumber = versionNumber)
  else .error .database

end Rows

/-! ## What is done with the rule -/

section Programs

variable (python : Interpreter)

/-- The first query of the operations that read one rule. -/
def withRule {α : Type} (ruleId ownerId : UUID) (rest : DetectionRule → UUID → Service α) :
    Service α := do
  let rule ← Program.ofOption notFound (← execute (.getRule ruleId))
  Program.ensure (rule.ownerId = ownerId) notFound
  let currentVersionId ← Program.ofOption notFound rule.currentVersionId
  rest rule currentVersionId

/-- The rule that has been read, if the user owns it, with the id of its current
version. -/
def ownedBy (ownerId : UUID) (answer : Option DetectionRule) : Option (DetectionRule × UUID) :=
  (answer.filter fun rule => rule.ownerId = ownerId).bind fun rule =>
    rule.currentVersionId.map (rule, ·)

theorem ownedBy_of_owned
    {ownerId : UUID}
    {rule : DetectionRule}
    (isOwned : rule.ownerId = ownerId) :
    ownedBy ownerId (some rule) = rule.currentVersionId.map (rule, ·) := by
  rw [ownedBy, Option.filter_some_pos (by simpa using isOwned), Option.bind_some]

/-- A rule that is not there, or that the user does not own, is not found. -/
theorem withRule_eq
    {α : Type}
    (ruleId ownerId : UUID)
    (rest : DetectionRule → UUID → Service α) :
    withRule ruleId ownerId rest = (execute (.getRule ruleId)).bind fun answer =>
      (Program.ofOption notFound (ownedBy ownerId answer)).bind fun read =>
        rest read.1 read.2 := by
  unfold withRule
  simp only [Program.bind_eq]
  congr 1
  funext answer
  cases answer with
  | none => rfl
  | some rule =>
      change ((Program.ensure (rule.ownerId = ownerId) notFound).bind fun _ =>
        (Program.ofOption notFound rule.currentVersionId).bind (rest rule)) = _
      by_cases isOwned : rule.ownerId = ownerId
      · rw [ownedBy_of_owned isOwned, Program.ensure, if_pos isOwned]
        cases rule.currentVersionId <;> rfl
      · have notRead : ownedBy ownerId (some rule) = none := by
          rw [ownedBy, Option.filter_some_neg (by simpa using isOwned), Option.bind_none]
        rw [notRead, Program.ensure, if_neg isOwned]
        rfl

theorem withRule_bind
    {α β : Type}
    (ruleId ownerId : UUID)
    (rest : DetectionRule → UUID → Service α)
    (next : α → Service β) :
    (withRule ruleId ownerId rest).bind next =
      withRule ruleId ownerId fun rule currentVersionId =>
        (rest rule currentVersionId).bind next := by
  rw [withRule_eq, withRule_eq, Program.bind_assoc]
  simp only [Program.bind_assoc]

/-- `get_owned_rule_draft` after its first query. -/
def draftRest (rule : DetectionRule) (currentVersionId : UUID) : Service RuleDraft := do
  let version ← Program.ofOption notFound (← execute (.getVersion currentVersionId))
  Program.ensure (version.ruleId = rule.id) notFound
  let sigma ← decodeSnapshot python version.sigmaYaml
  return {
    id := rule.id.str
    ruleUid := rule.ruleUid
    title := rule.title
    versionId := version.id.str
    versionNumber := version.versionNumber
    sigma := sigma
    validationLevel := structuralOnly }

/-- `list_owned_rule_versions` after its first query. -/
def versionsRest (ruleId : UUID) (limit offset : Nat) (rule : DetectionRule)
    (currentVersionId : UUID) : Service RuleVersionPage := do
  let versions ← execute (.selectVersions ruleId offset (limit + 1))
  return versionsBody rule currentVersionId versions limit offset

/-- `get_owned_rule_version` after its first query. -/
def versionRest (ruleId : UUID) (versionNumber : Int) (rule : DetectionRule)
    (currentVersionId : UUID) : Service RuleVersion := do
  let version ← Program.ofOption notFound (← execute (.selectVersion ruleId versionNumber))
  Program.ensure (version.ruleId = rule.id) notFound
  let sigma ← decodeSnapshot python version.sigmaYaml
  return {
    id := rule.id.str
    versionId := version.id.str
    versionNumber := version.versionNumber
    isCurrent := version.id = currentVersionId
    sigma := sigma
    validationLevel := structuralOnly }

theorem getOwnedRuleDraft_eq (ruleId ownerId : UUID) :
    getOwnedRuleDraft python ruleId ownerId = withRule ruleId ownerId (draftRest python) := rfl

theorem listOwnedRuleVersions_eq (ruleId ownerId : UUID) (limit offset : Nat) :
    listOwnedRuleVersions ruleId ownerId limit offset =
      withRule ruleId ownerId (versionsRest ruleId limit offset) := rfl

theorem getOwnedRuleVersion_eq (ruleId ownerId : UUID) (versionNumber : Int) :
    getOwnedRuleVersion python ruleId ownerId versionNumber =
      withRule ruleId ownerId (versionRest python ruleId versionNumber) := rfl

/-- `diff_owned_rule_version` after it has read both versions. -/
def diffRest (ruleId : UUID) (versionNumber : Int) (previous current : RuleVersion) :
    Service RuleVersionDiff := do
  Program.ensure (IsDict previous.sigma ∧ IsDict current.sigma) notFound
  let changes ← Program.ofOption .keyError
    (summarizeRuleVersionChanges previous.sigma current.sigma)
  return {
    id := ruleId.str
    previousVersionNumber := versionNumber - 1
    versionNumber := versionNumber
    isCurrent := current.isCurrent
    validationLevel := structuralOnly
    changes := changes }

theorem diffOwnedRuleVersion_eq (ruleId ownerId : UUID) (versionNumber : Int) :
    diffOwnedRuleVersion python ruleId ownerId versionNumber =
      (Program.ensure (2 ≤ versionNumber)
        (.http ⟨404, lit "Previous version not found"⟩)).bind fun _ =>
        (getOwnedRuleVersion python ruleId ownerId (versionNumber - 1)).bind fun previous =>
          (getOwnedRuleVersion python ruleId ownerId versionNumber).bind
            (diffRest ruleId versionNumber previous) := rfl

end Programs

/-! ## The operations alone -/

section Evaluate

variable
    {python : Interpreter}
    {collation : Collation}
    {store : RuleStore}

/-- The answers of the queries on the given tables. -/
abbrev onTables (collation : Collation) (store : RuleStore) :=
  answersOn (schema collation) ServiceError.database store

theorem isQueryOf_of_isQuery
    {op : SessionOp Statement}
    (isQuery : IsQuery collation op) :
    IsQueryOf (schema collation) op := by
  cases op with
  | execute statement => exact isQuery
  | commit => exact isQuery
  | rollback => exact isQuery
  | now => exact isQuery

/-- A reading operation that is served alone. -/
theorem request_of_reads
    {call : RuleCall python}
    (onlyReads : call.OnlyReads)
    (ownerId : UUID) :
    request python collation ownerId call store =
      ((call.program ownerId).evaluate (onTables collation store), store) :=
  alone_of_queries ((queries_program ownerId onlyReads).mono fun _ => isQueryOf_of_isQuery)
    ServiceError.database 0 store

/-- A reading operation returns the body that it computes. -/
theorem request_reads_iff
    {α : Type}
    (call : RuleCall python)
    {ownerId : UUID}
    {operation : Service α}
    {respond : α → Response}
    (onlyReads : call.OnlyReads)
    (isProgram : call.program ownerId = operation.bind fun body => .ret (respond body))
    (injective : Function.Injective respond)
    {body : α} :
    request python collation ownerId call store = (.ok (respond body), store) ↔
      operation.evaluate (onTables collation store) = .ok body := by
  rw [request_of_reads onlyReads, isProgram, Program.evaluate_bind]
  cases operation.evaluate (onTables collation store) with
  | error error => simp [Except.bind]
  | ok body' => simp [Except.bind, injective.eq_iff]

section Returns

variable {ruleId ownerId : UUID}

theorem request_get_iff {body : RuleDraft} :
    request python collation ownerId (.get ruleId) store = (.ok (.draft body), store) ↔
      (getOwnedRuleDraft python ruleId ownerId).evaluate (onTables collation store) = .ok body :=
  request_reads_iff (.get ruleId) trivial rfl fun _ _ => Response.draft.inj

theorem request_list_iff {limit offset : Nat} {body : RuleDraftPage} :
    request python collation ownerId (.list limit offset) store = (.ok (.drafts body), store) ↔
      (listOwnedRuleDrafts ownerId limit offset).evaluate (onTables collation store) = .ok body :=
  request_reads_iff (.list limit offset) trivial rfl fun _ _ => Response.drafts.inj

theorem request_listVersions_iff {limit offset : Nat} {body : RuleVersionPage} :
    request python collation ownerId (.listVersions ruleId limit offset) store =
        (.ok (.versions body), store) ↔
      (listOwnedRuleVersions ruleId ownerId limit offset).evaluate (onTables collation store) =
        .ok body :=
  request_reads_iff (.listVersions ruleId limit offset) trivial rfl fun _ _ => Response.versions.inj

theorem request_getVersion_iff {versionNumber : Int} {body : RuleVersion} :
    request python collation ownerId (.getVersion ruleId versionNumber) store =
        (.ok (.version body), store) ↔
      (getOwnedRuleVersion python ruleId ownerId versionNumber).evaluate
        (onTables collation store) = .ok body :=
  request_reads_iff (.getVersion ruleId versionNumber) trivial rfl fun _ _ => Response.version.inj

theorem request_diff_iff {versionNumber : Int} {body : RuleVersionDiff} :
    request python collation ownerId (.diff ruleId versionNumber) store =
        (.ok (.diff body), store) ↔
      (diffOwnedRuleVersion python ruleId ownerId versionNumber).evaluate
        (onTables collation store) = .ok body :=
  request_reads_iff (.diff ruleId versionNumber) trivial rfl fun _ _ => Response.diff.inj

end Returns

/-- What is done with the version that has been read. -/
theorem evaluate_version_bind
    {α : Type}
    (answers : (op : SessionOp Statement) → Except ServiceError (SessionAnswer Answer op))
    (rule : DetectionRule)
    (version : Option DetectionRuleVersion)
    (body : DetectionRuleVersion → Value → α) :
    ((Program.ofOption notFound version).bind fun version =>
      (Program.ensure (version.ruleId = rule.id) notFound).bind fun _ =>
        (decodeSnapshot python version.sigmaYaml).bind fun sigma =>
          (.ret (body version sigma) : Service α)).evaluate answers =
      match version.filter fun version => version.ruleId = rule.id with
      | none => .error notFound
      | some version =>
          match decodeStoredRuleSnapshot python version.sigmaYaml with
          | .error exception => .error (.http exception)
          | .ok sigma => .ok (body version sigma) := by
  cases version with
  | none => rfl
  | some version =>
      by_cases sameRule : version.ruleId = rule.id
      · simp only [Program.ofOption, Program.bind, Program.ensure, sameRule, if_true,
          Option.filter, decide_true, decodeSnapshot]
        cases decodeStoredRuleSnapshot python version.sigmaYaml <;> rfl
      · simp only [Program.ofOption, Program.bind, Program.ensure, sameRule, if_false,
          Option.filter, decide_false, Bool.false_eq_true]
        rfl

theorem evaluate_withRule
    {α : Type}
    (ruleId ownerId : UUID)
    (rest : DetectionRule → UUID → Service α) :
    (withRule ruleId ownerId rest).evaluate (onTables collation store) =
      match readRule store ruleId ownerId with
      | none => .error notFound
      | some (rule, currentVersionId) =>
          (rest rule currentVersionId).evaluate (onTables collation store) := by
  have isRule : (execute (.getRule ruleId)).evaluate (onTables collation store) =
      .ok (store.rule ruleId) := rfl
  rw [withRule_eq, Program.evaluate_bind, isRule, Except.bind, Program.evaluate_bind]
  unfold readRule RuleStore.ownedRule
  rw [← ownedBy]
  cases ownedBy ownerId (store.rule ruleId) <;> rfl

theorem evaluate_selectVersion (ruleId : UUID) (versionNumber : Int) :
    (execute (.selectVersion ruleId versionNumber)).evaluate (onTables collation store) =
      findVersion store ruleId versionNumber := by
  unfold execute findVersion
  rw [Program.evaluate_perform]
  by_cases isInteger : IsInteger versionNumber
  · simp only [onTables, answersOn, schema, effect, if_pos isInteger, reads]
  · simp only [onTables, answersOn, schema, effect, if_neg isInteger]

theorem evaluate_draftRest (rule : DetectionRule) (currentVersionId : UUID) :
    (draftRest python rule currentVersionId).evaluate (onTables collation store) =
      draftBody python rule (store.version currentVersionId) :=
  evaluate_version_bind _ rule (store.version currentVersionId) _

theorem evaluate_versionsRest
    (ruleId : UUID)
    (limit offset : Nat)
    (rule : DetectionRule)
    (currentVersionId : UUID) :
    (versionsRest ruleId limit offset rule currentVersionId).evaluate (onTables collation store) =
      .ok (versionsBody rule currentVersionId
        (((store.versionList ruleId).drop offset).take (limit + 1)) limit offset) := rfl

theorem evaluate_versionRest
    (ruleId : UUID)
    (versionNumber : Int)
    (rule : DetectionRule)
    (currentVersionId : UUID) :
    (versionRest python ruleId versionNumber rule currentVersionId).evaluate
        (onTables collation store) =
      (findVersion store ruleId versionNumber).bind (versionBody python rule currentVersionId) := by
  unfold versionRest
  simp only [Program.bind_eq]
  rw [Program.evaluate_bind, evaluate_selectVersion]
  congr 1
  funext version
  exact evaluate_version_bind _ rule version _

theorem evaluate_listOwnedRuleVersions (ruleId ownerId : UUID) (limit offset : Nat) :
    (listOwnedRuleVersions ruleId ownerId limit offset).evaluate (onTables collation store) =
      match readRule store ruleId ownerId with
      | none => .error notFound
      | some (rule, currentVersionId) =>
          .ok (versionsBody rule currentVersionId
            (((store.versionList ruleId).drop offset).take (limit + 1)) limit offset) := by
  rw [listOwnedRuleVersions_eq, evaluate_withRule]
  simp only [evaluate_versionsRest]

theorem evaluate_getOwnedRuleVersion (ruleId ownerId : UUID) (versionNumber : Int) :
    (getOwnedRuleVersion python ruleId ownerId versionNumber).evaluate
        (onTables collation store) =
      match readRule store ruleId ownerId with
      | none => .error notFound
      | some (rule, currentVersionId) =>
          (findVersion store ruleId versionNumber).bind
            (versionBody python rule currentVersionId) := by
  rw [getOwnedRuleVersion_eq, evaluate_withRule]
  simp only [evaluate_versionRest]

theorem evaluate_getOwnedRuleDraft (ruleId ownerId : UUID) :
    (getOwnedRuleDraft python ruleId ownerId).evaluate (onTables collation store) =
      match readRule store ruleId ownerId with
      | none => .error notFound
      | some (rule, currentVersionId) =>
          draftBody python rule (store.version currentVersionId) := by
  rw [getOwnedRuleDraft_eq, evaluate_withRule]
  simp only [evaluate_draftRest]

theorem evaluate_diffRest
    (answers : (op : SessionOp Statement) → Except ServiceError (SessionAnswer Answer op))
    (ruleId : UUID)
    (versionNumber : Int)
    (previous current : RuleVersion) :
    (diffRest ruleId versionNumber previous current).evaluate answers =
      diffBody ruleId versionNumber previous current := by
  unfold diffRest diffBody Program.ensure
  split
  · cases summarizeRuleVersionChanges previous.sigma current.sigma <;> rfl
  · rfl

theorem evaluate_diffOwnedRuleVersion (ruleId ownerId : UUID) (versionNumber : Int) :
    (diffOwnedRuleVersion python ruleId ownerId versionNumber).evaluate
        (onTables collation store) =
      if 2 ≤ versionNumber then
        ((getOwnedRuleVersion python ruleId ownerId (versionNumber - 1)).evaluate
          (onTables collation store)).bind fun previous =>
            ((getOwnedRuleVersion python ruleId ownerId versionNumber).evaluate
              (onTables collation store)).bind (diffBody ruleId versionNumber previous)
      else .error (.http ⟨404, lit "Previous version not found"⟩) := by
  rw [diffOwnedRuleVersion_eq]
  by_cases isLater : 2 ≤ versionNumber
  · rw [Program.ensure, if_pos isLater, if_pos isLater, Program.ret_bind, Program.evaluate_bind]
    congr 1
    funext previous
    rw [Program.evaluate_bind]
    congr 1
    funext current
    exact evaluate_diffRest _ ruleId versionNumber previous current
  · rw [Program.ensure, if_neg isLater, if_neg isLater]
    rfl

theorem evaluate_listOwnedRuleDrafts (ownerId : UUID) (limit offset : Nat) :
    (listOwnedRuleDrafts ownerId limit offset).evaluate (onTables collation store) =
      .ok (draftsBody (((store.drafts collation ownerId).drop offset).take (limit + 1)) limit
        offset) := rfl

end Evaluate

end Detection
end SigmaForge
