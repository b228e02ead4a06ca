import SigmaForge.Detection.Store
import SigmaForge.Detection.Snapshot
import SigmaForge.Foundation.Json.Compare

/-!
# The operations on rule drafts

The functions of the service as programs over a session of their own.  The ids
that `uuid4` draws are arguments.
-/

namespace SigmaForge
namespace Detection

open Text Json ReadCommitted

/-- What an operation raises. -/
inductive ServiceError
  | http (exception : HTTPException)
  /-- An exception of SQLAlchemy or of the driver. -/
  | database
  | keyError
  deriving DecidableEq

/-- `HTTPException(status_code=409, detail=…)`. -/
def conflict (detail : Str) : ServiceError := .http ⟨409, detail⟩

/-- `HTTPException(status_code=404, detail="Rule not found")`. -/
def notFound : ServiceError := .http ruleNotFound

/-- An operation of the service. -/
abbrev Service (α : Type) := Program ServiceError (SessionAnswer Answer) α

/-- Executes a statement. -/
def execute (statement : Statement) : Service (Answer statement) :=
  Program.perform (SessionOp.execute statement)

/-- `session.flush()` with one pending object. -/
def flush (write : Write) : Service Unit := execute (.flush write)

/-- `COMMIT`. -/
def commit : Service Unit := Program.perform SessionOp.commit

/-- `session.rollback()`. -/
def rollback : Service Unit := Program.perform SessionOp.rollback

/-! ## Bodies -/

/-- `"structural_only"`. -/
def structuralOnly : Str := lit "structural_only"

/-- The body of `create_rule_draft` and `revise_owned_rule_draft`. -/
structure RuleReceipt where
  id : Str
  ruleUid : Str
  versionId : Str
  versionNumber : Int
  status : Str
  validationLevel : Str

/-- The receipt of a stored version. -/
def receipt (ruleId : UUID) (ruleUid : Str) (versionId : UUID) (versionNumber : Int) :
    RuleReceipt where
  id := ruleId.str
  ruleUid := ruleUid
  versionId := versionId.str
  versionNumber := versionNumber
  status := lit "draft"
  validationLevel := structuralOnly

/-- The body of `get_owned_rule_draft`. -/
structure RuleDraft where
  id : Str
  ruleUid : Str
  title : Str
  versionId : Str
  versionNumber : Int
  sigma : Value
  validationLevel : Str

/-- An item of `list_owned_rule_drafts`. -/
structure RuleDraftItem where
  id : Str
  ruleUid : Str
  title : Str
  versionId : Str
  versionNumber : Int
  validationLevel : Str

/-- The body of `list_owned_rule_drafts`. -/
structure RuleDraftPage where
  items : List RuleDraftItem
  limit : Nat
  offset : Nat
  hasMore : Bool

/-- An item of `list_owned_rule_versions`. -/
structure RuleVersionItem where
  versionId : Str
  versionNumber : Int
  isCurrent : Bool

/-- The body of `list_owned_rule_versions`. -/
structure RuleVersionPage where
  id : Str
  items : List RuleVersionItem
  limit : Nat
  offset : Nat
  hasMore : Bool
  validationLevel : Str

/-- The body of `get_owned_rule_version`. -/
structure RuleVersion where
  id : Str
  versionId : Str
  versionNumber : Int
  isCurrent : Bool
  sigma : Value
  validationLevel : Str

/-- What `summarize_rule_version_changes` returns. -/
structure RuleVersionChanges where
  fieldsChanged : List Str
  selectorsAdded : List Str
  selectorsRemoved : List Str
  selectorsModified : List Str
  hasChanges : Bool

/-- The body of `diff_owned_rule_version`. -/
structure RuleVersionDiff where
  id : Str
  previousVersionNumber : Int
  versionNumber : Int
  isCurrent : Bool
  validationLevel : Str
  changes : RuleVersionChanges

/-- The first of the log source's `product`, `category` and `service`. -/
def logSource (logsource : List (Str × Str)) : Option Str :=
  [lit "product", lit "category", lit "service"].findSome? fun key =>
    Value.lookup key logsource

/-- The ids that `create_rule_draft` draws. -/
structure FreshIds where
  ruleId : UUID
  versionId : UUID
  ruleUid : UUID

section Operations

variable {python : Interpreter}

/-- The rows of a new draft. -/
def newRule (draft : Draft python) (ownerId : UUID) (ids : FreshIds) : RuleColumns where
  ruleUid := ids.ruleUid.str
  title := draft.request.title
  status := .draft
  logSource := logSource draft.request.logsource
  ownerId := ownerId
  currentVersionId := none

/-- The row of a version that stores the draft. -/
def newVersion (ruleId : UUID) (versionNumber : Int) (draft : Draft python) (createdBy : UUID) :
    VersionColumns where
  ruleId := ruleId
  versionNumber := versionNumber
  sigmaYaml := sigmaYaml draft
  createdBy := createdBy

/-- The flush of a rule whose current version is now the given one. -/
def pointTo (ruleId : UUID) (draft : Draft python) (versionId : UUID) : Write :=
  .updateRule ruleId draft.request.title (logSource draft.request.logsource) versionId

/-- `create_rule_draft`. -/
def createRuleDraft (draft : Draft python) (ownerId : UUID) (ids : FreshIds) :
    Service RuleReceipt := do
  tryCatch
    (do
      flush (.insertRule ids.ruleId (newRule draft ownerId ids))
      flush (.insertVersion ids.versionId (newVersion ids.ruleId 1 draft ownerId))
      flush (pointTo ids.ruleId draft ids.versionId)
      commit)
    fun error => do
      rollback
      throw error
  return receipt ids.ruleId ids.ruleUid.str ids.versionId 1

/-- `_decode_stored_rule_snapshot` as a part of an operation. -/
def decodeSnapshot (python : Interpreter) (serialized : Str) : Service Value :=
  match decodeStoredRuleSnapshot python serialized with
  | .ok snapshot => pure snapshot
  | .error exception => throw (.http exception)

/-- `get_owned_rule_draft`. -/
def getOwnedRuleDraft (python : Interpreter) (ruleId ownerId : UUID) : Service RuleDraft := do
  let rule ← Program.ofOption notFound (← execute (.getRule ruleId))
  Program.ensure (rule.ownerId = ownerId) notFound
  let currentVersionId ← Program.ofOption notFound rule.currentVersionId
  let version ← Program.ofOption notFound (← execute (.getVersion currentVersionId))
  Program.ensure (version.ruleId = rule.id) notFound
  let sigma ← decodeSnapshot python version.sigmaYaml
  return {
    id := rule.id.str
    ruleUid := rule.ruleUid
    title := rule.title
    versionId := version.id.str
    versionNumber := version.versionNumber
    sigma := sigma
    validationLevel := structuralOnly }

/-- `list_owned_rule_drafts`. -/
def listOwnedRuleDrafts (ownerId : UUID) (limit offset : Nat) : Service RuleDraftPage := do
  let rows ← execute (.selectDrafts ownerId offset (limit + 1))
  let items := (rows.take limit).map fun (rule, version) => {
    id := rule.id.str
    ruleUid := rule.ruleUid
    title := rule.title
    versionId := version.id.str
    versionNumber := version.versionNumber
    validationLevel := structuralOnly }
  return { items, limit, offset, hasMore := rows.length > limit }

/-- `revise_owned_rule_draft`. -/
def reviseOwnedRuleDraft (ruleId ownerId : UUID) (expectedVersion : Int) (draft : Draft python)
    (versionId : UUID) : Service RuleReceipt := do
  let rule ← Program.ofOption notFound (← execute (.selectRuleForUpdate ruleId ownerId))
  Program.ensure (rule.id = ruleId ∧ rule.ownerId = ownerId) notFound
  Program.ensure (rule.status = .draft) (conflict (lit "Only drafts can be edited"))
  let currentVersionId ← Program.ofOption notFound rule.currentVersionId
  let previous ← Program.ofOption notFound (← execute (.getVersion currentVersionId))
  Program.ensure (previous.ruleId = rule.id) notFound
  Program.ensure (previous.versionNumber = expectedVersion)
    (conflict (lit "Draft version conflict"))
  let previousSnapshot ← decodeSnapshot python previous.sigmaYaml
  Program.ensure (draft.request.modelDump.pyEq previousSnapshot = false)
    (conflict (lit "Draft is unchanged"))
  tryCatch
    (do
      flush (.insertVersion versionId
        (newVersion rule.id (previous.versionNumber + 1) draft ownerId))
      flush (pointTo rule.id draft versionId)
      commit)
    fun error => do
      rollback
      throw error
  return receipt rule.id rule.ruleUid versionId (previous.versionNumber + 1)

/-- `list_owned_rule_versions`. -/
def listOwnedRuleVersions (ruleId ownerId : UUID) (limit offset : Nat) :
    Service RuleVersionPage := do
  let rule ← Program.ofOption notFound (← execute (.getRule ruleId))
  Program.ensure (rule.ownerId = ownerId) notFound
  let currentVersionId ← Program.ofOption notFound rule.currentVersionId
  let versions ← execute (.selectVersions ruleId offset (limit + 1))
  let items := (versions.take limit).map fun version => {
    versionId := version.id.str
    versionNumber := version.versionNumber
    isCurrent := version.id = currentVersionId }
  return {
    id := rule.id.str
    items, limit, offset
    hasMore := versions.length > limit
    validationLevel := structuralOnly }

/-- `get_owned_rule_version`. -/
def getOwnedRuleVersion (python : Interpreter) (ruleId ownerId : UUID) (versionNumber : Int) :
    Service RuleVersion := do
  let rule ← Program.ofOption notFound (← execute (.getRule ruleId))
  Program.ensure (rule.ownerId = ownerId) notFound
  let currentVersionId ← Program.ofOption notFound rule.currentVersionId
  let version ← Program.ofOption notFound (← execute (.selectVersion ruleId versionNumber))
  Program.ensure (version.ruleId = rule.id) notFound
  let sigma ← decodeSnapshot python version.sigmaYaml
  return {
    id := rule.id.str
    versionId := version.id.str
    versionNumber := version.versionNumber
    isCurrent := version.id = currentVersionId
    sigma := sigma
    validationLevel := structuralOnly }

end Operations

/-! ## The summary of changes -/

/-- `value[key]` of a dictionary. -/
def getItem (key : Str) : Value → Option Value
  | .object members => Value.lookup key members
  | _ => none

/-- `members.get(key)`, which is `None` without a member. -/
def getOrNone (key : Str) (members : List Member) : Value :=
  (Value.lookup key members).getD (.scalar .null)

/-- `sorted` on a set of strings. -/
def sortedNames (names : List Str) : List Str := names.insertionSort (· ≤ ·)

/-- The members of `detection` that are no reserved ones. -/
def selectorMembers (detection : List Member) : List Member :=
  detection.filter fun member =>
    !([lit "condition", lit "timeframe"].contains member.1)

/-- `summarize_rule_version_changes`; without a result, it raises a
`KeyError`. -/
def summarizeRuleVersionChanges (previous current : Value) : Option RuleVersionChanges :=
  match getItem (lit "detection") previous, getItem (lit "detection") current,
    getItem (lit "title") previous, getItem (lit "title") current,
    getItem (lit "logsource") previous, getItem (lit "logsource") current with
  | some (.object oldDetection), some (.object newDetection), some oldTitle, some newTitle,
    some oldLogsource, some newLogsource =>
      let oldSelectors := selectorMembers oldDetection
      let newSelectors := selectorMembers newDetection
      let oldNames := oldSelectors.map Prod.fst
      let newNames := newSelectors.map Prod.fst
      let differs := fun (field : Str) =>
        !(getOrNone field oldDetection).pyEq (getOrNone field newDetection)
      let fieldsChanged :=
        (if oldTitle.pyEq newTitle then [] else [lit "title"]) ++
        (if oldLogsource.pyEq newLogsource then [] else [lit "logsource"]) ++
        ([lit "condition", lit "timeframe"].filter differs).map (lit "detection." ++ ·)
      let added := sortedNames (newNames.filter fun name => !oldNames.contains name)
      let removed := sortedNames (oldNames.filter fun name => !newNames.contains name)
      let modified := sortedNames ((oldNames.filter newNames.contains).filter fun name =>
        !(getOrNone name oldSelectors).pyEq (getOrNone name newSelectors))
      some {
        fieldsChanged
        selectorsAdded := added
        selectorsRemoved := removed
        selectorsModified := modified
        hasChanges := !(fieldsChanged.isEmpty && added.isEmpty && removed.isEmpty &&
          modified.isEmpty) }
  | _, _, _, _, _, _ => none

/-- Whether a value is a `dict`. -/
def IsDict : Value → Prop
  | .object _ => True
  | _ => False

instance : DecidablePred IsDict := fun value =>
  match value with
  | .object _ => inferInstanceAs (Decidable True)
  | .scalar _ => inferInstanceAs (Decidable False)
  | .list _ => inferInstanceAs (Decidable False)

/-- `diff_owned_rule_version`. -/
def diffOwnedRuleVersion (python : Interpreter) (ruleId ownerId : UUID) (versionNumber : Int) :
    Service RuleVersionDiff := do
  Program.ensure (2 ≤ versionNumber) (.http ⟨404, lit "Previous version not found"⟩)
  let previous ← getOwnedRuleVersion python ruleId ownerId (versionNumber - 1)
  let current ← getOwnedRuleVersion python ruleId ownerId versionNumber
  Program.ensure (IsDict previous.sigma ∧ IsDict current.sigma) notFound
  let changes ← Program.ofOption .keyError
    (summarizeRuleVersionChanges previous.sigma current.sigma)
  return {
    id := ruleId.str
    previousVersionNumber := versionNumber - 1
    versionNumber := versionNumber
    isCurrent := current.isCurrent
    validationLevel := structuralOnly
    changes := changes }

/-! ## Calls -/

/-- A call of an operation.  The user is given separately. -/
inductive RuleCall (python : Interpreter)
  | create (draft : Draft python) (ids : FreshIds)
  | get (ruleId : UUID)
  | list (limit offset : Nat)
  | revise (ruleId : UUID) (expectedVersion : Int) (draft : Draft python) (versionId : UUID)
  | listVersions (ruleId : UUID) (limit offset : Nat)
  | getVersion (ruleId : UUID) (versionNumber : Int)
  | diff (ruleId : UUID) (versionNumber : Int)

/-- What a call returns. -/
inductive Response
  | receipt (body : RuleReceipt)
  | draft (body : RuleDraft)
  | drafts (body : RuleDraftPage)
  | versions (body : RuleVersionPage)
  | version (body : RuleVersion)
  | diff (body : RuleVersionDiff)

/-- The program of a call. -/
def RuleCall.program {python : Interpreter} (ownerId : UUID) :
    RuleCall python → Service Response
  | .create draft ids => return .receipt (← createRuleDraft draft ownerId ids)
  | .get ruleId => return .draft (← getOwnedRuleDraft python ruleId ownerId)
  | .list limit offset => return .drafts (← listOwnedRuleDrafts ownerId limit offset)
  | .revise ruleId expectedVersion draft versionId =>
      return .receipt (← reviseOwnedRuleDraft ruleId ownerId expectedVersion draft versionId)
  | .listVersions ruleId limit offset =>
      return .versions (← listOwnedRuleVersions ruleId ownerId limit offset)
  | .getVersion ruleId versionNumber =>
      return .version (← getOwnedRuleVersion python ruleId ownerId versionNumber)
  | .diff ruleId versionNumber =>
      return .diff (← diffOwnedRuleVersion python ruleId ownerId versionNumber)

end Detection
end SigmaForge
