import SigmaForge.Detection.Resolution
import SigmaForge.Detection.VersionChain
import SigmaForge.Foundation.Serial

/-!
# Requests that are served alone

Without other sessions and without failures, a request has one result.  Its
transaction commits if all of its writes are admissible, and else it raises.
-/

namespace SigmaForge
namespace Detection

open Text Json ReadCommitted

/-- How a session that is alone performs an operation on the rules. -/
abbrev ruleAnswers (collation : Collation) :=
  answerAlone (schema collation) ServiceError.database 0

/-- A request of a user that is served alone: its result, and what is committed
then. -/
def request (python : Interpreter) (collation : Collation) (ownerId : UUID)
    (call : RuleCall python) (store : RuleStore) : Except ServiceError Response × RuleStore :=
  alone (schema collation) ServiceError.database 0 (call.program ownerId) store

section Queries

variable
    {collation : Collation}
    {β : Type}

/-- A query of a session that has written nothing. -/
theorem solo_query
    {statement : Statement}
    {store : RuleStore}
    (noWrites : (effect collation statement store).writes = [])
    (rest : Answer statement → Service β) :
    ((execute statement).bind rest).solo (ruleAnswers collation) (store, []) =
      ((Program.ofOption .database (effect collation statement store).answer).bind rest).solo
        (ruleAnswers collation) (store, []) := by
  unfold execute ruleAnswers
  rw [Program.solo_bind, Program.solo_perform]
  cases isAnswer : (effect collation statement store).answer with
  | none =>
      have raises : ((schema collation).effect statement
          (List.foldl (schema collation).apply store [])).answer = none := isAnswer
      rw [answerAlone_of_none (schema collation) ServiceError.database 0 raises]
      rfl
  | some answer =>
      have answers : ((schema collation).effect statement
          (List.foldl (schema collation).apply store [])).answer = some answer := isAnswer
      have stillNothing : [] ++ ((schema collation).effect statement
          (List.foldl (schema collation).apply store [])).writes = [] := noWrites
      rw [answerAlone_of_some (schema collation) ServiceError.database 0 answers, stillNothing]
      rfl

/-- A query with its answer. -/
theorem solo_query_of_answer
    {statement : Statement}
    {store : RuleStore}
    {answer : Answer statement}
    (noWrites : (effect collation statement store).writes = [])
    (isAnswer : (effect collation statement store).answer = some answer)
    (rest : Answer statement → Service β) :
    ((execute statement).bind rest).solo (ruleAnswers collation) (store, []) =
      (rest answer).solo (ruleAnswers collation) (store, []) := by
  rw [solo_query noWrites, isAnswer]
  rfl

end Queries

/-! ## Transactions that run alone -/

section Transactions

variable
    {collation : Collation}
    {python : Interpreter}

/-- One flush after the other, and `COMMIT`. -/
def flushes : List Write → Service Unit
  | [] => commit
  | write :: writes => (flush write).bind fun _ => flushes writes

theorem solo_flush_of_admissible
    {store : RuleStore}
    {pending : List Write}
    {write : Write}
    (admissible : (pending.foldl RuleStore.apply store).Admissible write) :
    (flush write).solo (ruleAnswers collation) (store, pending) =
      (.ok (), store, pending ++ [write]) := by
  have isEffect : (schema collation).effect (.flush write)
      (pending.foldl (schema collation).apply store) = ⟨write.keys, some (), [write]⟩ :=
    if_pos admissible
  have answers : ((schema collation).effect (.flush write)
      (pending.foldl (schema collation).apply store)).answer = some () := by rw [isEffect]
  unfold flush execute ruleAnswers
  rw [Program.solo_perform,
    answerAlone_of_some (schema collation) ServiceError.database 0 answers, isEffect]

theorem solo_flush_of_not_admissible
    {store : RuleStore}
    {pending : List Write}
    {write : Write}
    (violates : ¬(pending.foldl RuleStore.apply store).Admissible write) :
    (flush write).solo (ruleAnswers collation) (store, pending) =
      (.error .database, store, pending) := by
  have isEffect : (schema collation).effect (.flush write)
      (pending.foldl (schema collation).apply store) = ⟨[], none, []⟩ :=
    if_neg violates
  have raises : ((schema collation).effect (.flush write)
      (pending.foldl (schema collation).apply store)).answer = none := by rw [isEffect]
  unfold flush execute ruleAnswers
  rw [Program.solo_perform,
    answerAlone_of_none (schema collation) ServiceError.database 0 raises]

/-- Admissible writes are committed, all of them. -/
theorem solo_flushes_of_admissible
    {store : RuleStore}
    {pending writes : List Write}
    (admissible : AllAdmissible (pending.foldl RuleStore.apply store) writes) :
    (flushes writes).solo (ruleAnswers collation) (store, pending) =
      (.ok (), (pending ++ writes).foldl RuleStore.apply store, []) := by
  induction writes generalizing pending with
  | nil =>
      rw [List.append_nil]
      rfl
  | cons write writes inductionHypothesis =>
      have rest : AllAdmissible ((pending ++ [write]).foldl RuleStore.apply store) writes := by
        rw [List.foldl_append]
        exact admissible.2
      rw [flushes, Program.solo_bind, solo_flush_of_admissible admissible.1]
      simp only
      rw [inductionHypothesis rest, List.append_assoc]
      rfl

/-- Otherwise the statement that is not admissible raises. -/
theorem solo_flushes_of_not_admissible
    {store : RuleStore}
    {pending writes : List Write}
    (violates : ¬AllAdmissible (pending.foldl RuleStore.apply store) writes) :
    ∃ pending', (flushes writes).solo (ruleAnswers collation) (store, pending) =
      (.error .database, store, pending') := by
  induction writes generalizing pending with
  | nil => exact absurd trivial violates
  | cons write writes inductionHypothesis =>
      rw [flushes, Program.solo_bind]
      by_cases admissible : (pending.foldl RuleStore.apply store).Admissible write
      · rw [solo_flush_of_admissible admissible]
        apply inductionHypothesis
        rw [List.foldl_append]
        exact fun rest => violates ⟨admissible, rest⟩
      · rw [solo_flush_of_not_admissible admissible]
        exact ⟨pending, rfl⟩

/-- The writes in a transaction that is rolled back when it fails. -/
def atomically (writes : List Write) : Service Unit :=
  (flushes writes).catchWith fun error => rollback.bind fun _ => .raise error

theorem solo_atomically_of_admissible
    {store : RuleStore}
    {writes : List Write}
    (admissible : AllAdmissible store writes) :
    (atomically writes).solo (ruleAnswers collation) (store, []) =
      (.ok (), writes.foldl RuleStore.apply store, []) := by
  have pending : AllAdmissible (([] : List Write).foldl RuleStore.apply store) writes :=
    admissible
  rw [atomically, Program.solo_catchWith, solo_flushes_of_admissible pending]
  rfl

theorem solo_atomically_of_not_admissible
    {store : RuleStore}
    {writes : List Write}
    (violates : ¬AllAdmissible store writes) :
    (atomically writes).solo (ruleAnswers collation) (store, []) =
      (.error .database, store, []) := by
  have pending : ¬AllAdmissible (([] : List Write).foldl RuleStore.apply store) writes :=
    violates
  obtain ⟨pending', isRun⟩ : ∃ pending', (flushes writes).solo (ruleAnswers collation)
      (store, []) = (.error .database, store, pending') :=
    solo_flushes_of_not_admissible pending
  rw [atomically, Program.solo_catchWith, isRun]
  rfl

section Only

variable {allowed : SessionOp Statement → Prop}

theorem only_atomically
    (commits : allowed .commit)
    (rollsBack : allowed .rollback)
    {writes : List Write}
    (flushed : ∀ write ∈ writes, allowed (.execute (.flush write))) :
    (atomically writes).Only allowed := by
  refine Program.Only.catchWith ?_
    fun _ => Program.Only.bind (Program.Only.perform rollsBack) fun _ => trivial
  induction writes with
  | nil => exact Program.Only.perform commits
  | cons write writes inductionHypothesis =>
      refine Program.Only.bind (Program.Only.perform (flushed write List.mem_cons_self))
        fun _ => inductionHypothesis fun other isOther =>
          flushed other (List.mem_cons_of_mem _ isOther)

/-- What `create_rule_draft` executes. -/
theorem only_createRuleDraft
    (commits : allowed .commit)
    (rollsBack : allowed .rollback)
    (draft : Draft python)
    (ownerId : UUID)
    (ids : FreshIds)
    (flushed : ∀ write ∈ createWrites draft ownerId ids, allowed (.execute (.flush write))) :
    (createRuleDraft draft ownerId ids).Only allowed :=
  Program.Only.bind (only_atomically commits rollsBack flushed) fun _ => trivial

/-- What `revise_owned_rule_draft` executes. -/
theorem only_reviseOwnedRuleDraft
    (commits : allowed .commit)
    (rollsBack : allowed .rollback)
    (ruleId ownerId : UUID)
    (expectedVersion : Int)
    (draft : Draft python)
    (versionId : UUID)
    (selects : allowed (.execute (.selectRuleForUpdate ruleId ownerId)))
    (gets : ∀ id, allowed (.execute (.getVersion id)))
    (flushed : ∀ id number, ∀ write ∈ reviseWrites id ownerId number draft versionId,
      allowed (.execute (.flush write))) :
    (reviseOwnedRuleDraft ruleId ownerId expectedVersion draft versionId).Only allowed := by
  apply Program.Only.bind (Program.Only.perform selects)
  intro _
  apply Program.Only.bind (Program.Only.ofOption _ _)
  intro rule
  apply Program.Only.bind (Program.Only.ensure _ _)
  intro _
  apply Program.Only.bind (Program.Only.ensure _ _)
  intro _
  apply Program.Only.bind (Program.Only.ofOption _ _)
  intro currentVersionId
  apply Program.Only.bind (Program.Only.perform (gets currentVersionId))
  intro _
  apply Program.Only.bind (Program.Only.ofOption _ _)
  intro previous
  apply Program.Only.bind (Program.Only.ensure _ _)
  intro _
  apply Program.Only.bind (Program.Only.ensure _ _)
  intro _
  refine Program.Only.bind ?_ fun _ => ?_
  · unfold decodeSnapshot
    split <;> trivial
  · apply Program.Only.bind (Program.Only.ensure _ _)
    intro _
    exact Program.Only.bind (only_atomically commits rollsBack
      (flushed rule.id (previous.versionNumber + 1))) fun _ => trivial

end Only

/-- A draft can be created where its ids are new. -/
theorem allAdmissible_create_iff
    (draft : Draft python)
    (ownerId : UUID)
    (ids : FreshIds)
    (store : RuleStore) :
    AllAdmissible store (createWrites draft ownerId ids) ↔ Creates store ids := by
  constructor
  · rintro ⟨rule, version, _⟩
    refine ⟨rule.1, rule.2.1, ?_⟩
    have isNew := version.1
    rw [RuleStore.apply_toTables rule] at isNew
    exact isNew
  · intro creates
    exact creates.allAdmissible draft ownerId

/-- A version can be added where its id and its number are new. -/
theorem allAdmissible_revise_iff
    (draft : Draft python)
    {store : RuleStore}
    {ruleId ownerId versionId : UUID}
    {rule : RuleColumns}
    {versionNumber : Int}
    (isRule : store.rules.lookup ruleId = some rule) :
    AllAdmissible store (reviseWrites ruleId ownerId versionNumber draft versionId) ↔
      versionId ∉ store.versions ∧ ¬store.NumberTaken ruleId versionNumber ∧
        IsInteger versionNumber := by
  constructor
  · rintro ⟨version, _⟩
    exact ⟨version.1, version.2.2⟩
  · rintro ⟨versionNew, numberNew, isInteger⟩
    exact allAdmissible_of_revise draft isRule versionNew numberNew isInteger

/-- A draft with new ids is created. -/
theorem request_create
    (collation : Collation)
    (draft : Draft python)
    (ownerId : UUID)
    {ids : FreshIds}
    {store : RuleStore}
    (creates : Creates store ids) :
    request python collation ownerId (.create draft ids) store =
      (.ok (.receipt (receipt ids.ruleId ids.ruleUid.str ids.versionId 1)),
        (createWrites draft ownerId ids).foldl RuleStore.apply store) := by
  have isProgram : (RuleCall.create draft ids).program ownerId =
      ((atomically (createWrites draft ownerId ids)).bind fun _ =>
        .ret (receipt ids.ruleId ids.ruleUid.str ids.versionId 1)).bind fun body =>
          .ret (.receipt body) := rfl
  unfold request alone
  rw [isProgram, Program.solo_bind, Program.solo_bind,
    solo_atomically_of_admissible (creates.allAdmissible draft ownerId)]
  rfl

/-- Other new ids are still new after a draft has been created. -/
theorem Creates.of_created
    {draft : Draft python}
    {ownerId : UUID}
    {ids ids' : FreshIds}
    {store : RuleStore}
    (creates : Creates store ids)
    (creates' : Creates store ids')
    (differentRule : ids'.ruleId ≠ ids.ruleId)
    (differentUid : ids'.ruleUid.str ≠ ids.ruleUid.str)
    (differentVersion : ids'.versionId ≠ ids.versionId) :
    Creates ((createWrites draft ownerId ids).foldl RuleStore.apply store) ids' := by
  have appended := creates.appended draft ownerId
  refine ⟨?_, ?_, ?_⟩
  · rw [appended.rules, Finmap.mem_insert, not_or]
    exact ⟨differentRule, creates'.ruleNew⟩
  · rw [Tables.ruleUidTaken_iff, appended.rules]
    rintro ⟨id, columns, found, isUid⟩
    rcases Tables.lookup_insert_cases found with ⟨_, rfl⟩ | ⟨_, isOld⟩
    · exact differentUid isUid.symm
    · exact creates'.ruleUidNew (Tables.ruleUidTaken_iff.mpr ⟨id, columns, isOld, isUid⟩)
  · rw [appended.versions, Finmap.mem_insert, not_or]
    exact ⟨differentVersion, creates'.versionNew⟩

/-- In the empty tables all ids are new. -/
theorem creates_empty (ids : FreshIds) : Creates RuleStore.empty ids := by
  refine ⟨Finmap.notMem_empty, ?_, Finmap.notMem_empty⟩
  rw [Tables.ruleUidTaken_iff]
  rintro ⟨id, columns, found, _⟩
  simp [RuleStore.empty] at found

end Transactions

/-- Three ids in a row. -/
def FreshIds.sample (base : UUID) : FreshIds := ⟨base, base + 1, base + 2⟩

end Detection
end SigmaForge
