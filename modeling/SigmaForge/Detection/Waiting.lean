import SigmaForge.Foundation.Waiting
import SigmaForge.Detection.Revision
import SigmaForge.Detection.Editors

/-!
# Editors do not deadlock

An editor waits for the row of a rule before it has locked anything.  Whoever has locked a
rule locks nothing after it that another session could have.
-/

namespace SigmaForge
namespace Detection

open Text Json ReadCommitted

/-! ## Locks -/

/-- The rows that a write refers to and does not lock itself. -/
def Write.refers : Write → List Key
  | .insertRule _ columns => columns.currentVersionId.toList.map .version
  | .insertVersion _ _ => []
  | .updateRule _ _ _ currentVersionId => [.version currentVersionId]

/-- How a write locks its keys.  It enters them into the unique indexes, or updates the row of
the rule; a version is given to a rule whose row the session has locked for an update. -/
def Write.locks : Write → List (Key × Mode)
  | .insertRule id columns => [(.rule id, .exclusive), (.ruleUid columns.ruleUid, .exclusive)]
  | .insertVersion id columns =>
      [(.version id, .exclusive),
        (.versionNumber columns.ruleId columns.versionNumber, .exclusive),
        (.rule columns.ruleId, .update)]
  | .updateRule id _ _ _ => [(.rule id, .update)]

theorem exists_lock_of_key {write : Write} {key : Key} (isKey : key ∈ write.keys) :
    ∃ mode, mode ≠ .share ∧ (key, mode) ∈ write.locks := by
  cases write <;> simp only [Write.keys, List.mem_cons, List.not_mem_nil, or_false] at isKey
  case insertRule id columns =>
    rcases isKey with rfl | rfl <;> exact ⟨.exclusive, by simp, by simp [Write.locks]⟩
  case insertVersion id columns =>
    rcases isKey with rfl | rfl | rfl
    · exact ⟨.exclusive, by simp, by simp [Write.locks]⟩
    · exact ⟨.exclusive, by simp, by simp [Write.locks]⟩
    · exact ⟨.update, by simp, by simp [Write.locks]⟩
  case updateRule id title logSource currentVersionId =>
    obtain rfl := isKey
    exact ⟨.update, by simp, by simp [Write.locks]⟩

/-- The locks that a statement may have to wait for. -/
def needs : Statement → RuleStore → List (Key × Mode)
  | .selectRuleForUpdate id ownerId, store =>
      if ((store.rule id).filter fun rule => rule.ownerId = ownerId).isSome then
        [(.rule id, .exclusive)]
      else []
  | .flush write, store =>
      if store.Admissible write then
        write.locks ++ write.refers.map fun key => (key, Mode.share)
      else []
  | _, _ => []

theorem locks_needs
    (collation : Collation)
    (statement : Statement)
    (store : RuleStore)
    (key : Key)
    (isLocked : key ∈ (effect collation statement store).locks) :
    ∃ mode, mode ≠ .share ∧ (key, mode) ∈ needs statement store := by
  cases statement with
  | selectRuleForUpdate id ownerId =>
      simp only [effect] at isLocked
      split at isLocked
      · simp [reads] at isLocked
      · rename_i rule isFound
        obtain rfl := List.mem_singleton.mp isLocked
        exact ⟨.exclusive, by simp, by simp [needs, isFound]⟩
  | flush write =>
      simp only [effect] at isLocked
      simp only [needs]
      split_ifs at isLocked ⊢ with admissible
      · obtain ⟨mode, notShare, isLock⟩ := exists_lock_of_key isLocked
        exact ⟨mode, notShare, List.mem_append_left _ isLock⟩
      · simp at isLocked
  | selectVersion ruleId number =>
      simp only [effect] at isLocked
      split_ifs at isLocked <;> simp [reads] at isLocked
  | getRule id => simp [effect, reads] at isLocked
  | getVersion id => simp [effect, reads] at isLocked
  | selectDrafts ownerId offset limit => simp [effect, reads] at isLocked
  | selectVersions ruleId offset limit => simp [effect, reads] at isLocked

/-- The locks of the tables. -/
def tableLocks (collation : Collation) : Locking (schema collation) where
  needs := needs
  refers := Write.refers
  locks := locks_needs collation

/-! ## The order in which editors lock -/

section Order

variable {python : Interpreter}

/-- The ids that a call has drawn for a new rule. -/
def RuleCall.created : RuleCall python → Option FreshIds
  | .create _ ids => some ids
  | _ => none

/-- The id that a call has drawn for a new version. -/
def RuleCall.drawnVersion : RuleCall python → Option UUID
  | .create _ ids => some ids.versionId
  | .revise _ _ _ versionId => some versionId
  | _ => none

/-- How far an editor has come. -/
inductive EditPhase
  | idle
  | owns (ruleId : UUID)

/-- The statements of a phase. -/
def EditPhase.Allows (call : RuleCall python) : EditPhase → Statement → Prop
  | .idle, .selectRuleForUpdate _ _ => True
  | .idle, .flush (.insertRule id columns) =>
      columns.currentVersionId = none ∧
        ∃ ids ∈ call.created, id = ids.ruleId ∧ columns.ruleUid = ids.ruleUid.str
  | .owns ruleId, .flush (.insertVersion id columns) =>
      columns.ruleId = ruleId ∧ call.drawnVersion = some id
  | .owns ruleId, .flush (.updateRule id _ _ currentVersionId) =>
      id = ruleId ∧ call.drawnVersion = some currentVersionId
  | _, .selectRuleForUpdate _ _ => False
  | _, .flush _ => False
  | _, _ => True

/-- The phase after an operation. -/
def EditPhase.next (phase : EditPhase) :
    (op : SessionOp Statement) → Except ServiceError (SessionAnswer Answer op) → EditPhase
  | .execute (.selectRuleForUpdate id _), .ok found => if found.isSome then .owns id else phase
  | .execute (.flush (.insertRule id _)), .ok _ => .owns id
  | .execute _, _ => phase
  | .now, _ => phase
  | .commit, _ => .idle
  | .rollback, _ => .idle

/-- The order in which a call locks. -/
def lockOrder (request : UUID × RuleCall python) :
    Protocol ServiceError (SessionAnswer Answer) EditPhase where
  allowed phase op :=
    match op with
    | .execute statement => phase.Allows request.2 statement
    | _ => True
  next := EditPhase.next

/-- What the reading calls issue. -/
structure AllowsSelects (allowed : SessionOp Statement → Prop) : Prop where
  getRule : ∀ id, allowed (.execute (.getRule id))
  getVersion : ∀ id, allowed (.execute (.getVersion id))
  selectVersion : ∀ ruleId number, allowed (.execute (.selectVersion ruleId number))
  selectDrafts : ∀ ownerId offset limit, allowed (.execute (.selectDrafts ownerId offset limit))
  selectVersions : ∀ ruleId offset limit,
    allowed (.execute (.selectVersions ruleId offset limit))

section Selects

variable {allowed : SessionOp Statement → Prop}

theorem only_decodeSnapshot (serialized : Str) :
    (decodeSnapshot python serialized).Only allowed := by
  unfold decodeSnapshot
  split <;> trivial

theorem AllowsSelects.only_getOwnedRuleVersion
    (allows : AllowsSelects allowed)
    (ruleId ownerId : UUID)
    (versionNumber : Int) :
    (getOwnedRuleVersion python ruleId ownerId versionNumber).Only allowed := by
  apply Program.Only.bind (Program.Only.perform (allows.getRule ruleId))
  intro _
  apply Program.Only.bind (Program.Only.ofOption _ _)
  intro _
  apply Program.Only.bind (Program.Only.ensure _ _)
  intro _
  apply Program.Only.bind (Program.Only.ofOption _ _)
  intro _
  apply Program.Only.bind (Program.Only.perform (allows.selectVersion ruleId versionNumber))
  intro _
  apply Program.Only.bind (Program.Only.ofOption _ _)
  intro _
  apply Program.Only.bind (Program.Only.ensure _ _)
  intro _
  exact Program.Only.bind (only_decodeSnapshot _) fun _ => trivial

/-- The reading calls consist of `SELECT`s. -/
theorem AllowsSelects.only_program
    (allows : AllowsSelects allowed)
    (ownerId : UUID)
    {call : RuleCall python}
    (onlyReads : call.OnlyReads) :
    (call.program ownerId).Only allowed := by
  cases call with
  | create draft ids => exact onlyReads.elim
  | revise ruleId expectedVersion draft versionId => exact onlyReads.elim
  | get ruleId =>
      refine Program.Only.bind ?_ fun _ => trivial
      apply Program.Only.bind (Program.Only.perform (allows.getRule ruleId))
      intro _
      apply Program.Only.bind (Program.Only.ofOption _ _)
      intro _
      apply Program.Only.bind (Program.Only.ensure _ _)
      intro _
      apply Program.Only.bind (Program.Only.ofOption _ _)
      intro currentVersionId
      apply Program.Only.bind (Program.Only.perform (allows.getVersion currentVersionId))
      intro _
      apply Program.Only.bind (Program.Only.ofOption _ _)
      intro _
      apply Program.Only.bind (Program.Only.ensure _ _)
      intro _
      exact Program.Only.bind (only_decodeSnapshot _) fun _ => trivial
  | list limit offset =>
      refine Program.Only.bind ?_ fun _ => trivial
      exact Program.Only.bind (Program.Only.perform
        (allows.selectDrafts ownerId offset (limit + 1))) fun _ => trivial
  | listVersions ruleId limit offset =>
      refine Program.Only.bind ?_ fun _ => trivial
      apply Program.Only.bind (Program.Only.perform (allows.getRule ruleId))
      intro _
      apply Program.Only.bind (Program.Only.ofOption _ _)
      intro _
      apply Program.Only.bind (Program.Only.ensure _ _)
      intro _
      apply Program.Only.bind (Program.Only.ofOption _ _)
      intro _
      exact Program.Only.bind (Program.Only.perform
        (allows.selectVersions ruleId offset (limit + 1))) fun _ => trivial
  | getVersion ruleId versionNumber =>
      exact Program.Only.bind (allows.only_getOwnedRuleVersion ruleId ownerId versionNumber)
        fun _ => trivial
  | diff ruleId versionNumber =>
      refine Program.Only.bind ?_ fun _ => trivial
      apply Program.Only.bind (Program.Only.ensure _ _)
      intro _
      apply Program.Only.bind (allows.only_getOwnedRuleVersion ruleId ownerId (versionNumber - 1))
      intro _
      apply Program.Only.bind (allows.only_getOwnedRuleVersion ruleId ownerId versionNumber)
      intro _
      apply Program.Only.bind (Program.Only.ensure _ _)
      intro _
      exact Program.Only.bind (Program.Only.ofOption _ _) fun _ => trivial

end Selects

/-- A `SELECT` that locks nothing. -/
def IsSelect : SessionOp Statement → Prop
  | .execute (.selectRuleForUpdate _ _) => False
  | .execute (.flush _) => False
  | .execute _ => True
  | _ => False

theorem allowsSelects_isSelect : AllowsSelects IsSelect :=
  ⟨fun _ => trivial, fun _ => trivial, fun _ _ => trivial, fun _ _ _ => trivial,
    fun _ _ _ => trivial⟩

section Follows

variable
    {request : UUID × RuleCall python}
    {phase : EditPhase}

/-- A part of a call that stays in its phase. -/
abbrev Stays (request : UUID × RuleCall python) (phase : EditPhase) {α : Type}
    (program : Service α) : Prop :=
  Follows (lockOrder request) phase program
    (inPhase (fun phase' _ => phase' = phase) (· = phase))

theorem stays_of_selects
    {α : Type}
    {program : Service α}
    (selects : program.Only IsSelect) :
    Stays request phase program := by
  apply Follows.of_only _ _ selects
  · intro op isSelect
    cases op with
    | execute statement =>
        cases phase <;> cases statement <;> first | exact False.elim isSelect | trivial
    | _ => trivial
  · intro op answer isSelect
    cases op with
    | execute statement => cases statement <;> first | rfl | exact False.elim isSelect
    | _ => exact False.elim isSelect

/-- A flush of the phase leads to any phase. -/
theorem follows_flush
    {write : Write}
    (isAllowed : phase.Allows request.2 (.flush write)) :
    Follows (lockOrder request) phase (flush write) (inPhase
      (fun phase' _ => phase' = phase.next (.execute (.flush write)) (.ok ())) fun _ => True) :=
  Follows.perform isAllowed (fun _ => rfl) fun _ => trivial

/-- The version and the pointer to it, which end both operations. -/
theorem follows_revise
    (draft : Draft python)
    {ruleId versionId : UUID}
    (ownerId : UUID)
    (versionNumber : Int)
    (drawn : request.2.drawnVersion = some versionId) :
    Follows (lockOrder request) (.owns ruleId)
      (flushes (reviseWrites ruleId ownerId versionNumber draft versionId))
      (inPhase (fun _ _ => True) fun _ => True) := by
  have isVersion : (EditPhase.owns ruleId).Allows request.2
      (.flush (.insertVersion versionId (newVersion ruleId versionNumber draft ownerId))) :=
    ⟨rfl, drawn⟩
  have isPointer : (EditPhase.owns ruleId).Allows request.2
      (.flush (pointTo ruleId draft versionId)) := ⟨rfl, drawn⟩
  apply (follows_flush isVersion).bind
  · rintro _ _ rfl
    apply (follows_flush isPointer).bind
    · intro _ _ _
      exact Follows.perform trivial (fun _ => trivial) fun _ => trivial
    · exact fun _ _ _ => trivial
  · exact fun _ _ _ => trivial

theorem follows_atomically
    {writes : List Write}
    (follows : Follows (lockOrder request) phase (flushes writes)
      (inPhase (fun _ _ => True) fun _ => True)) :
    Follows (lockOrder request) phase (atomically writes)
      (inPhase (fun _ _ => True) fun _ => True) := by
  apply follows.catchWith
  · exact fun _ _ _ => trivial
  · intro phase error _
    have rollsBack : Follows (lockOrder request) phase rollback
        (inPhase (fun _ _ => True) fun _ => True) :=
      Follows.perform trivial (fun _ => trivial) fun _ => trivial
    exact rollsBack.bind (fun _ _ _ => trivial) fun _ _ _ => trivial

/-- Any end. -/
abbrev Orderly (request : UUID × RuleCall python) (phase : EditPhase) {α : Type}
    (program : Service α) : Prop :=
  Follows (lockOrder request) phase program (inPhase (fun _ _ => True) fun _ => True)

theorem Orderly.bind_ret
    {α β : Type}
    {program : Service α}
    (orderly : Orderly request phase program)
    (give : α → β) :
    Orderly request phase (program.bind fun value => .ret (give value)) :=
  Follows.bind orderly (fun _ _ _ => trivial) fun _ _ _ => trivial

/-- `create_rule_draft` locks in this order. -/
theorem follows_createRuleDraft
    (draft : Draft python)
    (ownerId : UUID)
    {ids : FreshIds}
    (created : request.2.created = some ids)
    (drawn : request.2.drawnVersion = some ids.versionId) :
    Orderly request .idle (createRuleDraft draft ownerId ids) := by
  have isRule : EditPhase.idle.Allows request.2
      (.flush (.insertRule ids.ruleId (newRule draft ownerId ids))) :=
    ⟨rfl, ids, created, rfl, rfl⟩
  have writes : Orderly request .idle (flushes (createWrites draft ownerId ids)) := by
    apply (follows_flush isRule).bind
    · rintro _ _ rfl
      exact follows_revise draft ownerId 1 drawn
    · exact fun _ _ _ => trivial
  exact Orderly.bind_ret (follows_atomically writes) fun _ => _

/-- `revise_owned_rule_draft` locks in this order. -/
theorem follows_reviseOwnedRuleDraft
    (ruleId ownerId : UUID)
    (expectedVersion : Int)
    (draft : Draft python)
    {versionId : UUID}
    (drawn : request.2.drawnVersion = some versionId) :
    Orderly request .idle
      (reviseOwnedRuleDraft ruleId ownerId expectedVersion draft versionId) := by
  have selects : Follows (lockOrder request) .idle (execute (.selectRuleForUpdate ruleId ownerId))
      (inPhase (fun phase found => phase = if found.isSome then .owns ruleId else .idle)
        fun _ => True) :=
    Follows.perform trivial (fun _ => rfl) fun _ => trivial
  apply selects.bind
  · rintro phase found rfl
    cases found with
    | none => exact trivial
    | some rule =>
        apply (Follows.ensure _ _).bind
        · rintro _ _ ⟨rfl, rfl, _⟩
          apply (Follows.ensure _ _).bind
          · rintro _ _ ⟨rfl, _⟩
            apply (Follows.ofOption _ _).bind
            · rintro _ currentVersionId ⟨rfl, _⟩
              have gets : Stays request (.owns rule.id) (execute (.getVersion currentVersionId)) :=
                stays_of_selects (Program.Only.perform trivial)
              apply gets.bind
              · rintro _ found rfl
                apply (Follows.ofOption _ _).bind
                · rintro _ previous ⟨rfl, _⟩
                  apply (Follows.ensure _ _).bind
                  · rintro _ _ ⟨rfl, _⟩
                    apply (Follows.ensure _ _).bind
                    · rintro _ _ ⟨rfl, _⟩
                      apply (stays_of_selects (only_decodeSnapshot previous.sigmaYaml)).bind
                      · rintro _ snapshot rfl
                        apply (Follows.ensure _ _).bind
                        · rintro _ _ ⟨rfl, _⟩
                          exact Orderly.bind_ret (follows_atomically (follows_revise draft ownerId
                            (previous.versionNumber + 1) drawn)) fun _ => _
                        · exact fun _ _ _ => trivial
                      · exact fun _ _ _ => trivial
                    · exact fun _ _ _ => trivial
                  · exact fun _ _ _ => trivial
                · exact fun _ _ _ => trivial
              · exact fun _ _ _ => trivial
            · exact fun _ _ _ => trivial
          · exact fun _ _ _ => trivial
        · exact fun _ _ _ => trivial
  · exact fun _ _ _ => trivial

/-- Every call locks in this order. -/
theorem follows_serve (request : UUID × RuleCall python) :
    Follows (lockOrder request) .idle (serve request) fun _ _ => True := by
  obtain ⟨ownerId, call⟩ := request
  have anyEnd : ∀ {program : Service Response}, Orderly (ownerId, call) .idle program →
      Follows (lockOrder (ownerId, call)) .idle program fun _ _ => True :=
    fun orderly => orderly.mono fun _ _ _ => trivial
  have reading : call.OnlyReads →
      Follows (lockOrder (ownerId, call)) .idle (serve (ownerId, call)) fun _ _ => True :=
    fun onlyReads => (stays_of_selects
      (allowsSelects_isSelect.only_program ownerId onlyReads)).mono fun _ _ _ => trivial
  cases call with
  | create draft ids =>
      exact anyEnd ((follows_createRuleDraft draft ownerId rfl rfl).bind_ret _)
  | revise ruleId expectedVersion draft versionId =>
      exact anyEnd ((follows_reviseOwnedRuleDraft ruleId ownerId expectedVersion draft
        rfl).bind_ret _)
  | get ruleId => exact reading trivial
  | list limit offset => exact reading trivial
  | listVersions ruleId limit offset => exact reading trivial
  | getVersion ruleId versionNumber => exact reading trivial
  | diff ruleId versionNumber => exact reading trivial

end Follows

/-! ## What the phases mean -/

/-- A rule that is there stays there. -/
theorem rule_kept
    {store : RuleStore}
    {id : UUID}
    (write : Write)
    (isThere : id ∈ store.rules) :
    id ∈ (store.apply write).rules := by
  by_cases admissible : store.Admissible write
  · rw [RuleStore.apply_toTables admissible]
    cases write with
    | insertRule other columns => exact Finmap.mem_insert.mpr (.inr isThere)
    | insertVersion other columns => exact isThere
    | updateRule other title logSource currentVersionId =>
        obtain ⟨columns, isRule⟩ := Finmap.mem_iff.mp admissible.1
        rw [Tables.updateRule_eq isRule]
        exact Finmap.mem_insert.mpr (.inr isThere)
  · rwa [RuleStore.apply, dif_neg admissible]

/-- What a statement writes refers to what it needs. -/
theorem needs_of_refers
    {collation : Collation}
    {statement : Statement}
    {store : RuleStore}
    {write : Write}
    (isWritten : write ∈ (effect collation statement store).writes)
    {key : Key}
    (refers : key ∈ write.refers) :
    (key, .share) ∈ needs statement store := by
  obtain ⟨rfl, admissible⟩ := effect_writes isWritten
  simp only [needs, if_pos admissible]
  exact List.mem_append_right _ (List.mem_map_of_mem refers)

section Means

variable (collation : Collation)

/-- A lock of a call: of a rule that is committed, of what it has drawn, or of the number of
a version of a rule that it has locked. -/
def Explained (pid : ProcId) (call : RuleCall python) (db : RuleDb) : Key → Prop
  | .rule id => id ∈ (db.committed (schema collation)).rules ∨ ∃ ids ∈ call.created, id = ids.ruleId
  | .ruleUid ruleUid => ∃ ids ∈ call.created, ruleUid = ids.ruleUid.str
  | .version id => call.drawnVersion = some id
  | .versionNumber ruleId _ => db.holder (.rule ruleId) = some pid

/-- The session holds the lock of the rule, and what it has written refers only to the
version that it has drawn. -/
structure OwnsRule (pid : ProcId) (call : RuleCall python) (ruleId : UUID) (db : RuleDb) :
    Prop where
  rule : db.holder (.rule ruleId) = some pid
  explained : ∀ key, db.holder key = some pid → Explained collation pid call db key
  refers : ∀ write ∈ db.pending pid, ∀ key ∈ write.refers, Explained collation pid call db key

/-- What is true of a session in a phase. -/
def EditPhase.Means (pid : ProcId) (call : RuleCall python) : EditPhase → RuleDb → Prop
  | .idle, db => Clear pid db
  | .owns ruleId, db => OwnsRule collation pid call ruleId db

/-- What a statement of an editor needs in a phase. -/
inductive EditNeeds (call : RuleCall python) (store : RuleStore) :
    EditPhase → Statement → Key → Mode → Prop
  | select {id ownerId : UUID} : id ∈ store.rules →
      EditNeeds call store .idle (.selectRuleForUpdate id ownerId) (.rule id) .exclusive
  | newRule {statement : Statement} {ids : FreshIds} : call.created = some ids →
      ids.ruleId ∉ store.rules →
      EditNeeds call store .idle statement (.rule ids.ruleId) .exclusive
  | newUid {statement : Statement} {ids : FreshIds} : call.created = some ids →
      EditNeeds call store .idle statement (.ruleUid ids.ruleUid.str) .exclusive
  | ownRule {statement : Statement} {ruleId : UUID} :
      EditNeeds call store (.owns ruleId) statement (.rule ruleId) .update
  | version {statement : Statement} {ruleId id : UUID} {mode : Mode} :
      call.drawnVersion = some id →
      EditNeeds call store (.owns ruleId) statement (.version id) mode
  | number {statement : Statement} {ruleId : UUID} {number : Int} :
      EditNeeds call store (.owns ruleId) statement (.versionNumber ruleId number) .exclusive

variable
    {collation}
    {pid : ProcId}
    {call : RuleCall python}
    {phase : EditPhase}
    {db db' : RuleDb}

theorem Explained.of_kept
    {key : Key}
    (explained : Explained collation pid call db key)
    (rules : ∀ id, id ∈ (db.committed (schema collation)).rules →
      id ∈ (db'.committed (schema collation)).rules)
    (locks : ∀ id, db.holder (.rule id) = some pid → db'.holder (.rule id) = some pid) :
    Explained collation pid call db' key := by
  cases key with
  | rule id => exact explained.imp_left (rules id)
  | ruleUid ruleUid => exact explained
  | version id => exact explained
  | versionNumber ruleId number => exact locks ruleId explained

/-- Everything that a session has or wants is explained. -/
theorem EditPhase.Means.explained
    (isTrue : phase.Means collation pid call db)
    {key : Key}
    (isHeld : db.holder key = some pid) :
    Explained collation pid call db key := by
  cases phase with
  | idle => exact absurd isHeld (isTrue.2 key)
  | owns ruleId => exact isTrue.explained key isHeld

/-- What an editor needs is what its phase lets it need. -/
theorem editNeeds_of_needs
    (isTrue : phase.Means collation pid call db)
    {statement : Statement}
    (isAllowed : phase.Allows call statement)
    {key : Key}
    {mode : Mode}
    (isNeeded : (key, mode) ∈ needs statement (db.view (schema collation) pid)) :
    EditNeeds call (db.committed (schema collation)) phase statement key mode := by
  cases statement with
  | selectRuleForUpdate id ownerId =>
      cases phase with
      | owns ruleId => exact isAllowed.elim
      | idle =>
          rw [view_of_nothing_pending isTrue.1] at isNeeded
          simp only [needs] at isNeeded
          split_ifs at isNeeded with isThere
          · obtain ⟨rfl, rfl⟩ := Prod.mk.inj (List.mem_singleton.mp isNeeded)
            obtain ⟨rule, isFound⟩ := Option.isSome_iff_exists.mp isThere
            obtain ⟨found, _⟩ := Option.filter_eq_some_iff.mp isFound
            obtain ⟨columns, isRule, _⟩ := Option.map_eq_some_iff.mp found
            exact .select (Finmap.mem_of_lookup_eq_some isRule)
          · simp at isNeeded
  | flush write =>
      simp only [needs] at isNeeded
      split_ifs at isNeeded with admissible
      · cases phase with
        | idle =>
            rw [view_of_nothing_pending isTrue.1] at admissible
            cases write with
            | insertRule id columns =>
                obtain ⟨noVersion, ids, created, rfl, isUid⟩ := isAllowed
                simp only [Write.locks, Write.refers, noVersion, Option.toList_none, List.map_nil,
                  List.append_nil, List.mem_cons, Prod.mk.injEq, List.not_mem_nil,
                  or_false] at isNeeded
                rcases isNeeded with ⟨rfl, rfl⟩ | ⟨rfl, rfl⟩
                · exact .newRule created admissible.1
                · rw [isUid]
                  exact .newUid created
            | insertVersion id columns => exact isAllowed.elim
            | updateRule id title logSource currentVersionId => exact isAllowed.elim
        | owns ruleId =>
            cases write with
            | insertRule id columns => exact isAllowed.elim
            | insertVersion id columns =>
                obtain ⟨rfl, drawn⟩ := isAllowed
                simp only [Write.locks, Write.refers, List.map_nil, List.append_nil,
                  List.mem_cons, Prod.mk.injEq, List.not_mem_nil, or_false] at isNeeded
                rcases isNeeded with ⟨rfl, rfl⟩ | ⟨rfl, rfl⟩ | ⟨rfl, rfl⟩
                · exact .version drawn
                · exact .number
                · exact .ownRule
            | updateRule id title logSource currentVersionId =>
                obtain ⟨rfl, drawn⟩ := isAllowed
                simp only [Write.locks, Write.refers, List.map_nil, List.map_cons,
                  List.cons_append, List.nil_append, List.mem_cons, Prod.mk.injEq,
                  List.not_mem_nil, or_false] at isNeeded
                rcases isNeeded with ⟨rfl, rfl⟩ | ⟨rfl, rfl⟩
                · exact .ownRule
                · exact .version drawn
      · simp at isNeeded
  | getRule id => simp [needs] at isNeeded
  | getVersion id => simp [needs] at isNeeded
  | selectVersion ruleId number => simp [needs] at isNeeded
  | selectDrafts ownerId offset limit => simp [needs] at isNeeded
  | selectVersions ruleId offset limit => simp [needs] at isNeeded

/-- What an editor needs is explained. -/
theorem explained_of_needs
    (isTrue : phase.Means collation pid call db)
    {statement : Statement}
    {key : Key}
    {mode : Mode}
    (isNeeded : EditNeeds call (db.committed (schema collation)) phase statement key mode) :
    Explained collation pid call db key := by
  cases isNeeded with
  | select isThere => exact .inl isThere
  | newRule created _ => exact .inr ⟨_, created, rfl⟩
  | newUid created => exact ⟨_, created, rfl⟩
  | ownRule => exact isTrue.explained isTrue.rule
  | version drawn => exact drawn
  | number => exact isTrue.rule

/-- An executed statement leaves the explanations as they are. -/
theorem Explained.executed
    {key : Key}
    (explained : Explained collation pid call db key)
    {α : Type}
    (effect : Effect Key Write α) :
    Explained collation pid call (db.executed pid effect) key := by
  apply explained.of_kept
  · intro id isThere
    rwa [committed_executed]
  · intro id isHeld
    simp only [Db.executed]
    split_ifs
    · rfl
    · exact isHeld

/-- A statement that has locked a rule leads to the phase of the rule. -/
theorem OwnsRule.of_executed
    (isTrue : phase.Means collation pid call db)
    {statement : Statement}
    (isAllowed : phase.Allows call statement)
    {ruleId : UUID}
    (isLocked : .rule ruleId ∈ (effect collation statement (db.view (schema collation) pid)).locks ∨
      db.holder (.rule ruleId) = some pid) :
    OwnsRule collation pid call ruleId
      (db.executed pid (effect collation statement (db.view (schema collation) pid))) := by
  have ofNeeds : ∀ {key mode},
      (key, mode) ∈ needs statement (db.view (schema collation) pid) →
      Explained collation pid call db key :=
    fun isNeeded => explained_of_needs isTrue (editNeeds_of_needs isTrue isAllowed isNeeded)
  refine ⟨?_, ?_, ?_⟩
  · simp only [Db.executed]
    split_ifs with isNew
    · rfl
    · exact isLocked.resolve_left isNew
  · intro key isHeld
    apply Explained.executed
    rcases holder_executed isHeld with isNew | isOld
    · obtain ⟨mode, _, isNeeded⟩ := locks_needs collation statement _ key isNew
      exact ofNeeds isNeeded
    · exact isTrue.explained isOld
  · intro write isPending key refers
    apply Explained.executed
    simp only [Db.executed, Function.update_self, List.mem_append] at isPending
    rcases isPending with isOld | isNew
    · cases phase with
      | idle => simp [isTrue.1] at isOld
      | owns ruleId => exact isTrue.refers write isOld key refers
    · exact ofNeeds (needs_of_refers isNew refers)

/-- A statement leads to what its next phase means. -/
theorem means_executed
    (isTrue : phase.Means collation pid call db)
    {statement : Statement}
    (isAllowed : phase.Allows call statement)
    {answer : Answer statement}
    (isAnswer : (effect collation statement (db.view (schema collation) pid)).answer =
      some answer) :
    (phase.next (.execute statement) (.ok answer)).Means collation pid call
      (db.executed pid (effect collation statement (db.view (schema collation) pid))) := by
  cases statement with
  | selectRuleForUpdate id ownerId =>
      cases phase with
      | owns ruleId => exact isAllowed.elim
      | idle =>
          cases isFound : ((db.view (schema collation) pid).rule id).filter
              fun rule => rule.ownerId = ownerId with
          | none =>
              rw [effect_of_missing collation isFound] at isAnswer ⊢
              obtain rfl : none = answer := Option.some.inj isAnswer
              rw [executed_silent rfl rfl]
              exact isTrue
          | some rule =>
              have isEffect := effect_of_found collation isFound
              rw [isEffect] at isAnswer
              obtain rfl : some rule = answer := Option.some.inj isAnswer
              exact OwnsRule.of_executed isTrue isAllowed (.inl (by simp [isEffect]))
  | flush write =>
      have admissible : (db.view (schema collation) pid).Admissible write := by
        by_contra refused
        simp [effect, if_neg refused] at isAnswer
      cases phase with
      | idle =>
          cases write with
          | insertRule id columns =>
              refine OwnsRule.of_executed isTrue isAllowed (.inl ?_)
              simp [effect, if_pos admissible, Write.keys]
          | insertVersion id columns => exact isAllowed.elim
          | updateRule id title logSource currentVersionId => exact isAllowed.elim
      | owns ruleId =>
          cases write with
          | insertRule id columns => exact isAllowed.elim
          | insertVersion id columns =>
              exact OwnsRule.of_executed isTrue isAllowed (.inr isTrue.rule)
          | updateRule id title logSource currentVersionId =>
              exact OwnsRule.of_executed isTrue isAllowed (.inr isTrue.rule)
  | selectVersion ruleId number =>
      simp only [effect] at isAnswer ⊢
      split_ifs at isAnswer ⊢
      rw [executed_silent rfl rfl]
      exact isTrue
  | getRule id =>
      rw [executed_silent rfl rfl]
      exact isTrue
  | getVersion id =>
      rw [executed_silent rfl rfl]
      exact isTrue
  | selectDrafts ownerId offset limit =>
      rw [executed_silent rfl rfl]
      exact isTrue
  | selectVersions ruleId offset limit =>
      rw [executed_silent rfl rfl]
      exact isTrue

/-- The phases of the editors, as they run. -/
theorem tracks_lockOrder (python : Interpreter) (collation : Collation) :
    Tracks (schema collation) ServiceError.database
      (fun request : UUID × RuleCall python => lockOrder request) .idle
      fun pid request phase => phase.Means collation pid request.2 where
  opens pid request db clear := clear
  own pid request phase op answer db db' _ isTrue isAllowed performed := by
    cases op with
    | execute statement =>
        cases answer with
        | error error =>
            obtain ⟨_, rfl⟩ := performed
            cases statement with
            | flush write => cases write <;> exact isTrue
            | _ => exact isTrue
        | ok answer =>
            obtain ⟨_, isAnswer, rfl⟩ := performed
            exact means_executed isTrue isAllowed isAnswer
    | commit =>
        cases answer with
        | ok _ =>
            obtain rfl := performed
            exact clear_commit pid db
        | error error =>
            obtain ⟨_, rfl⟩ := performed
            exact clear_release pid db
    | rollback =>
        cases answer with
        | ok _ =>
            obtain rfl := performed
            exact clear_release pid db
        | error error =>
            obtain ⟨_, rfl⟩ := performed
            exact clear_release pid db
    | now =>
        cases answer with
        | ok time =>
            obtain ⟨_, rfl⟩ := performed
            exact isTrue
        | error error => exact performed.elim
  others pid request phase other db db' different _ moves isTrue := by
    have kept : ∀ key, Explained collation pid request.2 db key →
        Explained collation pid request.2 db' key := by
      intro key explained
      apply explained.of_kept
      · intro id isThere
        exact moves.committed_kept (fun store => id ∈ store.rules) (fun _ write => rule_kept write)
          isThere
      · exact fun id isHeld => (moves.holder _ pid different.symm).mpr isHeld
    cases phase with
    | idle => exact isTrue.of_moves different moves
    | owns ruleId =>
        refine ⟨(moves.holder _ pid different.symm).mpr isTrue.rule, ?_, ?_⟩
        · exact fun key isHeld =>
            kept key (isTrue.explained ((moves.holder key pid different.symm).mp isHeld))
        · rw [moves.pending pid different.symm]
          exact fun write isPending key refers =>
            kept key (isTrue.refers write isPending key refers)
  timeless pid request phase db later _ isTrue := by
    have same : ∀ key, Explained collation pid request.2 db key →
        Explained collation pid request.2 { db with clock := later } key := by
      intro key explained
      cases key <;> exact explained
    cases phase with
    | idle => exact isTrue
    | owns ruleId =>
        exact ⟨isTrue.rule, fun key isHeld => same key (isTrue.explained isHeld),
          fun write isPending key refers => same key (isTrue.refers write isPending key refers)⟩

end Means

/-! ## Who waits for whom -/

section Waits

variable
    {collation : Collation}
    {initial : RuleStore}
    {clock : Nat}
    {config : Config ServiceError (SessionAnswer Answer) (UUID × RuleCall python) RuleDb Response}

/-- No two calls draw the same ids. -/
def DistinctIds
    (config : Config ServiceError (SessionAnswer Answer) (UUID × RuleCall python) RuleDb Response) :
    Prop :=
  ∀ pid other request request' status status', config.process pid = some (request, status) →
    config.process other = some (request', status') → other ≠ pid →
    (∀ id ∈ request.2.drawnVersion, id ∉ request'.2.drawnVersion) ∧
    ∀ ids ∈ request.2.created, ∀ ids' ∈ request'.2.created,
      ids'.ruleId ≠ ids.ruleId ∧ ids'.ruleUid ≠ ids.ruleUid

/-- What a session has locked is explained. -/
theorem explained_of_granted
    (reachable : Reachable (ruleMachine python collation) serve (Db.start initial clock) config)
    {granted : ProcId → Key → Mode → Prop}
    (table : LockTable (tableLocks collation) config granted)
    {pid : ProcId}
    {key : Key}
    {mode : Mode}
    (isGranted : granted pid key mode) :
    ∃ request status, config.process pid = some (request, status) ∧
      Explained collation pid request.2 config.shared key := by
  have phaseOf : ∀ {request program}, config.process pid = some (request, .running program) →
      ∃ phase : EditPhase, phase.Means collation pid request.2 config.shared ∧
        Follows (lockOrder request) phase program fun _ _ => True :=
    (tracks_lockOrder python collation).phase_of_running follows_serve reachable
  have settled := settled_of_reachable reachable
  have ofHolder : config.shared.holder key = some pid →
      ∃ request status, config.process pid = some (request, status) ∧
        Explained collation pid request.2 config.shared key := by
    intro isHeld
    obtain ⟨request, program, isRunning⟩ := settled.running_of_holder isHeld
    obtain ⟨phase, isTrue, _⟩ := phaseOf isRunning
    exact ⟨request, _, isRunning, isTrue.explained isHeld⟩
  rcases table.justified pid key mode isGranted with has | wants
  · cases mode with
    | update => exact ofHolder has
    | exclusive => exact ofHolder has
    | share =>
        obtain ⟨write, isPending, refers⟩ := has
        obtain ⟨request, program, isRunning⟩ := (settled.clear pid).resolve_right fun clear => by
          simp [clear.1] at isPending
        obtain ⟨phase, isTrue, _⟩ := phaseOf isRunning
        cases phase with
        | idle => simp [isTrue.1] at isPending
        | owns ruleId => exact ⟨request, _, isRunning, isTrue.refers write isPending key refers⟩
  · obtain ⟨statement, ⟨request, next, isRunning⟩, isNeeded⟩ := wants
    obtain ⟨phase, isTrue, isAllowed, _⟩ := phaseOf isRunning
    exact ⟨request, _, isRunning,
      explained_of_needs isTrue (editNeeds_of_needs isTrue isAllowed isNeeded)⟩

/-- An editor that waits is about to lock the row of a rule, and has locked nothing. -/
theorem waits_only_to_select
    (reachable : Reachable (ruleMachine python collation) serve (Db.start initial clock) config)
    (distinct : DistinctIds config)
    {granted : ProcId → Key → Mode → Prop}
    (table : LockTable (tableLocks collation) config granted)
    {pid other : ProcId}
    (waits : WaitsFor (tableLocks collation) config granted pid other) :
    ∃ id, Clear pid config.shared ∧ ∀ key mode,
      Wants (tableLocks collation) config pid key mode → key = .rule id ∧ mode = .exclusive := by
  obtain ⟨different, key, mode, held, ⟨statement, ⟨request, next, isRunning⟩, isNeeded⟩,
    isGranted, conflict⟩ := waits
  obtain ⟨phase, isTrue, isAllowed, _⟩ :=
    (tracks_lockOrder python collation).phase_of_running follows_serve reachable isRunning
  obtain ⟨request', status', isStarted, explained⟩ :=
    explained_of_granted reachable table isGranted
  have apart := distinct pid other _ _ _ _ isRunning isStarted different
  cases editNeeds_of_needs isTrue isAllowed isNeeded with
  | @select id ownerId isThere =>
      refine ⟨id, isTrue, ?_⟩
      rintro key' mode' ⟨statement', ⟨request'', next', isRunning'⟩, isNeeded'⟩
      rw [isRunning] at isRunning'
      obtain ⟨⟩ := isRunning'
      simp only [tableLocks, needs] at isNeeded'
      split_ifs at isNeeded'
      · exact Prod.mk.inj (List.mem_singleton.mp isNeeded')
      · simp at isNeeded'
  | @newRule statement ids created isNew =>
      rcases explained with isThere | ⟨ids', created', sameId⟩
      · exact absurd isThere isNew
      · exact absurd sameId.symm (apart.2 ids created ids' created').1
  | @newUid statement ids created =>
      obtain ⟨ids', created', sameUid⟩ := explained
      exact absurd (UUID.str_injective sameUid).symm (apart.2 ids created ids' created').2
  | ownRule =>
      -- the lock of the rule is its own
      exact absurd (table.not_updates isTrue.rule isGranted conflict) different
  | version drawn => exact absurd explained (apart.1 _ drawn)
  | number =>
      -- whoever has a number of the rule has the lock of the rule
      have isOther : config.shared.holder (.rule _) = some other := explained
      rw [isTrue.rule] at isOther
      exact absurd (Option.some.inj isOther).symm different

/-- Nobody waits for an editor that waits. -/
theorem ranked_of_reachable
    (reachable : Reachable (ruleMachine python collation) serve (Db.start initial clock) config)
    (distinct : DistinctIds config) :
    Ranked (tableLocks collation) config 1 := by
  classical
  intro granted table
  let waits (pid : ProcId) : Prop :=
    ∃ other, WaitsFor (tableLocks collation) config granted pid other
  refine ⟨fun pid => if waits pid then 1 else 0, fun pid other waiting => ?_⟩
  have notWaiting : ¬waits other := by
    rintro ⟨third, waiting'⟩
    obtain ⟨id, clear, only⟩ := waits_only_to_select reachable distinct table waiting'
    obtain ⟨_, key, mode, held, _, isGranted, _⟩ := waiting
    obtain ⟨different, key', mode', held', wants', isGranted', conflict'⟩ := waiting'
    obtain ⟨rfl, rfl⟩ := only _ _ (table.wants_of_clear clear isGranted)
    obtain ⟨rfl, rfl⟩ := only _ _ wants'
    exact different (table.conflicts other third _ _ _ isGranted isGranted' conflict')
  have isWaiting : waits pid := ⟨other, waiting⟩
  simp [if_pos isWaiting, if_neg notWaiting]

theorem DistinctIds.of_proceeds
    {last : Config ServiceError (SessionAnswer Answer) (UUID × RuleCall python) RuleDb Response}
    (distinct : DistinctIds config)
    (proceeds : Relation.ReflTransGen (Proceeds (schema collation) .database) config last) :
    DistinctIds last := by
  intro pid other request request' status status' isStarted isStarted'
  obtain ⟨_, wasStarted⟩ := started_of_proceeds proceeds isStarted
  obtain ⟨_, wasStarted'⟩ := started_of_proceeds proceeds isStarted'
  exact distinct pid other request request' _ _ wasStarted wasStarted'

/-- The editors of any number of rules do not deadlock, however far their statements have
come with their locks: nobody waits for an editor that waits, and a writing editor that has
locked its rule waits for nobody.  All calls that have started finish. -/
theorem editors_finish
    (reachable : Reachable (ruleMachine python collation) serve (Db.start initial clock) config)
    (distinct : DistinctIds config) :
    (∀ granted, LockTable (tableLocks collation) config granted →
      ∀ pid other, WaitsFor (tableLocks collation) config granted pid other →
        Clear pid config.shared ∧
          ∀ third, ¬WaitsFor (tableLocks collation) config granted other third) ∧
    AllFinish (schema collation) ServiceError.database config := by
  refine ⟨fun granted table pid other waits => ⟨?_, fun third waits' => ?_⟩, ?_⟩
  · obtain ⟨_, clear, _⟩ := waits_only_to_select reachable distinct table waits
    exact clear
  · obtain ⟨rank, lower⟩ := ranked_of_reachable reachable distinct granted table
    have first := lower _ _ waits
    have second := lower _ _ waits'
    omega
  · apply allFinish_of_ranked reachable
    intro last proceeds
    exact ranked_of_reachable (reachable.trans (steps_of_proceeds proceeds))
      (distinct.of_proceeds proceeds)

end Waits

end Order

/-- A call that revises the first version of the draft, with an id of its own. -/
def RuleCall.sample (number : Nat) : UUID × RuleCall .coarse :=
  (5, .revise 1 1 Draft.allOfNot (Fin.ofNat (2 ^ 128) (9 + number)))

/-- Two editors of one rule have started, and the first has locked its row. -/
theorem reachable_locked
    {store : RuleStore}
    {rule : DetectionRule}
    (found : (store.rule 1).filter (fun rule => rule.ownerId = 5) = some rule) :
    ∃ (program : Service Response)
      (config : Config ServiceError (SessionAnswer Answer) (UUID × RuleCall .coarse) RuleDb
        Response),
      Reachable (ruleMachine .coarse .codePoints) serve (Db.start store 0) config ∧
      config.shared = (Db.start store 0).executed 0
        (⟨[.rule 1], some (some rule), []⟩ : Effect Key Write (Option DetectionRule)) ∧
      config.process = Function.update (Function.update (Function.update (fun _ : ProcId => none) 0
        (some (RuleCall.sample 0, .running (serve (RuleCall.sample 0))))) 1
        (some (RuleCall.sample 1, .running (serve (RuleCall.sample 1))))) 0
        (some (RuleCall.sample 0, .running program)) := by
  obtain ⟨next, isProgram⟩ : ∃ next, serve (RuleCall.sample 0) =
      .call (.execute (.selectRuleForUpdate 1 5)) next := ⟨_, rfl⟩
  let opened : Config ServiceError (SessionAnswer Answer) (UUID × RuleCall .coarse) RuleDb
      Response := ⟨Db.start store 0, Function.update (Function.update (fun _ => none) 0
    (some (RuleCall.sample 0, .running (serve (RuleCall.sample 0))))) 1
    (some (RuleCall.sample 1, .running (serve (RuleCall.sample 1))))⟩
  have first : Reachable (ruleMachine .coarse .codePoints) serve (Db.start store 0) _ :=
    .single (.start 0 (RuleCall.sample 0) rfl)
  have both : Reachable (ruleMachine .coarse .codePoints) serve (Db.start store 0) opened :=
    first.tail (.start 1 (RuleCall.sample 1) rfl)
  have isRunning : opened.process 0 = some (RuleCall.sample 0,
      .running (.call (.execute (.selectRuleForUpdate 1 5)) next)) := by
    rw [← isProgram]
    rfl
  have performed : performs (schema .codePoints) ServiceError.database 0
      (.execute (.selectRuleForUpdate 1 5)) (Db.start store 0) (.ok (some rule))
      ((Db.start store 0).executed 0 ⟨[.rule 1], some (some rule), []⟩) := by
    rw [← effect_of_found .codePoints found]
    exact ⟨fun _ _ => .inl rfl, congrArg Effect.answer (effect_of_found .codePoints found), rfl⟩
  have locks : Step (ruleMachine .coarse .codePoints) serve opened
      ⟨_, Function.update opened.process 0
        (some (RuleCall.sample 0, .running (next (.ok (some rule)))))⟩ :=
    .perform isRunning performed
  exact ⟨_, _, both.tail locks, rfl, rfl⟩

/-- The second editor waits for the first. -/
theorem reachable_waiting
    {store : RuleStore}
    {rule : DetectionRule}
    (found : (store.rule 1).filter (fun rule => rule.ownerId = 5) = some rule) :
    ∃ config : Config ServiceError (SessionAnswer Answer) (UUID × RuleCall .coarse) RuleDb
        Response,
      Reachable (ruleMachine .coarse .codePoints) serve (Db.start store 0) config ∧
      DistinctIds config ∧
      WaitsFor (tableLocks .codePoints) config (heldOnly config) 1 0 := by
  obtain ⟨program, config, reachable, isShared, isProcess⟩ := reachable_locked found
  have isStarted : ∀ {pid request status}, config.process pid = some (request, status) →
      (pid = 0 ∨ pid = 1) ∧ request = RuleCall.sample pid := by
    intro pid request status isStarted
    rw [isProcess] at isStarted
    by_cases isFirst : pid = 0
    · subst isFirst
      rw [Function.update_self, Option.some.injEq, Prod.mk.injEq] at isStarted
      exact ⟨.inl rfl, isStarted.1.symm⟩
    · rw [Function.update_of_ne isFirst] at isStarted
      by_cases isSecond : pid = 1
      · subst isSecond
        rw [Function.update_self, Option.some.injEq, Prod.mk.injEq] at isStarted
        exact ⟨.inr rfl, isStarted.1.symm⟩
      · rw [Function.update_of_ne isSecond, Function.update_of_ne isFirst] at isStarted
        contradiction
  have distinct : DistinctIds config := by
    intro pid other request request' status status' wasStarted wasStarted' different
    obtain ⟨isPid, rfl⟩ := isStarted wasStarted
    obtain ⟨isOther, rfl⟩ := isStarted wasStarted'
    rcases isPid with rfl | rfl <;> rcases isOther with rfl | rfl
    · contradiction
    · simp [RuleCall.sample, RuleCall.drawnVersion, RuleCall.created]
    · simp [RuleCall.sample, RuleCall.drawnVersion, RuleCall.created]
    · contradiction
  refine ⟨config, reachable, distinct, ?_⟩
  have isLocked : config.shared.holder (.rule 1) = some 0 := by
    rw [isShared]
    simp [Db.executed]
  obtain ⟨next, isProgram⟩ : ∃ next, serve (RuleCall.sample 1) =
      .call (.execute (.selectRuleForUpdate 1 5)) next := ⟨_, rfl⟩
  have executes : Executes config 1 (.selectRuleForUpdate 1 5) := by
    refine ⟨RuleCall.sample 1, next, ?_⟩
    rw [isProcess, ← isProgram]
    rfl
  have isView : config.shared.view (schema .codePoints) 1 = store := by
    rw [isShared]
    rfl
  refine ⟨by decide, .rule 1, .exclusive, .exclusive, ⟨_, executes, ?_⟩, ⟨by simp, isLocked⟩,
    trivial⟩
  simp [isView, tableLocks, needs, found]

/-- Two editors revise one draft.  The second waits for the row of the rule, which the first
has locked; both finish. -/
theorem sample_editors_finish :
    ∃ config, Reachable (ruleMachine .coarse .codePoints) serve (Db.start oneDraft 0) config ∧
      WaitsFor (tableLocks .codePoints) config (heldOnly config) 1 0 ∧
      (∀ granted, LockTable (tableLocks .codePoints) config granted →
        ∀ pid other, WaitsFor (tableLocks .codePoints) config granted pid other →
          Clear pid config.shared ∧
            ∀ third, ¬WaitsFor (tableLocks .codePoints) config granted other third) ∧
      AllFinish (schema .codePoints) ServiceError.database config := by
  obtain ⟨config, reachable, distinct, waits⟩ := reachable_waiting oneDraft_revisable.found
  exact ⟨config, reachable, waits, editors_finish reachable distinct⟩

end Detection
end SigmaForge
