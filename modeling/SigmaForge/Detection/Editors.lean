import SigmaForge.Detection.VersionChain

/-!
# Concurrent editors

Proof outlines of the operations.  An editor relies on the rule row that it has
locked, on the index entries of the rows that it has inserted, and on versions
never changing.
-/

namespace SigmaForge
namespace Detection

open Text Json ReadCommitted

/-- A database of rule drafts. -/
abbrev RuleDb := Db RuleStore Key Write

/-- The sessions of any number of users. -/
abbrev ruleMachine (python : Interpreter) (collation : Collation) :=
  machine (schema collation) ServiceError.database (UUID × RuleCall python)

/-- What is committed is a new draft or a new version. -/
def advancing (python : Interpreter) (collation : Collation) :
    CommitProperty RuleStore Key Write := fun initial before _ writes =>
  Advances python (replay (schema collation) initial before) writes

/-- All commits are such. -/
abbrev advancingOnly (python : Interpreter) (collation : Collation) : Discipline RuleDb :=
  discipline (schema collation) (advancing python collation)

/-- The errors with which an operation refuses: status 404 or 409, or an error
of the database. -/
def IsRefusal (error : ServiceError) : Prop :=
  error = .database ∨
    ∃ exception, error = .http exception ∧
      (exception.statusCode = 404 ∨ exception.statusCode = 409)

theorem isRefusal_notFound : IsRefusal notFound := .inr ⟨_, rfl, .inl rfl⟩

theorem isRefusal_conflict (detail : Str) : IsRefusal (conflict detail) :=
  .inr ⟨_, rfl, .inr rfl⟩

/-- The reader raises nothing but `ruleNotFound`. -/
theorem decode_error
    {python : Interpreter}
    {serialized : Str}
    {exception : HTTPException}
    (failed : decodeStoredRuleSnapshot python serialized = .error exception) :
    exception = ruleNotFound := by
  unfold decodeStoredRuleSnapshot at failed
  split_ifs at failed
  · exact (Except.error.inj failed).symm
  · split at failed
    · exact (Except.error.inj failed).symm
    · split_ifs at failed
      · exact (Except.error.inj failed).symm
      · split at failed
        · exact (Except.error.inj failed).symm
        · contradiction

section Outlines

variable
    {python : Interpreter}
    {collation : Collation}
    {pid : ProcId}

/-- How an operation is left with an error. -/
def Refused (pid : ProcId) (error : ServiceError) (db : RuleDb) : Prop :=
  IsRefusal error ∧ Uncommitted pid db.log

theorem stable_refused (error : ServiceError) :
    Stable (ruleMachine python collation) (advancingOnly python collation) pid
      (Refused pid error) :=
  (Stable.const _).and stable_uncommitted

/-- The outline of `_decode_stored_rule_snapshot`. -/
theorem outline_decodeSnapshot
    {serialized : Str}
    {assertion : RuleDb → Prop}
    (uncommitted : ∀ db, assertion db → Uncommitted pid db.log) :
    Outline (ruleMachine python collation) (advancingOnly python collation) pid
      (decodeSnapshot python serialized) assertion
      (byOutcome
        (fun snapshot db =>
          decodeStoredRuleSnapshot python serialized = .ok snapshot ∧ assertion db)
        (Refused pid)) := by
  unfold decodeSnapshot
  split
  · rename_i snapshot isDecoded
    exact fun db _ holds => ⟨isDecoded, holds⟩
  · rename_i exception failed
    rw [decode_error failed]
    exact fun db _ holds => ⟨isRefusal_notFound, uncommitted db holds⟩

/-- The outline of a flush.  What it writes is locked, so facts about it that
are true now stay true. -/
theorem outline_flush
    {write : Write}
    {writes : List Write}
    {facts gained : RuleDb → Prop}
    (factsStable :
      Stable (ruleMachine python collation) (advancingOnly python collation) pid facts)
    (gainedStable :
      Stable (ruleMachine python collation) (advancingOnly python collation) pid gained)
    (factsKept : ∀ db (effect : Effect Key Write Unit), facts db →
      facts (db.executed pid effect))
    (gains : ∀ db, facts db → db.pending pid = writes →
      (db.view (schema collation) pid).Admissible write →
      gained (db.executed pid ⟨write.keys, some (), [write]⟩)) :
    Outline (ruleMachine python collation) (advancingOnly python collation) pid (flush write)
      (fun db => (db.pending pid = writes ∧ Uncommitted pid db.log) ∧ facts db)
      (byOutcome
        (fun _ db => (db.pending pid = writes ++ [write] ∧ Uncommitted pid db.log) ∧
          facts db ∧ gained db)
        fun error db => error = .database ∧ Uncommitted pid db.log) := by
  apply outline_execute
  · intro _
    exact ((stable_pending _).and stable_uncommitted).and (factsStable.and gainedStable)
  · exact stable_uncommitted
  · intro _ db _ holds isAnswer
    obtain ⟨⟨isPending, uncommitted⟩, holdsFacts⟩ := holds
    by_cases admissible : (db.view (schema collation) pid).Admissible write
    · have isEffect : (schema collation).effect (.flush write)
          (db.view (schema collation) pid) = ⟨write.keys, some (), [write]⟩ :=
        if_pos admissible
      rw [isEffect]
      refine ⟨⟨?_, uncommitted_executed uncommitted⟩, factsKept db _ holdsFacts,
        gains db holdsFacts isPending admissible⟩
      rw [← isPending]
      exact Function.update_self _ _ _
    · have isEffect : (schema collation).effect (.flush write)
          (db.view (schema collation) pid) = ⟨[], none, []⟩ :=
        if_neg admissible
      rw [isEffect] at isAnswer
      contradiction
  · exact fun db holds => holds.1.2

/-- A version that is new to the view of a session is new to what is
committed. -/
theorem version_new_of_view
    {db : RuleDb}
    {id : UUID}
    (isNew : id ∉ (db.view (schema collation) pid).versions) :
    (db.committed (schema collation)).versions.lookup id = none := by
  by_contra isOld
  obtain ⟨columns, found⟩ := Option.ne_none_iff_exists'.mp isOld
  have kept : ∀ (writes : List Write) (store : RuleStore),
      store.versions.lookup id = some columns →
      (writes.foldl RuleStore.apply store).versions.lookup id = some columns := by
    intro writes
    induction writes with
    | nil => exact fun store found => found
    | cons write writes inductionHypothesis =>
        exact fun store found => inductionHypothesis _ (version_kept write found)
  exact isNew (Finmap.mem_of_lookup_eq_some (kept (db.pending pid) _ found))

theorem view_of_nothing_pending
    {db : RuleDb}
    (nothing : db.pending pid = []) :
    db.view (schema collation) pid = db.committed (schema collation) := by
  rw [Db.view, nothing]
  rfl

/-! ## `create_rule_draft` -/

/-- The session has committed the new draft. -/
def HasCreated (collation : Collation) (pid : ProcId) (draft : Draft python) (ownerId : UUID)
    (ids : FreshIds) (initial : RuleStore) (log : List (Event Key Write)) : Prop :=
  ∃ before after, log = before ++ .committed pid (createWrites draft ownerId ids) :: after ∧
    Creates (replay (schema collation) initial before) ids

theorem stable_hasCreated (draft : Draft python) (ownerId : UUID) (ids : FreshIds) :
    Stable (ruleMachine python collation) (advancingOnly python collation) pid fun db =>
      HasCreated collation pid draft ownerId ids db.initial db.log := by
  apply stable_log
  intro initial log events holds
  obtain ⟨before, after, isLog, creates⟩ := holds
  exact ⟨before, after ++ events, by rw [isLog]; simp, creates⟩

/-- The outline of `create_rule_draft`. -/
theorem outline_createRuleDraft (draft : Draft python) (ownerId : UUID) (ids : FreshIds) :
    Outline (ruleMachine python collation) (advancingOnly python collation) pid
      (createRuleDraft draft ownerId ids) (Untouched pid)
      (byOutcome
        (fun body db => body = receipt ids.ruleId ids.ruleUid.str ids.versionId 1 ∧
          HasCreated collation pid draft ownerId ids db.initial db.log)
        (Refused pid)) := by
  let ruleNew : RuleDb → Prop := Owns (schema collation) pid (.rule ids.ruleId)
    (fun store => store.rules.lookup ids.ruleId) (· = none)
  let uidNew : RuleDb → Prop := Owns (schema collation) pid (.ruleUid ids.ruleUid.str)
    (fun store => store.RuleUidTaken ids.ruleUid.str) (¬·)
  let versionNew : RuleDb → Prop := Owns (schema collation) pid (.version ids.versionId)
    (fun store => store.versions.lookup ids.versionId) (· = none)
  have ruleStable : Stable (ruleMachine python collation) (advancingOnly python collation) pid
      ruleNew := stable_owns (dependsOn_rule ids.ruleId) _
  have uidStable : Stable (ruleMachine python collation) (advancingOnly python collation) pid
      uidNew := stable_owns (dependsOn_ruleUid ids.ruleUid.str) _
  have versionStable : Stable (ruleMachine python collation) (advancingOnly python collation)
      pid versionNew := stable_owns (dependsOn_version ids.versionId) _
  unfold createRuleDraft
  simp only [Program.bind_eq, Program.tryCatch_eq, Program.throw_eq, Program.pure_eq]
  apply Outline.bind
  · apply outline_transaction stable_uncommitted fun _ holds => holds
    apply Outline.weaken
    apply Outline.bind
    · apply outline_flush (Stable.const True) (ruleStable.and uidStable)
      · exact fun _ _ holds => holds
      · intro db _ nothing admissible
        rw [view_of_nothing_pending nothing] at admissible
        exact ⟨.of_locked (by simp [Write.keys]) (Finmap.lookup_eq_none.mpr admissible.1),
          .of_locked (by simp [Write.keys, newRule]) admissible.2.1⟩
    · intro _
      apply Outline.bind
      · apply outline_flush ((Stable.const True).and (ruleStable.and uidStable)) versionStable
        · exact fun db effect holds =>
            ⟨trivial, holds.2.1.executed effect, holds.2.2.executed effect⟩
        · intro db _ _ admissible
          exact .of_locked (by simp [Write.keys]) (version_new_of_view admissible.1)
      · intro _
        apply Outline.bind
        · apply outline_flush
            (((Stable.const True).and (ruleStable.and uidStable)).and versionStable)
            (Stable.const True)
          · exact fun db effect holds =>
              ⟨⟨trivial, holds.1.2.1.executed effect, holds.1.2.2.executed effect⟩,
                holds.2.executed effect⟩
          · exact fun _ _ _ _ => trivial
        · intro _
          apply outline_commit (stable_hasCreated draft ownerId ids) stable_uncommitted
          · intro db _ holds
            obtain ⟨⟨isPending, _⟩, ⟨⟨_, ruleHolds, uidHolds⟩, versionHolds⟩, _⟩ := holds
            have creates : Creates (db.committed (schema collation)) ids :=
              ⟨Finmap.lookup_eq_none.mp ruleHolds.2, uidHolds.2,
                Finmap.lookup_eq_none.mp versionHolds.2⟩
            have areWrites : db.pending pid = createWrites draft ownerId ids := isPending
            constructor
            · rw [areWrites]
              exact .create draft ownerId ids creates
            · exact ⟨db.log, [], by rw [← areWrites]; rfl, creates⟩
          · exact fun db holds => holds.1.2
        · exact fun _ _ _ holds => holds
      · exact fun _ _ _ holds => holds
    · exact fun _ _ _ holds => holds
    · exact fun db _ holds => ⟨holds, trivial⟩
  · exact fun _ _ _ holds => ⟨rfl, holds⟩
  · exact fun _ _ _ holds => ⟨.inl holds.1, holds.2⟩

/-! ## `revise_owned_rule_draft` -/

/-- The session has committed the version that follows the expected one. -/
def HasRevised (collation : Collation) (pid : ProcId) (ruleId ownerId : UUID)
    (expectedVersion : Int) (draft : Draft python) (versionId : UUID) (body : RuleReceipt)
    (initial : RuleStore) (log : List (Event Key Write)) : Prop :=
  ∃ before after rule previous,
    log = before ++
      .committed pid (reviseWrites ruleId ownerId (expectedVersion + 1) draft versionId) ::
        after ∧
    Revises (replay (schema collation) initial before) ruleId ownerId versionId rule previous ∧
    previous.versionNumber = expectedVersion ∧
    body = receipt ruleId rule.ruleUid versionId (expectedVersion + 1)

theorem stable_hasRevised
    (ruleId ownerId : UUID)
    (expectedVersion : Int)
    (draft : Draft python)
    (versionId : UUID)
    (body : RuleReceipt) :
    Stable (ruleMachine python collation) (advancingOnly python collation) pid fun db =>
      HasRevised collation pid ruleId ownerId expectedVersion draft versionId body db.initial
        db.log := by
  apply stable_log
  intro initial log events holds
  obtain ⟨before, after, rule, previous, isLog, rest⟩ := holds
  exact ⟨before, after ++ events, rule, previous, by rw [isLog]; simp, rest⟩

/-- The session holds the lock of the rule, which it has seen. -/
def HoldsRule (collation : Collation) (pid : ProcId) (rule : DetectionRule) (db : RuleDb) :
    Prop :=
  Owns (schema collation) pid (.rule rule.id) (fun store => store.rules.lookup rule.id)
    (· = some rule.toRuleColumns) db

theorem stable_holdsRule (rule : DetectionRule) :
    Stable (ruleMachine python collation) (advancingOnly python collation) pid
      (HoldsRule collation pid rule) :=
  stable_owns (dependsOn_rule rule.id) _

/-- The version is stored. -/
def IsStored (version : DetectionRuleVersion) (store : RuleStore) : Prop :=
  store.versions.lookup version.id = some version.toVersionColumns

theorem stable_isStored (version : DetectionRuleVersion) :
    Stable (ruleMachine python collation) (advancingOnly python collation) pid fun db =>
      IsStored version (db.committed (schema collation)) :=
  stable_committed fun _ write found => version_kept write found

/-- The outline of the query that locks the rule. -/
theorem outline_selectRuleForUpdate (ruleId ownerId : UUID) :
    Outline (ruleMachine python collation) (advancingOnly python collation) pid
      (execute (.selectRuleForUpdate ruleId ownerId)) (Untouched pid)
      (byOutcome
        (fun answer db => Untouched pid db ∧
          ∀ rule, answer = some rule → rule.id = ruleId ∧ HoldsRule collation pid rule db)
        fun error db => error = .database ∧ Untouched pid db) := by
  apply outline_execute
  · intro answer
    exact stable_untouched.and (Stable.forall fun rule => Stable.forall fun _ =>
      (Stable.const _).and (stable_holdsRule rule))
  · exact stable_untouched
  · intro answer db _ untouched isAnswer
    rw [view_of_nothing_pending untouched.1] at isAnswer ⊢
    cases isFound : ((db.committed (schema collation)).rule ruleId).filter
        fun rule => rule.ownerId = ownerId with
    | none =>
        have isEffect : (schema collation).effect (.selectRuleForUpdate ruleId ownerId)
            (db.committed (schema collation)) = reads none :=
          effect_of_missing collation isFound
        rw [isEffect] at isAnswer ⊢
        obtain rfl : none = answer := Option.some.inj isAnswer
        rw [executed_silent rfl rfl]
        exact ⟨untouched, fun rule isRule => nomatch isRule⟩
    | some rule =>
        have isEffect : (schema collation).effect (.selectRuleForUpdate ruleId ownerId)
            (db.committed (schema collation)) = ⟨[.rule ruleId], some (some rule), []⟩ :=
          effect_of_found collation isFound
        rw [isEffect] at isAnswer ⊢
        obtain rfl : some rule = answer := Option.some.inj isAnswer
        refine ⟨⟨?_, uncommitted_executed untouched.2⟩, fun other isOther => ?_⟩
        · simp [Db.executed, untouched.1]
        · obtain rfl : rule = other := Option.some.inj isOther
          obtain ⟨isRule, _⟩ := Option.filter_eq_some_iff.mp isFound
          obtain ⟨columns, found, rfl⟩ := Option.map_eq_some_iff.mp isRule
          exact ⟨rfl, .of_locked List.mem_cons_self found⟩
  · exact fun _ holds => holds

/-- What `session.get` on a version has seen. -/
def SawVersion (id : UUID) (answer : Option DetectionRuleVersion) (store : RuleStore) : Prop :=
  ∀ version, answer = some version → version.id = id ∧ IsStored version store

/-- The outline of `session.get` on a version. -/
theorem outline_getVersion
    {assertion : RuleDb → Prop}
    (stable :
      Stable (ruleMachine python collation) (advancingOnly python collation) pid assertion)
    (nothingPending : ∀ db, assertion db → db.pending pid = [])
    (id : UUID) :
    Outline (ruleMachine python collation) (advancingOnly python collation) pid
      (execute (.getVersion id)) assertion
      (byOutcome
        (fun answer db => assertion db ∧
          SawVersion id answer (db.committed (schema collation)))
        fun error db => error = .database ∧ assertion db) := by
  apply outline_read stable (fun _ => rfl) (fun _ => rfl) nothingPending
  · intro store answer isAnswer version isVersion
    obtain rfl : store.version id = answer := Option.some.inj isAnswer
    obtain ⟨columns, found, rfl⟩ := Option.map_eq_some_iff.mp isVersion
    exact ⟨rfl, found⟩
  · intro answer store write holds version isVersion
    obtain ⟨isId, found⟩ := holds version isVersion
    exact ⟨isId, version_kept write found⟩

/-- The outline of the transaction that appends a version. -/
theorem outline_revision
    {ownerId versionId : UUID}
    {expectedVersion : Int}
    {draft : Draft python}
    {rule : DetectionRule}
    {previous : DetectionRuleVersion}
    (isOwned : rule.ownerId = ownerId)
    (isDraft : rule.status = .draft)
    (isCurrent : rule.currentVersionId = some previous.id)
    (sameRule : previous.ruleId = rule.id)
    (isExpected : previous.versionNumber = expectedVersion)
    (differs : Differs previous.toVersionColumns draft) :
    Outline (ruleMachine python collation) (advancingOnly python collation) pid
      (do
        tryCatch
          (do
            flush (.insertVersion versionId
              (newVersion rule.id (previous.versionNumber + 1) draft ownerId))
            flush (pointTo rule.id draft versionId)
            commit)
          fun error => do
            rollback
            throw error
        return receipt rule.id rule.ruleUid versionId (previous.versionNumber + 1))
      (fun db => Untouched pid db ∧ HoldsRule collation pid rule db ∧
        IsStored previous (db.committed (schema collation)))
      (byOutcome
        (fun body db => HasRevised collation pid rule.id ownerId expectedVersion draft versionId
          body db.initial db.log)
        (Refused pid)) := by
  subst isExpected
  let number := previous.versionNumber + 1
  let versionNew : RuleDb → Prop := Owns (schema collation) pid (.version versionId)
    (fun store => store.versions.lookup versionId) (· = none)
  let numberNew : RuleDb → Prop := Owns (schema collation) pid (.versionNumber rule.id number)
    (fun store => store.NumberTaken rule.id number) (¬·)
  have factsStable : Stable (ruleMachine python collation) (advancingOnly python collation) pid
      fun db => HoldsRule collation pid rule db ∧
        IsStored previous (db.committed (schema collation)) :=
    (stable_holdsRule rule).and (stable_isStored previous)
  have gainedStable : Stable (ruleMachine python collation) (advancingOnly python collation) pid
      fun db => (versionNew db ∧ numberNew db) ∧ IsInteger number :=
    ((stable_owns (dependsOn_version versionId) _).and
      (stable_owns (dependsOn_versionNumber rule.id number) _)).and (Stable.const _)
  have factsKept : ∀ (db : RuleDb) (effect : Effect Key Write Unit),
      (HoldsRule collation pid rule db ∧ IsStored previous (db.committed (schema collation))) →
      HoldsRule collation pid rule (db.executed pid effect) ∧
        IsStored previous ((db.executed pid effect).committed (schema collation)) := by
    intro db effect holds
    refine ⟨holds.1.executed effect, ?_⟩
    rw [committed_executed]
    exact holds.2
  have revised : ∀ db : RuleDb, HoldsRule collation pid rule db →
      IsStored previous (db.committed (schema collation)) → versionNew db → numberNew db →
      IsInteger number →
      Revises (db.committed (schema collation)) rule.id ownerId versionId rule.toRuleColumns
        previous.toVersionColumns :=
    fun db isRule isStored isNew isFree isInteger =>
      ⟨isRule.2, isOwned, isDraft, ⟨previous.id, isCurrent, isStored⟩, sameRule,
        Finmap.lookup_eq_none.mp isNew.2, isFree.2, isInteger⟩
  simp only [Program.bind_eq, Program.tryCatch_eq, Program.throw_eq, Program.pure_eq]
  apply Outline.bind
  · apply outline_transaction stable_uncommitted fun _ holds => holds
    apply Outline.bind
    · apply outline_flush factsStable gainedStable factsKept
      intro db _ nothing admissible
      rw [view_of_nothing_pending nothing] at admissible
      exact ⟨⟨.of_locked (by simp [Write.keys]) (Finmap.lookup_eq_none.mpr admissible.1),
        .of_locked (by simp [Write.keys, newVersion, number]) admissible.2.2.1⟩,
        admissible.2.2.2⟩
    · intro _
      apply Outline.bind
      · apply outline_flush (factsStable.and gainedStable) (Stable.const True)
        · exact fun db effect holds => ⟨factsKept db effect holds.1,
            ⟨holds.2.1.1.executed effect, holds.2.1.2.executed effect⟩, holds.2.2⟩
        · exact fun _ _ _ _ => trivial
      · intro _
        apply outline_commit
          (stable_hasRevised rule.id ownerId previous.versionNumber draft versionId
            (receipt rule.id rule.ruleUid versionId (previous.versionNumber + 1)))
          stable_uncommitted
        · intro db _ holds
          obtain ⟨⟨isPending, _⟩, ⟨⟨isRule, isStored⟩, ⟨isNew, isFree⟩, isInteger⟩, _⟩ := holds
          have revises := revised db isRule isStored isNew isFree isInteger
          have areWrites : db.pending pid =
              reviseWrites rule.id ownerId number draft versionId := isPending
          constructor
          · rw [areWrites]
            exact .revise draft revises differs
          · refine ⟨db.log, [], _, _, ?_, revises, rfl, rfl⟩
            rw [← areWrites]
            rfl
        · exact fun db holds => holds.1.2
      · exact fun _ _ _ holds => holds
    · exact fun _ _ _ holds => holds
  · exact fun _ _ _ holds => holds
  · exact fun _ _ _ holds => ⟨.inl holds.1, holds.2⟩

/-- The outline of `revise_owned_rule_draft`. -/
theorem outline_reviseOwnedRuleDraft
    (ruleId ownerId : UUID)
    (expectedVersion : Int)
    (draft : Draft python)
    (versionId : UUID) :
    Outline (ruleMachine python collation) (advancingOnly python collation) pid
      (reviseOwnedRuleDraft ruleId ownerId expectedVersion draft versionId) (Untouched pid)
      (byOutcome
        (fun body db => HasRevised collation pid ruleId ownerId expectedVersion draft versionId
          body db.initial db.log)
        (Refused pid)) := by
  have refuses : ∀ error, IsRefusal error → ∀ db : RuleDb, Untouched pid db →
      Refused pid error db := fun error isRefusal db untouched => ⟨isRefusal, untouched.2⟩
  unfold reviseOwnedRuleDraft
  simp only [Program.bind_eq]
  apply Outline.bind (outline_selectRuleForUpdate ruleId ownerId)
  · intro answer
    refine Outline.ofOption_bind
      (fun db _ holds => refuses _ isRefusal_notFound db holds.1) fun rule isAnswer => ?_
    subst isAnswer
    have locked : ∀ db : RuleDb, (Untouched pid db ∧ ∀ other, some rule = some other →
        other.id = ruleId ∧ HoldsRule collation pid other db) →
        rule.id = ruleId ∧ Untouched pid db ∧ HoldsRule collation pid rule db :=
      fun db holds => ⟨(holds.2 rule rfl).1, holds.1, (holds.2 rule rfl).2⟩
    refine Outline.weaken (Outline.of_fact fun isId => ?_) fun db _ => locked db
    subst isId
    refine Outline.ensure_bind
      (fun db _ holds => refuses _ isRefusal_notFound db holds.1) fun isOwn => ?_
    refine Outline.ensure_bind
      (fun db _ holds => refuses _ (isRefusal_conflict _) db holds.1) fun isDraft => ?_
    refine Outline.ofOption_bind
      (fun db _ holds => refuses _ isRefusal_notFound db holds.1)
      fun currentVersionId isCurrent => ?_
    apply Outline.bind
      (outline_getVersion (stable_untouched.and (stable_holdsRule rule))
        (fun db holds => holds.1.1) currentVersionId)
    · intro answer
      refine Outline.ofOption_bind
        (fun db _ holds => refuses _ isRefusal_notFound db holds.1.1) fun previous isAnswer => ?_
      subst isAnswer
      have seen : ∀ db : RuleDb, ((Untouched pid db ∧ HoldsRule collation pid rule db) ∧
          SawVersion currentVersionId (some previous) (db.committed (schema collation))) →
          previous.id = currentVersionId ∧ Untouched pid db ∧ HoldsRule collation pid rule db ∧
            IsStored previous (db.committed (schema collation)) :=
        fun db holds =>
          ⟨(holds.2 previous rfl).1, holds.1.1, holds.1.2, (holds.2 previous rfl).2⟩
      refine Outline.weaken (Outline.of_fact fun isId => ?_) fun db _ => seen db
      subst isId
      refine Outline.ensure_bind
        (fun db _ holds => refuses _ isRefusal_notFound db holds.1) fun sameRule => ?_
      refine Outline.ensure_bind
        (fun db _ holds => refuses _ (isRefusal_conflict _) db holds.1) fun isExpected => ?_
      apply Outline.bind (outline_decodeSnapshot fun db holds => holds.1.2)
      · intro snapshot
        apply Outline.of_fact
        intro isDecoded
        refine Outline.ensure_bind
          (fun db _ holds => refuses _ (isRefusal_conflict _) db holds.1) fun differs => ?_
        exact outline_revision isOwn.2 isDraft isCurrent sameRule isExpected
          ⟨snapshot, isDecoded, differs⟩
      · exact fun _ _ _ holds => holds
    · exact fun _ db _ holds => refuses _ (.inl holds.1) db holds.2.1
  · exact fun _ db _ holds => refuses _ (.inl holds.1) db holds.2

/-! ## The operations that only read -/

/-- An operation that neither locks nor writes. -/
def IsQuery (collation : Collation) : SessionOp Statement → Prop
  | .execute statement => ∀ store, (effect collation statement store).locks = [] ∧
      (effect collation statement store).writes = []
  | _ => False

/-- A program of queries commits nothing. -/
theorem outline_of_queries
    {α : Type}
    {program : Service α}
    (queries : program.Only (IsQuery collation)) :
    Outline (ruleMachine python collation) (advancingOnly python collation) pid program
      (Untouched pid) fun _ => Untouched pid := by
  apply Outline.of_only queries stable_untouched
  intro op answer db db' isQuery invariant holds performed
  obtain ⟨moves, locked⟩ := perform_moves_locked (schema collation) performed invariant.1
  match op, answer, performed with
  | .execute statement, .ok answer, performed =>
      obtain ⟨_, _, rfl⟩ := performed
      obtain ⟨noLocks, noWrites⟩ := isQuery (db.view (schema collation) pid)
      have isSame : db.executed pid
          ((schema collation).effect statement (db.view (schema collation) pid)) = db :=
        executed_silent noLocks noWrites db
      rw [isSame] at moves ⊢
      exact ⟨invariant, moves, holds⟩
  | .execute statement, .error error, performed =>
      obtain ⟨_, rfl⟩ := performed
      exact ⟨invariant, moves, holds⟩

theorem isQuery_getRule (id : UUID) : IsQuery collation (.execute (.getRule id)) :=
  fun _ => ⟨rfl, rfl⟩

theorem isQuery_getVersion (id : UUID) : IsQuery collation (.execute (.getVersion id)) :=
  fun _ => ⟨rfl, rfl⟩

theorem isQuery_selectVersion (ruleId : UUID) (number : Int) :
    IsQuery collation (.execute (.selectVersion ruleId number)) := by
  intro store
  simp only [effect]
  split <;> exact ⟨rfl, rfl⟩

theorem queries_decodeSnapshot (serialized : Str) :
    (decodeSnapshot python serialized).Only (IsQuery collation) := by
  unfold decodeSnapshot
  split <;> trivial

theorem queries_getOwnedRuleVersion (ruleId ownerId : UUID) (versionNumber : Int) :
    (getOwnedRuleVersion python ruleId ownerId versionNumber).Only (IsQuery collation) := by
  apply Program.Only.bind (Program.Only.perform (isQuery_getRule ruleId))
  intro _
  apply Program.Only.bind (Program.Only.ofOption _ _)
  intro _
  apply Program.Only.bind (Program.Only.ensure _ _)
  intro _
  apply Program.Only.bind (Program.Only.ofOption _ _)
  intro _
  apply Program.Only.bind (Program.Only.perform (isQuery_selectVersion ruleId versionNumber))
  intro _
  apply Program.Only.bind (Program.Only.ofOption _ _)
  intro _
  apply Program.Only.bind (Program.Only.ensure _ _)
  intro _
  exact Program.Only.bind (queries_decodeSnapshot _) fun _ => trivial

/-- The call is not there to write. -/
def RuleCall.OnlyReads : RuleCall python → Prop
  | .create _ _ => False
  | .revise _ _ _ _ => False
  | _ => True

/-- Reading calls consist of queries. -/
theorem queries_program
    (ownerId : UUID)
    {call : RuleCall python}
    (onlyReads : call.OnlyReads) :
    (call.program ownerId).Only (IsQuery collation) := by
  cases call with
  | create draft ids => exact onlyReads.elim
  | revise ruleId expectedVersion draft versionId => exact onlyReads.elim
  | get ruleId =>
      refine Program.Only.bind ?_ fun _ => trivial
      apply Program.Only.bind (Program.Only.perform (isQuery_getRule ruleId))
      intro _
      apply Program.Only.bind (Program.Only.ofOption _ _)
      intro _
      apply Program.Only.bind (Program.Only.ensure _ _)
      intro _
      apply Program.Only.bind (Program.Only.ofOption _ _)
      intro currentVersionId
      apply Program.Only.bind (Program.Only.perform (isQuery_getVersion currentVersionId))
      intro _
      apply Program.Only.bind (Program.Only.ofOption _ _)
      intro _
      apply Program.Only.bind (Program.Only.ensure _ _)
      intro _
      exact Program.Only.bind (queries_decodeSnapshot _) fun _ => trivial
  | list limit offset =>
      refine Program.Only.bind ?_ fun _ => trivial
      have isQuery : IsQuery collation
          (.execute (.selectDrafts ownerId offset (limit + 1))) := fun _ => ⟨rfl, rfl⟩
      exact Program.Only.bind (Program.Only.perform isQuery) fun _ => trivial
  | listVersions ruleId limit offset =>
      refine Program.Only.bind ?_ fun _ => trivial
      apply Program.Only.bind (Program.Only.perform (isQuery_getRule ruleId))
      intro _
      apply Program.Only.bind (Program.Only.ofOption _ _)
      intro _
      apply Program.Only.bind (Program.Only.ensure _ _)
      intro _
      apply Program.Only.bind (Program.Only.ofOption _ _)
      intro _
      have isQuery : IsQuery collation
          (.execute (.selectVersions ruleId offset (limit + 1))) := fun _ => ⟨rfl, rfl⟩
      exact Program.Only.bind (Program.Only.perform isQuery) fun _ => trivial
  | getVersion ruleId versionNumber =>
      exact Program.Only.bind (queries_getOwnedRuleVersion ruleId ownerId versionNumber)
        fun _ => trivial
  | diff ruleId versionNumber =>
      refine Program.Only.bind ?_ fun _ => trivial
      apply Program.Only.bind (Program.Only.ensure _ _)
      intro _
      apply Program.Only.bind (queries_getOwnedRuleVersion ruleId ownerId (versionNumber - 1))
      intro _
      apply Program.Only.bind (queries_getOwnedRuleVersion ruleId ownerId versionNumber)
      intro _
      apply Program.Only.bind (Program.Only.ensure _ _)
      intro _
      exact Program.Only.bind (Program.Only.ofOption _ _) fun _ => trivial

/-! ## All calls -/

/-- What a finished call leaves behind. -/
def Outcome (collation : Collation) (pid : ProcId) (ownerId : UUID) :
    RuleCall python → Except ServiceError Response → RuleDb → Prop
  | .create draft ids, .ok response, db =>
      response = .receipt (receipt ids.ruleId ids.ruleUid.str ids.versionId 1) ∧
        HasCreated collation pid draft ownerId ids db.initial db.log
  | .revise ruleId expectedVersion draft versionId, .ok response, db =>
      ∃ body, response = .receipt body ∧
        HasRevised collation pid ruleId ownerId expectedVersion draft versionId body db.initial
          db.log
  | .create _ _, .error error, db => Refused pid error db
  | .revise _ _ _ _, .error error, db => Refused pid error db
  | _, _, db => Uncommitted pid db.log

theorem stable_outcome
    (ownerId : UUID)
    (call : RuleCall python)
    (result : Except ServiceError Response) :
    Stable (ruleMachine python collation) (advancingOnly python collation) pid
      (Outcome collation pid ownerId call result) := by
  cases call with
  | create draft ids =>
      cases result with
      | ok response => exact (Stable.const _).and (stable_hasCreated draft ownerId ids)
      | error error => exact stable_refused error
  | revise ruleId expectedVersion draft versionId =>
      cases result with
      | ok response =>
          exact Stable.exists fun body => (Stable.const _).and
            (stable_hasRevised ruleId ownerId expectedVersion draft versionId body)
      | error error => exact stable_refused error
  | get ruleId => exact stable_uncommitted
  | list limit offset => exact stable_uncommitted
  | listVersions ruleId limit offset => exact stable_uncommitted
  | getVersion ruleId versionNumber => exact stable_uncommitted
  | diff ruleId versionNumber => exact stable_uncommitted

/-- The outline of any call. -/
theorem outline_program (ownerId : UUID) (call : RuleCall python) :
    Outline (ruleMachine python collation) (advancingOnly python collation) pid
      (call.program ownerId) (Untouched pid) (Outcome collation pid ownerId call) := by
  have reading : call.OnlyReads →
      Outline (ruleMachine python collation) (advancingOnly python collation) pid
        (call.program ownerId) (Untouched pid) fun _ db => Uncommitted pid db.log :=
    fun onlyReads => (outline_of_queries (queries_program ownerId onlyReads)).consequence
      fun _ _ _ holds => holds.2
  cases call with
  | create draft ids =>
      apply Outline.bind (outline_createRuleDraft draft ownerId ids)
      · intro body db _ holds
        exact ⟨congrArg Response.receipt holds.1, holds.2⟩
      · exact fun _ _ _ holds => holds
  | revise ruleId expectedVersion draft versionId =>
      apply Outline.bind
        (outline_reviseOwnedRuleDraft ruleId ownerId expectedVersion draft versionId)
      · intro body db _ holds
        exact ⟨body, rfl, holds⟩
      · exact fun _ _ _ holds => holds
  | get ruleId => exact (reading trivial).consequence fun _ _ _ holds => holds
  | list limit offset => exact (reading trivial).consequence fun _ _ _ holds => holds
  | listVersions ruleId limit offset =>
      exact (reading trivial).consequence fun _ _ _ holds => holds
  | getVersion ruleId versionNumber =>
      exact (reading trivial).consequence fun _ _ _ holds => holds
  | diff ruleId versionNumber => exact (reading trivial).consequence fun _ _ _ holds => holds

end Outlines

/-- What a session runs: a call of the user. -/
def serve {python : Interpreter} (request : UUID × RuleCall python) : Service Response :=
  request.2.program request.1

/-- All sessions follow their outlines. -/
theorem outlined_serve (python : Interpreter) (collation : Collation) :
    Outlined (ruleMachine python collation) (advancingOnly python collation) serve Untouched
      fun pid request => Outcome collation pid request.1 request.2 := by
  apply outlined_of_outlines
  · exact fun pid request result => stable_outcome request.1 request.2 result
  · intro pid request result db holds
    obtain ⟨ownerId, call⟩ := request
    cases call <;> cases result <;> exact holds
  · exact fun pid request => outline_program request.1 request.2

end Detection
end SigmaForge
