import SigmaForge.Detection.Service

/-!
# Version chains

What the two writing operations commit, and the invariant of the tables that
these commits keep: the versions of a rule are numbered from 1 without gaps, and
the rule row describes the last of them.
-/

namespace SigmaForge
namespace Detection

open Text Json ReadCommitted

/-! ## What is derived from a snapshot -/

/-- The title of a snapshot. -/
def snapshotTitle (snapshot : Value) : Option Str :=
  (getItem (lit "title") snapshot).bind RulePreflightRequest.textOf

/-- The first of the snapshot's `product`, `category` and `service`. -/
def snapshotLogSource (snapshot : Value) : Option Str :=
  [lit "product", lit "category", lit "service"].findSome? fun key =>
    ((getItem (lit "logsource") snapshot).bind (getItem key)).bind RulePreflightRequest.textOf

theorem lookup_textOf (key : Str) (logsource : List (Str × Str)) :
    (Value.lookup key (logsource.map fun (key, value) => (key, Value.scalar (.str value)))).bind
      RulePreflightRequest.textOf = Value.lookup key logsource := by
  rw [Value.lookup_map (fun value => Value.scalar (.str value)) key logsource, Option.bind_map]
  cases Value.lookup key logsource <;> rfl

/-- A rule row is derived from the snapshot that is decoded from its version. -/
theorem snapshot_of_draft {python : Interpreter} (draft : Draft python) :
    ∃ snapshot, decodeStoredRuleSnapshot python (sigmaYaml draft) = .ok snapshot ∧
      snapshotTitle snapshot = some draft.request.title ∧
      snapshotLogSource snapshot = logSource draft.request.logsource := by
  refine ⟨_, decode_sigmaYaml draft, ?_⟩
  obtain ⟨title, logsource, _⟩ :=
    lookup_of_perm (Value.sortByKey_perm draft.request.sorted.dumpMembers)
  rw [sortKeys_modelDump]
  constructor
  · simp only [snapshotTitle, getItem, title]
    rfl
  · simp only [snapshotLogSource, getItem, logsource, Option.bind_some]
    unfold logSource
    congr 1
    funext key
    rw [lookup_textOf]
    exact (Value.lookup_perm draft.hasDicts.logsource
      (Value.sortByKey_perm draft.request.logsource).symm key).symm

/-! ## Commits -/

section Commits

variable {python : Interpreter}

/-- What `create_rule_draft` commits. -/
def createWrites (draft : Draft python) (ownerId : UUID) (ids : FreshIds) : List Write :=
  [.insertRule ids.ruleId (newRule draft ownerId ids),
    .insertVersion ids.versionId (newVersion ids.ruleId 1 draft ownerId),
    pointTo ids.ruleId draft ids.versionId]

/-- What `revise_owned_rule_draft` commits. -/
def reviseWrites (ruleId ownerId : UUID) (versionNumber : Int) (draft : Draft python)
    (versionId : UUID) : List Write :=
  [.insertVersion versionId (newVersion ruleId versionNumber draft ownerId),
    pointTo ruleId draft versionId]

/-- The ids of a new draft are new. -/
structure Creates (store : RuleStore) (ids : FreshIds) : Prop where
  ruleNew : ids.ruleId ∉ store.rules
  ruleUidNew : ¬store.RuleUidTaken ids.ruleUid.str
  versionNew : ids.versionId ∉ store.versions

/-- The user may add a version to the rule, whose current version is the given
one. -/
structure Revises (store : RuleStore) (ruleId ownerId versionId : UUID) (rule : RuleColumns)
    (previous : VersionColumns) : Prop where
  isRule : store.rules.lookup ruleId = some rule
  isOwned : rule.ownerId = ownerId
  isDraft : rule.status = .draft
  isCurrent : ∃ previousId, rule.currentVersionId = some previousId ∧
    store.versions.lookup previousId = some previous
  sameRule : previous.ruleId = ruleId
  versionNew : versionId ∉ store.versions
  numberNew : ¬store.NumberTaken ruleId (previous.versionNumber + 1)
  isInteger : IsInteger (previous.versionNumber + 1)

/-- The draft is not equal to the snapshot that is decoded from the version. -/
def Differs (previous : VersionColumns) (draft : Draft python) : Prop :=
  ∃ snapshot, decodeStoredRuleSnapshot python previous.sigmaYaml = .ok snapshot ∧
    draft.request.modelDump.pyEq snapshot = false

/-- A commit of one of the two operations. -/
inductive Advances (python : Interpreter) (store : RuleStore) : List Write → Prop
  | create (draft : Draft python) (ownerId : UUID) (ids : FreshIds) :
      Creates store ids → Advances python store (createWrites draft ownerId ids)
  | revise (draft : Draft python) {ruleId ownerId versionId : UUID} {rule : RuleColumns}
      {previous : VersionColumns} :
      Revises store ruleId ownerId versionId rule previous →
      Differs previous draft →
      Advances python store
        (reviseWrites ruleId ownerId (previous.versionNumber + 1) draft versionId)

/-- The rule has been given a new current version that stores the draft. -/
structure Appended (before after : RuleStore) (ruleId : UUID) (rule : RuleColumns)
    (versionId : UUID) (version : VersionColumns) : Prop where
  rules : after.rules = before.rules.insert ruleId rule
  versions : after.versions = before.versions.insert versionId version
  versionNew : versionId ∉ before.versions
  sameRule : version.ruleId = ruleId
  isCurrent : rule.currentVersionId = some versionId

/-- A rule row that describes the draft. -/
def described (rule : RuleColumns) (draft : Draft python) (versionId : UUID) : RuleColumns :=
  { rule with
    title := draft.request.title
    logSource := logSource draft.request.logsource
    currentVersionId := some versionId }

/-- The writes can be made one after the other. -/
def AllAdmissible : RuleStore → List Write → Prop
  | _, [] => True
  | store, write :: writes => store.Admissible write ∧ AllAdmissible (store.apply write) writes

/-- The two writes that end both operations can be made on a rule that is
there. -/
theorem allAdmissible_of_revise
    {before : RuleStore}
    {ruleId ownerId versionId : UUID}
    {rule : RuleColumns}
    {versionNumber : Int}
    (draft : Draft python)
    (isRule : before.rules.lookup ruleId = some rule)
    (versionNew : versionId ∉ before.versions)
    (numberNew : ¬before.NumberTaken ruleId versionNumber)
    (isInteger : IsInteger versionNumber) :
    AllAdmissible before (reviseWrites ruleId ownerId versionNumber draft versionId) := by
  have ruleThere : ruleId ∈ before.rules := Finmap.mem_of_lookup_eq_some isRule
  have insertAdmissible : before.Admissible
      (.insertVersion versionId (newVersion ruleId versionNumber draft ownerId)) :=
    ⟨versionNew, ruleThere, numberNew, isInteger⟩
  refine ⟨insertAdmissible, ?_, trivial⟩
  rw [RuleStore.apply_toTables insertAdmissible]
  exact ⟨ruleThere, Finmap.mem_insert.mpr (.inl rfl)⟩

/-- The two writes that end both operations, on a rule that is there. -/
theorem appended_of_revise
    {before : RuleStore}
    {ruleId ownerId versionId : UUID}
    {rule : RuleColumns}
    {versionNumber : Int}
    (draft : Draft python)
    (isRule : before.rules.lookup ruleId = some rule)
    (versionNew : versionId ∉ before.versions)
    (numberNew : ¬before.NumberTaken ruleId versionNumber)
    (isInteger : IsInteger versionNumber) :
    Appended before
      ((reviseWrites ruleId ownerId versionNumber draft versionId).foldl RuleStore.apply before)
      ruleId (described rule draft versionId) versionId
      (newVersion ruleId versionNumber draft ownerId) := by
  obtain ⟨insertAdmissible, updateAdmissible, _⟩ :
      AllAdmissible before (reviseWrites ruleId ownerId versionNumber draft versionId) :=
    allAdmissible_of_revise draft isRule versionNew numberNew isInteger
  have inserted := RuleStore.apply_toTables insertAdmissible
  have updated := RuleStore.apply_toTables updateAdmissible
  have stillRule : (before.apply
      (.insertVersion versionId (newVersion ruleId versionNumber draft ownerId))).rules.lookup
        ruleId = some rule := by
    rw [inserted]
    exact isRule
  rw [pointTo, Tables.updateRule_eq stillRule, inserted] at updated
  refine ⟨?_, ?_, versionNew, rfl, rfl⟩
  · exact congrArg Tables.rules updated
  · exact congrArg Tables.versions updated

/-- A draft whose ids are new can be inserted. -/
theorem Creates.insertAdmissible
    {before : RuleStore}
    {ids : FreshIds}
    (creates : Creates before ids)
    (draft : Draft python)
    (ownerId : UUID) :
    before.Admissible (.insertRule ids.ruleId (newRule draft ownerId ids)) := by
  refine ⟨creates.ruleNew, creates.ruleUidNew, ?_⟩
  intro versionId isCurrent
  simp [newRule] at isCurrent

/-- A rule that has just been inserted has no versions. -/
theorem Creates.numberNew
    {before : RuleStore}
    {ids : FreshIds}
    (creates : Creates before ids)
    (draft : Draft python)
    (ownerId : UUID) :
    ¬(before.apply (.insertRule ids.ruleId (newRule draft ownerId ids))).NumberTaken
      ids.ruleId 1 := by
  rw [RuleStore.apply_toTables (creates.insertAdmissible draft ownerId), Tables.numberTaken_iff]
  rintro ⟨versionId, version, found, sameRule, _⟩
  have ruleThere := before.consistent.ruleId found
  rw [sameRule] at ruleThere
  exact creates.ruleNew ruleThere

/-- The writes of `create_rule_draft` can be made. -/
theorem Creates.allAdmissible
    {before : RuleStore}
    {ids : FreshIds}
    (creates : Creates before ids)
    (draft : Draft python)
    (ownerId : UUID) :
    AllAdmissible before (createWrites draft ownerId ids) := by
  have insertAdmissible := creates.insertAdmissible draft ownerId
  refine ⟨insertAdmissible, ?_⟩
  apply allAdmissible_of_revise draft
  · rw [RuleStore.apply_toTables insertAdmissible]
    exact Finmap.lookup_insert _
  · rw [RuleStore.apply_toTables insertAdmissible]
    exact creates.versionNew
  · exact creates.numberNew draft ownerId
  · decide

/-- The commit of `create_rule_draft`. -/
theorem Creates.appended
    {before : RuleStore}
    {ids : FreshIds}
    (creates : Creates before ids)
    (draft : Draft python)
    (ownerId : UUID) :
    Appended before ((createWrites draft ownerId ids).foldl RuleStore.apply before) ids.ruleId
      (described (newRule draft ownerId ids) draft ids.versionId) ids.versionId
      (newVersion ids.ruleId 1 draft ownerId) := by
  have inserted := RuleStore.apply_toTables (creates.insertAdmissible draft ownerId)
  have appended : Appended (before.apply (.insertRule ids.ruleId (newRule draft ownerId ids)))
      ((createWrites draft ownerId ids).foldl RuleStore.apply before) ids.ruleId
      (described (newRule draft ownerId ids) draft ids.versionId) ids.versionId
      (newVersion ids.ruleId 1 draft ownerId) := by
    apply appended_of_revise draft
    · rw [inserted]
      exact Finmap.lookup_insert _
    · rw [inserted]
      exact creates.versionNew
    · exact creates.numberNew draft ownerId
    · decide
  refine ⟨?_, ?_, creates.versionNew, rfl, rfl⟩
  · refine appended.rules.trans ?_
    rw [inserted]
    exact Finmap.insert_insert _
  · refine appended.versions.trans ?_
    rw [inserted]
    rfl

/-- The commit of `revise_owned_rule_draft`. -/
theorem Revises.appended
    {before : RuleStore}
    {ruleId ownerId versionId : UUID}
    {rule : RuleColumns}
    {previous : VersionColumns}
    (revises : Revises before ruleId ownerId versionId rule previous)
    (draft : Draft python) :
    Appended before
      ((reviseWrites ruleId ownerId (previous.versionNumber + 1) draft versionId).foldl
        RuleStore.apply before)
      ruleId (described rule draft versionId) versionId
      (newVersion ruleId (previous.versionNumber + 1) draft ownerId) :=
  appended_of_revise draft revises.isRule revises.versionNew revises.numberNew
    revises.isInteger

end Commits

/-! ## The invariant -/

/-- The version is the one of the rule with the given number. -/
def HasNumber (store : RuleStore) (ruleId : UUID) (number : Int) (id : UUID) : Prop :=
  ∃ version, store.versions.lookup id = some version ∧ version.ruleId = ruleId ∧
    version.versionNumber = number

/-- The versions of the rule are numbered `1..count`; the current one is the
last, and the rule row is derived from its snapshot. -/
structure VersionChain (python : Interpreter) (store : RuleStore) (ruleId : UUID)
    (rule : RuleColumns) (count : Int) : Prop where
  positive : 1 ≤ count
  numbered : ∀ number, 1 ≤ number → number ≤ count → ∃! id, HasNumber store ruleId number id
  bounded : ∀ number id, HasNumber store ruleId number id → 1 ≤ number ∧ number ≤ count
  current : ∃ id version snapshot, rule.currentVersionId = some id ∧
    store.versions.lookup id = some version ∧ version.ruleId = ruleId ∧
    version.versionNumber = count ∧
    decodeStoredRuleSnapshot python version.sigmaYaml = .ok snapshot ∧
    snapshotTitle snapshot = some rule.title ∧ snapshotLogSource snapshot = rule.logSource

/-- Every rule has a chain of versions. -/
def Chained (python : Interpreter) (store : RuleStore) : Prop :=
  ∀ ruleId rule, store.rules.lookup ruleId = some rule →
    ∃ count, VersionChain python store ruleId rule count

theorem chained_empty (python : Interpreter) : Chained python RuleStore.empty := by
  intro ruleId rule isRule
  simp [RuleStore.empty] at isRule

section Invariant

variable
    {python : Interpreter}
    {before after : RuleStore}
    {ruleId versionId : UUID}
    {rule : RuleColumns}
    {version : VersionColumns}

/-- The numbers after a version has been added. -/
theorem Appended.hasNumber_iff
    (appended : Appended before after ruleId rule versionId version)
    {other id : UUID}
    {number : Int} :
    HasNumber after other number id ↔
      HasNumber before other number id ∨
        (id = versionId ∧ other = ruleId ∧ number = version.versionNumber) := by
  unfold HasNumber
  rw [appended.versions]
  constructor
  · rintro ⟨found, isFound, sameRule, sameNumber⟩
    rcases Tables.lookup_insert_cases isFound with ⟨isNew, rfl⟩ | ⟨_, isOld⟩
    · exact .inr ⟨isNew, sameRule.symm.trans appended.sameRule, sameNumber.symm⟩
    · exact .inl ⟨found, isOld, sameRule, sameNumber⟩
  · rintro (⟨found, isFound, sameRule, sameNumber⟩ | ⟨rfl, rfl, rfl⟩)
    · have different : id ≠ versionId := by
        rintro rfl
        exact appended.versionNew (Finmap.mem_of_lookup_eq_some isFound)
      exact ⟨found, by rw [Finmap.lookup_insert_of_ne _ different, isFound], sameRule,
        sameNumber⟩
    · exact ⟨version, Finmap.lookup_insert _, appended.sameRule, rfl⟩

theorem Appended.lookup_rule (appended : Appended before after ruleId rule versionId version) :
    after.rules.lookup ruleId = some rule := by
  rw [appended.rules, Finmap.lookup_insert]

theorem Appended.lookup_new (appended : Appended before after ruleId rule versionId version) :
    after.versions.lookup versionId = some version := by
  rw [appended.versions, Finmap.lookup_insert]

/-- A version stays as it is. -/
theorem Appended.lookup_version
    (appended : Appended before after ruleId rule versionId version)
    {id : UUID}
    {found : VersionColumns}
    (isFound : before.versions.lookup id = some found) :
    after.versions.lookup id = some found := by
  have different : id ≠ versionId := by
    rintro rfl
    exact appended.versionNew (Finmap.mem_of_lookup_eq_some isFound)
  rw [appended.versions, Finmap.lookup_insert_of_ne _ different, isFound]

/-- The chains of the other rules stay as they are. -/
theorem VersionChain.of_other
    {other : UUID}
    {otherRule : RuleColumns}
    {count : Int}
    (chain : VersionChain python before other otherRule count)
    (appended : Appended before after ruleId rule versionId version)
    (different : other ≠ ruleId) :
    VersionChain python after other otherRule count := by
  have sameNumbers : ∀ number id,
      HasNumber after other number id ↔ HasNumber before other number id := by
    intro number id
    rw [appended.hasNumber_iff]
    simp [different]
  refine ⟨chain.positive, ?_, ?_, ?_⟩
  · intro number low high
    simp only [sameNumbers]
    exact chain.numbered number low high
  · intro number id isNumbered
    exact chain.bounded number id ((sameNumbers number id).mp isNumbered)
  · obtain ⟨id, current, snapshot, isCurrent, isFound, rest⟩ := chain.current
    exact ⟨id, current, snapshot, isCurrent, appended.lookup_version isFound, rest⟩

/-- The chain of the rule itself grows by the new version. -/
theorem VersionChain.extended
    {count : Int}
    (positive : 0 ≤ count)
    (numbered : ∀ number, 1 ≤ number → number ≤ count →
      ∃! id, HasNumber before ruleId number id)
    (bounded : ∀ number id, HasNumber before ruleId number id → 1 ≤ number ∧ number ≤ count)
    (appended : Appended before after ruleId rule versionId version)
    (isNext : version.versionNumber = count + 1)
    {snapshot : Value}
    (decoded : decodeStoredRuleSnapshot python version.sigmaYaml = .ok snapshot)
    (title : snapshotTitle snapshot = some rule.title)
    (logSource : snapshotLogSource snapshot = rule.logSource) :
    VersionChain python after ruleId rule (count + 1) := by
  have numbers : ∀ number id, HasNumber after ruleId number id ↔
      HasNumber before ruleId number id ∨ (id = versionId ∧ number = count + 1) := by
    intro number id
    rw [appended.hasNumber_iff, isNext]
    simp
  refine ⟨by omega, ?_, ?_, ?_⟩
  · intro number low high
    by_cases isLast : number = count + 1
    · refine ⟨versionId, (numbers _ _).mpr (.inr ⟨rfl, isLast⟩), ?_⟩
      intro id isNumbered
      rcases (numbers _ _).mp isNumbered with isOld | ⟨isNew, _⟩
      · have := bounded number id isOld
        omega
      · exact isNew
    · obtain ⟨id, isNumbered, unique⟩ := numbered number low (by omega)
      refine ⟨id, (numbers _ _).mpr (.inl isNumbered), ?_⟩
      intro other isOther
      rcases (numbers _ _).mp isOther with isOld | ⟨_, isNew⟩
      · exact unique other isOld
      · exact absurd isNew isLast
  · intro number id isNumbered
    rcases (numbers _ _).mp isNumbered with isOld | ⟨_, isNew⟩
    · have := bounded number id isOld
      omega
    · omega
  · exact ⟨versionId, version, snapshot, appended.isCurrent, appended.lookup_new,
      appended.sameRule, isNext, decoded, title, logSource⟩

/-- If the appended rule has a chain, every rule has one. -/
theorem Chained.of_appended
    (chained : Chained python before)
    (appended : Appended before after ruleId rule versionId version)
    (own : ∃ count, VersionChain python after ruleId rule count) :
    Chained python after := by
  intro other otherRule isRule
  rw [appended.rules] at isRule
  rcases Tables.lookup_insert_cases isRule with ⟨rfl, rfl⟩ | ⟨different, isOld⟩
  · exact own
  · obtain ⟨count, chain⟩ := chained other otherRule isOld
    exact ⟨count, chain.of_other appended different⟩

/-- Both operations keep the invariant. -/
theorem Chained.of_advances
    {store : RuleStore}
    (chained : Chained python store)
    {writes : List Write}
    (advances : Advances python store writes) :
    Chained python (writes.foldl RuleStore.apply store) := by
  cases advances with
  | create draft ownerId ids creates =>
      have appended := creates.appended draft ownerId
      obtain ⟨snapshot, decoded, title, logSource⟩ := snapshot_of_draft draft
      have noNumbers : ∀ number id, ¬HasNumber store ids.ruleId number id := by
        rintro number id ⟨version, isFound, sameRule, _⟩
        have ruleThere := store.consistent.ruleId isFound
        rw [sameRule] at ruleThere
        exact creates.ruleNew ruleThere
      refine chained.of_appended appended ⟨0 + 1, ?_⟩
      refine VersionChain.extended le_rfl ?_ ?_ appended rfl decoded title logSource
      · intro number low high
        omega
      · intro number id isNumbered
        exact absurd isNumbered (noNumbers number id)
  | @revise draft ruleId ownerId versionId rule previous revises _ =>
      have appended := revises.appended draft
      obtain ⟨snapshot, decoded, title, logSource⟩ := snapshot_of_draft draft
      obtain ⟨count, chain⟩ := chained ruleId rule revises.isRule
      obtain ⟨currentId, current, _, isCurrent, isFound, _, isLast, _⟩ := chain.current
      obtain ⟨previousId, isPrevious, isFound'⟩ := revises.isCurrent
      -- the current version of the rule is the last one of its chain
      obtain rfl : currentId = previousId :=
        Option.some.inj (isCurrent.symm.trans isPrevious)
      obtain rfl : current = previous := Option.some.inj (isFound.symm.trans isFound')
      refine chained.of_appended appended ⟨count + 1, ?_⟩
      refine VersionChain.extended ?_ chain.numbered chain.bounded appended ?_ decoded title
        logSource
      · have := chain.positive
        omega
      · rw [← isLast]
        rfl

end Invariant

end Detection
end SigmaForge
