import SigmaForge.Detection.Listings
import SigmaForge.Detection.Requests
import SigmaForge.Foundation.Noninterference

/-!
# Isolation of owners

What an operation of a user returns, and what it does to the user's rules,
depends on the user's rules and their versions only.  It leaves the rules of the
other users as they are.
-/

namespace SigmaForge
namespace Detection

open Text Json ReadCommitted

/-! ## What a user owns -/

namespace RuleStore

/-- The rule with the given key, if the user owns it. -/
def ownedRule (store : RuleStore) (ownerId id : UUID) : Option DetectionRule :=
  (store.rule id).filter fun rule => rule.ownerId = ownerId

/-- Both stores have the same rules of the user, with the same versions. -/
structure Agree (ownerId : UUID) (left right : RuleStore) : Prop where
  rules : ∀ id, left.ownedRule ownerId id = right.ownedRule ownerId id
  versions : ∀ id, (left.ownedRule ownerId id).isSome →
    ∀ versionId, left.versionRow id versionId = right.versionRow id versionId

section Agree

variable
    {ownerId : UUID}
    {left middle right : RuleStore}

theorem Agree.refl (ownerId : UUID) (store : RuleStore) : Agree ownerId store store :=
  ⟨fun _ => rfl, fun _ _ _ => rfl⟩

theorem Agree.symm (agree : Agree ownerId left right) : Agree ownerId right left := by
  refine ⟨fun id => (agree.rules id).symm, fun id isOwned versionId => ?_⟩
  rw [← agree.rules] at isOwned
  exact (agree.versions id isOwned versionId).symm

theorem Agree.trans
    (first : Agree ownerId left middle)
    (second : Agree ownerId middle right) :
    Agree ownerId left right := by
  refine ⟨fun id => (first.rules id).trans (second.rules id), fun id isOwned versionId => ?_⟩
  rw [first.versions id isOwned versionId]
  rw [first.rules] at isOwned
  exact second.versions id isOwned versionId

end Agree

theorem ownedRule_eq_some_iff
    {store : RuleStore}
    {ownerId id : UUID}
    {rule : DetectionRule} :
    store.ownedRule ownerId id = some rule ↔
      rule.id = id ∧ store.rules.lookup id = some rule.toRuleColumns ∧
        rule.ownerId = ownerId := by
  unfold ownedRule
  rw [Option.filter_eq_some_iff, rule_eq_some_iff, decide_eq_true_eq, and_assoc]

/-- The listed versions of a rule depend on its versions only. -/
theorem versionList_congr
    {left right : RuleStore}
    {ruleId : UUID}
    (same : ∀ id, left.versionRow ruleId id = right.versionRow ruleId id) :
    left.versionList ruleId = right.versionList ruleId := by
  have sameKeys : left.versionKeys ruleId = right.versionKeys ruleId := by
    ext key
    rw [mem_versionKeys, mem_versionKeys]
    simp only [same]
  unfold versionList
  rw [sameKeys]
  simp only [same]

/-- The row of a draft, from what its owner owns. -/
theorem draftRow_eq (store : RuleStore) (ownerId id : UUID) :
    store.draftRow ownerId id = (store.ownedRule ownerId id).bind fun rule =>
      (rule.currentVersionId.bind (store.versionRow rule.id)).map fun version =>
        (rule, version) := by
  unfold draftRow ownedRule versionRow
  cases store.rule id with
  | none => rfl
  | some rule =>
      by_cases isOwned : rule.ownerId = ownerId
      · simp only [Option.filter, isOwned, decide_true, if_true, Option.bind_some, true_and]
        cases rule.currentVersionId with
        | none => rfl
        | some versionId =>
            simp only [Option.bind_some]
            cases store.version versionId with
            | none => rfl
            | some version =>
                by_cases sameRule : version.ruleId = rule.id
                · simp [sameRule]
                · simp [sameRule]
      · simp only [Option.filter, isOwned, decide_false, Bool.false_eq_true, if_false,
          Option.bind_none, false_and]
        cases rule.currentVersionId.bind store.version <;> rfl

/-- The listed drafts of a user depend on the user's rules and their versions
only. -/
theorem Agree.drafts
    {ownerId : UUID}
    {left right : RuleStore}
    (agree : Agree ownerId left right)
    (collation : Collation) :
    left.drafts collation ownerId = right.drafts collation ownerId := by
  have same : ∀ id, left.draftRow ownerId id = right.draftRow ownerId id := by
    intro id
    rw [draftRow_eq, draftRow_eq, ← agree.rules]
    cases found : left.ownedRule ownerId id with
    | none => rfl
    | some rule =>
        have sameVersions := agree.versions id (by rw [found]; rfl)
        obtain ⟨isId, _⟩ := ownedRule_eq_some_iff.mp found
        simp only [Option.bind_some, isId]
        congr 2
        funext versionId
        exact sameVersions versionId
  have sameKeys : left.draftKeys collation ownerId = right.draftKeys collation ownerId := by
    ext key
    rw [mem_draftKeys, mem_draftKeys]
    simp only [same]
  unfold RuleStore.drafts
  rw [sameKeys]
  simp only [same]

end RuleStore

/-! ## What an operation changes -/

open RuleStore

section Changes

variable
    {ownerId : UUID}
    {left right left' right' : RuleStore}

/-- The row may be written by the user: it is new, or replaces a row of the user
with the same `rule_uid`. -/
def MayWrite (ownerId : UUID) (store : RuleStore) (ruleId : UUID) (rule : RuleColumns) : Prop :=
  ∀ old, store.rules.lookup ruleId = some old →
    old.ownerId = ownerId ∧ old.ruleUid = rule.ruleUid

/-- Both stores are left as they are, or a rule of the user gets the same new
version in both. -/
inductive SameChange (ownerId : UUID) (left right : RuleStore) : RuleStore → RuleStore → Prop
  | unchanged : SameChange ownerId left right left right
  | appended {left' right' : RuleStore} {ruleId versionId : UUID} {rule : RuleColumns}
      {version : VersionColumns} :
      rule.ownerId = ownerId →
      MayWrite ownerId left ruleId rule → MayWrite ownerId right ruleId rule →
      Appended left left' ruleId rule versionId version →
      Appended right right' ruleId rule versionId version →
      SameChange ownerId left right left' right'

/-- The rules of a user after one of them has got a version. -/
theorem ownedRule_of_appended
    {ruleId versionId : UUID}
    {rule : RuleColumns}
    {version : VersionColumns}
    (appended : Appended left left' ruleId rule versionId version)
    (isOwned : rule.ownerId = ownerId)
    (id : UUID) :
    left'.ownedRule ownerId id =
      if id = ruleId then some ⟨rule, ruleId⟩ else left.ownedRule ownerId id := by
  unfold ownedRule RuleStore.rule
  rw [appended.rules]
  by_cases isRule : id = ruleId
  · subst isRule
    rw [Finmap.lookup_insert, if_pos rfl]
    simp [isOwned]
  · rw [Finmap.lookup_insert_of_ne _ isRule, if_neg isRule]

/-- The versions of a rule after one has been added. -/
theorem versionRow_of_appended
    {ruleId versionId : UUID}
    {rule : RuleColumns}
    {version : VersionColumns}
    (appended : Appended left left' ruleId rule versionId version)
    (other id : UUID) :
    left'.versionRow other id =
      if other = ruleId ∧ id = versionId then some ⟨version, versionId⟩
      else left.versionRow other id := by
  unfold versionRow RuleStore.version
  rw [appended.versions]
  by_cases isVersion : id = versionId
  · subst isVersion
    have absent : left.versions.lookup id = none :=
      Finmap.lookup_eq_none.mpr appended.versionNew
    rw [Finmap.lookup_insert, absent]
    by_cases isRule : other = ruleId
    · simp [isRule, appended.sameRule]
    · have different : ¬version.ruleId = other := by
        rw [appended.sameRule]
        exact fun equal => isRule equal.symm
      simp [isRule, different]
  · rw [Finmap.lookup_insert_of_ne _ isVersion]
    simp [isVersion]

/-- A rule that is not there has no versions. -/
theorem versionRow_of_missing
    {store : RuleStore}
    {ruleId : UUID}
    (missing : store.rules.lookup ruleId = none)
    (id : UUID) :
    store.versionRow ruleId id = none := by
  by_contra isThere
  obtain ⟨version, found⟩ := Option.ne_none_iff_exists'.mp isThere
  obtain ⟨_, isStored, sameRule⟩ := versionRow_eq_some_iff.mp found
  have ruleThere := store.consistent.ruleId isStored
  rw [sameRule, ← Finmap.lookup_isSome, missing] at ruleThere
  contradiction

/-- Without a rule of its own, the user has a key free if no other user has a
rule there. -/
theorem lookup_none_of_not_owned
    {store : RuleStore}
    {id : UUID}
    {rule : RuleColumns}
    (notOwned : store.ownedRule ownerId id = none)
    (mayWrite : MayWrite ownerId store id rule) :
    store.rules.lookup id = none := by
  cases found : store.rules.lookup id with
  | none => rfl
  | some old =>
      have isOwned : store.ownedRule ownerId id = some ⟨old, id⟩ :=
        ownedRule_eq_some_iff.mpr ⟨rfl, found, (mayWrite old found).1⟩
      rw [notOwned] at isOwned
      contradiction

/-- The same change leads from agreeing stores to agreeing stores. -/
theorem SameChange.agree
    (change : SameChange ownerId left right left' right')
    (agree : Agree ownerId left right) :
    Agree ownerId left' right' := by
  cases change with
  | unchanged => exact agree
  | @appended _ _ ruleId versionId rule version isOwned leftOwned rightOwned leftAppended
      rightAppended =>
      refine ⟨fun id => ?_, fun id isThere other => ?_⟩
      · rw [ownedRule_of_appended leftAppended isOwned,
          ownedRule_of_appended rightAppended isOwned, agree.rules]
      · rw [versionRow_of_appended leftAppended, versionRow_of_appended rightAppended]
        split
        · rfl
        · by_cases isOld : (left.ownedRule ownerId id).isSome
          · exact agree.versions id isOld other
          · -- a rule that is new in both stores has no versions in either
            rw [ownedRule_of_appended leftAppended isOwned] at isThere
            split at isThere
            · rename_i isRule
              subst isRule
              have notLeft : left.ownedRule ownerId id = none := by simpa using isOld
              have notRight : right.ownedRule ownerId id = none := by
                rw [← agree.rules, notLeft]
              rw [versionRow_of_missing (lookup_none_of_not_owned notLeft leftOwned),
                versionRow_of_missing (lookup_none_of_not_owned notRight rightOwned)]
            · exact absurd isThere isOld

/-- A change by one user leaves the rules of the others as they are. -/
theorem SameChange.agree_other
    (change : SameChange ownerId left right left' right')
    {other : UUID}
    (different : other ≠ ownerId) :
    Agree other left left' := by
  cases change with
  | unchanged => exact .refl other left
  | @appended _ _ ruleId versionId rule version isOwned leftOwned _ leftAppended _ =>
      have notThere : left.ownedRule other ruleId = none := by
        by_contra isThere
        obtain ⟨found, isFound⟩ := Option.ne_none_iff_exists'.mp isThere
        obtain ⟨_, isStored, isOther⟩ := ownedRule_eq_some_iff.mp isFound
        exact different (isOther.symm.trans (leftOwned _ isStored).1)
      refine ⟨fun id => ?_, fun id isThere versionId' => ?_⟩
      · by_cases isRule : id = ruleId
        · subst isRule
          rw [notThere]
          unfold ownedRule RuleStore.rule
          rw [leftAppended.rules, Finmap.lookup_insert]
          have notOther : ¬rule.ownerId = other := fun equal =>
            different (equal.symm.trans isOwned)
          simp [Option.filter, notOther]
        · unfold ownedRule RuleStore.rule
          rw [leftAppended.rules, Finmap.lookup_insert_of_ne _ isRule]
      · have isOther : id ≠ ruleId := by
          rintro rfl
          rw [notThere] at isThere
          contradiction
        rw [versionRow_of_appended leftAppended]
        simp [isOther]

/-- The keys and the `rule_uid`s of the second store are among those of the
first. -/
structure KeysWithin (left right : RuleStore) : Prop where
  rules : ∀ id, id ∈ right.rules → id ∈ left.rules
  versions : ∀ id, id ∈ right.versions → id ∈ left.versions
  ruleUid : ∀ ruleUid, right.RuleUidTaken ruleUid → left.RuleUidTaken ruleUid

theorem KeysWithin.refl (store : RuleStore) : KeysWithin store store :=
  ⟨fun _ isThere => isThere, fun _ isThere => isThere, fun _ isTaken => isTaken⟩

theorem KeysWithin.trans
    {store : RuleStore}
    (first : KeysWithin store left)
    (second : KeysWithin left right) :
    KeysWithin store right :=
  ⟨fun id isThere => first.rules id (second.rules id isThere),
    fun id isThere => first.versions id (second.versions id isThere),
    fun ruleUid isTaken => first.ruleUid ruleUid (second.ruleUid ruleUid isTaken)⟩

/-- A write keeps the keys, and the `rule_uid`s. -/
theorem keysWithin_of_appended
    {ruleId versionId : UUID}
    {rule : RuleColumns}
    {version : VersionColumns}
    (appended : Appended left left' ruleId rule versionId version)
    (mayWrite : MayWrite ownerId left ruleId rule) :
    KeysWithin left' left := by
  refine ⟨fun id isThere => ?_, fun id isThere => ?_, fun ruleUid isTaken => ?_⟩
  · rw [appended.rules]
    exact Finmap.mem_insert.mpr (.inr isThere)
  · rw [appended.versions]
    exact Finmap.mem_insert.mpr (.inr isThere)
  · rw [Tables.ruleUidTaken_iff] at isTaken ⊢
    obtain ⟨id, columns, found, rfl⟩ := isTaken
    rw [appended.rules]
    by_cases isRule : id = ruleId
    · subst isRule
      exact ⟨id, rule, Finmap.lookup_insert _, (mayWrite columns found).2.symm⟩
    · exact ⟨id, columns, (Finmap.lookup_insert_of_ne _ isRule).trans found, rfl⟩

/-- What is in the changed store was there before or is new in both. -/
theorem SameChange.keysWithin
    (change : SameChange ownerId left right left' right')
    (within : KeysWithin left right) :
    KeysWithin left' right' := by
  cases change with
  | unchanged => exact within
  | @appended _ _ ruleId versionId rule version isOwned leftMay rightMay leftAppended
      rightAppended =>
      have kept := (keysWithin_of_appended leftAppended leftMay).trans within
      refine ⟨fun id isThere => ?_, fun id isThere => ?_, fun ruleUid isTaken => ?_⟩
      · rw [rightAppended.rules] at isThere
        rcases Finmap.mem_insert.mp isThere with rfl | isOld
        · rw [leftAppended.rules]
          exact Finmap.mem_insert.mpr (.inl rfl)
        · exact kept.rules id isOld
      · rw [rightAppended.versions] at isThere
        rcases Finmap.mem_insert.mp isThere with rfl | isOld
        · rw [leftAppended.versions]
          exact Finmap.mem_insert.mpr (.inl rfl)
        · exact kept.versions id isOld
      · rw [Tables.ruleUidTaken_iff] at isTaken
        obtain ⟨id, columns, found, rfl⟩ := isTaken
        rw [rightAppended.rules] at found
        rcases Tables.lookup_insert_cases found with ⟨_, rfl⟩ | ⟨_, isOld⟩
        · apply Tables.ruleUidTaken_iff.mpr
          exact ⟨ruleId, columns, by rw [leftAppended.rules, Finmap.lookup_insert], rfl⟩
        · exact kept.ruleUid _ (Tables.ruleUidTaken_iff.mpr ⟨id, columns, isOld, rfl⟩)

/-- A change by one user keeps the keys. -/
theorem SameChange.keysWithin_before
    (change : SameChange ownerId left right left' right') :
    KeysWithin left' left := by
  cases change with
  | unchanged => exact .refl left
  | appended _ leftMay _ leftAppended _ => exact keysWithin_of_appended leftAppended leftMay

end Changes

/-! ## Two runs of one program -/

section Alike

variable
    (collation : Collation)
    (ownerId : UUID)
    (left right : RuleStore)

/-- The program has the same result on both stores, and changes them in the
same way. -/
def Alike {α : Type} (program : Service α) : Prop :=
  (program.solo (ruleAnswers collation) (left, [])).1 =
      (program.solo (ruleAnswers collation) (right, [])).1 ∧
    SameChange ownerId left right
      (program.solo (ruleAnswers collation) (left, [])).2.1
      (program.solo (ruleAnswers collation) (right, [])).2.1

variable
    {collation ownerId left right}
    {α β : Type}

theorem Alike.ret (value : α) :
    Alike collation ownerId left right (.ret value) :=
  ⟨rfl, .unchanged⟩

theorem Alike.raise (error : ServiceError) :
    Alike collation ownerId left right (.raise error : Service α) :=
  ⟨rfl, .unchanged⟩

theorem Alike.ofOption_bind
    {error : ServiceError}
    {option : Option α}
    {rest : α → Service β}
    (found : ∀ value, option = some value → Alike collation ownerId left right (rest value)) :
    Alike collation ownerId left right ((Program.ofOption error option).bind rest) := by
  cases option with
  | none => exact .raise error
  | some value => exact found value rfl

theorem Alike.ensure_bind
    {condition : Prop}
    [Decidable condition]
    {error : ServiceError}
    {rest : Unit → Service β}
    (passes : condition → Alike collation ownerId left right (rest ())) :
    Alike collation ownerId left right ((Program.ensure condition error).bind rest) := by
  unfold Program.ensure
  by_cases isTrue : condition
  · rw [if_pos isTrue]
    exact passes isTrue
  · rw [if_neg isTrue]
    exact .raise error

/-- What follows a program only makes a result of the result. -/
theorem Alike.map
    {program : Service α}
    (alike : Alike collation ownerId left right program)
    (f : α → β) :
    Alike collation ownerId left right (program.bind fun value => .ret (f value)) := by
  obtain ⟨sameResult, change⟩ := alike
  unfold Alike
  rw [Program.solo_bind, Program.solo_bind]
  generalize program.solo (ruleAnswers collation) (left, []) = leftRun at *
  generalize program.solo (ruleAnswers collation) (right, []) = rightRun at *
  obtain ⟨leftResult, leftState⟩ := leftRun
  obtain ⟨rightResult, rightState⟩ := rightRun
  obtain rfl : leftResult = rightResult := sameResult
  cases leftResult with
  | ok value => exact ⟨rfl, change⟩
  | error error => exact ⟨rfl, change⟩

/-- A query with the same answer on both stores. -/
theorem Alike.query
    {statement : Statement}
    {rest : Answer statement → Service β}
    (noWrites : ∀ store, (effect collation statement store).writes = [])
    (same : (effect collation statement left).answer = (effect collation statement right).answer)
    (answered : ∀ answer, Alike collation ownerId left right (rest answer)) :
    Alike collation ownerId left right ((execute statement).bind rest) := by
  unfold Alike
  rw [solo_query (noWrites left), solo_query (noWrites right), ← same]
  exact Alike.ofOption_bind fun answer _ => answered answer

/-- Reading a rule and checking its owner reads the user's own rules. -/
theorem solo_ownedRule
    (store : RuleStore)
    (ruleId : UUID)
    (rest : DetectionRule → Service β) :
    ((execute (.getRule ruleId)).bind fun answer =>
        (Program.ofOption notFound answer).bind fun rule =>
          (Program.ensure (rule.ownerId = ownerId) notFound).bind fun _ => rest rule).solo
        (ruleAnswers collation) (store, []) =
      ((Program.ofOption notFound (store.ownedRule ownerId ruleId)).bind rest).solo
        (ruleAnswers collation) (store, []) := by
  have isQuery : (effect collation (.getRule ruleId) store).writes = [] := rfl
  rw [solo_query isQuery]
  change ((Program.ofOption notFound (store.rule ruleId)).bind _).solo _ _ = _
  unfold ownedRule
  cases store.rule ruleId with
  | none => rfl
  | some rule =>
      by_cases isOwned : rule.ownerId = ownerId
      · simp [Program.ofOption, Program.ensure, Option.filter, isOwned]
      · simp [Program.ofOption, Program.ensure, Option.filter, isOwned]

/-- Reading a version and checking its rule reads the versions of the rule. -/
theorem solo_versionRow
    (store : RuleStore)
    (ruleId id : UUID)
    (rest : DetectionRuleVersion → Service β) :
    ((execute (.getVersion id)).bind fun answer =>
        (Program.ofOption notFound answer).bind fun version =>
          (Program.ensure (version.ruleId = ruleId) notFound).bind fun _ => rest version).solo
        (ruleAnswers collation) (store, []) =
      ((Program.ofOption notFound (store.versionRow ruleId id)).bind rest).solo
        (ruleAnswers collation) (store, []) := by
  have isQuery : (effect collation (.getVersion id) store).writes = [] := rfl
  rw [solo_query isQuery]
  change ((Program.ofOption notFound (store.version id)).bind _).solo _ _ = _
  unfold versionRow
  cases store.version id with
  | none => rfl
  | some version =>
      by_cases sameRule : version.ruleId = ruleId
      · simp [Program.ofOption, Program.ensure, Option.filter, sameRule]
      · simp [Program.ofOption, Program.ensure, Option.filter, sameRule]

/-- What is done with the user's own rule. -/
theorem Alike.ownedRule
    (agree : Agree ownerId left right)
    {ruleId : UUID}
    {rest : DetectionRule → Service β}
    (owned : ∀ rule, left.ownedRule ownerId ruleId = some rule →
      Alike collation ownerId left right (rest rule)) :
    Alike collation ownerId left right
      ((execute (.getRule ruleId)).bind fun answer =>
        (Program.ofOption notFound answer).bind fun rule =>
          (Program.ensure (rule.ownerId = ownerId) notFound).bind fun _ => rest rule) := by
  unfold Alike
  rw [solo_ownedRule, solo_ownedRule, ← agree.rules]
  exact Alike.ofOption_bind owned

/-- What is done with a version of the user's own rule. -/
theorem Alike.versionRow
    (agree : Agree ownerId left right)
    {ruleId id : UUID}
    (isOwned : (left.ownedRule ownerId ruleId).isSome)
    {rest : DetectionRuleVersion → Service β}
    (found : ∀ version, left.versionRow ruleId id = some version →
      Alike collation ownerId left right (rest version)) :
    Alike collation ownerId left right
      ((execute (.getVersion id)).bind fun answer =>
        (Program.ofOption notFound answer).bind fun version =>
          (Program.ensure (version.ruleId = ruleId) notFound).bind fun _ => rest version) := by
  unfold Alike
  rw [solo_versionRow, solo_versionRow, ← agree.versions ruleId isOwned]
  exact Alike.ofOption_bind found

theorem Alike.decodeSnapshot
    {python : Interpreter}
    {serialized : Str}
    {rest : Value → Service β}
    (decoded : ∀ snapshot, Alike collation ownerId left right (rest snapshot)) :
    Alike collation ownerId left right
      ((Detection.decodeSnapshot python serialized).bind rest) := by
  unfold Detection.decodeSnapshot
  split
  · exact decoded _
  · exact .raise _

/-- A transaction that is possible on both stores or on none. -/
theorem Alike.atomically
    {writes : List Write}
    (same : AllAdmissible left writes ↔ AllAdmissible right writes)
    (change : AllAdmissible left writes → AllAdmissible right writes →
      SameChange ownerId left right (writes.foldl RuleStore.apply left)
        (writes.foldl RuleStore.apply right)) :
    Alike collation ownerId left right (Detection.atomically writes) := by
  unfold Alike
  by_cases admissible : AllAdmissible left writes
  · rw [solo_atomically_of_admissible admissible,
      solo_atomically_of_admissible (same.mp admissible)]
    exact ⟨rfl, change admissible (same.mp admissible)⟩
  · rw [solo_atomically_of_not_admissible admissible,
      solo_atomically_of_not_admissible fun holds => admissible (same.mpr holds)]
    exact ⟨rfl, .unchanged⟩

end Alike

/-! ## The operations -/

section Operations

variable
    {collation : Collation}
    {python : Interpreter}
    {ownerId : UUID}
    {left right : RuleStore}

theorem alike_createRuleDraft
    (draft : Draft python)
    {ids : FreshIds}
    (same : Creates left ids ↔ Creates right ids) :
    Alike collation ownerId left right (createRuleDraft draft ownerId ids) := by
  change Alike collation ownerId left right
    ((atomically (createWrites draft ownerId ids)).bind fun _ => .ret _)
  apply Alike.map
  apply Alike.atomically
  · rw [allAdmissible_create_iff, allAdmissible_create_iff, same]
  · intro leftAdmissible rightAdmissible
    have leftCreates := (allAdmissible_create_iff draft ownerId ids left).mp leftAdmissible
    have rightCreates := (allAdmissible_create_iff draft ownerId ids right).mp rightAdmissible
    have mayWrite : ∀ store : RuleStore, Creates store ids → MayWrite ownerId store ids.ruleId
        (described (newRule draft ownerId ids) draft ids.versionId) :=
      fun store creates old found =>
        absurd (Finmap.mem_of_lookup_eq_some found) creates.ruleNew
    exact .appended rfl (mayWrite left leftCreates) (mayWrite right rightCreates)
      (leftCreates.appended draft ownerId) (rightCreates.appended draft ownerId)

theorem alike_getOwnedRuleDraft
    (agree : Agree ownerId left right)
    (ruleId : UUID) :
    Alike collation ownerId left right (getOwnedRuleDraft python ruleId ownerId) := by
  unfold getOwnedRuleDraft
  simp only [Program.bind_eq]
  apply Alike.ownedRule agree
  intro rule isOwned
  apply Alike.ofOption_bind
  intro currentVersionId _
  obtain ⟨rfl, _⟩ := ownedRule_eq_some_iff.mp isOwned
  apply Alike.versionRow agree (by rw [isOwned]; rfl)
  intro version _
  apply Alike.decodeSnapshot
  exact fun snapshot => .ret _

theorem alike_listOwnedRuleDrafts
    (agree : Agree ownerId left right)
    (limit offset : Nat) :
    Alike collation ownerId left right (listOwnedRuleDrafts ownerId limit offset) := by
  apply Alike.query (fun _ => rfl)
  · simp only [effect, reads, agree.drafts]
  · exact fun rows => .ret _

/-- The number of a version is taken in both stores or in none. -/
theorem RuleStore.Agree.numberTaken_iff
    (agree : Agree ownerId left right)
    {ruleId : UUID}
    (isOwned : (left.ownedRule ownerId ruleId).isSome)
    (number : Int) :
    left.NumberTaken ruleId number ↔ right.NumberTaken ruleId number := by
  have taken : ∀ store : RuleStore, store.NumberTaken ruleId number ↔
      ∃ id version, store.versionRow ruleId id = some version ∧
        version.versionNumber = number := by
    intro store
    rw [Tables.numberTaken_iff]
    constructor
    · rintro ⟨id, columns, found, sameRule, isNumber⟩
      exact ⟨id, ⟨columns, id⟩, versionRow_eq_some_iff.mpr ⟨rfl, found, sameRule⟩, isNumber⟩
    · rintro ⟨id, version, found, isNumber⟩
      obtain ⟨_, isStored, sameRule⟩ := versionRow_eq_some_iff.mp found
      exact ⟨id, version.toVersionColumns, isStored, sameRule, isNumber⟩
  rw [taken, taken]
  simp only [agree.versions ruleId isOwned]

theorem alike_reviseOwnedRuleDraft
    (agree : Agree ownerId left right)
    (ruleId : UUID)
    (expectedVersion : Int)
    (draft : Draft python)
    {versionId : UUID}
    (same : versionId ∈ left.versions ↔ versionId ∈ right.versions) :
    Alike collation ownerId left right
      (reviseOwnedRuleDraft ruleId ownerId expectedVersion draft versionId) := by
  have answer : ∀ store : RuleStore,
      (effect collation (.selectRuleForUpdate ruleId ownerId) store).answer =
        some (store.ownedRule ownerId ruleId) := by
    intro store
    cases found : (store.rule ruleId).filter fun rule => rule.ownerId = ownerId with
    | none =>
        rw [effect_of_missing collation found]
        exact congrArg some found.symm
    | some rule =>
        rw [effect_of_found collation found]
        exact congrArg some found.symm
  have noWrites : ∀ store : RuleStore,
      (effect collation (.selectRuleForUpdate ruleId ownerId) store).writes = [] := by
    intro store
    cases found : (store.rule ruleId).filter fun rule => rule.ownerId = ownerId with
    | none =>
        rw [effect_of_missing collation found]
        rfl
    | some rule => rw [effect_of_found collation found]
  unfold reviseOwnedRuleDraft
  simp only [Program.bind_eq]
  unfold Alike
  rw [solo_query (noWrites left), solo_query (noWrites right), answer, answer, ← agree.rules]
  change Alike collation ownerId left right
    ((Program.ofOption notFound (left.ownedRule ownerId ruleId)).bind _)
  apply Alike.ofOption_bind
  intro rule isOwned
  obtain ⟨rfl, leftRule, hasOwner⟩ := ownedRule_eq_some_iff.mp isOwned
  have isThere : (left.ownedRule ownerId rule.id).isSome := by
    rw [isOwned]
    rfl
  have isOwned' := isOwned
  rw [agree.rules] at isOwned'
  obtain ⟨_, rightRule, _⟩ := ownedRule_eq_some_iff.mp isOwned'
  apply Alike.ensure_bind
  intro _
  apply Alike.ensure_bind
  intro _
  apply Alike.ofOption_bind
  intro currentVersionId _
  apply Alike.versionRow agree isThere
  intro previous _
  apply Alike.ensure_bind
  intro _
  apply Alike.decodeSnapshot
  intro snapshot
  apply Alike.ensure_bind
  intro _
  change Alike collation ownerId left right
    ((atomically (reviseWrites rule.id ownerId (previous.versionNumber + 1) draft versionId)).bind
      fun _ => .ret _)
  apply Alike.map
  apply Alike.atomically
  · rw [allAdmissible_revise_iff draft leftRule, allAdmissible_revise_iff draft rightRule, same,
      agree.numberTaken_iff isThere]
  · intro leftAdmissible rightAdmissible
    obtain ⟨leftNew, leftFree, isInteger⟩ :=
      (allAdmissible_revise_iff draft leftRule).mp leftAdmissible
    obtain ⟨rightNew, rightFree, _⟩ :=
      (allAdmissible_revise_iff draft rightRule).mp rightAdmissible
    have mayWrite : ∀ store : RuleStore,
        store.rules.lookup rule.id = some rule.toRuleColumns →
        MayWrite ownerId store rule.id (described rule.toRuleColumns draft versionId) := by
      intro store isRule old found
      obtain rfl : rule.toRuleColumns = old := Option.some.inj (isRule.symm.trans found)
      exact ⟨hasOwner, rfl⟩
    have staysOwned : (described rule.toRuleColumns draft versionId).ownerId = ownerId :=
      hasOwner
    exact .appended staysOwned (mayWrite left leftRule) (mayWrite right rightRule)
      (appended_of_revise draft leftRule leftNew leftFree isInteger)
      (appended_of_revise draft rightRule rightNew rightFree isInteger)

theorem alike_listOwnedRuleVersions
    (agree : Agree ownerId left right)
    (ruleId : UUID)
    (limit offset : Nat) :
    Alike collation ownerId left right (listOwnedRuleVersions ruleId ownerId limit offset) := by
  unfold listOwnedRuleVersions
  simp only [Program.bind_eq]
  apply Alike.ownedRule agree
  intro rule isOwned
  apply Alike.ofOption_bind
  intro currentVersionId _
  apply Alike.query (fun _ => rfl)
  · simp only [effect, reads, versionList_congr (agree.versions ruleId (by rw [isOwned]; rfl))]
  · exact fun versions => .ret _

theorem alike_getOwnedRuleVersion
    (agree : Agree ownerId left right)
    (ruleId : UUID)
    (versionNumber : Int)
    {β : Type}
    {rest : RuleVersion → Service β}
    (served : ∀ body, Alike collation ownerId left right (rest body)) :
    Alike collation ownerId left right
      ((getOwnedRuleVersion python ruleId ownerId versionNumber).bind rest) := by
  unfold getOwnedRuleVersion
  simp only [Program.bind_eq, Program.bind_assoc]
  apply Alike.ownedRule agree
  intro rule isOwned
  apply Alike.ofOption_bind
  intro currentVersionId _
  apply Alike.query
  · intro store
    simp only [effect]
    split <;> rfl
  · simp only [effect, versionList_congr (agree.versions ruleId (by rw [isOwned]; rfl))]
  · intro answer
    apply Alike.ofOption_bind
    intro version _
    apply Alike.ensure_bind
    intro _
    apply Alike.decodeSnapshot
    intro snapshot
    exact served _

theorem alike_diffOwnedRuleVersion
    (agree : Agree ownerId left right)
    (ruleId : UUID)
    (versionNumber : Int) :
    Alike collation ownerId left right
      (diffOwnedRuleVersion python ruleId ownerId versionNumber) := by
  unfold diffOwnedRuleVersion
  simp only [Program.bind_eq]
  apply Alike.ensure_bind
  intro _
  apply alike_getOwnedRuleVersion agree
  intro previous
  apply alike_getOwnedRuleVersion agree
  intro current
  apply Alike.ensure_bind
  intro _
  apply Alike.ofOption_bind
  exact fun changes _ => .ret _

/-- The ids that the call draws are new in both stores or in none. -/
def SameIds (left right : RuleStore) : RuleCall python → Prop
  | .create _ ids => Creates left ids ↔ Creates right ids
  | .revise _ _ _ versionId => versionId ∈ left.versions ↔ versionId ∈ right.versions
  | _ => True

/-- Every operation has the same result on agreeing stores, and changes them in
the same way. -/
theorem alike_program
    (agree : Agree ownerId left right)
    {call : RuleCall python}
    (sameIds : SameIds left right call) :
    Alike collation ownerId left right (call.program ownerId) := by
  cases call with
  | create draft ids => exact (alike_createRuleDraft draft sameIds).map _
  | get ruleId => exact (alike_getOwnedRuleDraft agree ruleId).map _
  | list limit offset => exact (alike_listOwnedRuleDrafts agree limit offset).map _
  | revise ruleId expectedVersion draft versionId =>
      exact (alike_reviseOwnedRuleDraft agree ruleId expectedVersion draft sameIds).map _
  | listVersions ruleId limit offset =>
      exact (alike_listOwnedRuleVersions agree ruleId limit offset).map _
  | getVersion ruleId versionNumber =>
      exact alike_getOwnedRuleVersion agree ruleId versionNumber fun body => .ret _
  | diff ruleId versionNumber =>
      exact (alike_diffOwnedRuleVersion agree ruleId versionNumber).map _

/-- The ids that the call draws are new. -/
def Fresh (store : RuleStore) : RuleCall python → Prop
  | .create _ ids => Creates store ids
  | .revise _ _ _ versionId => versionId ∉ store.versions
  | _ => True

theorem sameIds_of_fresh
    {call : RuleCall python}
    (leftFresh : Fresh left call)
    (rightFresh : Fresh right call) :
    SameIds left right call := by
  cases call with
  | create draft ids => exact ⟨fun _ => rightFresh, fun _ => leftFresh⟩
  | revise ruleId expectedVersion draft versionId =>
      exact ⟨fun isThere => absurd isThere leftFresh, fun isThere => absurd isThere rightFresh⟩
  | get ruleId => trivial
  | list limit offset => trivial
  | listVersions ruleId limit offset => trivial
  | getVersion ruleId versionNumber => trivial
  | diff ruleId versionNumber => trivial

/-- An operation changes rules of its own user only. -/
theorem request_change
    (python : Interpreter)
    (collation : Collation)
    (ownerId : UUID)
    (call : RuleCall python)
    (store : RuleStore) :
    SameChange ownerId store store (request python collation ownerId call store).2
      (request python collation ownerId call store).2 := by
  have sameIds : SameIds store store call := by
    cases call <;> simp [SameIds]
  exact (alike_program (.refl ownerId store) sameIds).2

/-- What a user sees does not depend on the other users. -/
theorem unwinding_request (python : Interpreter) (collation : Collation) (ownerId : UUID) :
    Noninterference.Unwinding (request python collation) Fresh ownerId fun left right =>
      Agree ownerId left right ∧ KeysWithin left right where
  permitted := by
    intro left right call related fresh
    obtain ⟨_, within⟩ := related
    cases call with
    | create draft ids =>
        exact ⟨fun isThere => fresh.ruleNew (within.rules _ isThere),
          fun isTaken => fresh.ruleUidNew (within.ruleUid _ isTaken),
          fun isThere => fresh.versionNew (within.versions _ isThere)⟩
    | revise ruleId expectedVersion draft versionId =>
        exact fun isThere => fresh (within.versions _ isThere)
    | get ruleId => trivial
    | list limit offset => trivial
    | listVersions ruleId limit offset => trivial
    | getVersion ruleId versionNumber => trivial
    | diff ruleId versionNumber => trivial
  own := by
    intro left right call related leftFresh rightFresh
    obtain ⟨agree, within⟩ := related
    have alike : Alike collation ownerId left right (call.program ownerId) :=
      alike_program agree (sameIds_of_fresh leftFresh rightFresh)
    obtain ⟨sameResult, change⟩ := alike
    exact ⟨sameResult, change.agree agree, change.keysWithin within⟩
  other := by
    intro left right call other related different _
    obtain ⟨agree, within⟩ := related
    have change := request_change python collation other call left
    exact ⟨(change.agree_other different.symm).symm.trans agree,
      change.keysWithin_before.trans within⟩

/-- On stores that agree on what a user owns, an operation of the user has the
same result and leaves stores that agree again; it leaves what the other users
own as it is.  Deleting all operations of the others from a run changes nothing
that the user observes. -/
theorem owner_isolation (python : Interpreter) (collation : Collation) (ownerId : UUID) :
    (∀ (left right : RuleStore) (call : RuleCall python), Agree ownerId left right →
      Fresh left call → Fresh right call →
      (request python collation ownerId call left).1 =
          (request python collation ownerId call right).1 ∧
        Agree ownerId (request python collation ownerId call left).2
          (request python collation ownerId call right).2 ∧
        ∀ other, other ≠ ownerId →
          Agree other left (request python collation ownerId call left).2) ∧
    ∀ (requests : List (UUID × RuleCall python)) (store : RuleStore),
      Noninterference.Permitted (request python collation) Fresh requests store →
      Noninterference.results (request python collation) ownerId requests store =
          Noninterference.results (request python collation) ownerId
            (Noninterference.purge ownerId requests) store ∧
        Agree ownerId (Noninterference.after (request python collation) requests store)
          (Noninterference.after (request python collation)
            (Noninterference.purge ownerId requests) store) := by
  constructor
  · intro left right call agree leftFresh rightFresh
    have alike : Alike collation ownerId left right (call.program ownerId) :=
      alike_program agree (sameIds_of_fresh leftFresh rightFresh)
    obtain ⟨sameResult, change⟩ := alike
    exact ⟨sameResult, change.agree agree, fun other different => change.agree_other different⟩
  · intro requests store permitted
    have related : Agree ownerId store store ∧ KeysWithin store store :=
      ⟨.refl ownerId store, .refl store⟩
    obtain ⟨sameResults, agree, _⟩ :=
      (unwinding_request python collation ownerId).purge related permitted
    exact ⟨sameResults, agree⟩

end Operations

theorem sample_isolation :
    (request .coarse .codePoints 1 (.create Draft.sample (.sample 10)) RuleStore.empty).1 =
      (request .coarse .codePoints 1 (.create Draft.sample (.sample 10))
        (request .coarse .codePoints 2 (.create Draft.sample (.sample 20))
          RuleStore.empty).2).1 := by
  have agree : Agree 1 RuleStore.empty
      (request .coarse .codePoints 2 (.create Draft.sample (.sample 20)) RuleStore.empty).2 :=
    (request_change .coarse .codePoints 2 (.create Draft.sample (.sample 20))
      RuleStore.empty).agree_other (by decide)
  have fresh : Creates RuleStore.empty (.sample 10) := creates_empty _
  have stillFresh : Creates
      ((createWrites Draft.sample 2 (.sample 20)).foldl RuleStore.apply RuleStore.empty)
      (.sample 10) :=
    (creates_empty (.sample 20)).of_created fresh (by decide +kernel) (by decide +kernel)
      (by decide +kernel)
  have created := request_create .codePoints Draft.sample 2 (creates_empty (.sample 20))
  simp only [created] at agree ⊢
  have isolated := (owner_isolation .coarse .codePoints 1).1 RuleStore.empty _
    (.create Draft.sample (.sample 10)) agree
  exact (isolated fresh stillFresh).1

end Detection
end SigmaForge
