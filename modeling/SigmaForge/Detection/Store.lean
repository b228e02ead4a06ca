import SigmaForge.Foundation.ReadCommitted
import SigmaForge.Foundation.Columns
import Mathlib.Data.Finmap
import Mathlib.Data.Finset.Sort
import Mathlib.Data.Prod.Lex
import Mathlib.Data.List.Lex

/-!
# The tables of the rule drafts

`detection_rules` and `detection_rule_versions` with the constraints of the
migration, the statements that the service executes on them and the rows that
these lock.
-/

namespace SigmaForge
namespace Detection

open Text Json ReadCommitted

/-- The type `rule_status`. -/
inductive RuleStatus
  | draft | inReview | approved | rejected | deployed | deprecated
  deriving DecidableEq

/-- The columns of `detection_rules`, except for its key. -/
structure RuleColumns where
  ruleUid : Str
  title : Str
  status : RuleStatus
  logSource : Option Str
  ownerId : UUID
  currentVersionId : Option UUID
  deriving DecidableEq

/-- The columns of `detection_rule_versions`, except for its key. -/
structure VersionColumns where
  ruleId : UUID
  versionNumber : Int
  sigmaYaml : Str
  createdBy : UUID
  deriving DecidableEq

/-- `DetectionRule`. -/
structure DetectionRule extends RuleColumns where
  id : UUID

/-- `DetectionRuleVersion`. -/
structure DetectionRuleVersion extends VersionColumns where
  id : UUID

/-- A table with rows of the given columns. -/
abbrev Table (Columns : Type) := Finmap fun _ : UUID => Columns

/-- The rows of both tables. -/
structure Tables where
  rules : Table RuleColumns
  versions : Table VersionColumns

/-- What a flush writes. -/
inductive Write
  | insertRule (id : UUID) (columns : RuleColumns)
  | insertVersion (id : UUID) (columns : VersionColumns)
  /-- The columns of a rule that the service changes. -/
  | updateRule (id : UUID) (title : Str) (logSource : Option Str) (currentVersionId : UUID)

/-- What a statement can lock: rows, and entries of the unique indices. -/
inductive Key
  | rule (id : UUID)
  | ruleUid (ruleUid : Str)
  | version (id : UUID)
  | versionNumber (ruleId : UUID) (number : Int)
  deriving DecidableEq

namespace Tables

/-- Some rule has the given `rule_uid`. -/
def RuleUidTaken (tables : Tables) (ruleUid : Str) : Prop :=
  ∃ id ∈ tables.rules.keys, ∃ columns ∈ tables.rules.lookup id, columns.ruleUid = ruleUid

instance (tables : Tables) (ruleUid : Str) : Decidable (tables.RuleUidTaken ruleUid) :=
  inferInstanceAs (Decidable (∃ id ∈ _, _))

/-- Some version of the rule has the given number. -/
def NumberTaken (tables : Tables) (ruleId : UUID) (number : Int) : Prop :=
  ∃ id ∈ tables.versions.keys, ∃ columns ∈ tables.versions.lookup id,
    columns.ruleId = ruleId ∧ columns.versionNumber = number

instance (tables : Tables) (ruleId : UUID) (number : Int) :
    Decidable (tables.NumberTaken ruleId number) :=
  inferInstanceAs (Decidable (∃ id ∈ _, _))

/-- The constraints of the migration. -/
structure Consistent (tables : Tables) : Prop where
  ruleUid : ∀ {id id' columns columns'}, tables.rules.lookup id = some columns →
    tables.rules.lookup id' = some columns' → columns.ruleUid = columns'.ruleUid → id = id'
  versionNumber : ∀ {id id' columns columns'}, tables.versions.lookup id = some columns →
    tables.versions.lookup id' = some columns' → columns.ruleId = columns'.ruleId →
    columns.versionNumber = columns'.versionNumber → id = id'
  ruleId : ∀ {id columns}, tables.versions.lookup id = some columns →
    columns.ruleId ∈ tables.rules
  currentVersionId : ∀ {id columns versionId}, tables.rules.lookup id = some columns →
    columns.currentVersionId = some versionId → versionId ∈ tables.versions

/-- The write violates no constraint, and the row of an `UPDATE` is there. -/
def Admissible (tables : Tables) : Write → Prop
  | .insertRule id columns =>
      id ∉ tables.rules ∧ ¬tables.RuleUidTaken columns.ruleUid ∧
        ∀ versionId ∈ columns.currentVersionId, versionId ∈ tables.versions
  | .insertVersion id columns =>
      id ∉ tables.versions ∧ columns.ruleId ∈ tables.rules ∧
        ¬tables.NumberTaken columns.ruleId columns.versionNumber ∧
        IsInteger columns.versionNumber
  | .updateRule id _ _ versionId => id ∈ tables.rules ∧ versionId ∈ tables.versions

instance (tables : Tables) (write : Write) : Decidable (tables.Admissible write) :=
  match write with
  | .insertRule _ _ => inferInstanceAs (Decidable (_ ∧ _ ∧ _))
  | .insertVersion _ _ => inferInstanceAs (Decidable (_ ∧ _ ∧ _ ∧ _))
  | .updateRule _ _ _ _ => inferInstanceAs (Decidable (_ ∧ _))

/-- The effect of a write. -/
def write (tables : Tables) : Write → Tables
  | .insertRule id columns => { tables with rules := tables.rules.insert id columns }
  | .insertVersion id columns => { tables with versions := tables.versions.insert id columns }
  | .updateRule id title logSource currentVersionId =>
      match tables.rules.lookup id with
      | none => tables
      | some columns =>
          { tables with
            rules := tables.rules.insert id
              { columns with title, logSource, currentVersionId := some currentVersionId } }

theorem ruleUidTaken_iff {tables : Tables} {ruleUid : Str} :
    tables.RuleUidTaken ruleUid ↔
      ∃ id columns, tables.rules.lookup id = some columns ∧ columns.ruleUid = ruleUid := by
  constructor
  · rintro ⟨id, _, columns, found, isUid⟩
    exact ⟨id, columns, found, isUid⟩
  · rintro ⟨id, columns, found, isUid⟩
    exact ⟨id, Finmap.mem_keys.mpr (Finmap.mem_of_lookup_eq_some found), columns, found, isUid⟩

theorem numberTaken_iff {tables : Tables} {ruleId : UUID} {number : Int} :
    tables.NumberTaken ruleId number ↔
      ∃ id columns, tables.versions.lookup id = some columns ∧
        columns.ruleId = ruleId ∧ columns.versionNumber = number := by
  constructor
  · rintro ⟨id, _, columns, found, isNumbered⟩
    exact ⟨id, columns, found, isNumbered⟩
  · rintro ⟨id, columns, found, isNumbered⟩
    exact ⟨id, Finmap.mem_keys.mpr (Finmap.mem_of_lookup_eq_some found), columns, found,
      isNumbered⟩

/-- What is looked up after an insertion: the new row or an old one. -/
theorem lookup_insert_cases
    {Columns : Type}
    {table : Table Columns}
    {id other : UUID}
    {columns found : Columns}
    (isFound : (table.insert id columns).lookup other = some found) :
    (other = id ∧ found = columns) ∨ (other ≠ id ∧ table.lookup other = some found) := by
  by_cases isNew : other = id
  · subst isNew
    rw [Finmap.lookup_insert, Option.some.injEq] at isFound
    exact .inl ⟨rfl, isFound.symm⟩
  · rw [Finmap.lookup_insert_of_ne _ isNew] at isFound
    exact .inr ⟨isNew, isFound⟩

/-- Updated columns of a rule. -/
theorem updateRule_eq
    {tables : Tables}
    {id : UUID}
    {columns : RuleColumns}
    (found : tables.rules.lookup id = some columns)
    (title : Str)
    (logSource : Option Str)
    (currentVersionId : UUID) :
    tables.write (.updateRule id title logSource currentVersionId) =
      { tables with
        rules := tables.rules.insert id
          { columns with title, logSource, currentVersionId := some currentVersionId } } := by
  simp only [write, found]

/-- Admissible writes keep the constraints. -/
theorem Consistent.write
    {tables : Tables}
    (consistent : tables.Consistent)
    {write : Write}
    (admissible : tables.Admissible write) :
    (tables.write write).Consistent := by
  cases write with
  | insertRule id columns =>
      obtain ⟨isNew, uidFree, current⟩ := admissible
      have fresh : ∀ {other found}, tables.rules.lookup other = some found →
          found.ruleUid ≠ columns.ruleUid := fun isFound isUid =>
        uidFree (ruleUidTaken_iff.mpr ⟨_, _, isFound, isUid⟩)
      refine ⟨?_, consistent.versionNumber, ?_, ?_⟩
      · intro first second firstColumns secondColumns isFirst isSecond sameUid
        rcases lookup_insert_cases isFirst with ⟨rfl, rfl⟩ | ⟨_, firstOld⟩ <;>
          rcases lookup_insert_cases isSecond with ⟨rfl, rfl⟩ | ⟨_, secondOld⟩
        · rfl
        · exact absurd sameUid.symm (fresh secondOld)
        · exact absurd sameUid (fresh firstOld)
        · exact consistent.ruleUid firstOld secondOld sameUid
      · intro version versionColumns isVersion
        exact Finmap.mem_insert.mpr (.inr (consistent.ruleId isVersion))
      · intro other found versionId isFound isCurrent
        rcases lookup_insert_cases isFound with ⟨_, rfl⟩ | ⟨_, isFound⟩
        · exact current versionId isCurrent
        · exact consistent.currentVersionId isFound isCurrent
  | insertVersion id columns =>
      obtain ⟨isNew, ruleExists, numberFree, _⟩ := admissible
      have fresh : ∀ {other found}, tables.versions.lookup other = some found →
          found.ruleId = columns.ruleId → found.versionNumber ≠ columns.versionNumber :=
        fun isFound sameRule isNumber =>
          numberFree (numberTaken_iff.mpr ⟨_, _, isFound, sameRule, isNumber⟩)
      refine ⟨consistent.ruleUid, ?_, ?_, ?_⟩
      · intro first second firstColumns secondColumns isFirst isSecond sameRule sameNumber
        rcases lookup_insert_cases isFirst with ⟨rfl, rfl⟩ | ⟨_, firstOld⟩ <;>
          rcases lookup_insert_cases isSecond with ⟨rfl, rfl⟩ | ⟨_, secondOld⟩
        · rfl
        · exact absurd sameNumber.symm (fresh secondOld sameRule.symm)
        · exact absurd sameNumber (fresh firstOld sameRule)
        · exact consistent.versionNumber firstOld secondOld sameRule sameNumber
      · intro other found isFound
        rcases lookup_insert_cases isFound with ⟨_, rfl⟩ | ⟨_, isFound⟩
        · exact ruleExists
        · exact consistent.ruleId isFound
      · intro rule found versionId isFound isCurrent
        exact Finmap.mem_insert.mpr (.inr (consistent.currentVersionId isFound isCurrent))
  | updateRule id title logSource currentVersionId =>
      obtain ⟨ruleExists, versionExists⟩ := admissible
      obtain ⟨columns, isRule⟩ := Finmap.mem_iff.mp ruleExists
      rw [updateRule_eq isRule]
      refine ⟨?_, consistent.versionNumber, ?_, ?_⟩
      · intro first second firstColumns secondColumns isFirst isSecond sameUid
        rcases lookup_insert_cases isFirst with ⟨rfl, rfl⟩ | ⟨_, firstOld⟩ <;>
          rcases lookup_insert_cases isSecond with ⟨rfl, rfl⟩ | ⟨_, secondOld⟩
        · rfl
        · exact consistent.ruleUid isRule secondOld sameUid
        · exact consistent.ruleUid firstOld isRule sameUid
        · exact consistent.ruleUid firstOld secondOld sameUid
      · intro version versionColumns isVersion
        exact Finmap.mem_insert.mpr (.inr (consistent.ruleId isVersion))
      · intro other found versionId isFound isCurrent
        rcases lookup_insert_cases isFound with ⟨_, rfl⟩ | ⟨_, isFound⟩
        · rw [← Option.some.inj isCurrent]
          exact versionExists
        · exact consistent.currentVersionId isFound isCurrent

end Tables

/-- Tables that satisfy the constraints. -/
structure RuleStore extends Tables where
  consistent : toTables.Consistent

namespace RuleStore

/-- The empty tables. -/
def empty : RuleStore where
  rules := ∅
  versions := ∅
  consistent := by
    constructor <;>
    · intros
      simp_all

/-- A write that violates a constraint does nothing. -/
def apply (store : RuleStore) (write : Write) : RuleStore :=
  if admissible : store.Admissible write then
    ⟨store.toTables.write write, store.consistent.write admissible⟩
  else store

theorem apply_toTables
    {store : RuleStore}
    {write : Write}
    (admissible : store.Admissible write) :
    (store.apply write).toTables = store.toTables.write write := by
  rw [apply, dif_pos admissible]

/-- The version with the given key, as an object. -/
def version (store : RuleStore) (id : UUID) : Option DetectionRuleVersion :=
  (store.versions.lookup id).map fun columns => ⟨columns, id⟩

/-- The rule with the given key, as an object. -/
def rule (store : RuleStore) (id : UUID) : Option DetectionRule :=
  (store.rules.lookup id).map fun columns => ⟨columns, id⟩

end RuleStore

/-! ## Statements -/

/-- The order in which PostgreSQL sorts text. -/
structure Collation where
  Weight : Type
  [linearOrder : LinearOrder Weight]
  weight : Str → Weight

instance (collation : Collation) : LinearOrder collation.Weight := collation.linearOrder

/-- The collation `C`. -/
def Collation.codePoints : Collation where
  Weight := Str
  weight := id

/-- The statements of the service. -/
inductive Statement
  /-- `session.get(DetectionRule, id)`. -/
  | getRule (id : UUID)
  /-- `session.get(DetectionRuleVersion, id)`. -/
  | getVersion (id : UUID)
  /-- The rule with the given key and owner, `FOR UPDATE`. -/
  | selectRuleForUpdate (id ownerId : UUID)
  /-- The version with the given rule and number. -/
  | selectVersion (ruleId : UUID) (versionNumber : Int)
  /-- The drafts of the owner with their current versions. -/
  | selectDrafts (ownerId : UUID) (offset limit : Nat)
  /-- The versions of the rule. -/
  | selectVersions (ruleId : UUID) (offset limit : Nat)
  /-- A flush with one pending object. -/
  | flush (write : Write)

/-- The answers of the statements. -/
abbrev Answer : Statement → Type
  | .getRule _ => Option DetectionRule
  | .getVersion _ => Option DetectionRuleVersion
  | .selectRuleForUpdate _ _ => Option DetectionRule
  | .selectVersion _ _ => Option DetectionRuleVersion
  | .selectDrafts _ _ _ => List (DetectionRule × DetectionRuleVersion)
  | .selectVersions _ _ _ => List DetectionRuleVersion
  | .flush _ => Unit

namespace RuleStore

variable (store : RuleStore)

/-- The row that the join of `list_owned_rule_drafts` has for a rule. -/
def draftRow (ownerId id : UUID) : Option (DetectionRule × DetectionRuleVersion) :=
  match store.rule id with
  | none => none
  | some rule =>
      match rule.currentVersionId.bind store.version with
      | none => none
      | some version =>
          if rule.ownerId = ownerId ∧ version.ruleId = rule.id then some (rule, version)
          else none

/-- The sort keys of the drafts: `title`, then `id`. -/
def draftKeys (collation : Collation) (ownerId : UUID) :
    Finset (collation.Weight ×ₗ UUID) :=
  store.rules.keys.biUnion fun id =>
    ((store.draftRow ownerId id).map fun row =>
      toLex (collation.weight row.1.title, row.1.id)).toFinset

/-- The drafts in the order of their sort keys. -/
def drafts (collation : Collation) (ownerId : UUID) :
    List (DetectionRule × DetectionRuleVersion) :=
  ((store.draftKeys collation ownerId).sort (· ≤ ·)).filterMap fun key =>
    store.draftRow ownerId (ofLex key).2

/-- The version with the given key, if it belongs to the rule. -/
def versionRow (ruleId id : UUID) : Option DetectionRuleVersion :=
  (store.version id).filter fun version => version.ruleId = ruleId

/-- The sort keys of the versions of a rule: `version_number`, descending.  No
two of them have the same number. -/
def versionKeys (ruleId : UUID) : Finset (Intᵒᵈ ×ₗ UUID) :=
  store.versions.keys.biUnion fun id =>
    ((store.versionRow ruleId id).map fun version =>
      toLex (OrderDual.toDual version.versionNumber, version.id)).toFinset

/-- The versions of a rule in the order of their sort keys. -/
def versionList (ruleId : UUID) : List DetectionRuleVersion :=
  ((store.versionKeys ruleId).sort (· ≤ ·)).filterMap fun key =>
    store.versionRow ruleId (ofLex key).2

end RuleStore

/-- The keys that a write locks: what it writes, and the row that a foreign key
refers to. -/
def Write.keys : Write → List Key
  | .insertRule id columns => [.rule id, .ruleUid columns.ruleUid]
  | .insertVersion id columns =>
      [.version id, .versionNumber columns.ruleId columns.versionNumber, .rule columns.ruleId]
  | .updateRule id _ _ _ => [.rule id]

/-- A statement that only reads. -/
def reads {α : Type} (answer : α) : Effect Key Write α := ⟨[], some answer, []⟩

/-- The effect of a statement. -/
def effect (collation : Collation) :
    (statement : Statement) → RuleStore → Effect Key Write (Answer statement)
  | .getRule id, store => reads (store.rule id)
  | .getVersion id, store => reads (store.version id)
  | .selectRuleForUpdate id ownerId, store =>
      match (store.rule id).filter fun rule => rule.ownerId = ownerId with
      | none => reads none
      | some rule => ⟨[.rule id], some (some rule), []⟩
  | .selectVersion ruleId versionNumber, store =>
      -- the driver refuses a parameter that is no `INTEGER`
      if IsInteger versionNumber then
        reads ((store.versionList ruleId).find? fun version =>
          version.versionNumber = versionNumber)
      else ⟨[], none, []⟩
  | .selectDrafts ownerId offset limit, store =>
      reads (((store.drafts collation ownerId).drop offset).take limit)
  | .selectVersions ruleId offset limit, store =>
      reads (((store.versionList ruleId).drop offset).take limit)
  | .flush write, store =>
      if store.Admissible write then ⟨write.keys, some (), [write]⟩ else ⟨[], none, []⟩

/-- Without a row there is nothing to lock. -/
theorem effect_of_missing
    (collation : Collation)
    {store : RuleStore}
    {id ownerId : UUID}
    (missing : (store.rule id).filter (fun rule => rule.ownerId = ownerId) = none) :
    effect collation (.selectRuleForUpdate id ownerId) store = reads none := by
  simp only [effect, missing]

/-- The row that is read is locked. -/
theorem effect_of_found
    (collation : Collation)
    {store : RuleStore}
    {id ownerId : UUID}
    {rule : DetectionRule}
    (found : (store.rule id).filter (fun rule => rule.ownerId = ownerId) = some rule) :
    effect collation (.selectRuleForUpdate id ownerId) store =
      ⟨[.rule id], some (some rule), []⟩ := by
  simp only [effect, found]

/-- Only flushes write. -/
theorem effect_writes
    {collation : Collation}
    {statement : Statement}
    {store : RuleStore}
    {write : Write}
    (isWritten : write ∈ (effect collation statement store).writes) :
    statement = .flush write ∧ store.Admissible write := by
  cases statement with
  | flush flushed =>
      simp only [effect] at isWritten
      split_ifs at isWritten with admissible
      · rw [List.mem_singleton] at isWritten
        exact ⟨by rw [isWritten], by rwa [isWritten]⟩
      · simp at isWritten
  | selectRuleForUpdate id ownerId =>
      simp only [effect] at isWritten
      split at isWritten <;> simp [reads] at isWritten
  | selectVersion ruleId number =>
      simp only [effect] at isWritten
      split_ifs at isWritten <;> simp [reads] at isWritten
  | getRule id => simp [effect, reads] at isWritten
  | getVersion id => simp [effect, reads] at isWritten
  | selectDrafts ownerId offset limit => simp [effect, reads] at isWritten
  | selectVersions ruleId offset limit => simp [effect, reads] at isWritten

/-- The tables and their statements. -/
def schema (collation : Collation) : Schema RuleStore Key Write Answer where
  apply := RuleStore.apply
  keys := Write.keys
  effect := effect collation
  locked := by
    intro statement store write isWritten key isKey
    obtain ⟨rfl, admissible⟩ := effect_writes isWritten
    simp only [effect, if_pos admissible]
    exact isKey

/-! ## What the keys stand for -/

section Keys

variable {collation : Collation}

/-- A rule changes only under its key. -/
theorem dependsOn_rule (id : UUID) :
    DependsOn (schema collation) (fun store => store.rules.lookup id) (.rule id) := by
  intro store write notKey
  change (store.apply write).rules.lookup id = store.rules.lookup id
  by_cases admissible : store.Admissible write
  · rw [RuleStore.apply_toTables admissible]
    cases write with
    | insertRule other columns =>
        have different : id ≠ other := by
          rintro rfl
          exact notKey List.mem_cons_self
        exact Finmap.lookup_insert_of_ne _ different
    | insertVersion other columns => rfl
    | updateRule other title logSource currentVersionId =>
        have different : id ≠ other := by
          rintro rfl
          exact notKey List.mem_cons_self
        obtain ⟨columns, found⟩ := Finmap.mem_iff.mp admissible.1
        rw [Tables.updateRule_eq found]
        exact Finmap.lookup_insert_of_ne _ different
  · rw [RuleStore.apply, dif_neg admissible]

/-- A version appears only under its key. -/
theorem dependsOn_version (id : UUID) :
    DependsOn (schema collation) (fun store => store.versions.lookup id) (.version id) := by
  intro store write notKey
  change (store.apply write).versions.lookup id = store.versions.lookup id
  by_cases admissible : store.Admissible write
  · rw [RuleStore.apply_toTables admissible]
    cases write with
    | insertRule other columns => rfl
    | insertVersion other columns =>
        have different : id ≠ other := by
          rintro rfl
          exact notKey List.mem_cons_self
        exact Finmap.lookup_insert_of_ne _ different
    | updateRule other title logSource currentVersionId =>
        obtain ⟨columns, found⟩ := Finmap.mem_iff.mp admissible.1
        rw [Tables.updateRule_eq found]
  · rw [RuleStore.apply, dif_neg admissible]

/-- A `rule_uid` is taken only under its key. -/
theorem dependsOn_ruleUid (ruleUid : Str) :
    DependsOn (schema collation) (fun store => store.RuleUidTaken ruleUid)
      (.ruleUid ruleUid) := by
  intro store write notKey
  apply propext
  change (store.apply write).RuleUidTaken ruleUid ↔ store.RuleUidTaken ruleUid
  by_cases admissible : store.Admissible write
  · rw [RuleStore.apply_toTables admissible, Tables.ruleUidTaken_iff, Tables.ruleUidTaken_iff]
    cases write with
    | insertVersion other columns => rfl
    | insertRule other columns =>
        have different : columns.ruleUid ≠ ruleUid := by
          rintro rfl
          exact notKey (List.mem_cons_of_mem _ List.mem_cons_self)
        constructor
        · rintro ⟨id, found, isFound, isUid⟩
          rcases Tables.lookup_insert_cases isFound with ⟨_, rfl⟩ | ⟨_, isOld⟩
          · exact absurd isUid different
          · exact ⟨id, found, isOld, isUid⟩
        · rintro ⟨id, found, isFound, isUid⟩
          have isOld : id ≠ other := by
            rintro rfl
            exact admissible.1 (Finmap.mem_of_lookup_eq_some isFound)
          exact ⟨id, found, (Finmap.lookup_insert_of_ne _ isOld).trans isFound, isUid⟩
    | updateRule other title logSource currentVersionId =>
        obtain ⟨columns, isRule⟩ := Finmap.mem_iff.mp admissible.1
        rw [Tables.updateRule_eq isRule]
        constructor
        · rintro ⟨id, found, isFound, isUid⟩
          rcases Tables.lookup_insert_cases isFound with ⟨_, rfl⟩ | ⟨_, isOld⟩
          · exact ⟨other, columns, isRule, isUid⟩
          · exact ⟨id, found, isOld, isUid⟩
        · rintro ⟨id, found, isFound, isUid⟩
          by_cases isUpdated : id = other
          · subst isUpdated
            obtain rfl : columns = found := Option.some.inj (isRule.symm.trans isFound)
            exact ⟨id, _, Finmap.lookup_insert _, isUid⟩
          · exact ⟨id, found, (Finmap.lookup_insert_of_ne _ isUpdated).trans isFound, isUid⟩
  · rw [RuleStore.apply, dif_neg admissible]

/-- The number of a version is taken only under its key. -/
theorem dependsOn_versionNumber (ruleId : UUID) (number : Int) :
    DependsOn (schema collation) (fun store => store.NumberTaken ruleId number)
      (.versionNumber ruleId number) := by
  intro store write notKey
  apply propext
  change (store.apply write).NumberTaken ruleId number ↔ store.NumberTaken ruleId number
  by_cases admissible : store.Admissible write
  · rw [RuleStore.apply_toTables admissible, Tables.numberTaken_iff, Tables.numberTaken_iff]
    cases write with
    | insertRule other columns => rfl
    | insertVersion other columns =>
        have different : ¬(columns.ruleId = ruleId ∧ columns.versionNumber = number) := by
          rintro ⟨rfl, rfl⟩
          exact notKey (List.mem_cons_of_mem _ List.mem_cons_self)
        constructor
        · rintro ⟨id, found, isFound, isNumbered⟩
          rcases Tables.lookup_insert_cases isFound with ⟨_, rfl⟩ | ⟨_, isOld⟩
          · exact absurd isNumbered different
          · exact ⟨id, found, isOld, isNumbered⟩
        · rintro ⟨id, found, isFound, isNumbered⟩
          have isOld : id ≠ other := by
            rintro rfl
            exact admissible.1 (Finmap.mem_of_lookup_eq_some isFound)
          exact ⟨id, found, (Finmap.lookup_insert_of_ne _ isOld).trans isFound, isNumbered⟩
    | updateRule other title logSource currentVersionId =>
        obtain ⟨columns, isRule⟩ := Finmap.mem_iff.mp admissible.1
        rw [Tables.updateRule_eq isRule]
  · rw [RuleStore.apply, dif_neg admissible]

/-- No write changes a version. -/
theorem version_kept
    {store : RuleStore}
    {id : UUID}
    {columns : VersionColumns}
    (write : Write)
    (found : store.versions.lookup id = some columns) :
    (store.apply write).versions.lookup id = some columns := by
  by_cases admissible : store.Admissible write
  · rw [RuleStore.apply_toTables admissible]
    cases write with
    | insertRule other _ => exact found
    | insertVersion other _ =>
        have isOld : id ≠ other := by
          rintro rfl
          exact admissible.1 (Finmap.mem_of_lookup_eq_some found)
        exact (Finmap.lookup_insert_of_ne _ isOld).trans found
    | updateRule other title logSource currentVersionId =>
        obtain ⟨_, isRule⟩ := Finmap.mem_iff.mp admissible.1
        rw [Tables.updateRule_eq isRule]
        exact found
  · rwa [RuleStore.apply, dif_neg admissible]

end Keys

end Detection
end SigmaForge
