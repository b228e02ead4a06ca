import SigmaForge.Detection.Diff
import SigmaForge.Detection.Listings
import SigmaForge.Detection.VersionHistory

/-!
# What the history of a rule records

Every version stores an accepted draft, and no version repeats the one before it.
-/

namespace SigmaForge
namespace Detection

open Text Json ReadCommitted

/-- Every rule has a chain of versions, each of which stores an accepted draft that
differs from the one before. -/
structure Recorded (python : Interpreter) (store : RuleStore) : Prop where
  chained : Chained python store
  integers : ∀ {id version}, store.versions.lookup id = some version →
    IsInteger version.versionNumber
  drafts : ∀ {id version}, store.versions.lookup id = some version →
    ∃ draft : Draft python, version.sigmaYaml = sigmaYaml draft
  differ : ∀ {id id' version version'}, store.versions.lookup id = some version →
    store.versions.lookup id' = some version' → version.ruleId = version'.ruleId →
    version'.versionNumber = version.versionNumber + 1 →
    ∃ draft : Draft python, version'.sigmaYaml = sigmaYaml draft ∧ Differs version draft

theorem recorded_empty (python : Interpreter) : Recorded python RuleStore.empty where
  chained := chained_empty python
  integers isFound := by simp [RuleStore.empty] at isFound
  drafts isFound := by simp [RuleStore.empty] at isFound
  differ isFound := by simp [RuleStore.empty] at isFound

section Invariant

variable
    {python : Interpreter}
    {before after : RuleStore}
    {ruleId versionId : UUID}
    {rule : RuleColumns}
    {version : VersionColumns}
    {draft : Draft python}

/-- A new version keeps the record if it is later than all others of its rule, and
differs from the one before. -/
theorem Recorded.of_appended
    (recorded : Recorded python before)
    (chained : Chained python after)
    (appended : Appended before after ruleId rule versionId version)
    (isInteger : IsInteger version.versionNumber)
    (isStored : version.sigmaYaml = sigmaYaml draft)
    (isLast : ∀ number id, HasNumber before ruleId number id → number < version.versionNumber)
    (differs : ∀ id previous, before.versions.lookup id = some previous →
      previous.ruleId = ruleId → version.versionNumber = previous.versionNumber + 1 →
      Differs previous draft) :
    Recorded python after := by
  have cases_of_found : ∀ {id found}, after.versions.lookup id = some found →
      found = version ∨ before.versions.lookup id = some found := by
    intro id found isFound
    rw [appended.versions] at isFound
    rcases Tables.lookup_insert_cases isFound with ⟨_, isNew⟩ | ⟨_, isOld⟩
    · exact .inl isNew
    · exact .inr isOld
  refine ⟨chained, ?_, ?_, ?_⟩
  · intro id found isFound
    rcases cases_of_found isFound with rfl | isOld
    · exact isInteger
    · exact recorded.integers isOld
  · intro id found isFound
    rcases cases_of_found isFound with rfl | isOld
    · exact ⟨draft, isStored⟩
    · exact recorded.drafts isOld
  · intro id id' found found' isFound isFound' sameRule isNext
    rcases cases_of_found isFound with rfl | isOld
    · rcases cases_of_found isFound' with rfl | isOld'
      · omega
      · -- no version comes after the new one
        have earlier := isLast found'.versionNumber id'
          ⟨found', isOld', sameRule.symm.trans appended.sameRule, rfl⟩
        omega
    · rcases cases_of_found isFound' with rfl | isOld'
      · exact ⟨draft, isStored, differs id found isOld (sameRule.trans appended.sameRule) isNext⟩
      · exact recorded.differ isOld isOld' sameRule isNext

/-- Both operations keep the record. -/
theorem Recorded.of_advances
    {store : RuleStore}
    (recorded : Recorded python store)
    {writes : List Write}
    (advances : Advances python store writes) :
    Recorded python (writes.foldl RuleStore.apply store) := by
  have chained := recorded.chained.of_advances advances
  cases advances with
  | create draft ownerId ids creates =>
      have isNew : ∀ {id version}, store.versions.lookup id = some version →
          version.ruleId ≠ ids.ruleId := by
        rintro id version isFound sameRule
        have ruleThere := store.consistent.ruleId isFound
        rw [sameRule] at ruleThere
        exact creates.ruleNew ruleThere
      have isInteger : IsInteger 1 := by decide
      apply recorded.of_appended chained (creates.appended draft ownerId) isInteger rfl
      · rintro number id ⟨version, isFound, sameRule, _⟩
        exact absurd sameRule (isNew isFound)
      · exact fun id previous isFound sameRule => absurd sameRule (isNew isFound)
  | @revise draft ruleId ownerId versionId rule previous revises differs =>
      obtain ⟨count, chain⟩ := recorded.chained ruleId rule revises.isRule
      obtain ⟨currentId, current, _, isCurrent, isFound, _, isLast, _⟩ := chain.current
      obtain ⟨previousId, isPrevious, isFound'⟩ := revises.isCurrent
      obtain rfl : currentId = previousId :=
        Option.some.inj (isCurrent.symm.trans isPrevious)
      obtain rfl : current = previous := Option.some.inj (isFound.symm.trans isFound')
      apply recorded.of_appended chained (revises.appended draft) revises.isInteger rfl
      · intro number id isNumbered
        have := (chain.bounded number id isNumbered).2
        change number < current.versionNumber + 1
        omega
      · intro id other isOther sameRule isNext
        have sameNumber : other.versionNumber = current.versionNumber := by
          change current.versionNumber + 1 = other.versionNumber + 1 at isNext
          omega
        have sameId : id = currentId := store.consistent.versionNumber isOther isFound
          (sameRule.trans revises.sameRule.symm) sameNumber
        rw [sameId] at isOther
        obtain rfl : other = current := Option.some.inj (isOther.symm.trans isFound)
        exact differs

/-- What has been committed is a record. -/
theorem recorded_replay
    {collation : Collation}
    {log : List (Event Key Write)}
    (satisfied : CommitsSatisfy (advancing python collation) RuleStore.empty log) :
    Recorded python (replay (schema collation) RuleStore.empty log) := by
  rw [← List.nil_append log] at satisfied ⊢
  apply satisfied.kept (schema collation) (Recorded python)
  · exact fun _ _ _ advances recorded => recorded.of_advances advances
  · exact recorded_empty python

/-- In every run, what is committed at any time is a record. -/
theorem recorded_of_reachable
    {collation : Collation}
    {clock : Nat}
    {config : Config ServiceError (SessionAnswer Answer) (UUID × RuleCall python) RuleDb Response}
    (reachable : Reachable (ruleMachine python collation) serve
      (Db.start RuleStore.empty clock) config) :
    Recorded python (config.shared.committed (schema collation)) := by
  obtain ⟨satisfied, _⟩ := sound_of_outlined (outlined_serve python collation) reachable
  have isInitial : config.shared.initial = RuleStore.empty := (log_extends reachable).1
  rw [isInitial] at satisfied
  rw [Db.committed, isInitial]
  exact recorded_replay satisfied

end Invariant

/-! ## The listed versions -/

section Chain

variable
    {python : Interpreter}
    {store : RuleStore}
    {ruleId : UUID}
    {rule : RuleColumns}
    {count : Int}

theorem VersionChain.mem_versionNumbers
    (chain : VersionChain python store ruleId rule count)
    (number : Int) :
    number ∈ (store.versionList ruleId).map (·.versionNumber) ↔ 1 ≤ number ∧ number ≤ count := by
  rw [List.mem_map]
  constructor
  · rintro ⟨version, isListed, rfl⟩
    obtain ⟨isStored, sameRule⟩ := RuleStore.mem_versionList.mp isListed
    exact chain.bounded _ version.id ⟨version.toVersionColumns, isStored, sameRule, rfl⟩
  · rintro ⟨low, high⟩
    obtain ⟨id, ⟨version, isStored, sameRule, isNumber⟩, _⟩ := chain.numbered number low high
    exact ⟨⟨version, id⟩, RuleStore.mem_versionList.mpr ⟨isStored, sameRule⟩, isNumber⟩

/-- The numbers are listed from the last one down to 1. -/
theorem VersionChain.versionNumbers
    (chain : VersionChain python store ruleId rule count) :
    (store.versionList ruleId).map (·.versionNumber) =
      (List.range count.toNat).map fun index : Nat => count - index := by
  have descending : ((store.versionList ruleId).map (·.versionNumber)).Pairwise
      fun newer older => older < newer :=
    List.pairwise_map.mpr RuleStore.versionList_pairwise
  have descending' : ((List.range count.toNat).map fun index : Nat => count - index).Pairwise
      fun newer older => older < newer :=
    List.pairwise_map.mpr (List.pairwise_lt_range.imp fun _ => by omega)
  have permuted : ((store.versionList ruleId).map (·.versionNumber)).Perm
      ((List.range count.toNat).map fun index : Nat => count - index) := by
    rw [List.perm_ext_iff_of_nodup (descending.imp fun below => (ne_of_lt below).symm)
      (descending'.imp fun below => (ne_of_lt below).symm)]
    intro number
    rw [chain.mem_versionNumbers, List.mem_map]
    constructor
    · rintro ⟨low, high⟩
      exact ⟨(count - number).toNat, List.mem_range.mpr (by omega), by omega⟩
    · rintro ⟨index, isIndex, rfl⟩
      rw [List.mem_range] at isIndex
      omega
  exact permuted.eq_of_pairwise (fun _ _ _ _ below above => absurd below (by omega)) descending
    descending'

theorem VersionChain.length_versionList
    (chain : VersionChain python store ruleId rule count) :
    ((store.versionList ruleId).length : Int) = count := by
  have sameLength := congrArg List.length chain.versionNumbers
  rw [List.length_map, List.length_map, List.length_range] at sameLength
  have := chain.positive
  omega

end Chain

end Detection
end SigmaForge
