import SigmaForge.Detection.Store

/-!
# What the listings contain

The rows that the ordered queries list: each row once, in the order of its sort key.
-/

namespace SigmaForge
namespace Detection

namespace RuleStore

theorem rule_eq_some_iff {store : RuleStore} {id : UUID} {rule : DetectionRule} :
    store.rule id = some rule ↔
      rule.id = id ∧ store.rules.lookup id = some rule.toRuleColumns := by
  unfold RuleStore.rule
  rw [Option.map_eq_some_iff]
  constructor
  · rintro ⟨columns, found, rfl⟩
    exact ⟨rfl, found⟩
  · rintro ⟨rfl, found⟩
    exact ⟨rule.toRuleColumns, found, rfl⟩

theorem version_eq_some_iff
    {store : RuleStore}
    {id : UUID}
    {version : DetectionRuleVersion} :
    store.version id = some version ↔
      version.id = id ∧ store.versions.lookup id = some version.toVersionColumns := by
  unfold RuleStore.version
  rw [Option.map_eq_some_iff]
  constructor
  · rintro ⟨columns, found, rfl⟩
    exact ⟨rfl, found⟩
  · rintro ⟨rfl, found⟩
    exact ⟨version.toVersionColumns, found, rfl⟩

theorem versionRow_eq_some_iff
    {store : RuleStore}
    {ruleId id : UUID}
    {version : DetectionRuleVersion} :
    store.versionRow ruleId id = some version ↔
      version.id = id ∧ store.versions.lookup id = some version.toVersionColumns ∧
        version.ruleId = ruleId := by
  unfold versionRow
  rw [Option.filter_eq_some_iff, version_eq_some_iff, decide_eq_true_eq, and_assoc]

/-! ## The versions of a rule -/

section Versions

variable
    {store : RuleStore}
    {ruleId : UUID}

theorem mem_versionKeys {key : Intᵒᵈ ×ₗ UUID} :
    key ∈ store.versionKeys ruleId ↔
      ∃ id version, store.versionRow ruleId id = some version ∧
        key = toLex (OrderDual.toDual version.versionNumber, version.id) := by
  simp only [versionKeys, Finset.mem_biUnion, Option.mem_toFinset, Option.mem_def,
    Option.map_eq_some_iff]
  constructor
  · rintro ⟨id, _, version, found, rfl⟩
    exact ⟨id, version, found, rfl⟩
  · rintro ⟨id, version, found, rfl⟩
    obtain ⟨_, isStored, _⟩ := versionRow_eq_some_iff.mp found
    exact ⟨id, Finmap.mem_keys.mpr (Finmap.mem_of_lookup_eq_some isStored), version, found,
      rfl⟩

/-- The versions that are listed. -/
theorem mem_versionList {version : DetectionRuleVersion} :
    version ∈ store.versionList ruleId ↔
      store.versions.lookup version.id = some version.toVersionColumns ∧
        version.ruleId = ruleId := by
  simp only [versionList, List.mem_filterMap, Finset.mem_sort, mem_versionKeys]
  constructor
  · rintro ⟨key, _, found⟩
    obtain ⟨isId, isStored, sameRule⟩ := versionRow_eq_some_iff.mp found
    rw [← isId] at isStored
    exact ⟨isStored, sameRule⟩
  · rintro ⟨isStored, sameRule⟩
    have found : store.versionRow ruleId version.id = some version :=
      versionRow_eq_some_iff.mpr ⟨rfl, isStored, sameRule⟩
    exact ⟨_, ⟨version.id, version, found, rfl⟩, found⟩

/-- The newest version is listed first. -/
theorem versionList_pairwise :
    (store.versionList ruleId).Pairwise fun newer older =>
      older.versionNumber < newer.versionNumber := by
  unfold versionList
  rw [List.pairwise_filterMap]
  apply (store.versionKeys ruleId).sortedLT_sort.pairwise.imp_of_mem
  intro key key' isKey isKey' below version found version' found'
  rw [Finset.mem_sort, mem_versionKeys] at isKey isKey'
  obtain ⟨id, keyed, isRow, rfl⟩ := isKey
  obtain ⟨id', keyed', isRow', rfl⟩ := isKey'
  obtain ⟨rfl, isStored, sameRule⟩ := versionRow_eq_some_iff.mp isRow
  obtain ⟨rfl, isStored', sameRule'⟩ := versionRow_eq_some_iff.mp isRow'
  obtain rfl : keyed = version := Option.some.inj (isRow.symm.trans found)
  obtain rfl : keyed' = version' := Option.some.inj (isRow'.symm.trans found')
  rcases Prod.Lex.toLex_lt_toLex.mp below with isNewer | ⟨sameNumber, smaller⟩
  · exact OrderDual.toDual_lt_toDual.mp isNewer
  · -- the number of a version is unique among the versions of its rule
    have sameId : keyed.id = keyed'.id :=
      store.consistent.versionNumber isStored isStored' (sameRule.trans sameRule'.symm)
        (OrderDual.toDual_inj.mp sameNumber)
    exact absurd smaller (by simp [sameId])

/-- A version is found by its number. -/
theorem find?_versionList_iff {number : Int} {version : DetectionRuleVersion} :
    (store.versionList ruleId).find? (fun version => version.versionNumber = number) =
        some version ↔
      version ∈ store.versionList ruleId ∧ version.versionNumber = number := by
  constructor
  · intro found
    exact ⟨List.mem_of_find?_eq_some found, by simpa using List.find?_some found⟩
  · rintro ⟨isListed, isNumber⟩
    have isFound : ((store.versionList ruleId).find?
        fun version => version.versionNumber = number).isSome := by
      rw [List.find?_isSome]
      exact ⟨version, isListed, by simpa using isNumber⟩
    obtain ⟨other, found⟩ := Option.isSome_iff_exists.mp isFound
    rw [found]
    have isListed' := mem_versionList.mp (List.mem_of_find?_eq_some found)
    have isNumber' : other.versionNumber = number := by simpa using List.find?_some found
    have isStored := mem_versionList.mp isListed
    have sameId : other.id = version.id :=
      store.consistent.versionNumber isListed'.1 isStored.1
        (isListed'.2.trans isStored.2.symm) (isNumber'.trans isNumber.symm)
    have sameVersion : store.version other.id = store.version version.id := by rw [sameId]
    rw [version_eq_some_iff.mpr ⟨rfl, isListed'.1⟩, version_eq_some_iff.mpr ⟨rfl, isStored.1⟩]
      at sameVersion
    exact sameVersion

end Versions

/-! ## The drafts of a user -/

section Drafts

variable
    {store : RuleStore}
    {ownerId : UUID}

theorem draftRow_eq_some_iff {id : UUID} {row : DetectionRule × DetectionRuleVersion} :
    store.draftRow ownerId id = some row ↔
      store.rule id = some row.1 ∧ row.1.currentVersionId.bind store.version = some row.2 ∧
        row.1.ownerId = ownerId ∧ row.2.ruleId = row.1.id := by
  obtain ⟨rule, version⟩ := row
  unfold draftRow
  cases store.rule id with
  | none => simp
  | some found =>
      cases isCurrent : found.currentVersionId.bind store.version with
      | none =>
          simp only [isCurrent, reduceCtorEq, Option.some.injEq, false_iff, not_and]
          rintro rfl isVersion
          rw [isCurrent] at isVersion
          contradiction
      | some current =>
          simp only [isCurrent]
          constructor
          · intro isRow
            split_ifs at isRow with isOwned
            obtain ⟨rfl, rfl⟩ := Prod.mk.inj (Option.some.inj isRow)
            exact ⟨rfl, isCurrent, isOwned⟩
          · rintro ⟨isRule, isVersion, isOwned⟩
            obtain rfl := Option.some.inj isRule
            rw [isCurrent] at isVersion
            obtain rfl := Option.some.inj isVersion
            rw [if_pos isOwned]

theorem mem_draftKeys {collation : Collation} {key : collation.Weight ×ₗ UUID} :
    key ∈ store.draftKeys collation ownerId ↔
      ∃ id row, store.draftRow ownerId id = some row ∧
        key = toLex (collation.weight row.1.title, row.1.id) := by
  simp only [draftKeys, Finset.mem_biUnion, Option.mem_toFinset, Option.mem_def,
    Option.map_eq_some_iff]
  constructor
  · rintro ⟨id, _, row, found, rfl⟩
    exact ⟨id, row, found, rfl⟩
  · rintro ⟨id, row, found, rfl⟩
    obtain ⟨isRule, _⟩ := draftRow_eq_some_iff.mp found
    obtain ⟨_, isStored⟩ := rule_eq_some_iff.mp isRule
    exact ⟨id, Finmap.mem_keys.mpr (Finmap.mem_of_lookup_eq_some isStored), row, found, rfl⟩

/-- The drafts that are listed. -/
theorem mem_drafts
    {collation : Collation}
    {row : DetectionRule × DetectionRuleVersion} :
    row ∈ store.drafts collation ownerId ↔ store.draftRow ownerId row.1.id = some row := by
  simp only [drafts, List.mem_filterMap, Finset.mem_sort, mem_draftKeys]
  constructor
  · rintro ⟨key, _, found⟩
    obtain ⟨isRule, _⟩ := draftRow_eq_some_iff.mp found
    rw [(rule_eq_some_iff.mp isRule).1]
    exact found
  · intro found
    exact ⟨_, ⟨row.1.id, row, found, rfl⟩, found⟩

/-- The drafts are in the order of title and id. -/
theorem drafts_pairwise (collation : Collation) :
    (store.drafts collation ownerId).Pairwise fun earlier later =>
      toLex (collation.weight earlier.1.title, earlier.1.id) <
        toLex (collation.weight later.1.title, later.1.id) := by
  unfold drafts
  rw [List.pairwise_filterMap]
  apply (store.draftKeys collation ownerId).sortedLT_sort.pairwise.imp_of_mem
  intro key key' isKey isKey' below row found row' found'
  rw [Finset.mem_sort, mem_draftKeys] at isKey isKey'
  obtain ⟨id, keyed, isRow, rfl⟩ := isKey
  obtain ⟨id', keyed', isRow', rfl⟩ := isKey'
  obtain ⟨isRule, _⟩ := draftRow_eq_some_iff.mp isRow
  obtain ⟨isRule', _⟩ := draftRow_eq_some_iff.mp isRow'
  obtain ⟨rfl, _⟩ := rule_eq_some_iff.mp isRule
  obtain ⟨rfl, _⟩ := rule_eq_some_iff.mp isRule'
  obtain rfl : keyed = row := Option.some.inj (isRow.symm.trans found)
  obtain rfl : keyed' = row' := Option.some.inj (isRow'.symm.trans found')
  exact below

/-- No rule is listed twice. -/
theorem drafts_nodup (collation : Collation) :
    ((store.drafts collation ownerId).map fun row => row.1.id).Nodup := by
  rw [List.Nodup, List.pairwise_map]
  apply (drafts_pairwise collation).imp_of_mem
  intro row row' isListed isListed' below sameId
  -- rows of the same rule have the same sort key
  have isRow := mem_drafts.mp isListed
  have isRow' := mem_drafts.mp isListed'
  rw [sameId, isRow'] at isRow
  obtain rfl := Option.some.inj isRow
  exact lt_irrefl _ below

/-- Every rule is listed once. -/
theorem filter_drafts (collation : Collation) (id : UUID) :
    (store.drafts collation ownerId).filter (fun row => row.1.id = id) =
      (store.draftRow ownerId id).toList := by
  have mem_iff : ∀ row, row ∈ (store.drafts collation ownerId).filter (fun row => row.1.id = id) ↔
      store.draftRow ownerId id = some row := by
    intro row
    rw [List.mem_filter, mem_drafts, decide_eq_true_eq]
    constructor
    · rintro ⟨isRow, rfl⟩
      exact isRow
    · intro isRow
      obtain ⟨isRule, _⟩ := draftRow_eq_some_iff.mp isRow
      obtain rfl := (rule_eq_some_iff.mp isRule).1
      exact ⟨isRow, rfl⟩
  have nodup : ((store.drafts collation ownerId).filter fun row => row.1.id = id).Nodup :=
    ((drafts_nodup collation).of_map _).filter _
  cases isRow : store.draftRow ownerId id with
  | none =>
      rw [Option.toList_none, List.eq_nil_iff_forall_not_mem]
      intro row isListed
      rw [mem_iff, isRow] at isListed
      contradiction
  | some row =>
      rw [Option.toList_some, ← List.perm_singleton,
        List.perm_ext_iff_of_nodup nodup (List.nodup_singleton row)]
      intro row'
      rw [mem_iff, isRow, List.mem_singleton, Option.some.injEq, eq_comm]

end Drafts

end RuleStore

end Detection
end SigmaForge
