import SigmaForge.Detection.Agreement

/-!
# Listings are partitioned into pages

Both listings show what the user may see, each item once, in a total order, and are
partitioned into pages.
-/

namespace SigmaForge
namespace Detection

open Text ReadCommitted

/-- A rule of the user whose current version is the given version, which is one of its
own. -/
structure OwnsDraft (store : RuleStore) (ownerId : UUID) (rule : DetectionRule)
    (version : DetectionRuleVersion) : Prop where
  isRule : store.rule rule.id = some rule
  isOwned : rule.ownerId = ownerId
  isCurrent : rule.currentVersionId = some version.id
  isVersion : store.version version.id = some version
  isOwn : version.ruleId = rule.id

/-- The order of `title` and `id`. -/
def DraftBefore (collation : Collation) (earlier later : DetectionRule) : Prop :=
  toLex (collation.weight earlier.title, earlier.id) <
    toLex (collation.weight later.title, later.id)

/-- The listed drafts are those of the user. -/
theorem mem_drafts_iff
    {store : RuleStore}
    {collation : Collation}
    {ownerId : UUID}
    {rule : DetectionRule}
    {version : DetectionRuleVersion} :
    (rule, version) ∈ store.drafts collation ownerId ↔ OwnsDraft store ownerId rule version := by
  rw [RuleStore.mem_drafts, RuleStore.draftRow_eq_some_iff]
  constructor
  · rintro ⟨isRule, isCurrent, isOwned, isOwn⟩
    obtain ⟨id, isId, isVersion⟩ := Option.bind_eq_some_iff.mp isCurrent
    obtain ⟨rfl, _⟩ := RuleStore.version_eq_some_iff.mp isVersion
    exact ⟨isRule, isOwned, isId, isVersion, isOwn⟩
  · rintro ⟨isRule, isOwned, isCurrent, isVersion, isOwn⟩
    exact ⟨isRule, Option.bind_eq_some_iff.mpr ⟨version.id, isCurrent, isVersion⟩, isOwned, isOwn⟩

/-- The listed versions are those of the rule. -/
theorem mem_versionList_iff
    {store : RuleStore}
    {ruleId : UUID}
    {version : DetectionRuleVersion} :
    version ∈ store.versionList ruleId ↔
      store.version version.id = some version ∧ version.ruleId = ruleId := by
  rw [RuleStore.mem_versionList, RuleStore.version_eq_some_iff]
  simp

/-- Pagination partitions the data.  On an unchanged store, the pages of
`list_owned_rule_drafts` are the slices of the user's drafts in the order of title and
id, and the pages of `list_owned_rule_versions` are the slices of the rule's versions,
the newest first. -/
theorem listings_partition
    (python : Interpreter)
    (collation : Collation)
    (store : RuleStore)
    (ownerId : UUID)
    {limit : Nat}
    (positive : 1 ≤ limit) :
    (∃ rows : List (DetectionRule × DetectionRuleVersion),
      (∀ rule version, (rule, version) ∈ rows ↔ OwnsDraft store ownerId rule version) ∧
      rows.Pairwise (fun earlier later => DraftBefore collation earlier.1 later.1) ∧
      Partitions rows draftItem limit (DraftPage python collation store ownerId limit)) ∧
    ∀ ruleId rule current, readRule store ruleId ownerId = some (rule, current) →
      ∃ versions : List DetectionRuleVersion,
        (∀ version, version ∈ versions ↔
          store.version version.id = some version ∧ version.ruleId = ruleId) ∧
        versions.Pairwise (fun newer older => older.versionNumber < newer.versionNumber) ∧
        Partitions versions (versionItem current) limit
          (VersionPage python collation store ownerId ruleId limit) := by
  constructor
  · exact ⟨store.drafts collation ownerId, fun _ _ => mem_drafts_iff,
      RuleStore.drafts_pairwise collation, (pagesRows_drafts limit).partitions positive⟩
  · intro ruleId rule current isRead
    exact ⟨store.versionList ruleId, fun _ => mem_versionList_iff,
      RuleStore.versionList_pairwise, (pagesRows_versions isRead limit).partitions positive⟩

/-- One draft with two versions, which are on two pages. -/
theorem twoVersions_listings_partition :
    (∃ rows : List (DetectionRule × DetectionRuleVersion),
      (∀ rule version, (rule, version) ∈ rows ↔ OwnsDraft twoVersions 5 rule version) ∧
      rows.Pairwise (fun earlier later => DraftBefore .codePoints earlier.1 later.1) ∧
      Partitions rows draftItem 1 (DraftPage .coarse .codePoints twoVersions 5 1)) ∧
    ∃ rule, readRule twoVersions 1 5 = some (rule, 9) ∧
      ∃ versions : List DetectionRuleVersion,
        ⟨newVersion 1 1 Draft.sample 5, 2⟩ ∈ versions ∧
        ⟨newVersion 1 2 Draft.allOfNot 5, 9⟩ ∈ versions ∧
        versions.Pairwise (fun newer older => older.versionNumber < newer.versionNumber) ∧
        Partitions versions (versionItem 9) 1
          (VersionPage .coarse .codePoints twoVersions 5 1 1) := by
  obtain ⟨drafts, versionPages⟩ :=
    listings_partition .coarse .codePoints twoVersions 5 (show 1 ≤ 1 by decide)
  have isRead := twoVersions_appended.readRule
  obtain ⟨versions, mem_iff, ordered, partitions⟩ := versionPages 1 _ 9 isRead
  exact ⟨drafts, _, isRead, versions,
    (mem_iff _).mpr ⟨RuleStore.version_eq_some_iff.mpr ⟨rfl, twoVersions_first⟩, rfl⟩,
    (mem_iff _).mpr ⟨RuleStore.version_eq_some_iff.mpr
      ⟨rfl, twoVersions_appended.lookup_new⟩, rfl⟩, ordered, partitions⟩

end Detection
end SigmaForge
