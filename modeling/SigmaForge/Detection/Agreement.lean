import SigmaForge.Detection.Reads

/-!
# The reading operations agree

On what the writing operations have committed, the operations that read a rule, its
versions and their differences agree with each other.
-/

namespace SigmaForge
namespace Detection

open Text Json ReadCommitted

section Reads

variable
    {python : Interpreter}
    {collation : Collation}
    {store : RuleStore}
    {ruleId ownerId : UUID}

/-- A rule that the user does not own is not read. -/
theorem readRule_eq_none
    (notOwned : store.ownedRule ownerId ruleId = none) :
    readRule store ruleId ownerId = none := by
  rw [readRule, notOwned]
  rfl

/-- What is read of an owned rule: its row, and the last version of its chain, which
stores the draft. -/
structure OwnedChain (store : RuleStore) (ruleId ownerId : UUID) (rule : DetectionRule)
    (current : DetectionRuleVersion) (count : Int) (draft : Draft python) : Prop where
  isOwned : store.ownedRule ownerId ruleId = some rule
  isCurrent : rule.currentVersionId = some current.id
  chain : VersionChain python store ruleId rule.toRuleColumns count
  isListed : current ∈ store.versionList ruleId
  isLast : current.versionNumber = count
  isDraft : current.sigmaYaml = sigmaYaml draft
  describes : snapshotTitle draft.request.modelDump.sortKeys = some rule.title

theorem Recorded.ownedChain
    (recorded : Recorded python store)
    {rule : DetectionRule}
    (isOwned : store.ownedRule ownerId ruleId = some rule) :
    ∃ current count, ∃ draft : Draft python,
      OwnedChain store ruleId ownerId rule current count draft := by
  obtain ⟨_, isRule, _⟩ := RuleStore.ownedRule_eq_some_iff.mp isOwned
  obtain ⟨count, chain⟩ := recorded.chained ruleId rule.toRuleColumns isRule
  obtain ⟨id, version, snapshot, isCurrent, isFound, sameRule, isLast, isDecoded, describes, _⟩ :=
    chain.current
  obtain ⟨draft, isDraft⟩ := recorded.drafts isFound
  rw [isDraft, decode_sigmaYaml] at isDecoded
  obtain rfl := Except.ok.inj isDecoded
  exact ⟨⟨version, id⟩, count, draft, isOwned, isCurrent, chain,
    RuleStore.mem_versionList.mpr ⟨isFound, sameRule⟩, isLast, isDraft, describes⟩

section Owned

variable
    {rule : DetectionRule}
    {current : DetectionRuleVersion}
    {count : Int}
    {currentDraft : Draft python}

theorem OwnedChain.isId
    (owned : OwnedChain store ruleId ownerId rule current count currentDraft) :
    rule.id = ruleId :=
  (RuleStore.ownedRule_eq_some_iff.mp owned.isOwned).1

theorem OwnedChain.isStored
    (owned : OwnedChain store ruleId ownerId rule current count currentDraft) :
    store.version current.id = some current :=
  RuleStore.version_eq_some_iff.mpr ⟨rfl, (RuleStore.mem_versionList.mp owned.isListed).1⟩

theorem OwnedChain.sameRule
    (owned : OwnedChain store ruleId ownerId rule current count currentDraft) :
    current.ruleId = ruleId :=
  (RuleStore.mem_versionList.mp owned.isListed).2

theorem OwnedChain.isRead
    (owned : OwnedChain store ruleId ownerId rule current count currentDraft) :
    readRule store ruleId ownerId = some (rule, current.id) := by
  rw [readRule, owned.isOwned, Option.bind_some, owned.isCurrent]
  rfl

/-- The row of the rule among the drafts of its owner. -/
theorem OwnedChain.draftRow
    (owned : OwnedChain store ruleId ownerId rule current count currentDraft) :
    store.draftRow ownerId ruleId = some (rule, current) := by
  obtain ⟨isId, isRule, isOwner⟩ := RuleStore.ownedRule_eq_some_iff.mp owned.isOwned
  rw [RuleStore.draftRow_eq_some_iff]
  refine ⟨RuleStore.rule_eq_some_iff.mpr ⟨isId, isRule⟩, ?_, isOwner,
    owned.sameRule.trans isId.symm⟩
  rw [owned.isCurrent]
  exact owned.isStored

/-- The body of the current draft of the rule. -/
theorem OwnedChain.draftBody_eq
    (owned : OwnedChain store ruleId ownerId rule current count currentDraft) :
    draftBody python rule (some current) = .ok {
      id := ruleId.str
      ruleUid := rule.ruleUid
      title := rule.title
      versionId := current.id.str
      versionNumber := count
      sigma := currentDraft.request.modelDump.sortKeys
      validationLevel := structuralOnly } := by
  have sameRule : current.ruleId = rule.id := owned.sameRule.trans owned.isId.symm
  unfold draftBody
  rw [Option.filter_some_pos (by simpa using sameRule)]
  simp only [owned.isDraft, decode_sigmaYaml, owned.isId, owned.isLast]

/-- The current draft of the rule is returned. -/
theorem OwnedChain.evaluate_draft
    (owned : OwnedChain store ruleId ownerId rule current count currentDraft) :
    (getOwnedRuleDraft python ruleId ownerId).evaluate (onTables collation store) = .ok {
      id := ruleId.str
      ruleUid := rule.ruleUid
      title := rule.title
      versionId := current.id.str
      versionNumber := count
      sigma := currentDraft.request.modelDump.sortKeys
      validationLevel := structuralOnly } := by
  rw [evaluate_getOwnedRuleDraft, owned.isRead]
  simp only [owned.isStored]
  exact owned.draftBody_eq

end Owned

/-- `get_owned_rule_draft` succeeds for the rules of the user. -/
theorem Recorded.draft_ok_iff
    (recorded : Recorded python store) :
    (∃ body, (getOwnedRuleDraft python ruleId ownerId).evaluate (onTables collation store) =
      .ok body) ↔ (store.ownedRule ownerId ruleId).isSome := by
  cases isOwned : store.ownedRule ownerId ruleId with
  | none => simp [evaluate_getOwnedRuleDraft, readRule_eq_none isOwned]
  | some rule =>
      obtain ⟨current, count, draft, owned⟩ := recorded.ownedChain isOwned
      exact iff_of_true ⟨_, owned.evaluate_draft⟩ rfl

/-- A version that is listed, with the draft that it stores. -/
structure StoresDraft (store : RuleStore) (ruleId : UUID) (version : DetectionRuleVersion)
    (draft : Draft python) : Prop where
  isListed : version ∈ store.versionList ruleId
  isDraft : version.sigmaYaml = sigmaYaml draft

theorem Recorded.storesDraft
    (recorded : Recorded python store)
    {version : DetectionRuleVersion}
    (isListed : version ∈ store.versionList ruleId) :
    ∃ draft : Draft python, StoresDraft store ruleId version draft := by
  obtain ⟨isStored, _⟩ := RuleStore.mem_versionList.mp isListed
  obtain ⟨draft, isDraft⟩ := recorded.drafts isStored
  exact ⟨draft, isListed, isDraft⟩

/-- A listed version is found by its number. -/
theorem Recorded.findVersion_eq
    (recorded : Recorded python store)
    {version : DetectionRuleVersion}
    (isListed : version ∈ store.versionList ruleId) :
    findVersion store ruleId version.versionNumber = .ok (some version) := by
  obtain ⟨isStored, _⟩ := RuleStore.mem_versionList.mp isListed
  rw [findVersion, if_pos (recorded.integers isStored)]
  exact congrArg Except.ok (RuleStore.find?_versionList_iff.mpr ⟨isListed, rfl⟩)

/-- The body of a version that stores a draft. -/
theorem StoresDraft.versionBody_eq
    {rule : DetectionRule}
    {version : DetectionRuleVersion}
    {draft : Draft python}
    (stores : StoresDraft store ruleId version draft)
    (isId : rule.id = ruleId)
    (currentVersionId : UUID) :
    versionBody python rule currentVersionId (some version) = .ok {
      id := rule.id.str
      versionId := version.id.str
      versionNumber := version.versionNumber
      isCurrent := version.id = currentVersionId
      sigma := draft.request.modelDump.sortKeys
      validationLevel := structuralOnly } := by
  have sameRule := (RuleStore.mem_versionList.mp stores.isListed).2
  unfold versionBody
  rw [Option.filter_some_pos (by simpa [isId] using sameRule)]
  simp only [stores.isDraft, decode_sigmaYaml]

/-- A listed version is returned. -/
theorem OwnedChain.evaluate_version
    {rule : DetectionRule}
    {current version : DetectionRuleVersion}
    {count : Int}
    {currentDraft draft : Draft python}
    (owned : OwnedChain store ruleId ownerId rule current count currentDraft)
    (recorded : Recorded python store)
    (stores : StoresDraft store ruleId version draft)
    (collation : Collation) :
    (getOwnedRuleVersion python ruleId ownerId version.versionNumber).evaluate
        (onTables collation store) = .ok {
      id := rule.id.str
      versionId := version.id.str
      versionNumber := version.versionNumber
      isCurrent := version.id = current.id
      sigma := draft.request.modelDump.sortKeys
      validationLevel := structuralOnly } := by
  rw [evaluate_getOwnedRuleVersion, owned.isRead]
  simp only [recorded.findVersion_eq stores.isListed]
  exact stores.versionBody_eq owned.isId current.id

/-- A version with each number of the chain. -/
theorem OwnedChain.exists_version
    {rule : DetectionRule}
    {current : DetectionRuleVersion}
    {count : Int}
    {currentDraft : Draft python}
    (owned : OwnedChain store ruleId ownerId rule current count currentDraft)
    (recorded : Recorded python store)
    {number : Int}
    (low : 1 ≤ number)
    (high : number ≤ count) :
    ∃ (version : DetectionRuleVersion) (draft : Draft python),
      StoresDraft store ruleId version draft ∧ version.versionNumber = number := by
  have isNumber := (owned.chain.mem_versionNumbers number).mpr ⟨low, high⟩
  obtain ⟨version, isListed, isNumber⟩ := List.mem_map.mp isNumber
  obtain ⟨draft, stores⟩ := recorded.storesDraft isListed
  exact ⟨version, draft, stores, isNumber⟩

/-- `get_owned_rule_version` succeeds for the numbers of the chain. -/
theorem OwnedChain.version_ok_iff
    {rule : DetectionRule}
    {current : DetectionRuleVersion}
    {count : Int}
    {currentDraft : Draft python}
    (owned : OwnedChain store ruleId ownerId rule current count currentDraft)
    (recorded : Recorded python store)
    (number : Int) :
    (∃ body, (getOwnedRuleVersion python ruleId ownerId number).evaluate
      (onTables collation store) = .ok body) ↔ 1 ≤ number ∧ number ≤ count := by
  constructor
  · rintro ⟨body, isOk⟩
    rw [evaluate_getOwnedRuleVersion, owned.isRead] at isOk
    unfold findVersion at isOk
    split_ifs at isOk
    · cases isFound : (store.versionList ruleId).find?
          fun version => version.versionNumber = number with
      | none => simp [isFound, Except.bind, versionBody] at isOk
      | some version =>
          obtain ⟨isListed, isNumber⟩ := RuleStore.find?_versionList_iff.mp isFound
          exact (owned.chain.mem_versionNumbers number).mp
            (List.mem_map.mpr ⟨version, isListed, isNumber⟩)
    · simp [Except.bind] at isOk
  · rintro ⟨low, high⟩
    obtain ⟨version, draft, stores, rfl⟩ := owned.exists_version recorded low high
    exact ⟨_, owned.evaluate_version recorded stores collation⟩

/-- A version and the next one are not equal. -/
theorem Recorded.not_pyEq
    (recorded : Recorded python store)
    {version version' : DetectionRuleVersion}
    {draft draft' : Draft python}
    (stores : StoresDraft store ruleId version draft)
    (stores' : StoresDraft store ruleId version' draft')
    (isNext : version'.versionNumber = version.versionNumber + 1) :
    ¬PyEq draft.request.modelDump.sortKeys draft'.request.modelDump.sortKeys := by
  obtain ⟨isStored, sameRule⟩ := RuleStore.mem_versionList.mp stores.isListed
  obtain ⟨isStored', sameRule'⟩ := RuleStore.mem_versionList.mp stores'.isListed
  obtain ⟨written, isWritten, snapshot, isDecoded, differs⟩ :=
    recorded.differ isStored isStored' (sameRule.trans sameRule'.symm) isNext
  rw [stores.isDraft, decode_sigmaYaml] at isDecoded
  obtain rfl := Except.ok.inj isDecoded
  -- both drafts of the next version are read back as the same snapshot
  have sameSnapshot : draft'.request.modelDump.sortKeys = written.request.modelDump.sortKeys := by
    have isRead := decode_sigmaYaml draft'
    rw [← stores'.isDraft, isWritten, decode_sigmaYaml] at isRead
    exact (Except.ok.inj isRead).symm
  intro equal
  rw [sameSnapshot] at equal
  have isEqual := Value.pyEq_of_sorted
    (RulePreflightRequest.modelDump_distinct written.hasDicts)
    ((RulePreflightRequest.modelDump_distinct draft.hasDicts).sortKeys
      fun _ _ permuted => permuted.nodup_iff.mp) equal
  rw [isEqual] at differs
  exact Bool.noConfusion differs

/-- The difference of a version to the one before it. -/
theorem OwnedChain.evaluate_diff
    {rule : DetectionRule}
    {current : DetectionRuleVersion}
    {count : Int}
    {currentDraft : Draft python}
    (owned : OwnedChain store ruleId ownerId rule current count currentDraft)
    (recorded : Recorded python store)
    {number : Int}
    (low : 2 ≤ number)
    (high : number ≤ count)
    (collation : Collation) :
    ∃ body, (diffOwnedRuleVersion python ruleId ownerId number).evaluate
        (onTables collation store) = .ok body ∧
      body.changes.hasChanges = true ∧ ¬body.changes.ListsNothing := by
  obtain ⟨version, draft, stores, isNumber⟩ :=
    owned.exists_version recorded (show 1 ≤ number - 1 by omega) (by omega)
  obtain ⟨version', draft', stores', rfl⟩ :=
    owned.exists_version recorded (show 1 ≤ number by omega) high
  obtain ⟨request, limit, decoded⟩ := decoded_snapshot (decode_sigmaYaml draft)
  obtain ⟨request', limit', decoded'⟩ := decoded_snapshot (decode_sigmaYaml draft')
  obtain ⟨changes, isSummary, lists, nothing_iff⟩ := decoded.summarizes decoded'
  have listsSome : ¬changes.ListsNothing := by
    rw [lists.listsNothing_iff comparesMembers_pyEq decoded decoded']
    exact recorded.not_pyEq stores stores' (by omega)
  have hasChanges : changes.hasChanges = true := by
    rw [← Bool.not_eq_false, nothing_iff]
    exact listsSome
  have areDicts : IsDict draft.request.modelDump.sortKeys ∧
      IsDict draft'.request.modelDump.sortKeys := by
    rw [sortKeys_modelDump, sortKeys_modelDump]
    exact ⟨trivial, trivial⟩
  have isPrevious : (getOwnedRuleVersion python ruleId ownerId
      (version'.versionNumber - 1)).evaluate (onTables collation store) = _ :=
    isNumber ▸ owned.evaluate_version recorded stores collation
  refine ⟨{
    id := ruleId.str
    previousVersionNumber := version'.versionNumber - 1
    versionNumber := version'.versionNumber
    isCurrent := version'.id = current.id
    validationLevel := structuralOnly
    changes := changes }, ?_, hasChanges, listsSome⟩
  rw [evaluate_diffOwnedRuleVersion, if_pos low, isPrevious,
    owned.evaluate_version recorded stores' collation]
  simp only [Except.bind, diffBody, if_pos areDicts, isSummary]

/-- `diff_owned_rule_version` succeeds for the numbers of the chain from 2 on. -/
theorem OwnedChain.diff_ok_iff
    {rule : DetectionRule}
    {current : DetectionRuleVersion}
    {count : Int}
    {currentDraft : Draft python}
    (owned : OwnedChain store ruleId ownerId rule current count currentDraft)
    (recorded : Recorded python store)
    (number : Int) :
    (∃ body, (diffOwnedRuleVersion python ruleId ownerId number).evaluate
      (onTables collation store) = .ok body) ↔ 2 ≤ number ∧ number ≤ count := by
  constructor
  · rintro ⟨body, isOk⟩
    rw [evaluate_diffOwnedRuleVersion] at isOk
    split_ifs at isOk with low
    refine ⟨low, ?_⟩
    cases isPrevious : (getOwnedRuleVersion python ruleId ownerId (number - 1)).evaluate
        (onTables collation store) with
    | error error => simp [isPrevious, Except.bind] at isOk
    | ok previous =>
        cases isCurrent : (getOwnedRuleVersion python ruleId ownerId number).evaluate
            (onTables collation store) with
        | error error => simp [isPrevious, isCurrent, Except.bind] at isOk
        | ok body => exact ((owned.version_ok_iff recorded number).mp ⟨body, isCurrent⟩).2
  · rintro ⟨low, high⟩
    obtain ⟨body, isOk, _⟩ := owned.evaluate_diff recorded low high collation
    exact ⟨body, isOk⟩

/-! ## The listings -/

/-- A page of `list_owned_rule_drafts`, served alone. -/
def DraftPage (python : Interpreter) (collation : Collation) (store : RuleStore) (ownerId : UUID)
    (limit offset : Nat) (items : List RuleDraftItem) (more : Bool) : Prop :=
  ∃ body, request python collation ownerId (.list limit offset) store =
    (.ok (.drafts body), store) ∧ body.items = items ∧ body.hasMore = more

/-- A page of `list_owned_rule_versions`, served alone. -/
def VersionPage (python : Interpreter) (collation : Collation) (store : RuleStore)
    (ownerId ruleId : UUID) (limit offset : Nat) (items : List RuleVersionItem) (more : Bool) :
    Prop :=
  ∃ body, request python collation ownerId (.listVersions ruleId limit offset) store =
    (.ok (.versions body), store) ∧ body.items = items ∧ body.hasMore = more

/-- The item of a listed draft. -/
def draftItem (row : DetectionRule × DetectionRuleVersion) : RuleDraftItem where
  id := row.1.id.str
  ruleUid := row.1.ruleUid
  title := row.1.title
  versionId := row.2.id.str
  versionNumber := row.2.versionNumber
  validationLevel := structuralOnly

/-- The item of a listed version. -/
def versionItem (currentVersionId : UUID) (version : DetectionRuleVersion) :
    RuleVersionItem where
  versionId := version.id.str
  versionNumber := version.versionNumber
  isCurrent := version.id = currentVersionId

theorem pagesRows_drafts (limit : Nat) :
    PagesRows (store.drafts collation ownerId) draftItem limit
      (DraftPage python collation store ownerId limit) := by
  intro offset items more
  simp only [DraftPage, request_list_iff, evaluate_listOwnedRuleDrafts, Except.ok.injEq,
    exists_eq_left']
  exact and_congr eq_comm eq_comm

theorem pagesRows_versions
    {rule : DetectionRule}
    {current : UUID}
    (isRead : readRule store ruleId ownerId = some (rule, current))
    (limit : Nat) :
    PagesRows (store.versionList ruleId) (versionItem current) limit
      (VersionPage python collation store ownerId ruleId limit) := by
  intro offset items more
  simp only [VersionPage, request_listVersions_iff, evaluate_listOwnedRuleVersions, isRead,
    Except.ok.injEq, exists_eq_left']
  exact and_congr eq_comm eq_comm

/-- The items of a rule. -/
theorem filter_draftItems (collation : Collation) :
    ((store.drafts collation ownerId).map draftItem).filter (fun item => item.id = ruleId.str) =
      (store.draftRow ownerId ruleId).toList.map draftItem := by
  rw [List.filter_map, ← RuleStore.filter_drafts collation]
  congr 2
  funext row
  exact decide_eq_decide.mpr UUID.str_injective.eq_iff

theorem isListed_iff :
    (∃ item ∈ (store.drafts collation ownerId).map draftItem, item.id = ruleId.str) ↔
      (store.draftRow ownerId ruleId).isSome := by
  have isFiltered : (∃ item ∈ (store.drafts collation ownerId).map draftItem,
      item.id = ruleId.str) ↔
        ∃ item, item ∈ (store.draftRow ownerId ruleId).toList.map draftItem := by
    rw [← filter_draftItems collation]
    simp only [List.mem_filter, decide_eq_true_eq]
  rw [isFiltered]
  cases store.draftRow ownerId ruleId <;> simp

/-- The last version of the chain is listed first. -/
theorem OwnedChain.versionList_eq
    {rule : DetectionRule}
    {current : DetectionRuleVersion}
    {count : Int}
    {currentDraft : Draft python}
    (owned : OwnedChain store ruleId ownerId rule current count currentDraft) :
    ∃ older, store.versionList ruleId = current :: older ∧
      ∀ version ∈ older, version.id ≠ current.id := by
  have descending : (store.versionList ruleId).Pairwise fun newer older =>
      older.versionNumber < newer.versionNumber := RuleStore.versionList_pairwise
  have isListed := owned.isListed
  cases isList : store.versionList ruleId with
  | nil => simp [isList] at isListed
  | cons first older =>
      rw [isList] at isListed descending
      obtain ⟨below, _⟩ := List.pairwise_cons.mp descending
      have isFirst : current = first := by
        rcases List.mem_cons.mp isListed with isFirst | isOlder
        · exact isFirst
        · have isLater := below current isOlder
          have isBounded : first.versionNumber ≤ count :=
            ((owned.chain.mem_versionNumbers _).mp
              (List.mem_map.mpr ⟨first, by simp [isList], rfl⟩)).2
          have := owned.isLast
          omega
      subst isFirst
      refine ⟨older, rfl, fun version isOlder sameId => ?_⟩
      have isListed' : version ∈ store.versionList ruleId := by
        rw [isList]
        exact List.mem_cons_of_mem _ isOlder
      have isStored := (RuleStore.mem_versionList.mp isListed').1
      rw [sameId, (RuleStore.mem_versionList.mp owned.isListed).1] at isStored
      have isEarlier := below version isOlder
      rw [Option.some.inj isStored] at isEarlier
      exact lt_irrefl _ isEarlier

/-- The listed versions of a chain. -/
theorem OwnedChain.lists_versions
    {rule : DetectionRule}
    {current : DetectionRuleVersion}
    {count : Int}
    {currentDraft : Draft python}
    (owned : OwnedChain store ruleId ownerId rule current count currentDraft)
    (collation : Collation)
    {limit : Nat}
    (positive : 0 < limit) :
    ∃ older, Lists (VersionPage python collation store ownerId ruleId limit) limit
        (⟨current.id.str, count, true⟩ :: older) ∧
      (count :: older.map (·.versionNumber) =
        (List.range count.toNat).map fun index : Nat => count - index) ∧
      ∀ item ∈ older, item.isCurrent = false := by
  obtain ⟨older, isList, others⟩ := owned.versionList_eq
  have lists : Lists (VersionPage python collation store ownerId ruleId limit) limit
      ((store.versionList ruleId).map (versionItem current.id)) :=
    (pagesRows_versions owned.isRead limit).lists positive
  have numbers := owned.chain.versionNumbers
  have isFirst : versionItem current.id current = ⟨current.id.str, count, true⟩ := by
    simp [versionItem, owned.isLast]
  rw [isList, List.map_cons, isFirst] at lists
  rw [isList, List.map_cons, owned.isLast] at numbers
  refine ⟨older.map (versionItem current.id), lists, ?_, ?_⟩
  · rw [List.map_map]
    exact numbers
  · intro item isItem
    obtain ⟨version, isOlder, rfl⟩ := List.mem_map.mp isItem
    exact decide_eq_false (others version isOlder)

end Reads

/-! ## Agreement -/

/-- The item that lists a draft. -/
def RuleDraft.item (draft : RuleDraft) : RuleDraftItem where
  id := draft.id
  ruleUid := draft.ruleUid
  title := draft.title
  versionId := draft.versionId
  versionNumber := draft.versionNumber
  validationLevel := draft.validationLevel

/-- The operations on the versions of a rule agree with its current draft. -/
structure HistoryAgrees (python : Interpreter) (collation : Collation) (store : RuleStore)
    (ownerId ruleId : UUID) (limit : Nat) (draft : RuleDraft) : Prop where
  /-- The versions are listed from the last one to the first one.  The last one, and no
  other, is marked as the current one. -/
  listed : ∃ older, Lists (VersionPage python collation store ownerId ruleId limit) limit
      (⟨draft.versionId, draft.versionNumber, true⟩ :: older) ∧
    (draft.versionNumber :: older.map (·.versionNumber) =
      (List.range draft.versionNumber.toNat).map fun index : Nat => draft.versionNumber - index) ∧
    ∀ item ∈ older, item.isCurrent = false
  version_iff : ∀ number, (∃ body, request python collation ownerId (.getVersion ruleId number)
    store = (.ok (.version body), store)) ↔ 1 ≤ number ∧ number ≤ draft.versionNumber
  current : ∃ body rule, request python collation ownerId
      (.getVersion ruleId draft.versionNumber) store = (.ok (.version body), store) ∧
    body.sigma = draft.sigma ∧ store.rule ruleId = some rule ∧
    snapshotTitle body.sigma = some rule.title
  diff_iff : ∀ number, (∃ body, request python collation ownerId (.diff ruleId number) store =
    (.ok (.diff body), store)) ↔ 2 ≤ number ∧ number ≤ draft.versionNumber

section Reachable

variable
    {python : Interpreter}
    {collation : Collation}
    {clock : Nat}
    {config : Config ServiceError (SessionAnswer Answer) (UUID × RuleCall python) RuleDb Response}

theorem OwnedChain.historyAgrees
    {store : RuleStore}
    {ruleId ownerId : UUID}
    {rule : DetectionRule}
    {current : DetectionRuleVersion}
    {currentDraft : Draft python}
    {draft : RuleDraft}
    (owned : OwnedChain store ruleId ownerId rule current draft.versionNumber currentDraft)
    (recorded : Recorded python store)
    (collation : Collation)
    {limit : Nat}
    (positive : 0 < limit)
    (isVersion : draft.versionId = current.id.str)
    (isSigma : draft.sigma = currentDraft.request.modelDump.sortKeys) :
    HistoryAgrees python collation store ownerId ruleId limit draft where
  listed := by
    rw [isVersion]
    exact owned.lists_versions collation positive
  version_iff number := by
    simp only [request_getVersion_iff]
    exact owned.version_ok_iff recorded number
  current := by
    have stores : StoresDraft store ruleId current currentDraft := ⟨owned.isListed, owned.isDraft⟩
    have isBody := owned.evaluate_version recorded stores collation
    rw [owned.isLast] at isBody
    obtain ⟨isId, isRule, _⟩ := RuleStore.ownedRule_eq_some_iff.mp owned.isOwned
    exact ⟨_, rule, request_getVersion_iff.mpr isBody, isSigma.symm,
      RuleStore.rule_eq_some_iff.mpr ⟨isId, isRule⟩, owned.describes⟩
  diff_iff number := by
    simp only [request_diff_iff]
    exact owned.diff_ok_iff recorded number

/-- In every run, the operations that read agree with each other: the pages of
`list_owned_rule_drafts` list a rule once, with what `get_owned_rule_draft` returns, if
this succeeds, and the operations on its versions agree with it. -/
theorem reads_agree
    (reachable : Reachable (ruleMachine python collation) serve
      (Db.start RuleStore.empty clock) config)
    (ownerId ruleId : UUID)
    {limit : Nat}
    (positive : 0 < limit) :
    let store := config.shared.committed (schema collation)
    ∃ items, Lists (DraftPage python collation store ownerId limit) limit items ∧
      ((∃ item ∈ items, item.id = ruleId.str) ↔
        ∃ draft, request python collation ownerId (.get ruleId) store =
          (.ok (.draft draft), store)) ∧
      ∀ draft, request python collation ownerId (.get ruleId) store =
          (.ok (.draft draft), store) →
        items.filter (fun item => item.id = ruleId.str) = [draft.item] ∧
        HistoryAgrees python collation store ownerId ruleId limit draft := by
  intro store
  have recorded : Recorded python store := recorded_of_reachable reachable
  refine ⟨_, (pagesRows_drafts limit).lists positive, ?_, ?_⟩
  · simp only [request_get_iff]
    rw [isListed_iff, recorded.draft_ok_iff]
    cases isOwned : store.ownedRule ownerId ruleId with
    | none => simp [RuleStore.draftRow_eq, isOwned]
    | some rule =>
        obtain ⟨current, count, draft, owned⟩ := recorded.ownedChain isOwned
        simp [owned.draftRow]
  · intro draft isGot
    rw [request_get_iff] at isGot
    obtain ⟨rule, isOwned⟩ := Option.isSome_iff_exists.mp
      (recorded.draft_ok_iff.mp ⟨draft, isGot⟩)
    obtain ⟨current, count, currentDraft, owned⟩ := recorded.ownedChain isOwned
    rw [owned.evaluate_draft] at isGot
    obtain rfl := Except.ok.inj isGot
    refine ⟨?_, owned.historyAgrees recorded collation positive rfl rfl⟩
    rw [filter_draftItems, owned.draftRow, Option.toList_some, List.map_singleton]
    simp only [draftItem, RuleDraft.item, owned.isId, owned.isLast]

/-- In every run, each version of a rule but the first one differs from the one before,
and `diff_owned_rule_version` says so. -/
theorem diff_never_empty
    (reachable : Reachable (ruleMachine python collation) serve
      (Db.start RuleStore.empty clock) config)
    {ruleId : UUID}
    {rule : DetectionRule}
    (isRule : (config.shared.committed (schema collation)).rule ruleId = some rule)
    {number : Int}
    (low : 2 ≤ number)
    (high : number ≤
      ((config.shared.committed (schema collation)).versionList ruleId).length) :
    let store := config.shared.committed (schema collation)
    ∃ body, request python collation rule.ownerId (.diff ruleId number) store =
        (.ok (.diff body), store) ∧
      body.changes.hasChanges = true ∧
      (body.changes.fieldsChanged ≠ [] ∨ body.changes.selectorsAdded ≠ [] ∨
        body.changes.selectorsRemoved ≠ [] ∨ body.changes.selectorsModified ≠ []) := by
  intro store
  have recorded : Recorded python store := recorded_of_reachable reachable
  obtain ⟨isId, isStored⟩ := RuleStore.rule_eq_some_iff.mp isRule
  obtain ⟨current, count, draft, owned⟩ :=
    recorded.ownedChain (RuleStore.ownedRule_eq_some_iff.mpr ⟨isId, isStored, rfl⟩)
  rw [owned.chain.length_versionList] at high
  obtain ⟨body, isBody, hasChanges, listsSome⟩ :=
    owned.evaluate_diff recorded low high collation
  refine ⟨body, request_diff_iff.mpr isBody, hasChanges, ?_⟩
  by_contra nothing
  simp only [not_or, not_not] at nothing
  exact listsSome nothing

end Reachable

theorem twoVersions_reads_agree :
    ∃ config, Reachable (ruleMachine .coarse .codePoints) serve (Db.start RuleStore.empty 0)
        config ∧ 0 < 1 ∧
      let store := config.shared.committed (schema .codePoints)
      store = twoVersions ∧
      ∃ items, Lists (DraftPage .coarse .codePoints store 5 1) 1 items ∧
        ((∃ item ∈ items, item.id = UUID.str 1) ↔
          ∃ draft, request .coarse .codePoints 5 (.get 1) store = (.ok (.draft draft), store)) ∧
        ∀ draft, request .coarse .codePoints 5 (.get 1) store = (.ok (.draft draft), store) →
          items.filter (fun item => item.id = UUID.str 1) = [draft.item] ∧
          HistoryAgrees .coarse .codePoints store 5 1 1 draft := by
  obtain ⟨config, reachable, isCommitted⟩ := reachable_twoVersions
  exact ⟨config, reachable, Nat.one_pos, isCommitted, reads_agree reachable 5 1 Nat.one_pos⟩

theorem twoVersions_diff_never_empty :
    ∃ config rule, Reachable (ruleMachine .coarse .codePoints) serve
        (Db.start RuleStore.empty 0) config ∧
      let store := config.shared.committed (schema .codePoints)
      store.rule 1 = some rule ∧ (2 : Int) ≤ 2 ∧ 2 ≤ ((store.versionList 1).length : Int) ∧
      ∃ body, request .coarse .codePoints rule.ownerId (.diff 1 2) store =
          (.ok (.diff body), store) ∧
        body.changes.hasChanges = true ∧
        (body.changes.fieldsChanged ≠ [] ∨ body.changes.selectorsAdded ≠ [] ∨
          body.changes.selectorsRemoved ≠ [] ∨ body.changes.selectorsModified ≠ []) := by
  obtain ⟨config, reachable, isCommitted⟩ := reachable_twoVersions
  have recorded := recorded_of_reachable reachable
  have appended := twoVersions_appended
  rw [← isCommitted] at appended
  have isRow := appended.lookup_rule
  have isVersion := appended.lookup_new
  obtain ⟨count, chain⟩ := recorded.chained 1 _ isRow
  have isLong : (2 : Int) ≤
      (((config.shared.committed (schema .codePoints)).versionList 1).length : Int) := by
    rw [chain.length_versionList]
    exact (chain.bounded 2 9 ⟨_, isVersion, rfl, rfl⟩).2
  have isRule : (config.shared.committed (schema .codePoints)).rule 1 = some
      ⟨described (described (newRule Draft.sample 5 (.sample 1)) Draft.sample 2)
        Draft.allOfNot 9, 1⟩ := RuleStore.rule_eq_some_iff.mpr ⟨rfl, isRow⟩
  exact ⟨config, _, reachable, isRule, le_rfl, isLong,
    diff_never_empty reachable isRule le_rfl isLong⟩

end Detection
end SigmaForge
