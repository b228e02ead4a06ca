import SigmaForge.Detection.Validation

/-!
# What the rule preflight accepts

The validator as one proposition, and its independence of the order in which
dictionaries list their keys.
-/

namespace SigmaForge
namespace Detection

open Text Json

/-- The checks on one condition string. -/
structure ValidCondition
    (python : Interpreter)
    (selectors : List Str)
    (condition : Str) : Prop where
  nonblank : (strip condition).isEmpty = false
  bounded : condition.length ≤ 512
  visible : ∀ c ∈ condition, invisibleFieldCharacter python c = true → c ∈ lit "\t\n\r"
  references : referencesKnownSelectors condition selectors = true
  aggregation : validAggregationBoundary (hasVisibleCharacter python) condition = true
  wellFormed : wellFormedBooleanCondition condition = true
  feasible : feasibleQuantifiers condition selectors = true

namespace RulePreflightRequest

/-- The checks on a request. -/
structure Valid (python : Interpreter) (draft : RulePreflightRequest) : Prop where
  titleFits : draft.titleFits = true
  title : validMetadataText python draft.title = true
  required : ∃ key ∈ ["category", "product", "service"].map lit,
    ∃ entry ∈ draft.logsource, entry.1 = key
  logsource : ∀ entry ∈ draft.logsource, entry.1 ∈ logsourceKeys ∧
    validMetadataText python entry.2 = true ∧ entry.2.length ≤ 200
  identifiers : ∀ key ∈ ["product", "category", "service"].map lit,
    ∀ value, Value.lookup key draft.logsource = some value → value.length ≤ 100
  timeframe : ∀ value, Value.lookup (lit "timeframe") draft.detection = some value →
    ∃ text, value = .scalar (.str text) ∧ timeframePattern text = true
  declared : draft.selectors ≠ []
  selectorsFit : draft.selectors.length ≤ 64
  selectorNames : ∀ name ∈ draft.selectorNames,
    selectorName name = true ∧ lower name ∉ conditionKeywords
  conditions : ∃ conditions, draft.conditions = some conditions ∧
    1 ≤ conditions.length ∧ conditions.length ≤ 8 ∧
    ∀ condition ∈ conditions, ValidCondition python draft.selectorNames condition
  selections : ∀ entry ∈ draft.selectors, validSelection python entry.2 = true
  size : ∃ size, utf8Length (dumpsPlain python.floats draft.modelDump) = some size ∧
    size ≤ maxDraftBytes

/-- A check that raises has to be passed. -/
theorem check_eq_ok_iff
    {ε : Type}
    {failed : Prop}
    [Decidable failed]
    {failure : ε}
    {rest : Except ε Unit} :
    (if failed then .error failure else rest) = .ok () ↔ ¬failed ∧ rest = .ok () := by
  split_ifs with isFailed
  · simp [isFailed]
  · simp [isFailed]

theorem timeframe_check_iff (found : Option Value) :
    ¬(malformedTimeframe found = true) ↔
      ∀ value, found = some value →
        ∃ text, value = .scalar (.str text) ∧ timeframePattern text = true := by
  cases found with
  | none => simp [malformedTimeframe]
  | some value =>
      cases value with
      | scalar scalar => cases scalar <;> simp [malformedTimeframe]
      | list items => simp [malformedTimeframe]
      | object members => simp [malformedTimeframe]

theorem identifiers_check_iff (logsource : List (Str × Str)) (keys : List Str) :
    ¬(keys.any (identifierExceeds logsource) = true) ↔
      ∀ key ∈ keys, ∀ value, Value.lookup key logsource = some value → value.length ≤ 100 := by
  rw [Bool.not_eq_true, List.any_eq_false]
  apply forall₂_congr
  intro key _
  unfold identifierExceeds
  cases Value.lookup key logsource <;> simp

theorem required_check_iff (logsource : List (Str × Str)) (keys : List Str) :
    ¬((logsource.isEmpty || !keys.any fun key => logsource.any fun (name, _) => name == key) =
        true) ↔
      ∃ key ∈ keys, ∃ entry ∈ logsource, entry.1 = key := by
  simp only [Bool.or_eq_true, Bool.not_eq_true', not_or, Bool.not_eq_true, Bool.not_eq_false,
    List.any_eq_true, beq_iff_eq, List.isEmpty_eq_false_iff]
  constructor
  · exact And.right
  · intro required
    refine ⟨?_, required⟩
    obtain ⟨_, _, entry, isEntry, _⟩ := required
    exact List.ne_nil_of_mem isEntry

theorem logsource_check_iff (python : Interpreter) (logsource : List (Str × Str)) :
    ¬((logsource.any fun (key, value) =>
        !logsourceKeys.contains key || !validMetadataText python value ||
          decide (value.length > 200)) = true) ↔
      ∀ entry ∈ logsource, entry.1 ∈ logsourceKeys ∧
        validMetadataText python entry.2 = true ∧ entry.2.length ≤ 200 := by
  rw [Bool.not_eq_true, List.any_eq_false]
  apply forall₂_congr
  intro entry _
  simp [and_assoc]

theorem selectorNames_check_iff (names : List Str) :
    ¬((names.any fun name => !selectorName name || conditionKeywords.contains (lower name)) =
        true) ↔
      ∀ name ∈ names, selectorName name = true ∧ lower name ∉ conditionKeywords := by
  rw [Bool.not_eq_true, List.any_eq_false]
  apply forall₂_congr
  intro name _
  simp

theorem fits_check_iff {α : Type} (items : List α) (limit : Nat) :
    ¬((items.isEmpty || decide (items.length > limit)) = true) ↔
      items ≠ [] ∧ items.length ≤ limit := by
  simp

theorem selections_check_iff (python : Interpreter) (selectors : List Member) :
    (selectors.find? fun (_, selection) => !validSelection python selection) = none ↔
      ∀ entry ∈ selectors, validSelection python entry.2 = true := by
  simp [List.find?_eq_none]

/-- The checks on the condition strings. -/
theorem conditions_check_iff
    (python : Interpreter)
    (selectors conditions : List Str) :
    (¬((decide (conditions.length < 1) || decide (conditions.length > 8) ||
        conditions.any fun item => (strip item).isEmpty || decide (item.length > 512)) = true) ∧
      ¬((conditions.any fun item => item.any fun c =>
        invisibleFieldCharacter python c && !(lit "\t\n\r").contains c) = true) ∧
      ¬((conditions.any fun item => !referencesKnownSelectors item selectors) = true) ∧
      ¬((conditions.any fun item =>
        !validAggregationBoundary (hasVisibleCharacter python) item) = true) ∧
      ¬((conditions.any fun item => !wellFormedBooleanCondition item) = true) ∧
      ¬((conditions.any fun item => !feasibleQuantifiers item selectors) = true)) ↔
    1 ≤ conditions.length ∧ conditions.length ≤ 8 ∧
      ∀ condition ∈ conditions, ValidCondition python selectors condition := by
  simp only [Bool.not_eq_true, List.any_eq_false, Bool.or_eq_true, Bool.and_eq_true,
    Bool.not_eq_true', not_and, Bool.not_eq_false, decide_eq_true_iff, not_or, not_lt,
    gt_iff_lt, List.contains_iff_mem]
  constructor
  · rintro ⟨⟨⟨nonempty, fits⟩, shape⟩, visible, references, aggregation, wellFormed, feasible⟩
    refine ⟨nonempty, fits, fun item isItem => ?_⟩
    exact
      { nonblank := (shape item isItem).1
        bounded := (shape item isItem).2
        visible := visible item isItem
        references := references item isItem
        aggregation := aggregation item isItem
        wellFormed := wellFormed item isItem
        feasible := feasible item isItem }
  · rintro ⟨nonempty, fits, valid⟩
    exact ⟨⟨⟨nonempty, fits⟩, fun item isItem =>
        ⟨(valid item isItem).nonblank, (valid item isItem).bounded⟩⟩,
      fun item isItem => (valid item isItem).visible,
      fun item isItem => (valid item isItem).references,
      fun item isItem => (valid item isItem).aggregation,
      fun item isItem => (valid item isItem).wellFormed,
      fun item isItem => (valid item isItem).feasible⟩

/-- The validator passes exactly the valid requests. -/
theorem accepted_iff (python : Interpreter) (draft : RulePreflightRequest) :
    draft.accepted python = true ↔ draft.Valid python := by
  rw [accepted, Bool.and_eq_true, decide_eq_true_iff]
  simp only [validateStructure, check_eq_ok_iff, required_check_iff, logsource_check_iff,
    identifiers_check_iff, timeframe_check_iff, fits_check_iff, selectorNames_check_iff]
  constructor
  · rintro ⟨titleFits, title, required, logsource, identifiers, timeframe,
      ⟨declared, selectorsFit⟩, names, remaining⟩
    split at remaining
    · contradiction
    · rename_i conditions isConditions
      simp only [check_eq_ok_iff] at remaining
      obtain ⟨shape, visible, references, aggregation, wellFormed, feasible, last⟩ := remaining
      have valid := (conditions_check_iff python draft.selectorNames conditions).mp
        ⟨shape, visible, references, aggregation, wellFormed, feasible⟩
      split at last
      · contradiction
      · rename_i noInvalid
        split at last
        · contradiction
        · rename_i size isSize
          rw [check_eq_ok_iff] at last
          exact
            { titleFits := titleFits
              title := by simpa using title
              required := required
              logsource := logsource
              identifiers := identifiers
              timeframe := timeframe
              declared := declared
              selectorsFit := selectorsFit
              selectorNames := names
              conditions := ⟨conditions, isConditions, valid⟩
              selections := (selections_check_iff python draft.selectors).mp noInvalid
              size := ⟨size, isSize, Nat.not_lt.mp last.1⟩ }
  · intro valid
    obtain ⟨conditions, isConditions, validConditions⟩ := valid.conditions
    obtain ⟨size, isSize, bounded⟩ := valid.size
    obtain ⟨shape, visible, references, aggregation, wellFormed, feasible⟩ :=
      (conditions_check_iff python draft.selectorNames conditions).mpr validConditions
    refine ⟨valid.titleFits, by simp [valid.title], valid.required, valid.logsource,
      valid.identifiers, valid.timeframe, ⟨valid.declared, valid.selectorsFit⟩,
      valid.selectorNames, ?_⟩
    simp only [isConditions, check_eq_ok_iff]
    refine ⟨shape, visible, references, aggregation, wellFormed, feasible, ?_⟩
    simp only [(selections_check_iff python draft.selectors).mpr valid.selections, isSize,
      check_eq_ok_iff]
    exact ⟨Nat.not_lt.mpr bounded, trivial⟩

/-! ## Order of keys -/

/-- The members of the dumped model. -/
def dumpMembers (draft : RulePreflightRequest) : List Member :=
  [(lit "title", .scalar (.str draft.title)),
    (lit "logsource",
      .object (draft.logsource.map fun (key, value) => (key, .scalar (.str value)))),
    (lit "detection", .object draft.detection)]

/-- The request with all of its dictionaries sorted by key. -/
def sorted (draft : RulePreflightRequest) : RulePreflightRequest where
  title := draft.title
  logsource := Value.sortByKey draft.logsource
  detection := Value.sortByKey (draft.detection.map fun entry => (entry.1, entry.2.sortKeys))

theorem logsource_sortKeys (logsource : List (Str × Str)) :
    (Value.object (logsource.map fun (key, value) => (key, .scalar (.str value)))).sortKeys =
      .object ((Value.sortByKey logsource).map fun (key, value) =>
        (key, .scalar (.str value))) := by
  rw [Value.sortKeys_object, List.map_map,
    ← Value.sortByKey_map (fun value => Value.scalar (.str value)) logsource]
  simp only [Function.comp_def, Value.sortKeys_scalar]

theorem sorted_dumpMembers (draft : RulePreflightRequest) :
    draft.sorted.dumpMembers =
      draft.dumpMembers.map fun member => (member.1, member.2.sortKeys) := by
  unfold dumpMembers
  rw [List.map_cons, List.map_cons, List.map_cons, List.map_nil, logsource_sortKeys,
    Value.sortKeys_scalar, Value.sortKeys_object]
  rfl

theorem modelDump_distinct
    {draft : RulePreflightRequest}
    (hasDicts : draft.HasDicts) :
    draft.modelDump.DistinctKeys := by
  have names : draft.dumpMembers.map Prod.fst =
      [lit "title", lit "logsource", lit "detection"] := rfl
  change (Value.object draft.dumpMembers).DistinctKeys
  refine .object (by rw [names]; decide) ?_
  intro member isMember
  simp only [dumpMembers, List.mem_cons, List.not_mem_nil, or_false] at isMember
  rcases isMember with rfl | rfl | rfl
  · exact .scalar trivial
  · refine .object ?_ ?_
    · rw [List.map_map]
      exact hasDicts.logsource
    · intro entry isEntry
      obtain ⟨_, _, rfl⟩ := List.mem_map.mp isEntry
      exact .scalar trivial
  · exact hasDicts.detection

/-- Sorting the dictionaries changes a request up to key order only. -/
theorem sorted_same
    {draft : RulePreflightRequest}
    (hasDicts : draft.HasDicts) :
    draft.sorted.modelDump.Same draft.modelDump := by
  change (Value.object draft.sorted.dumpMembers).sortKeys =
    (Value.object draft.dumpMembers).sortKeys
  rw [sorted_dumpMembers]
  exact Value.sortKeys_object_map (modelDump_distinct hasDicts)

/-- The requests differ in the order of their keys only. -/
structure Reordered (left right : RulePreflightRequest) : Prop where
  title : right.title = left.title
  logsource : right.logsource.Perm left.logsource
  detection : (right.detection.map fun entry => (entry.1, entry.2.sortKeys)).Perm
    (left.detection.map fun entry => (entry.1, entry.2.sortKeys))

theorem HasDicts.detectionKeys
    {draft : RulePreflightRequest}
    (hasDicts : draft.HasDicts) :
    (draft.detection.map Prod.fst).Nodup := by
  cases hasDicts.detection with
  | object keys _ => exact keys

theorem reordered_sorted
    {draft : RulePreflightRequest}
    (hasDicts : draft.HasDicts) :
    Reordered draft draft.sorted where
  title := rfl
  logsource := Value.sortByKey_perm draft.logsource
  detection := by
    have resorted := (Value.sortByKey_perm
      (draft.detection.map fun entry => (entry.1, entry.2.sortKeys))).map
        fun entry : Member => (entry.1, entry.2.sortKeys)
    have idempotent : (draft.detection.map fun entry => (entry.1, entry.2.sortKeys)).map
        (fun entry : Member => (entry.1, entry.2.sortKeys)) =
          draft.detection.map fun entry => (entry.1, entry.2.sortKeys) := by
      rw [List.map_map]
      apply List.map_congr_left
      intro entry isEntry
      cases hasDicts.detection with
      | object _ parts => simp [Value.sortKeys_idempotent (parts entry isEntry)]
    rw [idempotent] at resorted
    exact resorted

section Reordered

variable {left right : RulePreflightRequest}

/-- Requests that differ in the order of keys are the same request when sorted. -/
theorem Reordered.sorted_eq
    (hasDicts : right.HasDicts)
    (reordered : Reordered left right) :
    right.sorted = left.sorted := by
  have logsource := Value.sortByKey_eq_of_perm hasDicts.logsource reordered.logsource
  have detection := Value.sortByKey_eq_of_perm
    (by rw [Value.keys_map]; exact hasDicts.detectionKeys) reordered.detection
  unfold sorted
  rw [reordered.title, logsource, detection]

/-- Requests that differ in the order of keys have the same dump up to key order. -/
theorem Reordered.same
    (hasDicts : left.HasDicts)
    (hasDicts' : right.HasDicts)
    (reordered : Reordered left right) :
    right.modelDump.Same left.modelDump := by
  have sortedLeft := sorted_same hasDicts
  have sortedRight := sorted_same hasDicts'
  rw [reordered.sorted_eq hasDicts'] at sortedRight
  exact sortedRight.symm.trans sortedLeft

theorem Reordered.selectors (reordered : Reordered left right) :
    (right.selectors.map fun entry => (entry.1, entry.2.sortKeys)).Perm
      (left.selectors.map fun entry => (entry.1, entry.2.sortKeys)) := by
  have filtered := reordered.detection.filter
    fun entry => decide (entry.1 ∉ [lit "condition", lit "timeframe"])
  rw [List.filter_map, List.filter_map] at filtered
  exact filtered

theorem Reordered.selectorNames (reordered : Reordered left right) :
    right.selectorNames.Perm left.selectorNames := by
  have names := reordered.selectors.map Prod.fst
  rw [Value.keys_map, Value.keys_map] at names
  exact names

theorem Reordered.lookup
    (hasDicts : right.HasDicts)
    (reordered : Reordered left right)
    (key : Str) :
    (Value.lookup key right.detection).map Value.sortKeys =
      (Value.lookup key left.detection).map Value.sortKeys := by
  have distinct : ((right.detection.map fun entry => (entry.1, entry.2.sortKeys)).map
      Prod.fst).Nodup := by
    rw [Value.keys_map]
    exact hasDicts.detectionKeys
  have sameLookup := Value.lookup_perm distinct reordered.detection key
  rw [Value.lookup_map, Value.lookup_map] at sameLookup
  exact sameLookup

end Reordered

theorem textOf_eq_some_iff {value : Value} {text : Str} :
    textOf value = some text ↔ value = .scalar (.str text) := by
  unfold textOf
  split <;> simp_all

theorem textOf_sortKeys (value : Value) : textOf value.sortKeys = textOf value := by
  cases value <;> simp [textOf]

/-- The condition strings do not depend on the order of keys. -/
theorem conditions_eq_sortKeys (draft : RulePreflightRequest) :
    draft.conditions =
      match (Value.lookup (lit "condition") draft.detection).map Value.sortKeys with
      | some (.scalar (.str condition)) => some [condition]
      | some (.list items) => items.mapM textOf
      | _ => none := by
  unfold conditions
  cases Value.lookup (lit "condition") draft.detection with
  | none => rfl
  | some value =>
      cases value with
      | scalar scalar => cases scalar <;> simp
      | list items =>
          simp only [Option.map_some, Value.sortKeys_list]
          induction items with
          | nil => rfl
          | cons item items inductionHypothesis =>
              simp only [List.map_cons, List.mapM_cons, textOf_sortKeys, inductionHypothesis]
      | object members => simp

theorem Reordered.conditions
    {left right : RulePreflightRequest}
    (hasDicts : right.HasDicts)
    (reordered : Reordered left right) :
    right.conditions = left.conditions := by
  rw [conditions_eq_sortKeys, conditions_eq_sortKeys, reordered.lookup hasDicts]

theorem validScalar_sortKeys (python : Interpreter) (value : Value) :
    validScalar python value.sortKeys = validScalar python value := by
  cases value <;> simp [validScalar]

theorem validFieldValue_sortKeys (python : Interpreter) (value : Value) :
    validFieldValue python value.sortKeys = validFieldValue python value := by
  cases value with
  | scalar scalar => simp
  | list items =>
      simp only [Value.sortKeys_list, validFieldValue, List.length_map, List.all_map]
      congr 1
      apply congrArg (fun check => items.all check)
      funext item
      exact validScalar_sortKeys python item
  | object members => simp [validFieldValue, validScalar]

theorem validMapping_sortKeys (python : Interpreter) (value : Value) :
    validMapping python value.sortKeys = validMapping python value := by
  cases value with
  | scalar scalar => simp
  | list items => simp [validMapping]
  | object members =>
      have permuted := Value.sortByKey_perm
        (members.map fun member => (member.1, member.2.sortKeys))
      rw [Value.sortKeys_object, validMapping, validMapping, Bool.eq_iff_iff]
      simp only [Bool.and_eq_true, Bool.not_eq_true', List.isEmpty_eq_false_iff,
        List.all_eq_true, permuted.mem_iff, ne_eq, ← List.length_eq_zero_iff,
        permuted.length_eq, List.length_map, List.mem_map, forall_exists_index, and_imp,
        forall_apply_eq_imp_iff₂, validFieldValue_sortKeys]

theorem validSelection_sortKeys (python : Interpreter) (value : Value) :
    validSelection python value.sortKeys = validSelection python value := by
  have mappings : selections value.sortKeys = (selections value).map Value.sortKeys := by
    cases value <;> simp [selections]
  unfold validSelection
  rw [mappings, List.length_map, List.all_map]
  have same : validMapping python ∘ Value.sortKeys = validMapping python := by
    funext mapping
    exact validMapping_sortKeys python mapping
  rw [same]
  simp

/-- The validator does not depend on the order of keys. -/
theorem Valid.reordered
    {python : Interpreter}
    {left right : RulePreflightRequest}
    (hasDicts : left.HasDicts)
    (hasDicts' : right.HasDicts)
    (reordered : Reordered left right)
    (valid : left.Valid python) :
    right.Valid python where
  titleFits := by
    rw [RulePreflightRequest.titleFits, reordered.title]
    exact valid.titleFits
  title := by
    rw [reordered.title]
    exact valid.title
  required := by
    obtain ⟨key, isKey, entry, isEntry, isNamed⟩ := valid.required
    exact ⟨key, isKey, entry, reordered.logsource.mem_iff.mpr isEntry, isNamed⟩
  logsource entry isEntry := valid.logsource entry (reordered.logsource.mem_iff.mp isEntry)
  identifiers key isKey value found := by
    apply valid.identifiers key isKey value
    rw [← found]
    exact Value.lookup_perm hasDicts.logsource reordered.logsource.symm key
  timeframe value found := by
    have sameLookup := reordered.lookup hasDicts' (lit "timeframe")
    rw [found, Option.map_some, eq_comm, Option.map_eq_some_iff] at sameLookup
    obtain ⟨original, isOriginal, sameValue⟩ := sameLookup
    obtain ⟨text, isText, matched⟩ := valid.timeframe original isOriginal
    refine ⟨text, textOf_eq_some_iff.mp ?_, matched⟩
    rw [← textOf_sortKeys, ← sameValue, textOf_sortKeys]
    exact textOf_eq_some_iff.mpr isText
  declared isNil := by
    apply valid.declared
    have permuted := reordered.selectors
    rw [isNil] at permuted
    exact List.map_eq_nil_iff.mp permuted.nil_eq.symm
  selectorsFit := by
    have sameLength := reordered.selectors.length_eq
    rw [List.length_map, List.length_map] at sameLength
    rw [sameLength]
    exact valid.selectorsFit
  selectorNames name isName :=
    valid.selectorNames name (reordered.selectorNames.mem_iff.mp isName)
  conditions := by
    obtain ⟨conditions, isConditions, nonempty, fits, validConditions⟩ := valid.conditions
    refine ⟨conditions, (reordered.conditions hasDicts').trans isConditions, nonempty, fits, ?_⟩
    intro condition isCondition
    have checks := validConditions condition isCondition
    have names := reordered.selectorNames
    exact
      { nonblank := checks.nonblank
        bounded := checks.bounded
        visible := checks.visible
        references := by rw [referencesKnownSelectors_perm names, checks.references]
        aggregation := checks.aggregation
        wellFormed := checks.wellFormed
        feasible := by rw [feasibleQuantifiers_perm names, checks.feasible] }
  selections entry isEntry := by
    have isSorted := reordered.selectors.mem_iff.mp (List.mem_map_of_mem isEntry)
    obtain ⟨original, isOriginal, sameEntry⟩ := List.mem_map.mp isSorted
    rw [← validSelection_sortKeys, ← (Prod.mk.inj sameEntry).2, validSelection_sortKeys]
    exact valid.selections original isOriginal
  size := by
    rw [utf8Length_dumpsPlain_congr python.floats (reordered.same hasDicts hasDicts')]
    exact valid.size

theorem hasDicts_sorted
    {draft : RulePreflightRequest}
    (hasDicts : draft.HasDicts) :
    draft.sorted.HasDicts where
  logsource := ((Value.sortByKey_perm draft.logsource).map Prod.fst).nodup_iff.mpr
    hasDicts.logsource
  detection := by
    have distinct : (Value.object draft.detection).sortKeys.DistinctKeys :=
      Value.Each.sortKeys (fun _ _ permuted => permuted.nodup_iff.mp) hasDicts.detection
    rw [Value.sortKeys_object] at distinct
    exact distinct

/-- Sorting its dictionaries keeps a request valid. -/
theorem Valid.sorted
    {python : Interpreter}
    {draft : RulePreflightRequest}
    (hasDicts : draft.HasDicts)
    (valid : draft.Valid python) :
    draft.sorted.Valid python :=
  valid.reordered hasDicts (hasDicts_sorted hasDicts) (reordered_sorted hasDicts)

end RulePreflightRequest

/-- What the validator has checked. -/
theorem Draft.valid {python : Interpreter} (draft : Draft python) : draft.request.Valid python :=
  (RulePreflightRequest.accepted_iff python draft.request).mp draft.accepted

end Detection
end SigmaForge
