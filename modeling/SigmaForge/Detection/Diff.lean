import SigmaForge.Detection.Revision

/-!
# The summary of changes

Which differences of two decoded snapshots the summary lists.
-/

namespace SigmaForge
namespace Detection

open Text Json ReadCommitted

/-! ## The parts of a snapshot -/

/-- The member of `detection` with the given key. -/
def detectionPart (key : Str) (snapshot : Value) : Option Value :=
  (getItem (lit "detection") snapshot).bind (getItem key)

/-- The selector with the given name. -/
def selectorPart (name : Str) (snapshot : Value) : Option Value :=
  if name ∈ [lit "condition", lit "timeframe"] then none else detectionPart name snapshot

/-- The fields that `fields_changed` can name, with the part that each is about. -/
def fieldParts : List (Str × (Value → Option Value)) :=
  [(lit "title", getItem (lit "title")),
    (lit "logsource", getItem (lit "logsource")),
    (lit "detection.condition", detectionPart (lit "condition")),
    (lit "detection.timeframe", detectionPart (lit "timeframe"))]

/-- The lists of the summary have exactly the differences between two snapshots, where
parts are told apart that are not related. -/
structure ListsDifferences (related : Value → Value → Prop) (previous current : Value)
    (changes : RuleVersionChanges) : Prop where
  fields : ∀ field, field ∈ changes.fieldsChanged ↔
    ∃ part, (field, part) ∈ fieldParts ∧ ¬Option.Rel related (part previous) (part current)
  added : ∀ name, name ∈ changes.selectorsAdded ↔
    selectorPart name previous = none ∧ (selectorPart name current).isSome
  removed : ∀ name, name ∈ changes.selectorsRemoved ↔
    (selectorPart name previous).isSome ∧ selectorPart name current = none
  modified : ∀ name, name ∈ changes.selectorsModified ↔
    ∃ old new, selectorPart name previous = some old ∧ selectorPart name current = some new ∧
      ¬related old new

/-- The summary hides nothing and invents nothing. -/
structure Summarizes (related : Value → Value → Prop) (previous current : Value)
    (changes : RuleVersionChanges) : Prop extends
    ListsDifferences related previous current changes where
  hasChanges : changes.hasChanges = false ↔ related previous current

/-- All of the lists are empty. -/
def RuleVersionChanges.ListsNothing (changes : RuleVersionChanges) : Prop :=
  changes.fieldsChanged = [] ∧ changes.selectorsAdded = [] ∧ changes.selectorsRemoved = [] ∧
    changes.selectorsModified = []

/-- `==` as a relation. -/
abbrev PyEq (left right : Value) : Prop := left.pyEq right = true

section Snapshots

variable
    {python : Interpreter}
    {limit limit' : Nat}
    {text text' : Str}
    {previous current : Value}
    {draft draft' : RulePreflightRequest}

/-- The members of a decoded snapshot are those of the dump. -/
theorem Decoded.members (decoded : Decoded python limit text current draft) :
    ∃ members, current = .object members ∧ members.Perm draft.dumpMembers ∧
      (members.map Prod.fst).Nodup := by
  obtain ⟨isRequest, _⟩ := modelValidate_eq_some decoded.validates
  have distinct := decoded.distinctKeys
  cases current with
  | scalar scalar => simp [requestFields] at isRequest
  | list items => simp [requestFields] at isRequest
  | object members =>
      cases distinct with
      | object keys _ => exact ⟨members, rfl, perm_of_requestFields keys isRequest, keys⟩

/-- The parts of a decoded snapshot. -/
structure Parts (draft : RulePreflightRequest) (snapshot : Value) : Prop where
  title : getItem (lit "title") snapshot = some (.scalar (.str draft.title))
  logsource : getItem (lit "logsource") snapshot =
    some (.object (draft.logsource.map fun (key, value) => (key, .scalar (.str value))))
  detection : getItem (lit "detection") snapshot = some (.object draft.detection)

theorem Decoded.parts (decoded : Decoded python limit text current draft) :
    Parts draft current := by
  obtain ⟨members, rfl, permuted, _⟩ := decoded.members
  obtain ⟨title, logsource, detection⟩ := lookup_of_perm permuted
  exact ⟨title, logsource, detection⟩

theorem Parts.detectionPart
    (parts : Parts draft current)
    (key : Str) :
    detectionPart key current = Value.lookup key draft.detection := by
  rw [Detection.detectionPart, parts.detection]
  rfl

/-- A relation that compares objects member by member. -/
def ComparesMembers (related : Value → Value → Prop) : Prop :=
  ∀ lefts rights : List Member, (lefts.map Prod.fst).Nodup → (rights.map Prod.fst).Nodup →
    (related (.object lefts) (.object rights) ↔
      ∀ key, Option.Rel related (Value.lookup key lefts) (Value.lookup key rights))

theorem comparesMembers_pyEq : ComparesMembers PyEq :=
  fun _ _ distinct distinct' => Value.pyEq_object_iff distinct distinct'

theorem comparesMembers_same : ComparesMembers Value.Same :=
  fun _ _ distinct distinct' => Value.same_object_iff distinct distinct'

/-- The members of `detection` have distinct keys. -/
theorem Decoded.detection_distinct (decoded : Decoded python limit text current draft) :
    (draft.detection.map Prod.fst).Nodup := by
  cases decoded.hasDicts.detection with
  | object keys _ => exact keys

/-- A decoded snapshot has no member but the three of the dump. -/
theorem Decoded.getItem_other
    (decoded : Decoded python limit text current draft)
    {key : Str}
    (other : key ∉ [lit "title", lit "logsource", lit "detection"]) :
    getItem key current = none := by
  obtain ⟨members, rfl, permuted, _⟩ := decoded.members
  rw [getItem, Value.lookup_eq_none_iff, (permuted.map Prod.fst).mem_iff]
  exact other

/-- Snapshots are related exactly when all of their parts are: `title`, `logsource`,
`condition`, `timeframe` and the selectors are everything there is. -/
theorem Decoded.related_iff
    {related : Value → Value → Prop}
    (compares : ComparesMembers related)
    (old : Decoded python limit text previous draft)
    (new : Decoded python limit' text' current draft') :
    related previous current ↔
      (∀ field part, (field, part) ∈ fieldParts →
        Option.Rel related (part previous) (part current)) ∧
      ∀ name, Option.Rel related (selectorPart name previous) (selectorPart name current) := by
  have whole : related previous current ↔
      ∀ key, Option.Rel related (getItem key previous) (getItem key current) := by
    obtain ⟨members, rfl, _, distinct⟩ := old.members
    obtain ⟨members', rfl, _, distinct'⟩ := new.members
    exact compares members members' distinct distinct'
  have detections : Option.Rel related (getItem (lit "detection") previous)
      (getItem (lit "detection") current) ↔
      ∀ key, Option.Rel related (detectionPart key previous) (detectionPart key current) := by
    rw [old.parts.detection, new.parts.detection, Option.rel_some_some]
    simp only [old.parts.detectionPart, new.parts.detectionPart]
    exact compares _ _ old.detection_distinct new.detection_distinct
  rw [whole]
  constructor
  · intro all
    have inDetection := detections.mp (all (lit "detection"))
    refine ⟨fun field part isPart => ?_, fun name => ?_⟩
    · simp only [fieldParts, List.mem_cons, List.not_mem_nil, or_false, Prod.mk.injEq] at isPart
      rcases isPart with ⟨_, rfl⟩ | ⟨_, rfl⟩ | ⟨_, rfl⟩ | ⟨_, rfl⟩
      · exact all (lit "title")
      · exact all (lit "logsource")
      · exact inDetection (lit "condition")
      · exact inDetection (lit "timeframe")
    · unfold selectorPart
      split
      · exact .none
      · exact inDetection name
  · rintro ⟨fields, selectors⟩ key
    by_cases isField : key ∈ [lit "title", lit "logsource", lit "detection"]
    · simp only [List.mem_cons, List.not_mem_nil, or_false] at isField
      rcases isField with rfl | rfl | rfl
      · exact fields (lit "title") _ (by simp [fieldParts])
      · exact fields (lit "logsource") _ (by simp [fieldParts])
      · rw [detections]
        intro key
        by_cases isReserved : key ∈ [lit "condition", lit "timeframe"]
        · simp only [List.mem_cons, List.not_mem_nil, or_false] at isReserved
          rcases isReserved with rfl | rfl
          · exact fields (lit "detection.condition") _ (by simp [fieldParts])
          · exact fields (lit "detection.timeframe") _ (by simp [fieldParts])
        · have selector := selectors key
          rwa [selectorPart, selectorPart, if_neg isReserved, if_neg isReserved] at selector
    · rw [old.getItem_other isField, new.getItem_other isField]
      exact .none

/-! ## Without numbers -/

/-- A string or a list of strings. -/
inductive IsTexts : Value → Prop
  | text (text : Str) : IsTexts (.scalar (.str text))
  | texts (items : List Value) :
      (∀ item ∈ items, ∃ text, item = .scalar (.str text)) → IsTexts (.list items)

theorem IsTexts.numberless {value : Value} (texts : IsTexts value) : value.Numberless := by
  cases texts with
  | text text => exact .scalar rfl
  | texts items areTexts =>
      refine .list fun item isItem => ?_
      obtain ⟨text, rfl⟩ := areTexts item isItem
      exact .scalar rfl

/-- Texts are not equal to `None`. -/
theorem IsTexts.pyEq_null {value : Value} (texts : IsTexts value) :
    Value.pyEq (.scalar .null) value = false ∧ Value.pyEq value (.scalar .null) = false := by
  cases texts <;> simp [Value.pyEq, Scalar.pyEq, Scalar.number]

/-- The value of `condition` or `timeframe`. -/
theorem isTexts_of_valid
    (valid : draft.Valid python)
    {key : Str}
    (reserved : key ∈ [lit "condition", lit "timeframe"])
    {value : Value}
    (found : Value.lookup key draft.detection = some value) :
    IsTexts value := by
  simp only [List.mem_cons, List.not_mem_nil, or_false] at reserved
  rcases reserved with rfl | rfl
  · obtain ⟨conditions, isConditions, _⟩ := valid.conditions
    unfold RulePreflightRequest.conditions at isConditions
    rw [found] at isConditions
    cases value with
    | object members => simp at isConditions
    | scalar scalar =>
        cases scalar with
        | str text => exact .text text
        | null => simp at isConditions
        | bool flag => simp at isConditions
        | int number => simp at isConditions
        | float number => simp at isConditions
    | list items =>
        refine .texts items fun item isItem => ?_
        obtain ⟨condition, _, isText⟩ := exists_of_mapM isConditions isItem
        exact ⟨condition, RulePreflightRequest.textOf_eq_some_iff.mp isText⟩
  · obtain ⟨text, rfl, _⟩ := valid.timeframe value found
    exact .text text

/-- No part that `fields_changed` can name has a number. -/
theorem Decoded.fieldPart_numberless
    (decoded : Decoded python limit text current draft)
    {field : Str}
    {part : Value → Option Value}
    (isPart : (field, part) ∈ fieldParts)
    {value : Value}
    (found : part current = some value) :
    value.Numberless := by
  simp only [fieldParts, List.mem_cons, List.not_mem_nil, or_false, Prod.mk.injEq] at isPart
  rcases isPart with ⟨_, rfl⟩ | ⟨_, rfl⟩ | ⟨_, rfl⟩ | ⟨_, rfl⟩
  · rw [decoded.parts.title] at found
    obtain rfl := Option.some.inj found
    exact .scalar rfl
  · rw [decoded.parts.logsource] at found
    obtain rfl := Option.some.inj found
    refine .object ?_ fun member isMember => ?_
    · rw [List.map_map]
      exact decoded.hasDicts.logsource
    · obtain ⟨entry, _, rfl⟩ := List.mem_map.mp isMember
      exact .scalar rfl
  · rw [decoded.parts.detectionPart] at found
    exact (isTexts_of_valid decoded.valid (by simp) found).numberless
  · rw [decoded.parts.detectionPart] at found
    exact (isTexts_of_valid decoded.valid (by simp) found).numberless

/-! ## The lists -/

theorem mem_sortedNames {name : Str} {names : List Str} :
    name ∈ sortedNames names ↔ name ∈ names :=
  (List.perm_insertionSort _ names).mem_iff

theorem lookup_selectorMembers (name : Str) (detection : List Member) :
    Value.lookup name (selectorMembers detection) =
      if name ∈ [lit "condition", lit "timeframe"] then none
      else Value.lookup name detection := by
  induction detection with
  | nil => simp [selectorMembers, Value.lookup]
  | cons member detection inductionHypothesis =>
      obtain ⟨key, value⟩ := member
      unfold selectorMembers at inductionHypothesis ⊢
      by_cases isReserved : key ∈ [lit "condition", lit "timeframe"]
      · rw [List.filter_cons_of_neg (by simpa [or_iff_not_imp_left] using isReserved),
          inductionHypothesis]
        split
        · rfl
        · rename_i notReserved
          have different : key ≠ name := by
            rintro rfl
            exact notReserved isReserved
          simp [Value.lookup, different]
      · rw [List.filter_cons_of_pos (by simpa using isReserved)]
        by_cases isName : key = name
        · subst isName
          simp [Value.lookup, isReserved]
        · simp only [Value.lookup, if_neg isName, inductionHypothesis]

theorem Parts.selectorPart
    (parts : Parts draft current)
    (name : Str) :
    selectorPart name current = Value.lookup name (selectorMembers draft.detection) := by
  rw [lookup_selectorMembers, Detection.selectorPart, parts.detectionPart]

/-- `get` tells a missing member from one with texts. -/
theorem pyEq_getOrNone_iff
    {key : Str}
    {lefts rights : List Member}
    (left : ∀ value, Value.lookup key lefts = some value → IsTexts value)
    (right : ∀ value, Value.lookup key rights = some value → IsTexts value) :
    (getOrNone key lefts).pyEq (getOrNone key rights) = true ↔
      Option.Rel PyEq (Value.lookup key lefts) (Value.lookup key rights) := by
  unfold getOrNone
  cases isLeft : Value.lookup key lefts with
  | none =>
      cases isRight : Value.lookup key rights with
      | none => exact iff_of_true (by decide +kernel) .none
      | some value => simp [(right value isRight).pyEq_null]
  | some value =>
      cases isRight : Value.lookup key rights with
      | none => simp [(left value isLeft).pyEq_null]
      | some other => simp

theorem exists_fieldPart {field : Str} {holds : (Value → Option Value) → Prop} :
    (∃ part, (field, part) ∈ fieldParts ∧ holds part) ↔
      (field = lit "title" ∧ holds (getItem (lit "title"))) ∨
      (field = lit "logsource" ∧ holds (getItem (lit "logsource"))) ∨
      (field = lit "detection.condition" ∧ holds (detectionPart (lit "condition"))) ∨
      (field = lit "detection.timeframe" ∧ holds (detectionPart (lit "timeframe"))) := by
  constructor
  · rintro ⟨part, isPart, isHeld⟩
    simp only [fieldParts, List.mem_cons, List.not_mem_nil, or_false, Prod.mk.injEq] at isPart
    rcases isPart with ⟨isField, rfl⟩ | ⟨isField, rfl⟩ | ⟨isField, rfl⟩ | ⟨isField, rfl⟩
    · exact .inl ⟨isField, isHeld⟩
    · exact .inr (.inl ⟨isField, isHeld⟩)
    · exact .inr (.inr (.inl ⟨isField, isHeld⟩))
    · exact .inr (.inr (.inr ⟨isField, isHeld⟩))
  · rintro (⟨rfl, isHeld⟩ | ⟨rfl, isHeld⟩ | ⟨rfl, isHeld⟩ | ⟨rfl, isHeld⟩)
    all_goals exact ⟨_, by simp [fieldParts], isHeld⟩

theorem mem_unless
    {α : Type}
    {found item : α}
    {condition : Prop}
    [Decidable condition] :
    found ∈ (if condition then [] else [item]) ↔ found = item ∧ ¬condition := by
  split <;> simp_all

/-- The fields that the summary lists. -/
theorem Decoded.mem_fieldsChanged
    (old : Decoded python limit text previous draft)
    (new : Decoded python limit' text' current draft')
    (field : Str) :
    field ∈
        (if Value.pyEq (.scalar (.str draft.title)) (.scalar (.str draft'.title)) then []
          else [lit "title"]) ++
        (if Value.pyEq
            (.object (draft.logsource.map fun (key, value) => (key, .scalar (.str value))))
            (.object (draft'.logsource.map fun (key, value) => (key, .scalar (.str value))))
          then [] else [lit "logsource"]) ++
        ([lit "condition", lit "timeframe"].filter fun key =>
          !(getOrNone key draft.detection).pyEq (getOrNone key draft'.detection)).map
            (lit "detection." ++ ·) ↔
      ∃ part, (field, part) ∈ fieldParts ∧
        ¬Option.Rel PyEq (part previous) (part current) := by
  have reserved : ∀ key ∈ [lit "condition", lit "timeframe"],
      ((!(getOrNone key draft.detection).pyEq (getOrNone key draft'.detection)) = true ↔
        ¬Option.Rel PyEq (detectionPart key previous) (detectionPart key current)) := by
    intro key isReserved
    rw [Bool.not_eq_true', ← Bool.not_eq_true, pyEq_getOrNone_iff
      (fun _ => isTexts_of_valid old.valid isReserved)
      (fun _ => isTexts_of_valid new.valid isReserved), old.parts.detectionPart,
      new.parts.detectionPart]
  rw [exists_fieldPart, List.mem_append, List.mem_append, mem_unless, mem_unless, or_assoc,
    old.parts.title, new.parts.title, old.parts.logsource, new.parts.logsource,
    Option.rel_some_some, Option.rel_some_some]
  refine or_congr Iff.rfl (or_congr Iff.rfl ?_)
  rw [List.mem_map]
  constructor
  · rintro ⟨key, isListed, rfl⟩
    rw [List.mem_filter] at isListed
    have differs := (reserved key isListed.1).mp isListed.2
    rcases List.mem_pair.mp isListed.1 with rfl | rfl
    · exact .inl ⟨rfl, differs⟩
    · exact .inr ⟨rfl, differs⟩
  · rintro (⟨rfl, differs⟩ | ⟨rfl, differs⟩)
    · exact ⟨lit "condition",
        List.mem_filter.mpr ⟨by simp, (reserved _ (by simp)).mpr differs⟩, rfl⟩
    · exact ⟨lit "timeframe",
        List.mem_filter.mpr ⟨by simp, (reserved _ (by simp)).mpr differs⟩, rfl⟩

theorem Parts.mem_selectorNames
    (parts : Parts draft current)
    (name : Str) :
    name ∈ (selectorMembers draft.detection).map Prod.fst ↔
      (Detection.selectorPart name current).isSome := by
  rw [parts.selectorPart, Value.isSome_lookup_iff]

theorem Parts.not_mem_selectorNames
    (parts : Parts draft current)
    (name : Str) :
    name ∉ (selectorMembers draft.detection).map Prod.fst ↔
      Detection.selectorPart name current = none := by
  rw [parts.selectorPart, Value.lookup_eq_none_iff]

/-- Nothing is listed exactly when the snapshots are related. -/
theorem ListsDifferences.listsNothing_iff
    {related : Value → Value → Prop}
    {changes : RuleVersionChanges}
    (lists : ListsDifferences related previous current changes)
    (compares : ComparesMembers related)
    (old : Decoded python limit text previous draft)
    (new : Decoded python limit' text' current draft') :
    changes.ListsNothing ↔ related previous current := by
  rw [old.related_iff compares new]
  unfold RuleVersionChanges.ListsNothing
  simp only [List.eq_nil_iff_forall_not_mem, lists.fields, lists.added, lists.removed,
    lists.modified]
  constructor
  · rintro ⟨fields, added, removed, modified⟩
    refine ⟨fun field part isPart => ?_, fun name => ?_⟩
    · by_contra differs
      exact fields field ⟨part, isPart, differs⟩
    · cases isOld : selectorPart name previous with
      | none =>
          cases isNew : selectorPart name current with
          | none => exact .none
          | some value => exact absurd ⟨isOld, by simp [isNew]⟩ (added name)
      | some value =>
          cases isNew : selectorPart name current with
          | none => exact absurd ⟨by simp [isOld], isNew⟩ (removed name)
          | some other =>
              refine .some ?_
              by_contra differs
              exact modified name ⟨value, other, isOld, isNew, differs⟩
  · rintro ⟨fields, selectors⟩
    refine ⟨?_, ?_, ?_, ?_⟩
    · rintro field ⟨part, isPart, differs⟩
      exact differs (fields field part isPart)
    · rintro name ⟨isOld, isNew⟩
      have sameName := Value.isSome_eq_of_rel (selectors name)
      rw [isOld, isNew] at sameName
      contradiction
    · rintro name ⟨isOld, isNew⟩
      have sameName := Value.isSome_eq_of_rel (selectors name)
      rw [isOld, isNew] at sameName
      contradiction
    · rintro name ⟨value, other, isOld, isNew, differs⟩
      have equal := selectors name
      rw [isOld, isNew, Option.rel_some_some] at equal
      exact differs equal

/-- The summary of two decoded snapshots tells apart what is not equal for Python. -/
theorem Decoded.summarizes
    (old : Decoded python limit text previous draft)
    (new : Decoded python limit' text' current draft') :
    ∃ changes, summarizeRuleVersionChanges previous current = some changes ∧
      ListsDifferences PyEq previous current changes ∧
      (changes.hasChanges = false ↔ changes.ListsNothing) := by
  unfold summarizeRuleVersionChanges
  rw [old.parts.detection, new.parts.detection, old.parts.title, new.parts.title,
    old.parts.logsource, new.parts.logsource]
  refine ⟨_, rfl, ⟨?_, ?_, ?_, ?_⟩, ?_⟩
  · exact old.mem_fieldsChanged new
  · intro name
    rw [mem_sortedNames, List.mem_filter, Bool.not_eq_true', ← Bool.not_eq_true,
      List.contains_iff_mem, new.parts.mem_selectorNames, old.parts.not_mem_selectorNames]
    exact and_comm
  · intro name
    rw [mem_sortedNames, List.mem_filter, Bool.not_eq_true', ← Bool.not_eq_true,
      List.contains_iff_mem, old.parts.mem_selectorNames, new.parts.not_mem_selectorNames]
  · intro name
    rw [mem_sortedNames, List.mem_filter, List.mem_filter, List.contains_iff_mem,
      old.parts.mem_selectorNames, new.parts.mem_selectorNames, Bool.not_eq_true',
      ← Bool.not_eq_true, getOrNone, getOrNone, ← old.parts.selectorPart,
      ← new.parts.selectorPart]
    constructor
    · rintro ⟨⟨isOld, isNew⟩, differs⟩
      obtain ⟨value, isOld⟩ := Option.isSome_iff_exists.mp isOld
      obtain ⟨other, isNew⟩ := Option.isSome_iff_exists.mp isNew
      rw [isOld, isNew] at differs
      exact ⟨value, other, isOld, isNew, differs⟩
    · rintro ⟨value, other, isOld, isNew, differs⟩
      rw [isOld, isNew]
      exact ⟨⟨rfl, rfl⟩, differs⟩
  · simp [RuleVersionChanges.ListsNothing, and_assoc]

/-- A selector of a decoded snapshot has no `NaN`. -/
theorem Decoded.selectorPart_comparable
    (decoded : Decoded python limit text current draft)
    {name : Str}
    {value : Value}
    (found : selectorPart name current = some value) :
    value.Comparable := by
  have comparable := modelDump_comparable decoded.hasDicts decoded.valid
  unfold selectorPart at found
  split at found
  · contradiction
  · rw [decoded.parts.detectionPart, Value.lookup_eq_some_iff decoded.detection_distinct]
      at found
    cases comparable with
    | object _ parts =>
        have detection := parts (lit "detection", .object draft.detection)
          (List.mem_cons_of_mem _ (List.mem_cons_of_mem _ List.mem_cons_self))
        cases detection with
        | object _ selectors => exact selectors _ found

/-- If the two equalities agree on the selectors, they agree on everything that is
listed. -/
theorem Decoded.listsDifferences_same
    {changes : RuleVersionChanges}
    (old : Decoded python limit text previous draft)
    (new : Decoded python limit' text' current draft')
    (lists : ListsDifferences PyEq previous current changes)
    (selectors : ∀ name value other, selectorPart name previous = some value →
      selectorPart name current = some other → (PyEq value other ↔ value.Same other)) :
    ListsDifferences Value.Same previous current changes := by
  refine ⟨fun field => ?_, lists.added, lists.removed, fun name => ?_⟩
  · rw [lists.fields]
    refine exists_congr fun part => and_congr_right fun isPart => not_congr ?_
    apply Value.rel_iff_rel
    intro value other isOld isNew
    have distinct : other.DistinctKeys :=
      (new.fieldPart_numberless isPart isNew).mono (fun _ _ => trivial) fun _ keys => keys
    exact (old.fieldPart_numberless isPart isOld).pyEq_iff_same distinct
  · rw [lists.modified]
    refine exists_congr fun value => exists_congr fun other => and_congr_right fun isOld =>
      and_congr_right fun isNew => not_congr ?_
    exact selectors name value other isOld isNew

theorem exists_decoded
    {serialized : Serialized}
    (isDecoded : decodeSerialized python limit serialized = .ok current) :
    ∃ text draft, Decoded python limit text current draft := by
  cases serialized with
  | other => simp [decodeSerialized] at isDecoded
  | str text => exact ⟨text, decoded_of_ok isDecoded⟩

end Snapshots

/-- The summary of two decoded snapshots hides nothing and invents nothing exactly
when no selector that both declare has been given numbers that are only written
differently. -/
theorem summarizes_same_iff
    {python : Interpreter}
    {limit limit' : Nat}
    {serialized serialized' : Serialized}
    {previous current : Value}
    (isPrevious : decodeSerialized python limit serialized = .ok previous)
    (isCurrent : decodeSerialized python limit' serialized' = .ok current) :
    ∃ changes, summarizeRuleVersionChanges previous current = some changes ∧
      (Summarizes Value.Same previous current changes ↔
        ∀ name old new, selectorPart name previous = some old →
          selectorPart name current = some new → ¬old.OnlyRetyped new) := by
  obtain ⟨text, draft, decoded⟩ := exists_decoded isPrevious
  obtain ⟨text', draft', decoded'⟩ := exists_decoded isCurrent
  have retyped_iff : ∀ name old new, selectorPart name previous = some old →
      selectorPart name current = some new →
      (old.OnlyRetyped new ↔ old.pyEq new = true ∧ ¬old.Same new) :=
    fun name old new isOld isNew => Value.onlyRetyped_iff
      (decoded.selectorPart_comparable isOld) (decoded'.selectorPart_comparable isNew).distinct
  obtain ⟨changes, isSummary, lists, nothing_iff⟩ := decoded.summarizes decoded'
  refine ⟨changes, isSummary, ?_⟩
  constructor
  · intro summarizes name old new isOld isNew onlyRetyped
    obtain ⟨isEqual, changed⟩ := (retyped_iff name old new isOld isNew).mp onlyRetyped
    have isListed := (summarizes.modified name).mpr ⟨old, new, isOld, isNew, changed⟩
    obtain ⟨old', new', isOld', isNew', differs⟩ := (lists.modified name).mp isListed
    obtain rfl : old = old' := Option.some.inj (isOld.symm.trans isOld')
    obtain rfl : new = new' := Option.some.inj (isNew.symm.trans isNew')
    exact differs isEqual
  · intro noneRetyped
    have lists' : ListsDifferences Value.Same previous current changes := by
      apply decoded.listsDifferences_same decoded' lists
      intro name old new isOld isNew
      constructor
      · intro isEqual
        by_contra changed
        exact noneRetyped name old new isOld isNew
          ((retyped_iff name old new isOld isNew).mpr ⟨isEqual, changed⟩)
      · exact Value.pyEq_of_same (decoded.selectorPart_comparable isOld)
          (decoded'.selectorPart_comparable isNew).distinct
    exact ⟨lists', nothing_iff.trans
      (lists'.listsNothing_iff comparesMembers_same decoded decoded')⟩

/-- What is stored of a small draft under a name of `detection`. -/
theorem detectionPart_oneSelector (name condition : Str) :
    detectionPart name (oneSelector condition).modelDump.sortKeys =
      Value.lookup name [(lit "condition", .scalar (.str condition)),
        (lit "sel", .object [(lit "EventID", .scalar (.int 1))])] :=
  rfl

/-- The selectors of a small draft have nothing to do with its condition. -/
theorem selectorPart_oneSelector (name condition condition' : Str) :
    selectorPart name (oneSelector condition).modelDump.sortKeys =
      selectorPart name (oneSelector condition').modelDump.sortKeys := by
  unfold selectorPart
  split
  · rfl
  · rename_i notReserved
    have other : lit "condition" ≠ name := fun same => notReserved (same ▸ List.mem_cons_self)
    simp only [detectionPart_oneSelector, Value.lookup, if_neg other]

/-- The condition of a draft is changed, and its selector stays. -/
theorem sample_summarizes_same :
    ∃ previous current changes,
      decodeStoredRuleSnapshot .coarse (sigmaYaml Draft.sample) = .ok previous ∧
      decodeStoredRuleSnapshot .coarse (sigmaYaml Draft.allOfNot) = .ok current ∧
      summarizeRuleVersionChanges previous current = some changes ∧
      changes.hasChanges = true ∧
      Summarizes Value.Same previous current changes := by
  have isPrevious := decode_sigmaYaml Draft.sample
  have isCurrent := decode_sigmaYaml Draft.allOfNot
  have isPrevious' := isPrevious
  have isCurrent' := isCurrent
  rw [decodeStoredRuleSnapshot_eq] at isPrevious' isCurrent'
  obtain ⟨changes, isSummary, exactly⟩ := summarizes_same_iff isPrevious' isCurrent'
  have summarizes := exactly.mpr ?_
  · refine ⟨_, _, changes, isPrevious, isCurrent, isSummary, ?_, summarizes⟩
    have differs : dumpsSorted Interpreter.coarse.floats
          Draft.sample.request.modelDump.sortKeys ≠
        dumpsSorted Interpreter.coarse.floats Draft.allOfNot.request.modelDump.sortKeys := by
      decide +kernel
    rw [← Bool.not_eq_false, summarizes.hasChanges]
    exact not_same_of_dumpsSorted differs
  · intro name old new isOld isNew onlyRetyped
    obtain ⟨text, draft, decoded⟩ := exists_decoded isPrevious'
    have isOld' : selectorPart name Draft.allOfNot.request.modelDump.sortKeys = some old :=
      (selectorPart_oneSelector name _ _).trans isOld
    obtain rfl : old = new := Option.some.inj (isOld'.symm.trans isNew)
    have comparable := decoded.selectorPart_comparable isOld
    exact ((Value.onlyRetyped_iff comparable comparable.distinct).mp onlyRetyped).2 rfl

/-- The summary hides a change: it lists nothing for a snapshot that has `true` where
the previous one has `1`. -/
theorem retyped_hidden :
    ∃ previous current changes,
      decodeStoredRuleSnapshot .coarse (sigmaYaml Draft.sample) = .ok previous ∧
      decodeStoredRuleSnapshot .coarse (sigmaYaml Draft.retyped) = .ok current ∧
      ¬previous.Same current ∧
      summarizeRuleVersionChanges previous current = some changes ∧
      changes.ListsNothing ∧ changes.hasChanges = false ∧
      ¬Summarizes Value.Same previous current changes := by
  have isPrevious := decode_sigmaYaml Draft.sample
  have isCurrent := decode_sigmaYaml Draft.retyped
  obtain ⟨draft, limit, decoded⟩ := decoded_snapshot isPrevious
  obtain ⟨draft', limit', decoded'⟩ := decoded_snapshot isCurrent
  obtain ⟨changes, isSummary, lists, nothing_iff⟩ := decoded.summarizes decoded'
  have isEqual : Draft.sample.request.modelDump.sortKeys.pyEq
      Draft.retyped.request.modelDump.sortKeys = true := by decide +kernel
  have differs : dumpsSorted Interpreter.coarse.floats
        Draft.sample.request.modelDump.sortKeys ≠
      dumpsSorted Interpreter.coarse.floats Draft.retyped.request.modelDump.sortKeys := by
    decide +kernel
  have changed : ¬Draft.sample.request.modelDump.sortKeys.Same
      Draft.retyped.request.modelDump.sortKeys := not_same_of_dumpsSorted differs
  have listsNothing : changes.ListsNothing :=
    (lists.listsNothing_iff comparesMembers_pyEq decoded decoded').mpr isEqual
  have noChanges := nothing_iff.mpr listsNothing
  exact ⟨_, _, changes, isPrevious, isCurrent, changed, isSummary, listsNothing, noChanges,
    fun summarizes => changed (summarizes.hasChanges.mp noChanges)⟩

end Detection
end SigmaForge
