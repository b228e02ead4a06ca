import SigmaForge.Detection.Validity
import SigmaForge.Foundation.Json.RoundTrip

/-!
# Stored snapshots

How a version stores the draft and reads it back.  The reader rejects
duplicate keys and non-finite numbers and runs the whole preflight again, on
the object with sorted keys.
-/

namespace SigmaForge
namespace Detection

open Text Json

/-- `HTTPException`. -/
structure HTTPException where
  statusCode : Nat
  detail : Str
  deriving DecidableEq

/-- `HTTPException(status_code=404, detail="Rule not found")`. -/
def ruleNotFound : HTTPException := ⟨404, lit "Rule not found"⟩

/-- `_MAX_STORED_SNAPSHOT_CHARS`. -/
def maxStoredSnapshotChars : Nat := 1048576

/-- The loop of `unique_keys`, with the object built so far. -/
def uniqueKeysFrom (obj : List Member) : List Member → Option (List Member)
  | [] => some obj
  | (key, value) :: pairs =>
      if key ∈ obj.map Prod.fst then none else uniqueKeysFrom (obj ++ [(key, value)]) pairs

/-- `unique_keys`. -/
def uniqueKeys (pairs : List Member) : Option Value := (uniqueKeysFrom [] pairs).map .object

/-- `unique_keys` and `reject_nonfinite`. -/
def snapshotHooks : Hooks where
  objectPairs := uniqueKeys
  parseConstant _ := none

/-- The fields of a request that is given as a dictionary: no field may be
missing and none may be added.  Pydantic also refuses surrogates in the strings
that it types; the validator refuses all of these again. -/
def requestFields : Value → Option RulePreflightRequest
  | .object members =>
      if members.any fun member =>
          !(["title", "logsource", "detection"].map lit).contains member.1 then none
      else
        match Value.lookup (lit "title") members, Value.lookup (lit "logsource") members,
          Value.lookup (lit "detection") members with
        | some (.scalar (.str title)), some (.object logsource), some (.object detection) =>
            (logsource.mapM fun entry =>
              (RulePreflightRequest.textOf entry.2).map fun text => (entry.1, text)).map
                fun logsource => ⟨title, logsource, detection⟩
        | _, _, _ => none
  | _ => none

/-- `RulePreflightRequest.model_validate`, which raises if there is no
result. -/
def modelValidate (python : Interpreter) (value : Value) : Option RulePreflightRequest :=
  match requestFields value with
  | none => none
  | some draft => if draft.accepted python then some draft else none

/-- The check of the shape of a snapshot, up to `condition`. -/
def hasSnapshotShape : Value → Bool
  | .object members =>
      match Value.lookup (lit "title") members, Value.lookup (lit "logsource") members,
        Value.lookup (lit "detection") members with
      | some (.scalar (.str _)), some (.object _), some (.object detection) =>
          match Value.lookup (lit "condition") detection with
          | some (.scalar (.str _)) => true
          | some (.list _) => true
          | _ => false
      | _, _, _ => false
  | _ => false

/-- `_decode_stored_rule_snapshot`. -/
def decodeStoredRuleSnapshot (python : Interpreter) (serialized : Str) :
    Except HTTPException Value :=
  if serialized.length > maxStoredSnapshotChars then .error ruleNotFound
  else
    match loads python.floats snapshotHooks serialized with
    | .error _ => .error ruleNotFound
    | .ok snapshot =>
        if !hasSnapshotShape snapshot then .error ruleNotFound
        else
          match modelValidate python snapshot with
          | none => .error ruleNotFound
          | some _ => .ok snapshot

/-- `json.dumps(draft.model_dump(), ensure_ascii=True, sort_keys=True)`. -/
def sigmaYaml {python : Interpreter} (draft : Draft python) : Str :=
  dumpsSorted python.floats draft.request.modelDump

/-! ## Hooks -/

theorem uniqueKeysFrom_eq
    {obj pairs : List Member}
    (distinct : ((obj ++ pairs).map Prod.fst).Nodup) :
    uniqueKeysFrom obj pairs = some (obj ++ pairs) := by
  induction pairs generalizing obj with
  | nil => simp [uniqueKeysFrom]
  | cons pair pairs inductionHypothesis =>
      obtain ⟨key, value⟩ := pair
      have absent : key ∉ obj.map Prod.fst := by
        rw [List.map_append, List.map_cons, List.nodup_append] at distinct
        intro isMember
        exact distinct.2.2 key isMember key List.mem_cons_self rfl
      rw [uniqueKeysFrom, if_neg absent, inductionHypothesis]
      · simp
      · simpa using distinct

theorem snapshotHooks_keepsDistinct : snapshotHooks.KeepsDistinct := by
  intro members distinct
  change (uniqueKeysFrom [] members).map Value.object = some (.object members)
  rw [uniqueKeysFrom_eq (by simpa using distinct)]
  rfl

/-! ## Accepted drafts are loadable -/

section Loadable

variable {python : Interpreter}

/-- No character of the text is a surrogate. -/
def NoSurrogates (text : Str) : Prop := ∀ c ∈ text, isSurrogate c = false

instance (text : Str) : Decidable (NoSurrogates text) :=
  decidable_of_iff ((text.all fun c => !isSurrogate c) = true) (by simp [NoSurrogates])

theorem isSurrogate_eq_false
    (unicode : UnicodeData)
    {c : CodePoint}
    (notCs : unicode.category c ≠ .Cs) :
    isSurrogate c = false := by
  rw [Bool.eq_false_iff]
  intro surrogate
  apply notCs
  rw [unicode.surrogate_iff]
  simpa [isSurrogate] using surrogate

theorem invisible_of_surrogate
    {c : CodePoint}
    (surrogate : isSurrogate c = true) :
    invisibleFieldCharacter python c = true := by
  have isCs : python.unicode.category c = .Cs := by
    rw [python.unicode.surrogate_iff]
    simpa [isSurrogate] using surrogate
  simp [invisibleFieldCharacter, isCs]

theorem noSurrogates_of_visible
    {text : Str}
    (visible : text.any (invisibleFieldCharacter python) = false) :
    NoSurrogates text := by
  intro c isMember
  rw [Bool.eq_false_iff]
  intro surrogate
  rw [List.any_eq_false] at visible
  exact visible c isMember (invisible_of_surrogate surrogate)

theorem noSurrogates_of_metadata
    {text : Str}
    (valid : validMetadataText python text = true) :
    NoSurrogates text := by
  simp only [validMetadataText, Bool.and_eq_true, Bool.not_eq_true'] at valid
  exact noSurrogates_of_visible valid.2

theorem isSurrogate_of_nameChar {c : CodePoint} (name : isNameChar c = true) :
    isSurrogate c = false := by
  rw [Bool.eq_false_iff]
  intro surrogate
  simp only [isSurrogate, Bool.and_eq_true, decide_eq_true_eq] at surrogate
  have below : (chr '_').val < 0xd800 := by decide
  simp only [isNameChar, isLetter, isDigit, Bool.or_eq_true, Bool.and_eq_true,
    decide_eq_true_eq, beq_iff_eq] at name
  rcases name with (letter | digit) | rfl
  all_goals omega

theorem noSurrogates_of_selectorName
    {name : Str}
    (valid : selectorName name = true) :
    NoSurrogates name := by
  cases name with
  | nil => simp [NoSurrogates]
  | cons c rest =>
      simp only [selectorName, Bool.and_eq_true, List.all_eq_true] at valid
      intro d isMember
      apply isSurrogate_of_nameChar
      rcases List.mem_cons.mp isMember with rfl | inRest
      · simp [isNameChar, valid.1]
      · exact valid.2 d inRest

theorem noSurrogates_of_fieldKey
    {key : Str}
    (valid : validFieldKey python key = true) :
    NoSurrogates key := by
  intro c isMember
  by_cases isSeparator : c = chr '|'
  · rw [isSeparator]
    decide
  · obtain ⟨part, isPart, inPart⟩ := exists_part_of_mem isMember isSeparator
    unfold validFieldKey at valid
    split at valid
    · contradiction
    · split at valid
      · contradiction
      · rename_i field modifiers parts
        simp only [Bool.and_eq_true, Bool.not_eq_true', List.all_eq_true] at valid
        rw [parts] at isPart
        rcases List.mem_cons.mp isPart with rfl | isModifier
        · exact noSurrogates_of_visible valid.1.2 c inPart
        · exact noSurrogates_of_selectorName (valid.2 part isModifier) c inPart

theorem noSurrogates_of_timeframe
    {text : Str}
    (valid : timeframePattern text = true) :
    NoSurrogates text := by
  have digits : ∀ c, isDigit c = true → isSurrogate c = false := by
    intro c digit
    exact isSurrogate_of_nameChar (by simp [isNameChar, digit])
  have units : (["s", "m", "h", "d", "w", "M", "y"].map lit).all (fun unit =>
      unit.all fun c => !isSurrogate c) = true := by
    decide +kernel
  cases text with
  | nil => simp [NoSurrogates]
  | cons c rest =>
      simp only [timeframePattern, Bool.and_eq_true, List.contains_iff_mem] at valid
      intro d isMember
      rcases List.mem_cons.mp isMember with rfl | inRest
      · exact digits d valid.1.1.1
      · rw [← List.takeWhile_append_dropWhile (p := isDigit) (l := rest)] at inRest
        rcases List.mem_append.mp inRest with inDigits | inUnit
        · exact digits d (List.mem_takeWhile_imp inDigits)
        · have unit := List.all_eq_true.mp units _ valid.2
          simpa using List.all_eq_true.mp unit d inUnit

/-- A number has at most as many decimal digits as bits. -/
theorem natAbs_lt_of_bitLength
    {value : Int}
    {bits digits : Nat}
    (bounded : bitLength value ≤ bits)
    (enough : bits ≤ digits) :
    value.natAbs < 10 ^ digits := by
  have small : value.natAbs < 2 ^ bits := by
    unfold bitLength at bounded
    split_ifs at bounded with isZero
    · rw [isZero]
      exact Nat.two_pow_pos bits
    · rw [← Nat.log2_lt (Int.natAbs_ne_zero.mpr isZero)]
      omega
  calc value.natAbs
      < 2 ^ bits := small
    _ ≤ 10 ^ bits := Nat.pow_le_pow_left (by decide) bits
    _ ≤ 10 ^ digits := Nat.pow_le_pow_right (by decide) enough

/-- A value of a field is loadable. -/
theorem loadable_of_validScalar
    {value : Value}
    (valid : validScalar python value = true) :
    value.Loadable := by
  cases value with
  | list items => simp [validScalar] at valid
  | object members => simp [validScalar] at valid
  | scalar scalar =>
      apply Value.Each.scalar
      cases scalar with
      | null => trivial
      | bool flag => trivial
      | int number =>
          have bounded : bitLength number ≤ 4096 := by simpa [validScalar] using valid
          exact natAbs_lt_of_bitLength bounded (by decide)
      | float number => exact valid
      | str text =>
          simp only [validScalar, Bool.and_eq_true, Bool.not_eq_true', List.any_eq_false,
            beq_iff_eq] at valid
          intro c isMember
          exact isSurrogate_eq_false python.unicode (valid.2 c isMember)

theorem loadable_of_validFieldValue
    {value : Value}
    (valid : validFieldValue python value = true) :
    value.Loadable := by
  cases value with
  | scalar scalar => exact loadable_of_validScalar valid
  | object members => simp [validFieldValue, validScalar] at valid
  | list items =>
      simp only [validFieldValue, Bool.and_eq_true, List.all_eq_true] at valid
      exact .list fun item isItem => loadable_of_validScalar (valid.2 item isItem)

theorem loadable_of_validMapping
    {mapping : Value}
    (distinct : mapping.DistinctKeys)
    (valid : validMapping python mapping = true) :
    mapping.Loadable := by
  cases distinct with
  | scalar => simp [validMapping] at valid
  | list => simp [validMapping] at valid
  | object keys _ =>
      simp only [validMapping, Bool.and_eq_true, List.all_eq_true] at valid
      refine .object ⟨keys, fun key isKey => ?_⟩ fun member isMember =>
        loadable_of_validFieldValue (valid.2 member isMember).2
      obtain ⟨member, isMember, rfl⟩ := List.mem_map.mp isKey
      exact noSurrogates_of_fieldKey (valid.2 member isMember).1

theorem loadable_of_validSelection
    {selection : Value}
    (distinct : selection.DistinctKeys)
    (valid : validSelection python selection = true) :
    selection.Loadable := by
  simp only [validSelection, Bool.and_eq_true, List.all_eq_true] at valid
  cases distinct with
  | scalar scalar =>
      exact loadable_of_validMapping (.scalar trivial) (valid.2 _ List.mem_cons_self)
  | object keys parts =>
      exact loadable_of_validMapping (.object keys parts) (valid.2 _ List.mem_cons_self)
  | list parts =>
      exact .list fun item isItem => loadable_of_validMapping (parts item isItem)
        (valid.2 item isItem)

/-- A successful `mapM` has succeeded on every item. -/
theorem exists_of_mapM
    {α β : Type}
    {f : α → Option β}
    {items : List α}
    {results : List β}
    (succeeds : items.mapM f = some results)
    {item : α}
    (isItem : item ∈ items) :
    ∃ result ∈ results, f item = some result := by
  induction items generalizing results with
  | nil => simp at isItem
  | cons first items inductionHypothesis =>
      rw [List.mapM_cons] at succeeds
      simp only [Option.bind_eq_bind, Option.bind_eq_some_iff, Option.pure_def,
        Option.some.injEq] at succeeds
      obtain ⟨result, isResult, others, areOthers, rfl⟩ := succeeds
      rcases List.mem_cons.mp isItem with rfl | inItems
      · exact ⟨result, List.mem_cons_self, isResult⟩
      · obtain ⟨other, isOther, isImage⟩ := inductionHypothesis areOthers inItems
        exact ⟨other, List.mem_cons_of_mem _ isOther, isImage⟩

/-- The value of `condition` is loadable. -/
theorem loadable_of_conditions
    {draft : RulePreflightRequest}
    (valid : draft.Valid python)
    {value : Value}
    (found : Value.lookup (lit "condition") draft.detection = some value) :
    value.Loadable := by
  obtain ⟨conditions, isConditions, _, _, validConditions⟩ := valid.conditions
  have noSurrogates : ∀ condition ∈ conditions, NoSurrogates condition := by
    intro condition isCondition c isMember
    rw [Bool.eq_false_iff]
    intro surrogate
    have allowed := (validConditions condition isCondition).visible c isMember
      (invisible_of_surrogate surrogate)
    have plain : (lit "\t\n\r").all (fun c => !isSurrogate c) = true := by decide +kernel
    have notSurrogate := List.all_eq_true.mp plain c allowed
    rw [surrogate] at notSurrogate
    contradiction
  unfold RulePreflightRequest.conditions at isConditions
  rw [found] at isConditions
  cases value with
  | object members => simp at isConditions
  | scalar scalar =>
      cases scalar with
      | str text =>
          simp only [Option.some.injEq] at isConditions
          rw [← isConditions] at noSurrogates
          exact .scalar (noSurrogates text List.mem_cons_self)
      | null => simp at isConditions
      | bool flag => simp at isConditions
      | int number => simp at isConditions
      | float number => simp at isConditions
  | list items =>
      refine .list fun item isItem => ?_
      obtain ⟨condition, isCondition, isText⟩ := exists_of_mapM isConditions isItem
      rw [RulePreflightRequest.textOf_eq_some_iff] at isText
      rw [isText]
      exact .scalar (noSurrogates condition isCondition)

/-- Every value of an accepted draft is loadable. -/
theorem modelDump_loadable
    {draft : RulePreflightRequest}
    (hasDicts : draft.HasDicts)
    (valid : draft.Valid python) :
    draft.modelDump.Loadable := by
  have titleFree : NoSurrogates draft.title := noSurrogates_of_metadata valid.title
  have fieldNames : logsourceKeys.all (fun key => key.all fun c => !isSurrogate c) = true := by
    decide +kernel
  have logsourceLoadable : (Value.object (draft.logsource.map fun entry =>
      (entry.1, .scalar (.str entry.2)))).Loadable := by
    refine .object ⟨?_, ?_⟩ ?_
    · rw [List.map_map]
      exact hasDicts.logsource
    · intro key isKey
      rw [List.map_map] at isKey
      obtain ⟨entry, isEntry, rfl⟩ := List.mem_map.mp isKey
      have known := List.all_eq_true.mp fieldNames _ (valid.logsource entry isEntry).1
      simpa using known
    · intro member isMember
      obtain ⟨entry, isEntry, rfl⟩ := List.mem_map.mp isMember
      exact .scalar (noSurrogates_of_metadata (valid.logsource entry isEntry).2.1)
  have distinct : (draft.detection.map Prod.fst).Nodup ∧
      ∀ member ∈ draft.detection, member.2.DistinctKeys := by
    cases hasDicts.detection with
    | object keys parts => exact ⟨keys, parts⟩
  have detectionLoadable : (Value.object draft.detection).Loadable := by
    have entries : ∀ member ∈ draft.detection,
        NoSurrogates member.1 ∧ member.2.Loadable := by
      intro member isMember
      have found := (Value.lookup_eq_some_iff distinct.1).mpr isMember
      by_cases isCondition : member.1 = lit "condition"
      · rw [isCondition] at found
        exact ⟨by rw [isCondition]; decide +kernel, loadable_of_conditions valid found⟩
      by_cases isTimeframe : member.1 = lit "timeframe"
      · rw [isTimeframe] at found
        obtain ⟨text, isText, matched⟩ := valid.timeframe _ found
        refine ⟨by rw [isTimeframe]; decide +kernel, ?_⟩
        rw [isText]
        exact .scalar (noSurrogates_of_timeframe matched)
      have isSelector : member ∈ draft.selectors := by
        apply List.mem_filter.mpr
        exact ⟨isMember, by simp [isCondition, isTimeframe]⟩
      have named := valid.selectorNames member.1 (List.mem_map_of_mem isSelector)
      exact ⟨noSurrogates_of_selectorName named.1,
        loadable_of_validSelection (distinct.2 member isMember)
          (valid.selections member isSelector)⟩
    refine .object ⟨distinct.1, fun key isKey => ?_⟩ fun member isMember =>
      (entries member isMember).2
    obtain ⟨member, isMember, rfl⟩ := List.mem_map.mp isKey
    exact (entries member isMember).1
  have names : draft.dumpMembers.map Prod.fst =
      [lit "title", lit "logsource", lit "detection"] := rfl
  change (Value.object draft.dumpMembers).Loadable
  refine .object ?_ ?_
  · rw [names]
    have plain : [lit "title", lit "logsource", lit "detection"].all
        (fun key => key.all fun c => !isSurrogate c) = true := by
      decide +kernel
    refine ⟨by decide, fun key isKey => ?_⟩
    simpa using List.all_eq_true.mp plain key isKey
  · intro member isMember
    simp only [RulePreflightRequest.dumpMembers, List.mem_cons, List.not_mem_nil,
      or_false] at isMember
    rcases isMember with rfl | rfl | rfl
    · exact .scalar titleFree
    · exact logsourceLoadable
    · exact detectionLoadable

end Loadable

/-! ## Reading a stored draft -/

section Decode

variable {python : Interpreter}

/-- The text of an accepted draft stays far below the limit of the reader. -/
theorem sigmaYaml_length (draft : Draft python) :
    (sigmaYaml draft).length ≤ maxStoredSnapshotChars := by
  obtain ⟨size, isSize, bounded⟩ := draft.valid.size
  have bytes : weight utf8Width (dumpsPlain python.floats draft.request.modelDump) = size := by
    unfold utf8Length at isSize
    split_ifs at isSize
    exact Option.some.inj isSize
  calc (sigmaYaml draft).length
      ≤ 6 * weight utf8Width (dumpsPlain python.floats draft.request.modelDump) :=
        length_dumpsSorted_le _ _
    _ = 6 * size := by rw [bytes]
    _ ≤ 6 * maxDraftBytes := Nat.mul_le_mul_left 6 bounded
    _ ≤ maxStoredSnapshotChars := by decide

/-- A stored draft is read back with its keys sorted. -/
theorem loads_sigmaYaml (draft : Draft python) :
    loads python.floats snapshotHooks (sigmaYaml draft) =
      .ok draft.request.modelDump.sortKeys :=
  loads_dumpsSorted snapshotHooks_keepsDistinct
    (modelDump_loadable draft.hasDicts draft.valid)

/-- What the reader looks up in the sorted snapshot. -/
theorem lookup_of_perm
    {draft : RulePreflightRequest}
    {members : List Member}
    (permuted : members.Perm draft.dumpMembers) :
    Value.lookup (lit "title") members = some (.scalar (.str draft.title)) ∧
    Value.lookup (lit "logsource") members =
      some (.object (draft.logsource.map fun (key, value) => (key, .scalar (.str value)))) ∧
    Value.lookup (lit "detection") members = some (.object draft.detection) := by
  have distinct : (members.map Prod.fst).Nodup := by
    rw [(permuted.map Prod.fst).nodup_iff]
    change [lit "title", lit "logsource", lit "detection"].Nodup
    decide
  refine ⟨?_, ?_, ?_⟩
  all_goals
    rw [Value.lookup_perm distinct permuted]
    rfl

theorem mapM_textOf (logsource : List (Str × Str)) :
    ((logsource.map fun (key, value) => (key, Value.scalar (.str value))).mapM fun entry =>
      (RulePreflightRequest.textOf entry.2).map fun text => (entry.1, text)) =
        some logsource := by
  induction logsource with
  | nil => rfl
  | cons entry logsource inductionHypothesis =>
      rw [List.map_cons, List.mapM_cons, inductionHypothesis]
      rfl

/-- The fields of a dumped model do not depend on the order of its keys. -/
theorem requestFields_of_perm
    {draft : RulePreflightRequest}
    {members : List Member}
    (permuted : members.Perm draft.dumpMembers) :
    requestFields (.object members) = some draft := by
  obtain ⟨title, logsource, detection⟩ := lookup_of_perm permuted
  have noExtra : ¬((members.any fun member =>
      !(["title", "logsource", "detection"].map lit).contains member.1) = true) := by
    rw [Bool.not_eq_true, List.any_eq_false]
    intro member isMember
    have isField := permuted.mem_iff.mp isMember
    have known : member.1 ∈ ["title", "logsource", "detection"].map lit := by
      simp only [RulePreflightRequest.dumpMembers, List.mem_cons, List.not_mem_nil,
        or_false] at isField
      rcases isField with rfl | rfl | rfl <;> simp
    rw [List.contains_iff_mem.mpr known]
    decide
  rw [requestFields, if_neg noExtra]
  simp only [title, logsource, detection, mapM_textOf]
  rfl

theorem hasSnapshotShape_of_perm
    {draft : RulePreflightRequest}
    (valid : draft.Valid python)
    {members : List Member}
    (permuted : members.Perm draft.dumpMembers) :
    hasSnapshotShape (.object members) = true := by
  obtain ⟨title, logsource, detection⟩ := lookup_of_perm permuted
  obtain ⟨conditions, isConditions, _⟩ := valid.conditions
  simp only [hasSnapshotShape, title, logsource, detection]
  unfold RulePreflightRequest.conditions at isConditions
  split at isConditions <;> simp_all

/-- The dump with sorted keys, as members of the sorted request. -/
theorem sortKeys_modelDump (draft : RulePreflightRequest) :
    draft.modelDump.sortKeys = .object (Value.sortByKey draft.sorted.dumpMembers) := by
  rw [RulePreflightRequest.sorted_dumpMembers]
  exact Value.sortKeys_object _

/-- A stored draft is decoded to its dump with sorted keys. -/
theorem decode_sigmaYaml (draft : Draft python) :
    decodeStoredRuleSnapshot python (sigmaYaml draft) =
      .ok draft.request.modelDump.sortKeys := by
  have validSorted := draft.valid.sorted draft.hasDicts
  have accepted := (RulePreflightRequest.accepted_iff python _).mpr validSorted
  have permuted := Value.sortByKey_perm draft.request.sorted.dumpMembers
  rw [decodeStoredRuleSnapshot, if_neg (Nat.not_lt.mpr (sigmaYaml_length draft)),
    loads_sigmaYaml, sortKeys_modelDump]
  simp only [hasSnapshotShape_of_perm validSorted permuted, modelValidate,
    requestFields_of_perm permuted, accepted, Bool.not_true, Bool.false_eq_true, if_false,
    if_true]

/-- The snapshot of a version reads back as the draft it stores: the same
values of the same types, up to key order.  Its text is never too long. -/
theorem sigmaYaml_roundTrip (draft : Draft python) :
    (∃ snapshot, decodeStoredRuleSnapshot python (sigmaYaml draft) = .ok snapshot ∧
      snapshot.Same draft.request.modelDump) ∧
    (sigmaYaml draft).length ≤ maxStoredSnapshotChars := by
  have distinct := RulePreflightRequest.modelDump_distinct draft.hasDicts
  refine ⟨⟨draft.request.modelDump.sortKeys, decode_sigmaYaml draft, ?_⟩,
    sigmaYaml_length draft⟩
  exact Value.sortKeys_idempotent distinct

end Decode

end Detection
end SigmaForge
