import SigmaForge.Detection.Snapshot
import SigmaForge.Foundation.Json.Alike
import SigmaForge.Foundation.Json.Strict

/-!
# What the snapshot decoder returns

Whatever is stored, the decoder raises `404` or returns the dump of a request that
passes the preflight.
-/

namespace SigmaForge
namespace Detection

open Text Json

/-- What is given to the decoder. -/
inductive Serialized
  | str (text : Str)
  /-- An object that is no `str`. -/
  | other

/-- `_decode_stored_rule_snapshot`, with a limit on how deep the calls of
`json.loads` may nest. -/
def decodeSerialized (python : Interpreter) (limit : Nat) :
    Serialized → Except HTTPException Value
  | .other => .error ruleNotFound
  | .str serialized =>
      if serialized.length > maxStoredSnapshotChars then .error ruleNotFound
      else
        match loadsWithin python.floats snapshotHooks limit serialized with
        | .error _ => .error ruleNotFound
        | .ok snapshot =>
            if !hasSnapshotShape snapshot then .error ruleNotFound
            else
              match modelValidate python snapshot with
              | none => .error ruleNotFound
              | some _ => .ok snapshot

/-- A text for which the limit suffices. -/
theorem decodeStoredRuleSnapshot_eq (python : Interpreter) (serialized : Str) :
    decodeStoredRuleSnapshot python serialized =
      decodeSerialized python (scanBudget serialized) (.str serialized) := rfl

/-! ## The hook -/

/-- `unique_keys` accepts distinct keys only, and keeps the pairs. -/
theorem uniqueKeysFrom_eq_some
    {obj pairs members : List Member}
    (distinct : (obj.map Prod.fst).Nodup)
    (isObject : uniqueKeysFrom obj pairs = some members) :
    members = obj ++ pairs ∧ (members.map Prod.fst).Nodup := by
  induction pairs generalizing obj with
  | nil =>
      obtain rfl : obj = members := Option.some.inj isObject
      exact ⟨(List.append_nil _).symm, distinct⟩
  | cons pair pairs inductionHypothesis =>
      obtain ⟨key, value⟩ := pair
      unfold uniqueKeysFrom at isObject
      split_ifs at isObject with isRepeated
      have distinct' : ((obj ++ [(key, value)]).map Prod.fst).Nodup := by
        have extended := distinct.concat isRepeated
        rw [List.concat_eq_append] at extended
        rw [List.map_append]
        exact extended
      obtain ⟨areMembers, areDistinct⟩ := inductionHypothesis distinct' isObject
      exact ⟨by rw [areMembers, List.append_assoc]; rfl, areDistinct⟩

theorem snapshotHooks_strict : snapshotHooks.Strict where
  objectPairs := by
    intro members value isObject
    obtain ⟨obj, isObj, rfl⟩ := Option.map_eq_some_iff.mp isObject
    have noKeys : (([] : List Member).map Prod.fst).Nodup := List.nodup_nil
    obtain ⟨rfl, distinct⟩ := uniqueKeysFrom_eq_some noKeys isObj
    exact ⟨rfl, distinct⟩
  parseConstant _ := rfl

/-! ## The request -/

section Request

variable {python : Interpreter}

theorem eq_of_mapM_textOf
    {members : List Member}
    {logsource : List (Str × Str)}
    (areTexts : (members.mapM fun entry =>
      (RulePreflightRequest.textOf entry.2).map fun text => (entry.1, text)) = some logsource) :
    members = logsource.map fun (key, value) => (key, Value.scalar (.str value)) := by
  induction members generalizing logsource with
  | nil =>
      obtain rfl : [] = logsource := Option.some.inj areTexts
      rfl
  | cons member members inductionHypothesis =>
      rw [List.mapM_cons] at areTexts
      simp only [Option.bind_eq_bind, Option.bind_eq_some_iff, Option.pure_def, Option.some.injEq,
        Option.map_eq_some_iff] at areTexts
      obtain ⟨_, ⟨text, isText, rfl⟩, others, areOthers, rfl⟩ := areTexts
      rw [RulePreflightRequest.textOf_eq_some_iff] at isText
      rw [List.map_cons, ← inductionHypothesis areOthers]
      exact congrArg (· :: members) (Prod.ext rfl isText)

/-- The members of a dictionary from which a request is made are those of its
dump. -/
theorem perm_of_requestFields
    {members : List Member}
    {draft : RulePreflightRequest}
    (distinct : (members.map Prod.fst).Nodup)
    (isRequest : requestFields (.object members) = some draft) :
    members.Perm draft.dumpMembers := by
  unfold requestFields at isRequest
  dsimp only at isRequest
  split_ifs at isRequest with extra
  split at isRequest
  · rename_i title logsource detection isTitle isLogsource isDetection
    obtain ⟨texts, areTexts, rfl⟩ := Option.map_eq_some_iff.mp isRequest
    rw [eq_of_mapM_textOf areTexts] at isLogsource
    have distinct' : ((RulePreflightRequest.dumpMembers ⟨title, texts, detection⟩).map
        Prod.fst).Nodup := by
      change [lit "title", lit "logsource", lit "detection"].Nodup
      decide
    apply Value.perm_of_lookup distinct distinct'
    intro key
    by_cases isField : key ∈ ["title", "logsource", "detection"].map lit
    · simp only [List.map_cons, List.map_nil, List.mem_cons, List.not_mem_nil, or_false] at isField
      rcases isField with rfl | rfl | rfl
      · exact isTitle
      · exact isLogsource
      · exact isDetection
    · have absent : key ∉ members.map Prod.fst := by
        intro isKey
        obtain ⟨member, isMember, rfl⟩ := List.mem_map.mp isKey
        apply extra
        rw [List.any_eq_true]
        exact ⟨member, isMember, by simpa using isField⟩
      have absent' : key ∉ (RulePreflightRequest.dumpMembers ⟨title, texts, detection⟩).map
          Prod.fst := isField
      rw [Value.lookup_eq_none_iff.mpr absent, Value.lookup_eq_none_iff.mpr absent']
  · contradiction

/-- What is true of a value is true of the object with its members in another
order. -/
theorem each_of_perm
    {Scalars : Scalar → Prop}
    {Keys : List Str → Prop}
    (keysPerm : ∀ names names', names.Perm names' → Keys names → Keys names')
    {members members' : List Member}
    (permuted : members.Perm members')
    (each : Value.Each Scalars Keys (.object members)) :
    Value.Each Scalars Keys (.object members') := by
  cases each with
  | object keys parts =>
      exact .object (keysPerm _ _ (permuted.map Prod.fst) keys) fun member isMember =>
        parts member (permuted.mem_iff.mpr isMember)

/-- The dictionaries of a request that is made from distinct keys. -/
theorem hasDicts_of_requestFields
    {members : List Member}
    {draft : RulePreflightRequest}
    (distinct : (Value.object members).DistinctKeys)
    (permuted : members.Perm draft.dumpMembers) :
    draft.HasDicts := by
  have distinctDump : (Value.object draft.dumpMembers).DistinctKeys :=
    each_of_perm (fun _ _ permuted => permuted.nodup_iff.mp) permuted distinct
  cases distinctDump with
  | object _ parts =>
      constructor
      · have logsource := parts (lit "logsource",
          .object (draft.logsource.map fun (key, value) => (key, .scalar (.str value))))
          (List.mem_cons_of_mem _ List.mem_cons_self)
        cases logsource with
        | object keys _ =>
            rw [List.map_map] at keys
            exact keys
      · exact parts (lit "detection", .object draft.detection)
          (List.mem_cons_of_mem _ (List.mem_cons_of_mem _ List.mem_cons_self))

/-- The request that a dictionary makes, as the same object. -/
theorem request_of_requestFields
    {value : Value}
    {draft : RulePreflightRequest}
    (isDict : value.DistinctKeys)
    (isRequest : requestFields value = some draft) :
    draft.HasDicts ∧ draft.modelDump.Same value ∧
      ∃ members, value = .object members ∧ members.Perm draft.dumpMembers := by
  have distinct := isDict
  cases isDict with
  | scalar _ => simp [requestFields] at isRequest
  | list _ => simp [requestFields] at isRequest
  | @object members keys _ =>
      have permuted := perm_of_requestFields keys isRequest
      refine ⟨hasDicts_of_requestFields distinct permuted, ?_, members, rfl, permuted⟩
      unfold Value.Same RulePreflightRequest.modelDump
      rw [Value.sortKeys_object, Value.sortKeys_object, Value.object.injEq]
      symm
      apply Value.sortByKey_eq_of_perm
      · rwa [Value.keys_map]
      · exact permuted.map fun member : Member => (member.1, member.2.sortKeys)

theorem modelValidate_eq_some
    {value : Value}
    {draft : RulePreflightRequest}
    (validates : modelValidate python value = some draft) :
    requestFields value = some draft ∧ draft.accepted python = true := by
  unfold modelValidate at validates
  split at validates
  · contradiction
  · rename_i request isRequest
    split_ifs at validates with isAccepted
    obtain rfl := Option.some.inj validates
    exact ⟨isRequest, isAccepted⟩

/-- A float is finite. -/
def FiniteScalar : Scalar → Prop
  | .float value => value.isfinite = true
  | _ => True

/-- A text has no surrogate. -/
def UnicodeScalar : Scalar → Prop
  | .str text => NoSurrogates text
  | _ => True

/-- The snapshot that is read from a text, and the request that it is the dump
of. -/
structure Decoded (python : Interpreter) (limit : Nat) (text : Str) (snapshot : Value)
    (draft : RulePreflightRequest) : Prop where
  short : text.length ≤ maxStoredSnapshotChars
  /-- A reader that keeps every pair of every object reads the same. -/
  pairs : ∀ parseConstant,
    loadsWithin python.floats (.pairs parseConstant) limit text = .ok snapshot
  distinctKeys : snapshot.DistinctKeys
  finite : snapshot.Each FiniteScalar fun _ => True
  noSurrogates : snapshot.Each UnicodeScalar fun keys => ∀ key ∈ keys, NoSurrogates key
  validates : modelValidate python snapshot = some draft
  hasDicts : draft.HasDicts
  valid : draft.Valid python
  same : draft.modelDump.Same snapshot
  pyEq : draft.modelDump.pyEq snapshot = true

theorem isComparable_of_loadable
    {scalar : Scalar}
    (loadable : LoadableScalar scalar) :
    scalar.IsComparable := by
  have isNumber : ∀ scaled, some (Number.finite scaled) ≠ some .nan := by simp
  cases scalar with
  | float value =>
      have isFinite : value.bits.toNat / 2 ^ 52 % 2 ^ 11 ≠ 2 ^ 11 - 1 := by
        simpa [LoadableScalar, Float64.isfinite] using loadable
      simp only [Scalar.IsComparable, Scalar.number, Float64.number, if_neg isFinite]
      exact isNumber _
  | bool value => exact isNumber _
  | int value => exact isNumber _
  | null => simp [Scalar.IsComparable, Scalar.number]
  | str text => simp [Scalar.IsComparable, Scalar.number]

/-- The dump of an accepted request has no `NaN`. -/
theorem modelDump_comparable
    {draft : RulePreflightRequest}
    (hasDicts : draft.HasDicts)
    (valid : draft.Valid python) :
    draft.modelDump.Comparable :=
  (modelDump_loadable hasDicts valid).mono (fun _ loadable => isComparable_of_loadable loadable)
    fun _ keys => keys.1

/-- What a decoded snapshot is. -/
theorem decoded_of_ok
    {limit : Nat}
    {text : Str}
    {snapshot : Value}
    (isDecoded : decodeSerialized python limit (.str text) = .ok snapshot) :
    ∃ draft, Decoded python limit text snapshot draft := by
  unfold decodeSerialized at isDecoded
  dsimp only at isDecoded
  split_ifs at isDecoded with isLong
  split at isDecoded
  · contradiction
  · rename_i loaded isLoaded
    split_ifs at isDecoded
    split at isDecoded
    · contradiction
    · rename_i draft validates
      obtain rfl : loaded = snapshot := Except.ok.inj isDecoded
      obtain ⟨_, distinct⟩ := loadsWithin_strict snapshotHooks_strict (fun _ => none) isLoaded
      obtain ⟨isRequest, isAccepted⟩ := modelValidate_eq_some validates
      obtain ⟨hasDicts, same, members, rfl, permuted⟩ := request_of_requestFields distinct isRequest
      have valid := (RulePreflightRequest.accepted_iff python draft).mp isAccepted
      have loadable : (Value.object members).Loadable :=
        each_of_perm (fun _ _ permuted keys => ⟨permuted.nodup_iff.mp keys.1,
          fun key isKey => keys.2 key (permuted.mem_iff.mpr isKey)⟩) permuted.symm
          (modelDump_loadable hasDicts valid)
      refine ⟨draft, Nat.le_of_not_lt isLong, fun parseConstant =>
        (loadsWithin_strict snapshotHooks_strict parseConstant isLoaded).1, distinct, ?_, ?_,
        validates, hasDicts, valid, same,
        Value.pyEq_of_same (modelDump_comparable hasDicts valid) distinct same⟩
      · refine loadable.mono (fun scalar isLoadable => ?_) fun _ _ => trivial
        cases scalar with
        | float value => exact isLoadable
        | _ => trivial
      · refine loadable.mono (fun scalar isLoadable => ?_) fun _ keys => keys.2
        cases scalar with
        | str text => exact isLoadable
        | _ => trivial

/-- Whatever is stored, the decoder raises `404`, or it returns a snapshot that is
the dump of a valid request, without repeated keys, numbers that are not finite and
lone surrogates. -/
theorem decoder_fails_closed
    (python : Interpreter)
    (limit : Nat)
    (serialized : Serialized) :
    decodeSerialized python limit serialized = .error ruleNotFound ∨
      ∃ text snapshot draft, serialized = .str text ∧
        decodeSerialized python limit serialized = .ok snapshot ∧
        Decoded python limit text snapshot draft := by
  cases isResult : decodeSerialized python limit serialized with
  | error exception =>
      left
      unfold decodeSerialized at isResult
      split at isResult
      · rw [← isResult]
      · split_ifs at isResult
        · rw [← isResult]
        · split at isResult
          · rw [← isResult]
          · split_ifs at isResult
            · rw [← isResult]
            · split at isResult
              · rw [← isResult]
              · contradiction
  | ok snapshot =>
      right
      cases serialized with
      | other => simp [decodeSerialized] at isResult
      | str text =>
          obtain ⟨draft, decoded⟩ := decoded_of_ok isResult
          exact ⟨text, snapshot, draft, rfl, rfl, decoded⟩

end Request

end Detection
end SigmaForge
