import SigmaForge.Detection.Decoder
import SigmaForge.Detection.Resolution

/-!
# The stored text is a canonical form

Bodies that are the same object up to key order are both accepted or both refused, and
are stored as the same text.  The text of a draft determines its body up to key order.
-/

namespace SigmaForge
namespace Detection

open Text Json

variable {python : Interpreter}

/-! ## Requests from reordered bodies -/

theorem rel_some_iff
    {α : Type}
    {related : α → α → Prop}
    {value : α}
    {other : Option α} :
    Option.Rel related (some value) other ↔
      ∃ value', other = some value' ∧ related value value' := by
  cases other <;> simp

theorem eq_scalar_of_same
    {value : Value}
    {scalar : Scalar}
    (same : Value.Same (.scalar scalar) value) :
    value = .scalar scalar := by
  unfold Value.Same at same
  cases value with
  | scalar other => simpa using same.symm
  | list items => simp at same
  | object members => simp at same

theorem eq_object_of_same
    {value : Value}
    {members : List Member}
    (same : Value.Same (.object members) value) :
    ∃ members', value = .object members' := by
  unfold Value.Same at same
  cases value with
  | scalar other => simp at same
  | list items => simp at same
  | object members' => exact ⟨members', rfl⟩

/-- The members of objects that are the same, with their values sorted. -/
theorem perm_of_same
    {members members' : List Member}
    (same : (Value.object members).Same (.object members')) :
    (members'.map fun member => (member.1, member.2.sortKeys)).Perm
      (members.map fun member => (member.1, member.2.sortKeys)) := by
  unfold Value.Same at same
  rw [Value.sortKeys_object, Value.sortKeys_object, Value.object.injEq] at same
  have permuted := Value.sortByKey_perm
    (members'.map fun member => (member.1, member.2.sortKeys))
  rw [← same] at permuted
  exact permuted.symm.trans (Value.sortByKey_perm _)

/-- An object that is the same as one with strings as values has strings as values. -/
theorem texts_of_same
    {logsource : List (Str × Str)}
    {members : List Member}
    (same : (Value.object (logsource.map fun (key, value) =>
      (key, .scalar (.str value)))).Same (.object members)) :
    ∃ texts, (members.mapM fun entry =>
        (RulePreflightRequest.textOf entry.2).map fun text => (entry.1, text)) = some texts ∧
      texts.Perm logsource := by
  have readText : ∀ entries : List (Str × Str), (entries.map fun (key, value) =>
      (key, Value.scalar (.str value))).map (fun member : Member =>
        (member.1, (RulePreflightRequest.textOf member.2).getD [])) = entries := by
    intro entries
    rw [List.map_map]
    exact List.map_id'' (fun _ => rfl) entries
  have permuted := perm_of_same same
  have areTexts : ∀ member ∈ members,
      ∃ text, member.2 = .scalar (.str text) := by
    intro member isMember
    have isSorted := permuted.mem_iff.mp
      (List.mem_map_of_mem (f := fun member : Member => (member.1, member.2.sortKeys)) isMember)
    simp only [List.map_map, List.mem_map] at isSorted
    obtain ⟨entry, _, sameEntry⟩ := isSorted
    refine ⟨entry.2, RulePreflightRequest.textOf_eq_some_iff.mp ?_⟩
    rw [← RulePreflightRequest.textOf_sortKeys, ← (Prod.mk.inj sameEntry).2]
    simp [RulePreflightRequest.textOf]
  obtain ⟨texts, rfl⟩ : ∃ texts : List (Str × Str), members = texts.map fun (key, value) =>
      (key, Value.scalar (.str value)) := by
    refine ⟨members.map fun member =>
      (member.1, (RulePreflightRequest.textOf member.2).getD []), ?_⟩
    rw [List.map_map, eq_comm]
    refine (List.map_congr_left fun member isMember => ?_).trans (List.map_id' members)
    obtain ⟨text, isText⟩ := areTexts member isMember
    rw [Function.comp_apply, isText]
    exact Prod.ext rfl isText.symm
  refine ⟨texts, mapM_textOf texts, ?_⟩
  have unsorted : ∀ entries : List (Str × Str), (entries.map fun (key, value) =>
      (key, Value.scalar (.str value))).map (fun member : Member =>
        (member.1, member.2.sortKeys)) = entries.map fun (key, value) =>
          (key, Value.scalar (.str value)) := by
    intro entries
    rw [List.map_map]
    exact List.map_congr_left fun entry _ => by simp
  rw [unsorted, unsorted] at permuted
  have readBoth := permuted.map fun member : Member =>
    (member.1, (RulePreflightRequest.textOf member.2).getD [])
  rwa [readText, readText] at readBoth

/-- A body that differs in key order only has the same fields up to key order. -/
theorem requestFields_of_same
    {left right : Value}
    {draft : RulePreflightRequest}
    (isDict : left.DistinctKeys)
    (isDict' : right.DistinctKeys)
    (same : left.Same right)
    (isRequest : requestFields left = some draft) :
    ∃ draft', requestFields right = some draft' ∧
      RulePreflightRequest.Reordered draft draft' := by
  cases isDict with
  | scalar _ => contradiction
  | list _ => contradiction
  | @object members distinct parts =>
      obtain ⟨members', rfl⟩ := eq_object_of_same same
      cases isDict' with
      | object distinct' parts' =>
          have permuted := perm_of_requestFields distinct isRequest
          obtain ⟨title, logsource, detection⟩ := lookup_of_perm permuted
          have sameMembers := (Value.same_object_iff distinct distinct').mp same
          have sameTitle := sameMembers (lit "title")
          have sameLogsource := sameMembers (lit "logsource")
          have sameDetection := sameMembers (lit "detection")
          rw [title, rel_some_iff] at sameTitle
          rw [logsource, rel_some_iff] at sameLogsource
          rw [detection, rel_some_iff] at sameDetection
          obtain ⟨titleValue, isTitle, titleSame⟩ := sameTitle
          obtain ⟨logsourceValue, isLogsource, logsourceSame⟩ := sameLogsource
          obtain ⟨detectionValue, isDetection, detectionSame⟩ := sameDetection
          obtain rfl := eq_scalar_of_same titleSame
          obtain ⟨logsourceMembers, rfl⟩ := eq_object_of_same logsourceSame
          obtain ⟨detectionMembers, rfl⟩ := eq_object_of_same detectionSame
          obtain ⟨texts, areTexts, textsPerm⟩ := texts_of_same logsourceSame
          refine ⟨⟨draft.title, texts, detectionMembers⟩, ?_,
            ⟨rfl, textsPerm, perm_of_same detectionSame⟩⟩
          have sameKeys := (perm_of_same same).map Prod.fst
          rw [Value.keys_map, Value.keys_map] at sameKeys
          have noExtra : ¬((members'.any fun member =>
              !(["title", "logsource", "detection"].map lit).contains member.1) = true) := by
            rw [Bool.not_eq_true, List.any_eq_false]
            intro member isMember
            have isKey : member.1 ∈ draft.dumpMembers.map Prod.fst :=
              (sameKeys.trans (permuted.map Prod.fst)).mem_iff.mp (List.mem_map_of_mem isMember)
            have known : member.1 ∈ ["title", "logsource", "detection"].map lit := isKey
            rw [List.contains_iff_mem.mpr known]
            decide
          rw [requestFields, if_neg noExtra]
          simp only [isTitle, isLogsource, isDetection, areTexts]
          rfl

/-! ## Preflight -/

/-- `RulePreflightRequest.model_validate` on the object of a body, with what it has
checked. -/
def preflight (python : Interpreter) (body : Value) (isDict : body.DistinctKeys) :
    Option (Draft python) :=
  match validates : modelValidate python body with
  | none => none
  | some request => some ⟨request,
      (request_of_requestFields isDict (modelValidate_eq_some validates).1).1,
      (modelValidate_eq_some validates).2⟩

theorem map_preflight
    (python : Interpreter)
    {α : Type}
    {body : Value}
    (isDict : body.DistinctKeys)
    (of : RulePreflightRequest → α) :
    (preflight python body isDict).map (fun draft => of draft.request) =
      (modelValidate python body).map of := by
  unfold preflight
  split
  · rename_i refuses
    rw [refuses]
    rfl
  · rename_i validates
    exact (congrArg (Option.map of) validates).symm

/-- The draft that is made of a body is the same object. -/
theorem same_of_preflight
    {body : Value}
    {isDict : body.DistinctKeys}
    {draft : Draft python}
    (isDraft : preflight python body isDict = some draft) :
    draft.request.modelDump.Same body := by
  have isRequest := map_preflight python isDict id
  rw [isDraft, Option.map_some, Option.map_id_fun, id_eq] at isRequest
  exact (request_of_requestFields isDict (modelValidate_eq_some isRequest.symm).1).2.1

/-- A body that differs from an accepted one in key order only is stored as the same
text. -/
theorem stored_of_same
    {left right : Value}
    (isDict : left.DistinctKeys)
    (isDict' : right.DistinctKeys)
    (same : left.Same right)
    {text : Str}
    (isStored : (preflight python left isDict).map sigmaYaml = some text) :
    (preflight python right isDict').map sigmaYaml = some text := by
  rw [show sigmaYaml = fun draft : Draft python =>
    dumpsSorted python.floats draft.request.modelDump from rfl] at isStored ⊢
  have stores := map_preflight python isDict
    fun request => dumpsSorted python.floats request.modelDump
  have stores' := map_preflight python isDict'
    fun request => dumpsSorted python.floats request.modelDump
  rw [stores, Option.map_eq_some_iff] at isStored
  obtain ⟨request, validates, rfl⟩ := isStored
  obtain ⟨isRequest, isAccepted⟩ := modelValidate_eq_some validates
  obtain ⟨request', isRequest', reordered⟩ :=
    requestFields_of_same isDict isDict' same isRequest
  have hasDicts := (request_of_requestFields isDict isRequest).1
  have hasDicts' := (request_of_requestFields isDict' isRequest').1
  have valid := (RulePreflightRequest.accepted_iff python request).mp isAccepted
  have accepted' := (RulePreflightRequest.accepted_iff python request').mpr
    (valid.reordered hasDicts hasDicts' reordered)
  have validates' : modelValidate python right = some request' := by
    rw [modelValidate, isRequest']
    simp [accepted']
  have sameText : dumpsSorted python.floats request'.modelDump =
      dumpsSorted python.floats request.modelDump := by
    rw [dumpsSorted, reordered.same hasDicts hasDicts', dumpsSorted]
  rw [stores', validates', Option.map_some, sameText]

/-- Drafts that are stored as the same text are the same up to key order. -/
theorem same_of_sigmaYaml
    {left right : Draft python}
    (sameText : sigmaYaml left = sigmaYaml right) :
    left.request.modelDump.Same right.request.modelDump := by
  have loadsLeft := loads_sigmaYaml left
  rw [sameText, loads_sigmaYaml right] at loadsLeft
  exact (Except.ok.inj loadsLeft).symm

/-- The stored text is a canonical form.  Of two bodies that are the same object up to
the order of keys at every level, both are refused, or both are accepted and stored as
the same text; and two accepted bodies that are stored as the same text are the same
object up to the order of keys. -/
theorem sigmaYaml_canonical
    (python : Interpreter)
    (left right : Value)
    (isDict : left.DistinctKeys)
    (isDict' : right.DistinctKeys) :
    (left.Same right →
      (preflight python left isDict).map sigmaYaml =
        (preflight python right isDict').map sigmaYaml) ∧
    ∀ draft draft', preflight python left isDict = some draft →
      preflight python right isDict' = some draft' →
      sigmaYaml draft = sigmaYaml draft' → left.Same right := by
  constructor
  · intro same
    apply Option.ext
    intro text
    exact ⟨stored_of_same isDict isDict' same, stored_of_same isDict' isDict same.symm⟩
  · intro draft draft' isDraft isDraft' sameText
    calc left.sortKeys
        = draft.request.modelDump.sortKeys := (same_of_preflight isDraft).symm
      _ = draft'.request.modelDump.sortKeys := same_of_sigmaYaml sameText
      _ = right.sortKeys := same_of_preflight isDraft'

/-! ## A body in two orders -/

/-- The body of the sample draft. -/
def sampleBody : Value := (oneSelector (lit "sel")).modelDump

/-- The same body with its fields in the reverse order. -/
def reversedBody : Value := .object (oneSelector (lit "sel")).dumpMembers.reverse

theorem sampleBody_isDict : sampleBody.DistinctKeys :=
  RulePreflightRequest.modelDump_distinct (oneSelector_hasDicts _)

theorem reversedBody_isDict : reversedBody.DistinctKeys :=
  each_of_perm (fun _ _ permuted => permuted.nodup_iff.mp) (List.reverse_perm _).symm
    sampleBody_isDict

/-- Both are stored as the same text. -/
theorem sampleBody_canonical :
    ∃ draft draft', preflight .coarse sampleBody sampleBody_isDict = some draft ∧
      preflight .coarse reversedBody reversedBody_isDict = some draft' ∧
      sigmaYaml draft = sigmaYaml draft' ∧ sampleBody.Same reversedBody := by
  have canonical := sigmaYaml_canonical .coarse sampleBody reversedBody sampleBody_isDict
    reversedBody_isDict
  have isRequest : requestFields sampleBody = some (oneSelector (lit "sel")) :=
    requestFields_of_perm (List.Perm.refl _)
  have validates : modelValidate .coarse sampleBody = some (oneSelector (lit "sel")) := by
    rw [modelValidate, isRequest]
    exact if_pos Draft.sample.accepted
  have same : sampleBody.Same reversedBody :=
    (request_of_requestFields reversedBody_isDict
      (requestFields_of_perm (List.reverse_perm _))).2.1
  have isDraft := map_preflight .coarse sampleBody_isDict id
  rw [validates, Option.map_some, Option.map_eq_some_iff] at isDraft
  obtain ⟨draft, isDraft, _⟩ := isDraft
  have sameText := canonical.1 same
  rw [isDraft, Option.map_some, eq_comm, Option.map_eq_some_iff] at sameText
  obtain ⟨draft', isDraft', sameText⟩ := sameText
  exact ⟨draft, draft', isDraft, isDraft', sameText.symm,
    canonical.2 draft draft' isDraft isDraft' sameText.symm⟩

end Detection
end SigmaForge
