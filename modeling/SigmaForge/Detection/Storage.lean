import SigmaForge.Detection.Requests
import SigmaForge.Foundation.Json.Dumps

/-!
# Accepted drafts can be stored and served

The rows of an accepted draft fit their columns, its values can be encoded, and what
is read back of them can be sent as strict JSON.
-/

namespace SigmaForge
namespace Detection

open Text Json ReadCommitted

/-! ## Columns -/

/-- A text of `VARCHAR(limit)` that is not empty and has no control character, no NUL
and no surrogate. -/
structure FitsText (limit : Nat) (text : Str) : Prop where
  nonempty : 1 ≤ text.length
  bounded : text.length ≤ limit
  noControl : ∀ c ∈ text, ¬(c.val ≤ 0x1f ∨ (0x7f ≤ c.val ∧ c.val ≤ 0x9f))
  noSurrogates : NoSurrogates text

/-- The columns that both `create_rule_draft` and `revise_owned_rule_draft` set. -/
structure FitsRule (title : Str) (logSource : Option Str) : Prop where
  title : FitsText 200 title
  logSource : ∃ identifier, logSource = some identifier ∧ FitsText 100 identifier

/-- The texts of a write fit their columns. -/
def Write.Fits : Write → Prop
  | .insertRule _ columns =>
      columns.ruleUid.length ≤ 64 ∧ FitsRule columns.title columns.logSource
  | .insertVersion _ columns => Printable columns.sigmaYaml
  | .updateRule _ title logSource _ => FitsRule title logSource

/-- An operation that writes nothing that does not fit. -/
def WritesFitting : SessionOp Statement → Prop
  | .execute (.flush write) => write.Fits
  | _ => True

section Columns

variable {python : Interpreter}

theorem nonempty_of_metadata
    {text : Str}
    (valid : validMetadataText python text = true) :
    1 ≤ text.length := by
  cases text with
  | nil =>
      have isBlank : strip ([] : Str) = [] := rfl
      simp [validMetadataText, isBlank] at valid
  | cons c rest => simp

theorem noControl_of_metadata
    {text : Str}
    (valid : validMetadataText python text = true) :
    ∀ c ∈ text, ¬(c.val ≤ 0x1f ∨ (0x7f ≤ c.val ∧ c.val ≤ 0x9f)) := by
  simp only [validMetadataText, Bool.and_eq_true, Bool.not_eq_true', List.any_eq_false] at valid
  intro c isMember isControl
  rw [← python.unicode.control_iff] at isControl
  exact valid.2 c isMember (by simp [invisibleFieldCharacter, isControl])

theorem fitsText_of_metadata
    {text : Str}
    {limit : Nat}
    (valid : validMetadataText python text = true)
    (bounded : text.length ≤ limit) :
    FitsText limit text :=
  ⟨nonempty_of_metadata valid, bounded, noControl_of_metadata valid,
    noSurrogates_of_metadata valid⟩

/-- `log_source` is the value of a key that the validator has bounded. -/
theorem fits_logSource
    {draft : RulePreflightRequest}
    (hasDicts : draft.HasDicts)
    (valid : draft.Valid python) :
    ∃ identifier, logSource draft.logsource = some identifier ∧ FitsText 100 identifier := by
  have isSome : logSource draft.logsource ≠ none := by
    intro isNone
    simp only [logSource, List.findSome?_eq_none_iff] at isNone
    obtain ⟨key, isKey, entry, isEntry, isNamed⟩ := valid.required
    have found := (Value.lookup_eq_some_iff hasDicts.logsource).mpr isEntry
    have isListed : key ∈ [lit "product", lit "category", lit "service"] := by
      simp only [List.map_cons, List.map_nil, List.mem_cons, List.not_mem_nil,
        or_false] at isKey ⊢
      exact or_left_comm.mp isKey
    have missing := isNone key isListed
    rw [← isNamed, found] at missing
    exact Option.some_ne_none _ missing
  obtain ⟨identifier, isIdentifier⟩ := Option.ne_none_iff_exists'.mp isSome
  refine ⟨identifier, isIdentifier, ?_⟩
  obtain ⟨key, isKey, found⟩ := List.exists_of_findSome?_eq_some isIdentifier
  have isEntry := (Value.lookup_eq_some_iff hasDicts.logsource).mp found
  exact fitsText_of_metadata (valid.logsource _ isEntry).2.1
    (valid.identifiers key isKey identifier found)

theorem fitsRule (draft : Draft python) :
    FitsRule draft.request.title (logSource draft.request.logsource) where
  title := by
    have bounds := draft.valid.titleFits
    simp only [RulePreflightRequest.titleFits, Bool.and_eq_true, decide_eq_true_eq] at bounds
    exact fitsText_of_metadata draft.valid.title bounds.2
  logSource := fits_logSource draft.hasDicts draft.valid

theorem fits_newVersion
    (draft : Draft python)
    (id ruleId createdBy : UUID)
    (number : Int) :
    (Write.insertVersion id (newVersion ruleId number draft createdBy)).Fits :=
  printable_encode python.floats draft.request.modelDump.sortKeys

theorem fits_createWrites
    (draft : Draft python)
    (ownerId : UUID)
    (ids : FreshIds) :
    ∀ write ∈ createWrites draft ownerId ids, write.Fits := by
  intro write isWrite
  simp only [createWrites, List.mem_cons, List.not_mem_nil, or_false] at isWrite
  rcases isWrite with rfl | rfl | rfl
  · exact ⟨by simp [newRule, UUID.str, hexDigits, lit], fitsRule draft⟩
  · exact fits_newVersion draft _ _ _ _
  · exact fitsRule draft

theorem fits_reviseWrites
    (draft : Draft python)
    (ruleId ownerId versionId : UUID)
    (number : Int) :
    ∀ write ∈ reviseWrites ruleId ownerId number draft versionId, write.Fits := by
  intro write isWrite
  simp only [reviseWrites, List.mem_cons, List.not_mem_nil, or_false] at isWrite
  rcases isWrite with rfl | rfl
  · exact fits_newVersion draft _ _ _ _
  · exact fitsRule draft

end Columns

/-! ## Values -/

/-- No part of the value makes `json.dumps` or `encode("utf-8")` raise, or is unknown
to strict JSON: integers have at most 4300 digits, floats are finite, and neither a key
nor a string has a surrogate. -/
abbrev Encodable : Value → Prop :=
  Value.Each
    (fun
      | .int value => (decimal value.natAbs).length ≤ maxStrDigits
      | .float value => value.isfinite = true
      | .str text => NoSurrogates text
      | _ => True)
    fun keys => ∀ key ∈ keys, NoSurrogates key

theorem encodable_of_loadable
    {value : Value}
    (loadable : value.Loadable) :
    Encodable value := by
  refine loadable.mono (fun scalar holds => ?_) fun _ holds => holds.2
  cases scalar with
  | int value =>
      have bounded : value.natAbs < 10 ^ maxStrDigits := holds
      exact length_decimal_le (by decide) bounded
  | float value => exact holds
  | str text => exact holds
  | null => trivial
  | bool flag => trivial

/-- Accepted drafts can be stored and served.  Whatever `create_rule_draft` and
`revise_owned_rule_draft` flush fits its columns, no value of the draft makes
`json.dumps` or `encode` raise, and the snapshot that is read back is rendered as strict
JSON. -/
theorem accepted_drafts_are_served
    (python : Interpreter)
    (draft : Draft python) :
    (∀ ownerId ids, (createRuleDraft draft ownerId ids).Only WritesFitting) ∧
    (∀ ruleId ownerId expectedVersion versionId,
      (reviseOwnedRuleDraft ruleId ownerId expectedVersion draft versionId).Only
        WritesFitting) ∧
    Encodable draft.request.modelDump ∧
    (∃ text size, dumpsOrRaise true python.floats plainEscape draft.request.modelDump =
      some text ∧ utf8Length text = some size) ∧
    dumpsOrRaise true python.floats asciiEscape draft.request.modelDump.sortKeys =
      some (sigmaYaml draft) ∧
    (∃ size, utf8Length (sigmaYaml draft) = some size) ∧
    ∃ snapshot size, decodeStoredRuleSnapshot python (sigmaYaml draft) = .ok snapshot ∧
      Encodable snapshot ∧ renderedLength python.floats snapshot = some size := by
  have loadable := modelDump_loadable draft.hasDicts draft.valid
  have distinct := RulePreflightRequest.modelDump_distinct draft.hasDicts
  obtain ⟨size, isSize, _⟩ := draft.valid.size
  have sameSize : utf8Length (dumpsPlain python.floats draft.request.modelDump.sortKeys) =
      some size := by
    rw [utf8Length_dumpsPlain_congr python.floats (Value.sortKeys_idempotent distinct), isSize]
  refine ⟨fun ownerId ids => ?_, fun ruleId ownerId expectedVersion versionId => ?_,
    encodable_of_loadable loadable, ⟨_, size, ?_, isSize⟩, ?_,
    ⟨_, (printable_encode python.floats _).utf8Length⟩, _, size, decode_sigmaYaml draft,
    encodable_of_loadable loadable.sortKeys, ?_⟩
  · exact only_createRuleDraft trivial trivial draft ownerId ids
      (fits_createWrites draft ownerId ids)
  · exact only_reviseOwnedRuleDraft trivial trivial ruleId ownerId expectedVersion draft
      versionId trivial (fun _ => trivial) fun id number =>
        fits_reviseWrites draft id ownerId versionId number
  · rw [dumpsOrRaise, loadable.not_refused, dumpsPlain]
    rfl
  · rw [dumpsOrRaise, loadable.sortKeys.not_refused]
    rfl
  · rw [renderedLength, dumpsOrRaise, loadable.sortKeys.not_refused]
    exact sameSize

end Detection
end SigmaForge
