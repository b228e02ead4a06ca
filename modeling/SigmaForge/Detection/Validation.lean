import SigmaForge.Detection.Condition.References
import SigmaForge.Foundation.Json.Size

/-!
# The rule preflight

`RulePreflightRequest` and the checks of its validator, in the order and with
the messages of the source.
-/

namespace SigmaForge
namespace Detection

open Text Json

/-- What the checks use of the running interpreter. -/
structure Interpreter where
  unicode : UnicodeData
  floats : FloatText

/-- The fields of `RulePreflightRequest`. -/
structure RulePreflightRequest where
  title : Str
  logsource : List (Str × Str)
  detection : List Member

/-- The dictionaries of the request have distinct keys, as those that Python
builds do. -/
structure RulePreflightRequest.HasDicts (draft : RulePreflightRequest) : Prop where
  logsource : (draft.logsource.map Prod.fst).Nodup
  detection : (Value.object draft.detection).DistinctKeys

/-- `model_dump()`. -/
def RulePreflightRequest.modelDump (draft : RulePreflightRequest) : Value :=
  .object
    [(lit "title", .scalar (.str draft.title)),
      (lit "logsource",
        .object (draft.logsource.map fun (key, value) => (key, .scalar (.str value)))),
      (lit "detection", .object draft.detection)]

/-- What the validator raises. -/
inductive PreflightError
  | valueError (message : Str)
  /-- The draft has a surrogate when its size is taken. -/
  | unicodeEncodeError
  deriving DecidableEq

/-- `_MAX_DRAFT_BYTES`. -/
def maxDraftBytes : Nat := 65536

/-- `_TIMEFRAME.fullmatch`. -/
def timeframePattern (text : Str) : Bool :=
  match text with
  | [] => false
  | c :: rest =>
      isDigit c && c != chr '0' &&
        (rest.takeWhile isDigit).length ≤ 5 &&
        (["s", "m", "h", "d", "w", "M", "y"].map lit).contains (rest.dropWhile isDigit)

/-- The check of `detection.get("timeframe")`. -/
def malformedTimeframe : Option Value → Bool
  | none => false
  | some (.scalar (.str text)) => !timeframePattern text
  | some _ => true

/-- The check of one log source identifier, if it is there. -/
def identifierExceeds (logsource : List (Str × Str)) (key : Str) : Bool :=
  match Value.lookup key logsource with
  | some value => value.length > 100
  | none => false

/-- `_LOGSOURCE_KEYS`. -/
def logsourceKeys : List Str :=
  [lit "category", lit "product", lit "service", lit "definition"]

/-- `_valid_aggregation_boundary`, which uses `_has_visible_character`. -/
def validAggregationBoundary (visible : Str → Bool) (condition : Str) : Bool :=
  if chr '|' ∉ condition then true
  else
    let before := beforeFirst (chr '|') condition
    let after := afterFirst (chr '|') condition
    !(strip before).isEmpty && !(strip after).isEmpty && visible after &&
      !after.contains (chr '|')

section Checks

variable (python : Interpreter)

/-- `_invisible_field_character`. -/
def invisibleFieldCharacter (c : CodePoint) : Bool :=
  let category := python.unicode.category c
  [GeneralCategory.Cc, .Cf, .Cs, .Zl, .Zp].contains category ||
    (category == .Zs && c != chr ' ') ||
    c.val == 0x034f ||
    (0xfe00 ≤ c.val && c.val ≤ 0xfe0f) ||
    (0xe0100 ≤ c.val && c.val ≤ 0xe01ef)

/-- The general categories whose name starts with `C` or `M`. -/
def isOtherOrMark : GeneralCategory → Bool
  | .Cc | .Cf | .Cs | .Co | .Cn | .mark => true
  | .Zs | .Zl | .Zp | .visible => false

/-- `_has_visible_character`. -/
def hasVisibleCharacter (value : Str) : Bool :=
  value.any fun c => !isspace c && !isOtherOrMark (python.unicode.category c)

/-- `_valid_metadata_text`. -/
def validMetadataText (value : Str) : Bool :=
  !(strip value).isEmpty && hasVisibleCharacter python value && value == strip value &&
    !value.any (invisibleFieldCharacter python)

/-- `_valid_field_key`, on a key that is a `str`. -/
def validFieldKey (key : Str) : Bool :=
  if key.isEmpty || key.length > 200 then false
  else
    match split (chr '|') key with
    | [] => false
    | field :: modifiers =>
        !field.isEmpty && hasVisibleCharacter python field && field == strip field &&
          !field.any (invisibleFieldCharacter python) && modifiers.all selectorName

/-- `int.bit_length()`. -/
def bitLength (value : Int) : Nat :=
  if value = 0 then 0 else value.natAbs.log2 + 1

/-- `_valid_scalar`. -/
def validScalar : Value → Bool
  | .scalar .null => true
  | .scalar (.bool _) => true
  | .scalar (.int value) => bitLength value ≤ 4096
  | .scalar (.float value) => value.isfinite
  | .scalar (.str value) =>
      value.length ≤ 2048 && !value.any fun c => python.unicode.category c == .Cs
  | .list _ => false
  | .object _ => false

/-- `_valid_field_value`. -/
def validFieldValue : Value → Bool
  | .list items =>
      1 ≤ items.length && items.length ≤ 64 && items.all (validScalar python)
  | value => validScalar python value

/-- A mapping of a selection, as the loop over the selectors checks it. -/
def validMapping : Value → Bool
  | .object members =>
      !members.isEmpty && members.all fun (key, value) =>
        validFieldKey python key && validFieldValue python value
  | _ => false

/-- The mappings of a selection. -/
def selections : Value → List Value
  | .list items => items
  | selection => [selection]

/-- The check of one selection. -/
def validSelection (selection : Value) : Bool :=
  !(selections selection).isEmpty && (selections selection).length ≤ 64 &&
    (selections selection).all (validMapping python)

end Checks

namespace RulePreflightRequest

variable (draft : RulePreflightRequest)

/-- The entries of `detection` other than `condition` and `timeframe`. -/
def selectors : List Member :=
  draft.detection.filter fun (name, _) => name ∉ [lit "condition", lit "timeframe"]

/-- `set(selectors)`. -/
def selectorNames : List Str := draft.selectors.map Prod.fst

/-- A `str` value. -/
def textOf : Value → Option Str
  | .scalar (.str text) => some text
  | _ => none

/-- The condition strings, if `condition` is a string or a list of strings. -/
def conditions : Option (List Str) :=
  match Value.lookup (lit "condition") draft.detection with
  | some (.scalar (.str text)) => some [text]
  | some (.list items) => items.mapM textOf
  | _ => none

/-- `validate_structure`. -/
def validateStructure (python : Interpreter) : Except PreflightError Unit :=
  if !validMetadataText python draft.title then
    .error (.valueError
      (lit "title must not contain invisible characters or edge whitespace"))
  else if draft.logsource.isEmpty ||
      !(["category", "product", "service"].map lit).any fun key =>
        draft.logsource.any fun (name, _) => name == key then
    .error (.valueError (lit "logsource requires category, product, or service"))
  else if draft.logsource.any fun (key, value) =>
      !logsourceKeys.contains key || !validMetadataText python value ||
        value.length > 200 then
    .error (.valueError (lit "invalid logsource field"))
  else if (["product", "category", "service"].map lit).any
      (identifierExceeds draft.logsource) then
    .error (.valueError (lit "logsource identifier exceeds 100 characters"))
  else if malformedTimeframe (Value.lookup (lit "timeframe") draft.detection) then
    .error (.valueError (lit "timeframe must be a bounded Sigma duration"))
  else if draft.selectors.isEmpty || draft.selectors.length > 64 then
    .error (.valueError (lit "detection requires 1 to 64 selectors"))
  else if draft.selectorNames.any fun name =>
      !selectorName name || conditionKeywords.contains (lower name) then
    .error (.valueError (lit "invalid selector name"))
  else
    match draft.conditions with
    | none => .error (.valueError (lit "detection requires non-empty condition text"))
    | some conditions =>
        if conditions.length < 1 || conditions.length > 8 ||
            conditions.any fun item => (strip item).isEmpty || item.length > 512 then
          .error (.valueError (lit "detection requires non-empty condition text"))
        else if conditions.any fun item => item.any fun c =>
            invisibleFieldCharacter python c && !(lit "\t\n\r").contains c then
          .error (.valueError (lit "condition contains invisible or invalid Unicode"))
        else if conditions.any fun item =>
            !referencesKnownSelectors item draft.selectorNames then
          .error (.valueError (lit "condition references an undefined selector"))
        else if conditions.any fun item =>
            !validAggregationBoundary (hasVisibleCharacter python) item then
          .error (.valueError (lit "condition has malformed aggregation boundary"))
        else if conditions.any fun item => !wellFormedBooleanCondition item then
          .error (.valueError (lit "condition has malformed boolean syntax"))
        else if conditions.any fun item => !feasibleQuantifiers item draft.selectorNames then
          .error (.valueError (lit "condition quantifier exceeds matching selectors"))
        else
          match draft.selectors.find? fun (_, selection) => !validSelection python selection with
          | some (name, _) =>
              .error (.valueError (lit "invalid selection mapping: " ++ name))
          | none =>
              match utf8Length (dumpsPlain python.floats draft.modelDump) with
              | none => .error .unicodeEncodeError
              | some size =>
                  if size > maxDraftBytes then
                    .error (.valueError (lit "rule draft exceeds 64 KiB"))
                  else .ok ()

/-- The bounds that the field declarations put on the length of the title. -/
def titleFits : Bool := 1 ≤ draft.title.length && draft.title.length ≤ 200

/-- The request passes the field declarations and the validator. -/
def accepted (python : Interpreter) : Bool :=
  draft.titleFits && draft.validateStructure python = .ok ()

end RulePreflightRequest

/-- A `RulePreflightRequest` instance: its construction has run the
validator. -/
structure Draft (python : Interpreter) where
  request : RulePreflightRequest
  hasDicts : request.HasDicts
  accepted : request.accepted python = true

end Detection
end SigmaForge
