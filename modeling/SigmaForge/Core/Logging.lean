import SigmaForge.Foundation.Dict
import SigmaForge.Foundation.Json.Lines

/-!
# Structured logging

`JsonFormatter` and the stream it writes to.  A record becomes one JSON object on one line;
the fields that belong to a request come from context variables.
-/

namespace SigmaForge
namespace Core

open Text Json
open Json.Value (lookup)

/-! ## Records -/

/-- The levels of `logging`. -/
inductive Level
  | debug | info | warning | error | critical
  deriving DecidableEq

/-- The number of a level. -/
def Level.levelno : Level → Nat
  | .debug => 10
  | .info => 20
  | .warning => 30
  | .error => 40
  | .critical => 50

/-- `logging.getLevelName`. -/
def Level.levelname : Level → Str
  | .debug => lit "DEBUG"
  | .info => lit "INFO"
  | .warning => lit "WARNING"
  | .error => lit "ERROR"
  | .critical => lit "CRITICAL"

/-- A `logging.LogRecord`, as far as the formatter reads it. -/
structure LogRecord where
  level : Level
  /-- The name of the logger. -/
  name : Str
  /-- `record.getMessage()`. -/
  message : Str
  /-- What `formatException` makes of `record.exc_info`. -/
  exception : Option Str
  /-- `record.extra_fields`. -/
  extraFields : List Member

/-- `request_id_ctx` and `user_id_ctx`. -/
structure Context where
  requestId : Option Str
  userId : Option Str

/-- The default values of the context variables. -/
def Context.default : Context := ⟨none, none⟩

/-- An aware `datetime` in UTC. -/
structure UtcTime where
  year : Nat
  month : Nat
  day : Nat
  hour : Nat
  minute : Nat
  second : Nat
  microsecond : Nat

/-- `"%0*d" % (width, number)`. -/
def zeroPadded (width number : Nat) : Str :=
  List.replicate (width - (decimal number).length) (digitChar 0) ++ decimal number

/-- `datetime.isoformat()`, for a time in UTC. -/
def UtcTime.isoformat (time : UtcTime) : Str :=
  zeroPadded 4 time.year ++ lit "-" ++ zeroPadded 2 time.month ++ lit "-" ++
    zeroPadded 2 time.day ++ lit "T" ++ zeroPadded 2 time.hour ++ lit ":" ++
    zeroPadded 2 time.minute ++ lit ":" ++ zeroPadded 2 time.second ++
    (if time.microsecond = 0 then [] else lit "." ++ zeroPadded 6 time.microsecond) ++
    lit "+00:00"

/-! ## The formatter -/

/-- A text as a value. -/
abbrev text (content : Str) : Value := .scalar (.str content)

/-- The value of a context variable, if it counts as true. -/
def truthy (current : Option Str) : Option Str := current.filter (· ≠ [])

/-- An item that is set only if there is a value for it. -/
def setIfSome (key : Str) (value : Option Str) (payload : List Member) : List Member :=
  match value with
  | some content => Dict.setItem key (text content) payload
  | none => payload

/-- The `payload` of `JsonFormatter.format`. -/
def JsonFormatter.payload (now : UtcTime) (context : Context) (record : LogRecord) :
    List Member :=
  let payload : List Member :=
    [(lit "timestamp", text now.isoformat), (lit "level", text record.level.levelname),
      (lit "logger", text record.name), (lit "message", text record.message)]
  let payload := setIfSome (lit "request_id") (truthy context.requestId) payload
  let payload := setIfSome (lit "user_id") (truthy context.userId) payload
  let payload := setIfSome (lit "exception") record.exception payload
  Dict.update payload record.extraFields

/-- `JsonFormatter.format`, unless `json.dumps` raises. -/
def JsonFormatter.format (floats : FloatText) (now : UtcTime) (context : Context)
    (record : LogRecord) : Option Str :=
  dumpsOrRaise true floats asciiEscape (.object (payload now context record))

/-- `logger.isEnabledFor`, with the level that `lifespan` gives to the root. -/
def isEnabledFor (debug : Bool) (level : Level) : Bool :=
  (if debug then Level.debug else Level.info).levelno ≤ level.levelno

example : JsonFormatter.format .ofBits ⟨2025, 3, 9, 7, 5, 0, 0⟩ ⟨some (lit "4f"), some []⟩
    ⟨.info, lit "app.main", lit "a\"\nb", none, [(lit "level", .scalar (.int 7))]⟩ =
    some (lit ("\x7b\"timestamp\": \"2025-03-09T07:05:00+00:00\", \"level\": 7, " ++
      "\"logger\": \"app.main\", \"message\": \"a\\\"\\nb\", \"request_id\": \"4f\"\x7d")) := by
  decide +kernel

/-! ## What a record says -/

section Payload

variable
    {now : UtcTime}
    {context : Context}
    {record : LogRecord}

/-- The keys that the formatter sets itself. -/
def reservedKeys : List Str :=
  [lit "timestamp", lit "level", lit "logger", lit "message", lit "request_id", lit "user_id",
    lit "exception"]

/-- The extra fields of the record leave the keys of the formatter alone. -/
def LogRecord.IsPlain (record : LogRecord) : Prop :=
  ∀ member ∈ record.extraFields, member.1 ∉ reservedKeys

theorem LogRecord.IsPlain.not_mem
    (isPlain : record.IsPlain)
    {key : Str}
    (isReserved : key ∈ reservedKeys) :
    key ∉ record.extraFields.map Prod.fst := by
  intro isKey
  obtain ⟨member, isMember, rfl⟩ := List.mem_map.mp isKey
  exact isPlain member isMember isReserved

theorem nodup_setIfSome
    {payload : List Member}
    (distinct : (payload.map Prod.fst).Nodup)
    (key : Str)
    (value : Option Str) :
    ((setIfSome key value payload).map Prod.fst).Nodup := by
  cases value with
  | none => exact distinct
  | some content => exact Dict.nodup_setItem distinct key _

/-- The payload is a dictionary. -/
theorem JsonFormatter.nodup_payload (now : UtcTime) (context : Context) (record : LogRecord) :
    ((payload now context record).map Prod.fst).Nodup := by
  refine Dict.nodup_update (nodup_setIfSome (nodup_setIfSome (nodup_setIfSome ?_ _ _) _ _) _ _) _
  change ([lit "timestamp", lit "level", lit "logger", lit "message"] : List Str).Nodup
  decide

theorem lookup_setIfSome_of_ne
    {key other : Str}
    (different : other ≠ key)
    (value : Option Str)
    (payload : List Member) :
    lookup other (setIfSome key value payload) = lookup other payload := by
  cases value with
  | none => rfl
  | some content => exact Dict.lookup_setItem_of_ne different _ _

/-- The item is there if there is a value for it. -/
theorem lookup_setIfSome_self
    {key : Str}
    (value : Option Str)
    {payload : List Member}
    (absent : lookup key payload = none) :
    lookup key (setIfSome key value payload) = value.map text := by
  cases value with
  | none => exact absent
  | some content => exact Dict.lookup_setItem_self _ _ _

/-- The logger that the line names. -/
theorem JsonFormatter.lookup_logger_of_absent
    (absent : lit "logger" ∉ record.extraFields.map Prod.fst) :
    lookup (lit "logger") (payload now context record) = some (text record.name) := by
  rw [payload, Dict.lookup_update_of_not_mem absent, lookup_setIfSome_of_ne (by decide),
    lookup_setIfSome_of_ne (by decide), lookup_setIfSome_of_ne (by decide)]
  rfl

/-- A record that does not give a request id itself has the one of its context. -/
theorem JsonFormatter.lookup_requestId_of_absent
    (absent : lit "request_id" ∉ record.extraFields.map Prod.fst) :
    lookup (lit "request_id") (payload now context record) =
      (truthy context.requestId).map text := by
  rw [payload, Dict.lookup_update_of_not_mem absent, lookup_setIfSome_of_ne (by decide),
    lookup_setIfSome_of_ne (by decide)]
  refine lookup_setIfSome_self _ (Value.lookup_eq_none_iff.mpr ?_)
  change lit "request_id" ∉
    ([lit "timestamp", lit "level", lit "logger", lit "message"] : List Str)
  decide

end Payload

/-! ## Writing a line -/

/-- The formatter raises for nothing that it sets itself. -/
theorem JsonFormatter.format_eq_some
    {record : LogRecord}
    (writable : ∀ member ∈ record.extraFields, refused true member.2 = false)
    (floats : FloatText)
    (now : UtcTime)
    (context : Context) :
    format floats now context record =
      some (encode floats asciiEscape (.object (payload now context record))) := by
  have setWritable : ∀ {key : Str} {value : Option Str} {payload : List Member},
      (∀ member ∈ payload, refused true member.2 = false) →
      ∀ member ∈ setIfSome key value payload, refused true member.2 = false := by
    intro key value payload earlier member isMember
    cases value with
    | none => exact earlier member isMember
    | some content =>
        cases Dict.mem_setItem isMember with
        | inl isNew => exact isNew ▸ rfl
        | inr isOld => exact earlier member isOld
  have accepted : refused true (.object (payload now context record)) = false := by
    refine refusedMembers_eq_false fun member isMember => ?_
    cases Dict.mem_update isMember with
    | inr isExtra => exact writable member isExtra
    | inl isOwn =>
        refine setWritable (setWritable (setWritable ?_)) member isOwn
        simp [refused, Scalar.refused]
  rw [format, dumpsOrRaise, accepted, if_neg Bool.false_ne_true]

/-! ## Reading a line back -/

/-- A text without lone surrogates. -/
def IsClean (content : Str) : Prop := ∀ c ∈ content, isSurrogate c = false

/-- Everything that goes into the line of a record can be read back. -/
structure LogRecord.IsLoadable (context : Context) (record : LogRecord) : Prop where
  name : IsClean record.name
  message : IsClean record.message
  requestId : ∀ id ∈ context.requestId, IsClean id
  userId : ∀ id ∈ context.userId, IsClean id
  exception : ∀ traceback ∈ record.exception, IsClean traceback
  extraFields : ∀ member ∈ record.extraFields, IsClean member.1 ∧ member.2.Loadable

theorem isClean_of_ascii {content : Str} (ascii : ∀ c ∈ content, c.val < 0x80) :
    IsClean content := by
  intro c isMember
  have small := ascii c isMember
  simp only [isSurrogate, Bool.and_eq_false_iff, decide_eq_false_iff_not]
  omega

theorem isClean_of_printable {content : Str} (printable : Printable content) :
    IsClean content := by
  refine isClean_of_ascii fun c isMember => ?_
  have bounds := printable c isMember
  omega

theorem printable_zeroPadded (width number : Nat) : Printable (zeroPadded width number) := by
  refine printable_append.mpr ⟨?_, printable_decimal number⟩
  intro c isMember
  rw [List.eq_of_mem_replicate isMember]
  decide

theorem UtcTime.printable_isoformat (time : UtcTime) : Printable time.isoformat := by
  have fraction : Printable
      (if time.microsecond = 0 then [] else lit "." ++ zeroPadded 6 time.microsecond) := by
    split
    · exact printable_nil
    · exact printable_append.mpr ⟨by decide, printable_zeroPadded _ _⟩
  simp only [UtcTime.isoformat, printable_append, printable_zeroPadded, fraction, and_true,
    true_and]
  decide

theorem Level.printable_levelname (level : Level) : Printable level.levelname := by
  cases level <;> decide

/-- Keys and values that can be read back. -/
def LoadableMember (member : Member) : Prop := IsClean member.1 ∧ member.2.Loadable

theorem loadableMember_text
    {key content : Str}
    (keyClean : IsClean key)
    (contentClean : IsClean content) :
    LoadableMember (key, text content) :=
  ⟨keyClean, .scalar contentClean⟩

theorem loadable_setIfSome
    {key : Str}
    {value : Option Str}
    {payload : List Member}
    (keyClean : IsClean key)
    (valueClean : ∀ content ∈ value, IsClean content)
    (loadable : ∀ member ∈ payload, LoadableMember member) :
    ∀ member ∈ setIfSome key value payload, LoadableMember member := by
  cases value with
  | none => exact loadable
  | some content =>
      intro member isMember
      cases Dict.mem_setItem isMember with
      | inl isNew => exact isNew ▸ loadableMember_text keyClean (valueClean content rfl)
      | inr isOld => exact loadable member isOld

theorem isClean_reservedKey {key : Str} (isReserved : key ∈ reservedKeys) : IsClean key := by
  have all : ∀ key ∈ reservedKeys, Printable key := by decide
  exact isClean_of_printable (all key isReserved)

/-- The payload of a loadable record can be read back. -/
theorem LogRecord.IsLoadable.payload
    {context : Context}
    {record : LogRecord}
    (loadable : record.IsLoadable context)
    (now : UtcTime) :
    (Value.object (JsonFormatter.payload now context record)).Loadable := by
  have truthyClean : ∀ {current : Option Str}, (∀ id ∈ current, IsClean id) →
      ∀ id ∈ truthy current, IsClean id :=
    fun clean id isId => clean id (Option.mem_filter_iff.mp isId).1
  have own : ∀ member ∈ JsonFormatter.payload now context record, LoadableMember member := by
    intro member isMember
    cases Dict.mem_update isMember with
    | inr isExtra => exact loadable.extraFields member isExtra
    | inl isOwn =>
        refine loadable_setIfSome (isClean_reservedKey (by decide)) loadable.exception
          (loadable_setIfSome (isClean_reservedKey (by decide)) (truthyClean loadable.userId)
            (loadable_setIfSome (isClean_reservedKey (by decide))
              (truthyClean loadable.requestId) ?_)) member isOwn
        simp only [List.forall_mem_cons, List.not_mem_nil, false_imp_iff, implies_true, and_true]
        exact ⟨loadableMember_text (isClean_reservedKey (by decide))
            (isClean_of_printable now.printable_isoformat),
          loadableMember_text (isClean_reservedKey (by decide))
            (isClean_of_printable record.level.printable_levelname),
          loadableMember_text (isClean_reservedKey (by decide)) loadable.name,
          loadableMember_text (isClean_reservedKey (by decide)) loadable.message⟩
  refine .object ⟨JsonFormatter.nodup_payload now context record, ?_⟩ fun member isMember =>
    (own member isMember).2
  intro key isKey
  obtain ⟨member, isMember, rfl⟩ := List.mem_map.mp isKey
  exact (own member isMember).1

end Core
end SigmaForge
