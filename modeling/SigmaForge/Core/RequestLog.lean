import SigmaForge.Core.Middleware
import SigmaForge.Foundation.Typestate
import SigmaForge.Foundation.Uuid

/-!
# The log of requests

What the lines that the handler of the root logger has written say about the requests, in every
run of any number of them: each line is one record and can be read back, no matter where the
reader stops, and each request has one line of the request logger, under its own id.
-/

namespace SigmaForge
namespace Core

open Text Json
open Json.Value (lookup)

/-! ## Lines -/

/-- The line of an entry. -/
def Entry.line (floats : FloatText) (entry : Entry) : Str :=
  encode floats asciiEscape (.object entry.payload)

/-- The text under a key. -/
def Entry.field (key : Str) (entry : Entry) : Option Str :=
  match lookup key entry.payload with
  | some (.scalar (.str content)) => some content
  | _ => none

theorem Entry.field_of_lookup
    {key : Str}
    {entry : Entry}
    {content : Option Str}
    (isThere : lookup key entry.payload = content.map text) :
    entry.field key = content := by
  unfold Entry.field
  rw [isThere]
  cases content with
  | none => rfl
  | some content => rfl

/-- An entry and its line are added. -/
def World.write (floats : FloatText) (entry : Entry) (world : World) : World :=
  { world with
    stdout := world.stdout ++ entry.line floats ++ [newline]
    entries := world.entries ++ [entry] }

/-- A record is written on one line, or not at all. -/
theorem World.emit_cases
    (floats : FloatText)
    (debug : Bool)
    (writer : Option ProcId)
    (now : UtcTime)
    (context : Context)
    (record : LogRecord)
    (world : World) :
    world.emit floats debug writer now context record = world ∨
      world.emit floats debug writer now context record =
        world.write floats ⟨writer, now, context, record⟩ := by
  unfold World.emit
  split
  · cases isLine : JsonFormatter.format floats now context record with
    | none => exact .inl rfl
    | some line =>
        unfold JsonFormatter.format dumpsOrRaise at isLine
        split at isLine
        · cases isLine
        · rw [← Option.some.inj isLine]
          exact .inr rfl
  · exact .inl rfl

/-- Records have nothing to do with ids. -/
@[simp] theorem World.drawn_emit
    (floats : FloatText)
    (debug : Bool)
    (writer : Option ProcId)
    (now : UtcTime)
    (context : Context)
    (record : LogRecord)
    (world : World) :
    (world.emit floats debug writer now context record).drawn = world.drawn := by
  rcases World.emit_cases floats debug writer now context record world with isSilent | isWritten
  · rw [isSilent]
  · rw [isWritten]
    rfl

/-- A record that is loud enough is written if its own fields can be. -/
theorem World.emit_eq_write
    {debug : Bool}
    {record : LogRecord}
    (loud : isEnabledFor debug record.level = true)
    (writable : ∀ member ∈ record.extraFields, refused true member.2 = false)
    (floats : FloatText)
    (writer : Option ProcId)
    (now : UtcTime)
    (context : Context)
    (world : World) :
    world.emit floats debug writer now context record =
      world.write floats ⟨writer, now, context, record⟩ := by
  unfold World.emit
  rw [if_pos loud, JsonFormatter.format_eq_some writable]
  rfl

/-! ## What belongs to a request -/

/-- The part of the process that belongs to one request. -/
structure Own where
  entries : List Entry
  context : Context
  route : Option Route
  drawn : List UUID

/-- The part of a request. -/
def World.own (pid : ProcId) (world : World) : Own where
  entries := world.entries.filter fun entry => entry.writer = some pid
  context := world.context pid
  route := world.route pid
  drawn := (world.drawn.filter fun drawn => drawn.1 = pid).map Prod.snd

/-- The part of a request that has written an entry. -/
def Own.write (entry : Entry) (own : Own) : Own :=
  { own with entries := own.entries ++ [entry] }

section Own

variable
    {floats : FloatText}
    {mayLog : LogRecord → Prop}
    {debug : Bool}
    {pid other : ProcId}
    {world : World}

theorem own_write_self
    {entry : Entry}
    (isWriter : entry.writer = some pid) :
    (world.write floats entry).own pid = (world.own pid).write entry := by
  simp [World.own, World.write, Own.write, List.filter_append, isWriter]

theorem own_write_of_ne
    {entry : Entry}
    (isWriter : entry.writer = some pid)
    (isOther : other ≠ pid) :
    (world.write floats entry).own other = world.own other := by
  have notWriter : ¬(pid = other) := fun equal => isOther equal.symm
  simp [World.own, World.write, List.filter_append, isWriter, notWriter]

theorem own_setContext_self (context : Context) :
    (world.setContext pid context).own pid = { world.own pid with context := context } := by
  simp [World.own, World.setContext]

theorem own_setContext_of_ne (isOther : other ≠ pid) (context : Context) :
    (world.setContext pid context).own other = world.own other := by
  simp [World.own, World.setContext, isOther]

theorem own_setRoute_self (route : Option Route) :
    (world.setRoute pid route).own pid = { world.own pid with route := route } := by
  simp [World.own, World.setRoute]

theorem own_setRoute_of_ne (isOther : other ≠ pid) (route : Option Route) :
    (world.setRoute pid route).own other = world.own other := by
  simp [World.own, World.setRoute, isOther]

theorem own_draw_self (id : UUID) :
    (world.draw pid id).own pid =
      { world.own pid with drawn := id :: (world.own pid).drawn } := by
  simp [World.own, World.draw]

theorem own_draw_of_ne (isOther : other ≠ pid) (id : UUID) :
    (world.draw pid id).own other = world.own other := by
  have notOther : ¬(pid = other) := fun equal => isOther equal.symm
  simp [World.own, World.draw, notOther]

theorem mem_own_drawn {id : UUID} : id ∈ (world.own pid).drawn ↔ (pid, id) ∈ world.drawn := by
  simp [World.own]

/-! ## What every step keeps -/

/-- The records that are logged if routers may log the given ones. -/
inductive IsKnown (mayLog : LogRecord → Prop) : LogRecord → Prop
  | startup (environment : Str) : IsKnown mayLog (startupComplete environment)
  | handled (id : UUID) (request : Request) (route : Option Route) (answer : Response)
      (duration : Float64) :
      IsKnown mayLog (requestHandled id.str request.method (safeTemplate route)
        answer.statusCode duration)
  | raised (id : UUID) (request : Request) (route : Option Route) (duration : Float64) :
      IsKnown mayLog (requestRaised id.str request.method (safeTemplate route) duration)
  | unhandled (traceId : UUID) (traceback : Str) :
      IsKnown mayLog (unhandledException traceId.str traceback)
  | router {record : LogRecord} : mayLog record → IsKnown mayLog record

/-- The stream consists of the lines of the entries, an id is only given by the request that
has drawn it, and nothing else is logged than what is known. -/
structure World.Sound (floats : FloatText) (mayLog : LogRecord → Prop) (world : World) :
    Prop where
  stdout : world.stdout = writeLines (world.entries.map (Entry.line floats))
  distinct : (world.drawn.map Prod.snd).Nodup
  attributed : ∀ entry ∈ world.entries, ∀ requestId,
    entry.field (lit "request_id") = some requestId →
    ∃ pid id, entry.writer = some pid ∧ (pid, id) ∈ world.drawn ∧ requestId = id.str
  known : ∀ entry ∈ world.entries, IsKnown mayLog entry.record

/-- Requests do not touch what belongs to others. -/
def logging (floats : FloatText) (mayLog : LogRecord → Prop) : Discipline World where
  invariant := World.Sound floats mayLog
  guarantee pid world world' := ∀ other, other ≠ pid → world'.own other = world.own other

/-- The request is where it is. -/
def IsAt (pid : ProcId) (own : Own) (world : World) : Prop := world.own pid = own

theorem World.Sound.write
    (sound : world.Sound floats mayLog)
    {entry : Entry}
    (isWriter : entry.writer = some pid)
    (isKnown : IsKnown mayLog entry.record)
    (attributed : ∀ requestId, entry.field (lit "request_id") = some requestId →
      ∃ id ∈ (world.own pid).drawn, requestId = id.str) :
    (world.write floats entry).Sound floats mayLog where
  stdout := by
    simp only [World.write, sound.stdout, List.map_append, List.map_cons, List.map_nil,
      writeLines_append, writeLines_cons, writeLines_nil, List.append_assoc]
  distinct := sound.distinct
  attributed := by
    intro written isWritten requestId isField
    cases List.mem_append.mp isWritten with
    | inl isEarlier => exact sound.attributed written isEarlier requestId isField
    | inr isNew =>
        cases List.mem_singleton.mp isNew with
        | refl =>
            obtain ⟨id, isDrawn, isId⟩ := attributed requestId isField
            exact ⟨pid, id, isWriter, mem_own_drawn.mp isDrawn, isId⟩
  known := by
    intro written isWritten
    cases List.mem_append.mp isWritten with
    | inl isEarlier => exact sound.known written isEarlier
    | inr isNew => exact List.mem_singleton.mp isNew ▸ isKnown

theorem World.Sound.setContext (sound : world.Sound floats mayLog) (context : Context) :
    (world.setContext pid context).Sound floats mayLog :=
  ⟨sound.stdout, sound.distinct, sound.attributed, sound.known⟩

theorem World.Sound.setRoute (sound : world.Sound floats mayLog) (route : Option Route) :
    (world.setRoute pid route).Sound floats mayLog :=
  ⟨sound.stdout, sound.distinct, sound.attributed, sound.known⟩

theorem World.Sound.draw
    (sound : world.Sound floats mayLog)
    {id : UUID}
    (isFresh : id ∉ world.drawn.map Prod.snd) :
    (world.draw pid id).Sound floats mayLog where
  stdout := sound.stdout
  distinct := List.nodup_cons.mpr ⟨isFresh, sound.distinct⟩
  attributed := by
    intro entry isEntry requestId isField
    obtain ⟨writer, drawn, isWriter, isDrawn, isId⟩ :=
      sound.attributed entry isEntry requestId isField
    exact ⟨writer, drawn, isWriter, List.mem_cons_of_mem _ isDrawn, isId⟩
  known := sound.known

end Own

/-! ## Single operations -/

section Operations

variable
    {Body Effect : Type}
    {Reply : Effect → Type}
    {floats : FloatText}
    {mayLog : LogRecord → Prop}
    {debug : Bool}
    {pid : ProcId}
    {own : Own}

/-- What a request knows about its own part is not disturbed. -/
theorem stable_own (fact : Own → Prop) :
    Stable (webMachine Body Reply floats debug) (logging floats mayLog) pid
      fun world => fact (world.own pid) := by
  intro world world' _ _ holds change
  cases change with
  | inl ofOther =>
      obtain ⟨other, isOther, kept⟩ := ofOther
      rw [kept pid fun equal => isOther equal.symm]
      exact holds
  | inr ofEnvironment => exact ofEnvironment.elim

theorem stable_isAt (own : Own) :
    Stable (webMachine Body Reply floats debug) (logging floats mayLog) pid (IsAt pid own) :=
  stable_own fun part => part = own

/-- The rule for an operation that does not fail. -/
theorem outline_performWeb
    {op : WebOp Effect}
    {after : WebAnswer Reply op → World → Prop}
    (stable : ∀ value,
      Stable (webMachine Body Reply floats debug) (logging floats mayLog) pid (after value))
    (steps : ∀ answer world world', world.Sound floats mayLog → IsAt pid own world →
      (webMachine Body Reply floats debug).perform pid op world answer world' →
      world'.Sound floats mayLog ∧ (logging floats mayLog).guarantee pid world world' ∧
        ∃ value, answer = .ok value ∧ after value world') :
    Outline (webMachine Body Reply floats debug) (logging floats mayLog) pid
      (performWeb op) (IsAt pid own)
      (byOutcome after fun _ _ => False) := by
  apply Outline.perform stable fun _ => Stable.const False
  · intro value world world' sound isAt performs
    obtain ⟨sound', guarantee, result, isResult, holds⟩ := steps _ _ _ sound isAt performs
    cases isResult
    exact ⟨sound', guarantee, holds⟩
  · intro error world world' sound isAt performs
    obtain ⟨_, _, result, isResult, _⟩ := steps _ _ _ sound isAt performs
    cases isResult

theorem outline_uuid4 :
    Outline (webMachine Body Reply floats debug) (logging floats mayLog) pid (performWeb .uuid4)
      (IsAt pid own)
      (byOutcome (fun id => IsAt pid { own with drawn := id :: own.drawn })
        fun _ _ => False) := by
  refine outline_performWeb (fun id => stable_isAt _) fun answer world world' sound isAt draws => ?_
  obtain ⟨id, isFresh, isAnswer, rfl⟩ := draws
  cases isAt
  exact ⟨sound.draw isFresh, fun other isOther => own_draw_of_ne isOther id, id, isAnswer,
    own_draw_self id⟩

theorem outline_setRequestId (id : Str) :
    Outline (webMachine Body Reply floats debug) (logging floats mayLog) pid
      (performWeb (.setRequestId id))
      (IsAt pid own)
      (byOutcome (fun token world => token = own.context.requestId ∧
          IsAt pid { own with context := { own.context with requestId := some id } } world)
        fun _ _ => False) := by
  refine outline_performWeb (fun token => (Stable.const _).and (stable_isAt _))
    fun answer world world' sound isAt sets => ?_
  cases isAt
  exact sets.2 ▸ ⟨sound.setContext _, fun other isOther => own_setContext_of_ne isOther _, _,
    sets.1, rfl, own_setContext_self _⟩

theorem outline_resetRequestId (token : Option Str) :
    Outline (webMachine Body Reply floats debug) (logging floats mayLog) pid
      (performWeb (.resetRequestId token)) (IsAt pid own)
      (byOutcome
        (fun _ => IsAt pid { own with context := { own.context with requestId := token } })
        fun _ _ => False) := by
  refine outline_performWeb (fun _ => stable_isAt _)
    fun answer world world' sound isAt resets => ?_
  cases isAt
  exact resets.2 ▸ ⟨sound.setContext _, fun other isOther => own_setContext_of_ne isOther _, (),
    resets.1, own_setContext_self _⟩

theorem outline_perfCounter :
    Outline (webMachine Body Reply floats debug) (logging floats mayLog) pid
      (performWeb .perfCounter)
      (IsAt pid own) (byOutcome (fun _ => IsAt pid own) fun _ _ => False) := by
  refine outline_performWeb (fun _ => stable_isAt _)
    fun answer world world' sound isAt counts => ?_
  obtain ⟨⟨now, isAnswer⟩, isSame⟩ := counts
  exact isSame.symm ▸ ⟨sound, fun _ _ => rfl, now, isAnswer, isAt⟩

theorem outline_safeRoutePath :
    Outline (webMachine Body Reply floats debug) (logging floats mayLog) pid
      safeRoutePath (IsAt pid own)
      (byOutcome (fun path world => path = safeTemplate own.route ∧ IsAt pid own world)
        fun _ _ => False) := by
  have reads : Outline (webMachine Body Reply floats debug) (logging floats mayLog) pid
      (performWeb .scopeRoute) (IsAt pid own)
      (byOutcome (fun route world => route = own.route ∧ IsAt pid own world)
        fun _ _ => False) := by
    refine outline_performWeb (fun _ => (Stable.const _).and (stable_isAt _))
      fun answer world world' sound isAt reads => ?_
    exact reads.2.symm ▸ ⟨sound, fun _ _ => rfl, _, reads.1, congrArg Own.route isAt, isAt⟩
  apply Outline.bind reads
  · intro route world _ holds
    exact ⟨congrArg safeTemplate holds.1, holds.2⟩
  · exact fun _ _ _ unreachable => unreachable.elim

/-- A record that cannot be kept from being written. -/
structure LogRecord.IsWritten (record : LogRecord) : Prop where
  loud : Level.info.levelno ≤ record.level.levelno
  writable : ∀ member ∈ record.extraFields, refused true member.2 = false

theorem LogRecord.IsWritten.isEnabledFor
    {record : LogRecord}
    (isWritten : record.IsWritten)
    (debug : Bool) :
    isEnabledFor debug record.level = true := by
  have loud := isWritten.loud
  cases debug with
  | false => exact decide_eq_true loud
  | true => exact decide_eq_true (le_trans (by decide) loud)

theorem outline_log
    {record : LogRecord}
    (isWritten : record.IsWritten)
    (isKnown : IsKnown mayLog record)
    (attributed : ∀ now requestId,
      (Entry.mk (some pid) now own.context record).field (lit "request_id") = some requestId →
      ∃ id ∈ own.drawn, requestId = id.str) :
    Outline (webMachine Body Reply floats debug) (logging floats mayLog) pid
      (performWeb (.log record))
      (IsAt pid own)
      (byOutcome
        (fun _ world => ∃ now, IsAt pid (own.write ⟨some pid, now, own.context, record⟩) world)
        fun _ _ => False) := by
  refine outline_performWeb (fun _ => Stable.exists fun _ => stable_isAt _)
    fun answer world world' sound isAt logs => ?_
  obtain ⟨isAnswer, now, isWorld⟩ := logs
  cases isAt
  rw [World.emit_eq_write (isWritten.isEnabledFor debug) isWritten.writable] at isWorld
  exact isWorld ▸ ⟨sound.write rfl isKnown (attributed now),
    fun other isOther => own_write_of_ne rfl isOther,
    (), isAnswer, now, own_write_self rfl⟩

end Operations

/-! ## What routers may do -/

/-- What any router may log: not in the name of the middleware, with none of the fields of the
formatter, and nothing that might not be written. -/
structure LogRecord.IsInner (record : LogRecord) : Prop where
  name : record.name ∉ [requestLogger, mainLogger]
  isPlain : record.IsPlain
  isWritten : record.IsWritten

/-- Routers leave the context variables alone.  Their phase is what they have logged; nothing
but an effect fails, so that there is none after another failure. -/
def routing {Effect : Type} (Reply : Effect → Type) (mayLog : LogRecord → Prop) :
    Protocol Raised (WebAnswer Reply) (Option (List LogRecord)) where
  allowed phase op :=
    match op with
    | .log record => phase = none ∨ record.IsInner ∧ mayLog record
    | .setRequestId _ => phase = none
    | .resetRequestId _ => phase = none
    | _ => True
  next phase op answer :=
    match op, answer with
    | .effect _, _ => phase
    | .log record, .ok _ => phase.map (· ++ [record])
    | _, .ok _ => phase
    | _, .error _ => none

/-- An entry that a router has written while it served the request with the id. -/
structure Entry.IsInner (id : UUID) (entry : Entry) : Prop where
  context : entry.context = ⟨some id.str, none⟩
  record : entry.record.IsInner

theorem truthy_uuid (id : UUID) : truthy (some id.str) = some id.str := by
  have notEmpty : id.str ≠ [] := by simp [UUID.str, hexDigits]
  simp [truthy, notEmpty]

theorem isClean_uuid (id : UUID) : IsClean id.str := by
  refine isClean_of_ascii fun c isMember => ?_
  cases UUID.mem_str isMember with
  | inl isHyphen => exact isHyphen ▸ by decide
  | inr isDigit =>
      obtain ⟨digit, small, rfl⟩ := isDigit
      have all : ∀ digit : Fin 16, (hexDigit digit).val < 0x80 := by decide
      exact all ⟨digit, small⟩

namespace Entry

variable
    {id : UUID}
    {entry : Entry}

/-- Lines of routers carry the id of their request. -/
theorem IsInner.field_requestId (isInner : entry.IsInner id) :
    entry.field (lit "request_id") = some id.str := by
  apply Entry.field_of_lookup
  rw [Entry.payload, JsonFormatter.lookup_requestId_of_absent
    (isInner.record.isPlain.not_mem (by decide)), isInner.context, truthy_uuid]

theorem IsInner.field_logger (isInner : entry.IsInner id) :
    entry.field (lit "logger") ≠ some requestLogger := by
  have isLogger : entry.field (lit "logger") = some entry.record.name :=
    Entry.field_of_lookup
      (JsonFormatter.lookup_logger_of_absent (isInner.record.isPlain.not_mem (by decide)))
  intro isRequest
  rw [isLogger] at isRequest
  exact isInner.record.name (by simp [Option.some.inj isRequest])

end Entry

/-! ## The lines of the middleware -/

/-- The line of a request that has been answered. -/
structure Entry.IsHandled (stopwatch : Stopwatch) (request : Request) (id : UUID)
    (route : Option Route) (answer : Response) (entry : Entry) : Prop where
  context : entry.context = ⟨some id.str, none⟩
  record : ∃ start now, entry.record = requestHandled id.str request.method (safeTemplate route)
    answer.statusCode (stopwatch.milliseconds start now)

/-- The line of a request that has raised an exception. -/
structure Entry.IsRaised (stopwatch : Stopwatch) (request : Request) (id : UUID)
    (route : Option Route) (entry : Entry) : Prop where
  context : entry.context = ⟨some id.str, none⟩
  record : ∃ start now, entry.record = requestRaised id.str request.method (safeTemplate route)
    (stopwatch.milliseconds start now)

/-- The line of an exception that nothing has handled: the request id has been reset. -/
structure Entry.IsUnhandled (traceId : UUID) (traceback : Str) (entry : Entry) : Prop where
  context : entry.context.requestId = none
  record : entry.record = unhandledException traceId.str traceback

/-- A record of the request logger that gives the request id itself. -/
theorem Entry.fields_of_request
    {entry : Entry}
    {content : Str}
    {others : List Member}
    (isRequest : entry.record.name = requestLogger)
    (isExtra : entry.record.extraFields = (lit "request_id", text content) :: others)
    (distinct : (lit "logger" :: lit "request_id" :: others.map Prod.fst).Nodup) :
    entry.field (lit "request_id") = some content ∧
      entry.field (lit "logger") = some requestLogger := by
  have keys : entry.record.extraFields.map Prod.fst =
      lit "request_id" :: others.map Prod.fst := by
    rw [isExtra, List.map_cons]
  rw [List.nodup_cons] at distinct
  constructor
  · apply Entry.field_of_lookup
    rw [Entry.payload, JsonFormatter.payload, Dict.lookup_update (keys ▸ distinct.2), isExtra,
      lookup, if_pos rfl]
    rfl
  · apply Entry.field_of_lookup
    rw [Entry.payload, JsonFormatter.lookup_logger_of_absent (keys ▸ distinct.1), isRequest]
    rfl

theorem fields_requestHandled
    {entry : Entry}
    {requestId method path : Str}
    {statusCode : Nat}
    {duration : Float64}
    (isRecord : entry.record = requestHandled requestId method path statusCode duration) :
    entry.field (lit "request_id") = some requestId ∧
      entry.field (lit "logger") = some requestLogger :=
  Entry.fields_of_request (congrArg LogRecord.name isRecord)
    (congrArg LogRecord.extraFields isRecord)
    (by decide : ([lit "logger", lit "request_id", lit "method", lit "path", lit "status_code",
      lit "duration_ms"] : List Str).Nodup)

theorem fields_requestRaised
    {entry : Entry}
    {requestId method path : Str}
    {duration : Float64}
    (isRecord : entry.record = requestRaised requestId method path duration) :
    entry.field (lit "request_id") = some requestId ∧
      entry.field (lit "logger") = some requestLogger :=
  Entry.fields_of_request (congrArg LogRecord.name isRecord)
    (congrArg LogRecord.extraFields isRecord)
    (by decide : ([lit "logger", lit "request_id", lit "method", lit "path", lit "outcome",
      lit "duration_ms"] : List Str).Nodup)

/-- The line of an unhandled exception gives no request. -/
theorem fields_unhandledException
    {traceId : UUID}
    {traceback : Str}
    {entry : Entry}
    (isUnhandled : entry.IsUnhandled traceId traceback) :
    entry.field (lit "request_id") = none ∧ entry.field (lit "logger") = some mainLogger := by
  have keys : entry.record.extraFields.map Prod.fst = [lit "trace_id"] := by
    rw [isUnhandled.record]
    rfl
  constructor
  · apply Entry.field_of_lookup
    rw [Entry.payload, JsonFormatter.lookup_requestId_of_absent (keys ▸ by decide),
      isUnhandled.context]
    rfl
  · apply Entry.field_of_lookup
    rw [Entry.payload, JsonFormatter.lookup_logger_of_absent (keys ▸ by decide), isUnhandled.record]
    rfl

theorem isWritten_requestRaised
    (stopwatch : Stopwatch) (start now : PerfCounter) (requestId method path : Str) :
    (requestRaised requestId method path (stopwatch.milliseconds start now)).IsWritten where
  loud := (by decide : Level.info.levelno ≤ Level.error.levelno)
  writable := by simp [requestRaised, refused, Scalar.refused]

theorem isWritten_requestHandled
    (stopwatch : Stopwatch) (start now : PerfCounter) (requestId method path : Str)
    (response : Response) :
    (requestHandled requestId method path response.statusCode
      (stopwatch.milliseconds start now)).IsWritten where
  loud := (by decide : Level.info.levelno ≤ Level.info.levelno)
  writable := by
    have digits : (decimal response.statusCode).length ≤ maxStrDigits := by
      apply length_decimal_le (by decide)
      calc response.statusCode < 10 ^ 3 := response.isStatus
        _ ≤ 10 ^ maxStrDigits := Nat.pow_le_pow_right (by decide) (by decide)
    simp [requestHandled, refused, Scalar.refused, digits]

/-! ## Headers -/

/-- The response has each of the security headers, once. -/
def Response.IsSecured (response : Response) : Prop :=
  ∀ header ∈ securityHeaders, Dict.getlist (lower header.1) response.headers = [header.2]

/-- The names of the security headers, as they are sent. -/
theorem nodup_securityHeaders : (securityHeaders.map fun header => lower header.1).Nodup := by
  decide +kernel

/-- Headers with other names are left alone. -/
theorem getlist_foldl_setHeader_of_ne
    {name : Str}
    {headers : List (Str × Str)}
    (different : ∀ header ∈ headers, name ≠ lower header.1)
    (response : Response) :
    Dict.getlist name (headers.foldl (fun response header =>
      response.setHeader header.1 header.2) response).headers =
      Dict.getlist name response.headers := by
  induction headers generalizing response with
  | nil => rfl
  | cons header headers inductionHypothesis =>
      rw [List.foldl_cons, inductionHypothesis fun later isLater =>
        different later (List.mem_cons_of_mem _ isLater)]
      exact Dict.getlist_setItem_of_ne (different header List.mem_cons_self) _ _

/-- Each header that is set under a name of its own is there once. -/
theorem getlist_foldl_setHeader
    {headers : List (Str × Str)}
    (distinct : (headers.map fun header => lower header.1).Nodup)
    (response : Response) :
    ∀ header ∈ headers, Dict.getlist (lower header.1)
      (headers.foldl (fun response header => response.setHeader header.1 header.2)
        response).headers = [header.2] := by
  induction headers generalizing response with
  | nil => exact fun _ isMember => absurd isMember List.not_mem_nil
  | cons first headers inductionHypothesis =>
      rw [List.map_cons, List.nodup_cons] at distinct
      intro header isMember
      cases List.mem_cons.mp isMember with
      | inr isLater => exact inductionHypothesis distinct.2 _ header isLater
      | inl isFirst =>
          rw [isFirst, List.foldl_cons, getlist_foldl_setHeader_of_ne fun other isOther equal =>
            distinct.1 (List.mem_map.mpr ⟨other, isOther, equal.symm⟩)]
          exact Dict.getlist_setItem_self _ _ _

/-- Whatever the headers were, `set_security_headers` secures the response. -/
theorem isSecured_setSecurityHeaders (response : Response) :
    (setSecurityHeaders response).IsSecured :=
  getlist_foldl_setHeader nodup_securityHeaders response

theorem Response.IsSecured.setRequestId
    {response : Response}
    (isSecured : response.IsSecured)
    (id : Str) :
    (response.setHeader (lit "X-Request-ID") id).IsSecured := by
  intro header isHeader
  have different : ∀ header ∈ securityHeaders, lower header.1 ≠ lower (lit "X-Request-ID") := by
    decide +kernel
  rw [Response.setHeader, Dict.getlist_setItem_of_ne (different header isHeader)]
  exact isSecured header isHeader

end Core
end SigmaForge
