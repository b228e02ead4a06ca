import SigmaForge.Core.RequestLog
import SigmaForge.Foundation.Alone

/-!
# Runs of requests

What the middleware does to a request from its start to its end, and from this what the log
says in every run of any number of concurrent requests.
-/

namespace SigmaForge
namespace Core

open Text Json

/-! ## The course of a request -/

/-- What has been logged when the routers give an answer or raise. -/
abbrev RouterAnswers := List LogRecord → Except Raised Response → Prop

/-- The routers log only the given records, and answer as described. -/
def Routes {Effect : Type} {Reply : Effect → Type} (mayLog : LogRecord → Prop)
    (answers : RouterAnswers) (program : Web Reply Response) : Prop :=
  Follows (routing Reply mayLog) (some []) program
    fun phase result => ∀ records, phase = some records → answers records result

/-- The answer of the routers with the headers of the middleware. -/
def identified (id : UUID) (answer : Response) : Response :=
  (setSecurityHeaders answer).setHeader (lit "X-Request-ID") id.str

/-- The request with the id is being served, and the routers have logged the records. -/
structure Inside (id : UUID) (records : List LogRecord) (own : Own) : Prop where
  context : own.context = ⟨some id.str, none⟩
  drawn : id ∈ own.drawn
  inner : ∀ entry ∈ own.entries, entry.IsInner id
  records : own.entries.map Entry.record = records

/-- How the request middleware closes the log, by what the routers have made of the request:
what it passes on, and its lines. -/
inductive Closing (stopwatch : Stopwatch) (request : Request) (id : UUID)
    (route : Option Route) :
    Except Raised Response → Except Raised Response → List Entry → Prop
  | handled {answer : Response} {entry : Entry} :
      entry.IsHandled stopwatch request id route answer →
      Closing stopwatch request id route (.ok answer) (.ok (identified id answer)) [entry]
  | raised {traceback : Str} {entry : Entry} :
      entry.IsRaised stopwatch request id route →
      Closing stopwatch request id route (.error (.exception traceback))
        (.error (.exception traceback)) [entry]
  | cancelled :
      Closing stopwatch request id route (.error .cancelled) (.error .cancelled) []

/-- How the log of a request ends, by what the routers have made of it: the result, and the
lines of the middleware. -/
inductive Ending (stopwatch : Stopwatch) (request : Request) (id : UUID)
    (route : Option Route) :
    Except Raised Response → Except Raised Response → List Entry → Prop
  | handled {answer : Response} {entry : Entry} :
      entry.IsHandled stopwatch request id route answer →
      Ending stopwatch request id route (.ok answer) (.ok (identified id answer)) [entry]
  | unhandled {traceId : UUID} {traceback : Str} {entry entry' : Entry} :
      entry.IsRaised stopwatch request id route →
      entry'.IsUnhandled traceId traceback →
      Ending stopwatch request id route (.error (.exception traceback))
        (.ok (setSecurityHeaders (internalServerError request.path traceId.str))) [entry, entry']
  | cancelled :
      Ending stopwatch request id route (.error .cancelled) (.error .cancelled) []

/-- The lines of a request are those of the routers, and lines of the middleware that go with
the answer of the routers. -/
structure Trail (id : UUID) (answers : RouterAnswers)
    (lines : Option Route → Except Raised Response → List Entry → Prop) (own : Own) : Prop where
  drawn : id ∈ own.drawn
  entries : ∃ inner last answered, own.entries = inner ++ last ∧
    (∀ entry ∈ inner, entry.IsInner id) ∧ answers (inner.map Entry.record) answered ∧
    lines own.route answered last

theorem Trail.mono
    {id : UUID}
    {answers : RouterAnswers}
    {lines lines' : Option Route → Except Raised Response → List Entry → Prop}
    {own : Own}
    (trail : Trail id answers lines own)
    (implies : ∀ route answered last, lines route answered last → lines' route answered last) :
    Trail id answers lines' own := by
  obtain ⟨inner, last, answered, isEntries, areInner, isAnswer, isLast⟩ := trail.entries
  exact ⟨trail.drawn, inner, last, answered, isEntries, areInner, isAnswer,
    implies _ _ _ isLast⟩

section Course

variable
    {Body Effect : Type}
    {Reply : Effect → Type}
    {floats : FloatText}
    {mayLog : LogRecord → Prop}
    {debug : Bool}
    {stopwatch : Stopwatch}
    {request : Request}
    {pid : ProcId}
    {id : UUID}
    {answers : RouterAnswers}

/-- The part of the request may be taken to be known. -/
theorem outline_of_own
    {α : Type}
    {program : Web Reply α}
    {post : Except Raised α → World → Prop}
    (fact : Own → Prop)
    (outline : ∀ own, fact own →
      Outline (webMachine Body Reply floats debug) (logging floats mayLog) pid
        program (IsAt pid own) post) :
    Outline (webMachine Body Reply floats debug) (logging floats mayLog) pid program
      (fun world => fact (world.own pid)) post :=
  (Outline.exists fun own => Outline.of_fact (outline own)).weaken
    fun world _ holds => ⟨world.own pid, holds, rfl⟩

/-- The rule for `try … finally`. -/
theorem outline_finallyDo
    {α : Type}
    {body : Web Reply α}
    {cleanup : Web Reply Unit}
    {assertion : World → Prop}
    {between post : Except Raised α → World → Prop}
    (bodyOutline : Outline (webMachine Body Reply floats debug) (logging floats mayLog) pid
      body assertion between)
    (cleanupOutline : ∀ result,
      Outline (webMachine Body Reply floats debug) (logging floats mayLog) pid
        cleanup (between result) (byOutcome (fun _ => post result) fun _ _ => False)) :
    Outline (webMachine Body Reply floats debug) (logging floats mayLog) pid
      (finallyDo body cleanup)
      assertion post := by
  apply Outline.bind bodyOutline.attempt
  · intro result
    apply Outline.bind (cleanupOutline result)
    · intro _
      cases result with
      | ok value => exact fun _ _ holds => holds
      | error raised => exact fun _ _ holds => holds
    · exact fun _ _ _ unreachable => unreachable.elim
  · exact fun _ _ _ unreachable => unreachable.elim

/-! ### The routers -/

/-- One operation of a router. -/
theorem Inside.step
    {records : List LogRecord}
    {op : WebOp Effect}
    {answer : Except Raised (WebAnswer Reply op)}
    {world world' : World}
    (isAllowed : (routing Reply mayLog).allowed (some records) op)
    (sound : world.Sound floats mayLog)
    (inside : Inside id records (world.own pid))
    (performs : (webMachine Body Reply floats debug).perform pid op world answer world') :
    world'.Sound floats mayLog ∧ (logging floats mayLog).guarantee pid world world' ∧
      ∃ records', (routing Reply mayLog).next (some records) op answer = some records' ∧
        Inside id records' (world'.own pid) := by
  cases op with
  | uuid4 =>
      obtain ⟨drawn, isFresh, rfl, rfl⟩ := performs
      refine ⟨sound.draw isFresh, fun other isOther => own_draw_of_ne isOther drawn, records,
        rfl, ?_⟩
      rw [own_draw_self]
      exact ⟨inside.context, List.mem_cons_of_mem _ inside.drawn, inside.inner, inside.records⟩
  | setRequestId id => cases isAllowed
  | resetRequestId token => cases isAllowed
  | perfCounter =>
      obtain ⟨⟨now, rfl⟩, rfl⟩ := performs
      exact ⟨sound, fun _ _ => rfl, records, rfl, inside⟩
  | scopeRoute =>
      obtain ⟨rfl, rfl⟩ := performs
      exact ⟨sound, fun _ _ => rfl, records, rfl, inside⟩
  | matchRoute route =>
      obtain ⟨rfl, rfl⟩ := performs
      refine ⟨sound.setRoute _, fun other isOther => own_setRoute_of_ne isOther _, records, rfl,
        ?_⟩
      rw [own_setRoute_self]
      exact ⟨inside.context, inside.drawn, inside.inner, inside.records⟩
  | log record =>
      obtain ⟨rfl, now, rfl⟩ := performs
      have isRouters : record.IsInner ∧ mayLog record := by
        cases isAllowed with
        | inl isNone => cases isNone
        | inr isRouters => exact isRouters
      have isWritten := isRouters.1.isWritten
      let entry : Entry := ⟨some pid, now, world.context pid, record⟩
      have entryInner : entry.IsInner id := ⟨inside.context, isRouters.1⟩
      rw [World.emit_eq_write (isWritten.isEnabledFor debug) isWritten.writable]
      refine ⟨sound.write rfl (.router isRouters.2) ?_,
        fun other isOther => own_write_of_ne rfl isOther, records ++ [record], rfl, ?_⟩
      · intro requestId isField
        rw [entryInner.field_requestId] at isField
        exact ⟨id, inside.drawn, (Option.some.inj isField).symm⟩
      · rw [own_write_self rfl]
        refine ⟨inside.context, inside.drawn, fun other isOther => ?_, ?_⟩
        · cases List.mem_append.mp isOther with
          | inl isEarlier => exact inside.inner other isEarlier
          | inr isNew => exact List.mem_singleton.mp isNew ▸ entryInner
        · simp only [Own.write, List.map_append, inside.records]
          rfl
  | effect effect => exact performs.symm ▸ ⟨sound, fun _ _ => rfl, records, rfl, inside⟩

/-- The outline of the routers. -/
theorem outline_routers
    {α : Type}
    {program : Web Reply α}
    {phase : Option (List LogRecord)}
    {post : Option (List LogRecord) → Except Raised α → Prop}
    (follows : Follows (routing Reply mayLog) phase program post) :
    Outline (webMachine Body Reply floats debug) (logging floats mayLog) pid program
      (fun world => ∃ records, phase = some records ∧ Inside id records (world.own pid))
      fun result world => ∃ records, post (some records) result ∧
        Inside id records (world.own pid) := by
  induction program generalizing phase with
  | ret value =>
      intro world _ holds
      obtain ⟨records, isPhase, inside⟩ := holds
      exact ⟨records, isPhase ▸ follows, inside⟩
  | raise raised =>
      intro world _ holds
      obtain ⟨records, isPhase, inside⟩ := holds
      exact ⟨records, isPhase ▸ follows, inside⟩
  | call op next inductionHypothesis =>
      intro answer
      refine ⟨_, stable_own fun own => ∃ records,
        (routing Reply mayLog).next phase op answer = some records ∧ Inside id records own, ?_,
        inductionHypothesis answer (follows.2 answer)⟩
      intro world world' sound holds performs
      obtain ⟨records, rfl, inside⟩ := holds
      exact inside.step follows.1 sound performs

/-- Nothing has to be shown after an operation that cannot fail has failed. -/
theorem follows_of_none
    {Effect α : Type}
    {Reply : Effect → Type}
    {mayLog : LogRecord → Prop}
    (program : Web Reply α)
    {post : Option (List LogRecord) → Except Raised α → Prop}
    (isFree : ∀ result, post none result) :
    Follows (routing Reply mayLog) none program post := by
  induction program with
  | ret value => exact isFree _
  | raise raised => exact isFree _
  | call op next inductionHypothesis =>
      constructor
      · cases op <;> first | trivial | exact rfl | exact .inl rfl
      · intro answer
        have stays : (routing Reply mayLog).next none op answer = none := by
          cases op <;> cases answer <;> rfl
        rw [stays]
        exact inductionHypothesis answer

/-- The answer of the routers gets the security headers. -/
theorem outline_securityHeaders
    {program : Web Reply Response}
    (routes : Routes mayLog answers program) :
    Outline (webMachine Body Reply floats debug) (logging floats mayLog) pid
      (SecurityHeadersMiddleware.dispatch program) (fun world => Inside id [] (world.own pid))
      (byOutcome
        (fun response world => ∃ answer, response = setSecurityHeaders answer ∧
          ∃ records, answers records (.ok answer) ∧ Inside id records (world.own pid))
        fun raised world => ∃ records, answers records (.error raised) ∧
          Inside id records (world.own pid)) := by
  have routers : Outline (webMachine Body Reply floats debug) (logging floats mayLog) pid program
      (fun world => Inside id [] (world.own pid))
      (byOutcome
        (fun answer world => ∃ records, answers records (.ok answer) ∧
          Inside id records (world.own pid))
        fun raised world => ∃ records, answers records (.error raised) ∧
          Inside id records (world.own pid)) := by
    refine ((outline_routers routes).weaken fun world _ inside =>
      ⟨[], rfl, inside⟩).consequence ?_
    intro result world _ holds
    obtain ⟨records, isAnswer, inside⟩ := holds
    cases result with
    | ok answer => exact ⟨records, isAnswer records rfl, inside⟩
    | error raised => exact ⟨records, isAnswer records rfl, inside⟩
  apply Outline.bind routers
  · exact fun answer world _ inside => ⟨answer, rfl, inside⟩
  · exact fun _ _ _ inside => inside

/-! ### The request middleware -/

/-- A line of the middleware is written. -/
theorem outline_closing
    {records : List LogRecord}
    {own : Own}
    {record : LogRecord}
    (inside : Inside id records own)
    (isWritten : record.IsWritten)
    (isKnown : IsKnown mayLog record)
    (isOwn : ∀ entry : Entry, entry.record = record →
      entry.field (lit "request_id") = some id.str) :
    Outline (webMachine Body Reply floats debug) (logging floats mayLog) pid
      (performWeb (.log record))
      (IsAt pid own)
      (byOutcome (fun _ world => ∃ entry, entry.context = ⟨some id.str, none⟩ ∧
          entry.record = record ∧ IsAt pid (own.write entry) world)
        fun _ _ => False) := by
  refine (outline_log isWritten isKnown fun now requestId isField => ?_).consequence ?_
  · rw [isOwn _ rfl] at isField
    exact ⟨id, inside.drawn, (Option.some.inj isField).symm⟩
  · intro result world _ holds
    cases result with
    | ok _ =>
        obtain ⟨now, isAt⟩ := holds
        exact ⟨_, inside.context, rfl, isAt⟩
    | error raised => exact holds

/-- The trail after a line of the middleware. -/
theorem Inside.trail
    {records : List LogRecord}
    {own : Own}
    {entry : Entry}
    {answered : Except Raised Response}
    {lines : Option Route → Except Raised Response → List Entry → Prop}
    (inside : Inside id records own)
    (isAnswer : answers records answered)
    (isLine : lines own.route answered [entry]) :
    Trail id answers lines (own.write entry) :=
  ⟨inside.drawn, own.entries, [entry], answered, rfl, inside.inner,
    inside.records.symm ▸ isAnswer, isLine⟩

theorem outline_logRaised
    {returned : Response → World → Prop}
    (start : PerfCounter)
    (raised : Raised) :
    Outline (webMachine Body Reply floats debug) (logging floats mayLog) pid
      (logRaised stopwatch request id.str start raised)
      (fun world => ∃ records, answers records (.error raised) ∧
        Inside id records (world.own pid))
      (byOutcome returned fun raised world => Trail id answers (fun route answered =>
        Closing stopwatch request id route answered (.error raised)) (world.own pid)) := by
  refine Outline.exists fun records => Outline.of_fact fun isAnswer =>
    outline_of_own (Inside id records) fun own inside => ?_
  cases raised with
  | cancelled =>
      intro world _ isAt
      cases isAt
      exact ⟨inside.drawn, _, [], _, (List.append_nil _).symm, inside.inner,
        inside.records.symm ▸ isAnswer, .cancelled⟩
  | exception traceback =>
      apply Outline.bind outline_safeRoutePath
      · refine fun path => Outline.of_fact fun isPath => ?_
        apply Outline.bind outline_perfCounter
        · intro now
          apply Outline.bind (outline_closing inside (isWritten_requestRaised _ _ _ _ _ _)
            (isPath ▸ .raised id request own.route _)
            fun entry isRecord => (fields_requestRaised isRecord).1)
          · intro _ world _ holds
            obtain ⟨entry, isContext, isRecord, isAt⟩ := holds
            change Trail id answers _ (world.own pid)
            rw [show world.own pid = own.write entry from isAt]
            exact inside.trail isAnswer (.raised ⟨isContext, start, now, isPath ▸ isRecord⟩)
          · exact fun _ _ _ unreachable => unreachable.elim
        · exact fun _ _ _ unreachable => unreachable.elim
      · exact fun _ _ _ unreachable => unreachable.elim

theorem outline_logHandled (start : PerfCounter) (answer : Response) :
    Outline (webMachine Body Reply floats debug) (logging floats mayLog) pid
      (logHandled stopwatch request id.str start (setSecurityHeaders answer))
      (fun world => ∃ records, answers records (.ok answer) ∧ Inside id records (world.own pid))
      fun result world => Trail id answers (fun route answered =>
        Closing stopwatch request id route answered result) (world.own pid) := by
  refine Outline.exists fun records => Outline.of_fact fun isAnswer =>
    outline_of_own (Inside id records) fun own inside => ?_
  apply Outline.bind outline_safeRoutePath
  · refine fun path => Outline.of_fact fun isPath => ?_
    apply Outline.bind outline_perfCounter
    · intro now
      apply Outline.bind (outline_closing inside
        (isWritten_requestHandled _ _ _ _ _ _ (identified id answer))
        (isPath ▸ .handled id request own.route (identified id answer) _)
        fun entry isRecord => (fields_requestHandled isRecord).1)
      · intro _ world _ holds
        obtain ⟨entry, isContext, isRecord, isAt⟩ := holds
        rw [show world.own pid = own.write entry from isAt]
        exact inside.trail isAnswer
          (.handled ⟨isContext, start, now, isPath ▸ isRecord⟩)
      · exact fun _ _ _ unreachable => unreachable.elim
    · exact fun _ _ _ unreachable => unreachable.elim
  · exact fun _ _ _ unreachable => unreachable.elim

theorem outline_observe
    {program : Web Reply Response}
    (routes : Routes mayLog answers program)
    (start : PerfCounter) :
    Outline (webMachine Body Reply floats debug) (logging floats mayLog) pid
      (observe stopwatch request id.str start (SecurityHeadersMiddleware.dispatch program))
      (fun world => Inside id [] (world.own pid))
      fun result world => Trail id answers (fun route answered =>
        Closing stopwatch request id route answered result) (world.own pid) := by
  apply Outline.bind
  · apply Outline.catchWith (outline_securityHeaders routes)
    · exact fun _ _ _ holds => holds
    · exact fun raised => outline_logRaised start raised
  · refine fun response => Outline.exists fun answer => Outline.of_fact fun isAnswer => ?_
    subst isAnswer
    exact outline_logHandled start answer
  · exact fun _ _ _ trail => trail

/-- Nothing has happened to the request yet. -/
def Own.start : Own := ⟨[], .default, none, []⟩

/-- The outline of the request middleware. -/
theorem outline_requestLogging
    {program : Web Reply Response}
    (routes : Routes mayLog answers program) :
    Outline (webMachine Body Reply floats debug) (logging floats mayLog) pid
      (RequestLoggingMiddleware.dispatch stopwatch request
        (SecurityHeadersMiddleware.dispatch program))
      (IsAt pid .start)
      fun result world => ∃ id, Trail id answers (fun route answered =>
          Closing stopwatch request id route answered result) (world.own pid) ∧
        (world.own pid).context.requestId = none := by
  apply Outline.bind outline_uuid4
  · intro id
    apply Outline.bind (outline_setRequestId id.str)
    · refine fun token => Outline.of_fact fun isToken => ?_
      subst isToken
      apply Outline.bind outline_perfCounter
      · intro start
        refine outline_finallyDo ((outline_observe routes start).weaken ?_) fun result => ?_
        · intro world _ isAt
          rw [show world.own pid = _ from isAt]
          exact ⟨rfl, List.mem_singleton_self id, by simp [Own.start], rfl⟩
        · refine outline_of_own (Trail id answers fun route answered =>
            Closing stopwatch request id route answered result) fun own trail =>
            (outline_resetRequestId none).consequence ?_
          intro reset world _ isAt
          cases reset with
          | error raised => exact isAt.elim
          | ok _ =>
              refine ⟨id, ?_⟩
              rw [show world.own pid = _ from isAt]
              exact ⟨⟨trail.drawn, trail.entries⟩, rfl⟩
      · exact fun _ _ _ unreachable => unreachable.elim
    · exact fun _ _ _ unreachable => unreachable.elim
  · exact fun _ _ _ unreachable => unreachable.elim

/-! ### Unhandled exceptions -/

/-- What is left of a request after the request middleware. -/
theorem outline_handleUnhandled (raised : Raised) :
    Outline (webMachine Body Reply floats debug) (logging floats mayLog) pid
      (handleUnhandled request raised)
      (fun world => Trail id answers (fun route answered =>
          Closing stopwatch request id route answered (.error raised)) (world.own pid) ∧
        (world.own pid).context.requestId = none)
      fun result world => Trail id answers (fun route answered =>
        Ending stopwatch request id route answered result) (world.own pid) := by
  refine outline_of_own (fun own => Trail id answers (fun route answered =>
    Closing stopwatch request id route answered (.error raised)) own ∧
      own.context.requestId = none) fun own holds => ?_
  obtain ⟨trail, isReset⟩ := holds
  obtain ⟨inner, last, answered, isEntries, areInner, isAnswer, closing⟩ := trail.entries
  cases closing with
  | cancelled =>
      intro world _ isAt
      cases isAt
      exact ⟨trail.drawn, inner, [], _, isEntries, areInner, isAnswer, .cancelled⟩
  | @raised traceback entry isRaised =>
      apply Outline.bind outline_uuid4
      · intro traceId
        let entry' : UtcTime → Entry := fun now =>
          ⟨some pid, now, own.context, unhandledException traceId.str traceback⟩
        have isUnhandled : ∀ now, (entry' now).IsUnhandled traceId traceback :=
          fun now => ⟨isReset, rfl⟩
        have isWritten : (unhandledException traceId.str traceback).IsWritten :=
          ⟨(by decide : Level.info.levelno ≤ Level.error.levelno),
            by simp [unhandledException, refused, Scalar.refused]⟩
        apply Outline.bind (outline_log isWritten (.unhandled traceId traceback)
          fun now requestId isField => ?_)
        · intro _ world _ holds
          obtain ⟨now, isAt⟩ := holds
          rw [show world.own pid = _ from isAt]
          refine ⟨List.mem_cons_of_mem _ trail.drawn, inner, [entry, entry' now], _, ?_, areInner,
            isAnswer, .unhandled isRaised (isUnhandled now)⟩
          simp [Own.write, isEntries, entry']
        · exact fun _ _ _ unreachable => unreachable.elim
        · rw [(fields_unhandledException (isUnhandled now)).1] at isField
          cases isField
      · exact fun _ _ _ unreachable => unreachable.elim

/-- The outline of a request. -/
theorem outline_createApp
    {routers : Incoming Body → Web Reply Response}
    {incoming : Incoming Body}
    (routes : Routes mayLog answers (routers incoming)) :
    Outline (webMachine Body Reply floats debug) (logging floats mayLog) pid
      (createApp stopwatch routers incoming) (IsAt pid .start)
      fun result world => ∃ id, Trail id answers (fun route answered =>
        Ending stopwatch incoming.request id route answered result) (world.own pid) := by
  have dispatched : Outline (webMachine Body Reply floats debug) (logging floats mayLog) pid
      (RequestLoggingMiddleware.dispatch stopwatch incoming.request
        (SecurityHeadersMiddleware.dispatch (routers incoming)))
      (IsAt pid .start)
      (byOutcome
        (fun response world => ∃ id, Trail id answers (fun route answered =>
          Ending stopwatch incoming.request id route answered (.ok response)) (world.own pid))
        fun raised world => ∃ id, Trail id answers (fun route answered =>
            Closing stopwatch incoming.request id route answered (.error raised))
              (world.own pid) ∧
          (world.own pid).context.requestId = none) := by
    apply (outline_requestLogging routes).consequence
    intro result world _ holds
    cases result with
    | error raised => exact holds
    | ok response =>
        obtain ⟨id, trail, _⟩ := holds
        refine ⟨id, trail.mono fun route answered last closing => ?_⟩
        cases closing with
        | handled isHandled => exact .handled isHandled
  apply Outline.catchWith dispatched
  · exact fun _ _ _ trail => trail
  · intro raised
    refine Outline.exists fun id => (outline_handleUnhandled raised).consequence ?_
    exact fun _ _ _ trail => ⟨id, trail⟩

end Course

/-! ## The log -/

section Log

variable
    {Body Effect : Type}
    {Reply : Effect → Type}
    {floats : FloatText}
    {mayLog : LogRecord → Prop}
    {debug : Bool}
    {stopwatch : Stopwatch}
    {request : Request}
    {pid : ProcId}
    {id : UUID}
    {route : Option Route}
    {answered result : Except Raised Response}
    {inner last : List Entry}
    {world : World}

/-- What requests that have ended have left, and that nothing has happened to the others. -/
theorem outlined_createApp
    {routers : Incoming Body → Web Reply Response}
    {answers : Incoming Body → RouterAnswers}
    (routes : ∀ incoming, Routes mayLog (answers incoming) (routers incoming)) :
    Outlined (webMachine Body Reply floats debug) (logging floats mayLog)
      (createApp stopwatch routers)
      (fun pid world => (world.own pid).entries = [] ∧ (world.own pid).drawn = [])
      fun pid incoming result world => ∃ id, Trail id (answers incoming) (fun route answered =>
        Ending stopwatch incoming.request id route answered result) (world.own pid) where
  idle_stable _ := stable_own fun own => own.entries = [] ∧ own.drawn = []
  post_stable _ incoming result := stable_own fun own => ∃ id, Trail id (answers incoming)
    (fun route answered => Ending stopwatch incoming.request id route answered result) own
  environment _ _ _ unreachable := unreachable.elim
  outline pid incoming := by
    refine ⟨IsAt pid .start, stable_isAt _, fun world sound isIdle => ?_, ?_⟩
    · refine ⟨(sound.setContext .default).setRoute none, fun other isOther => ?_, ?_⟩
      · exact (own_setRoute_of_ne isOther none).trans (own_setContext_of_ne isOther .default)
      · refine (own_setRoute_self none).trans ?_
        rw [own_setContext_self]
        simp only [isIdle.1, isIdle.2]
        rfl
    · apply (outline_createApp (routes incoming)).consequence
      intro result world sound trail
      exact ⟨sound, fun _ _ => rfl, trail⟩

/-- After the start, a line has been written that belongs to no request. -/
theorem sound_started
    (floats : FloatText)
    (mayLog : LogRecord → Prop)
    (debug : Bool)
    (now : UtcTime)
    (environment : Str) :
    (World.started floats debug now environment).Sound floats mayLog ∧
      ∀ pid, ((World.started floats debug now environment).own pid).entries = [] ∧
        ((World.started floats debug now environment).own pid).drawn = [] := by
  have isWritten : (startupComplete environment).IsWritten :=
    ⟨(by decide : Level.info.levelno ≤ Level.info.levelno),
      by simp [startupComplete, refused, Scalar.refused]⟩
  have isStarted : World.started floats debug now environment =
      World.write floats ⟨none, now, .default, startupComplete environment⟩
        ⟨[], [], fun _ => .default, fun _ => none, []⟩ :=
    World.emit_eq_write (isWritten.isEnabledFor debug) isWritten.writable floats none now _ _
  have noRequest : Entry.field (lit "request_id")
      ⟨none, now, .default, startupComplete environment⟩ = none := by
    apply Entry.field_of_lookup
    exact JsonFormatter.lookup_requestId_of_absent
      (by decide : lit "request_id" ∉ ([lit "environment"] : List Str))
  rw [isStarted]
  refine ⟨⟨by simp [World.write], List.nodup_nil, fun entry isEntry requestId isField => ?_,
    fun entry isEntry => ?_⟩, fun pid => by simp [World.own, World.write]⟩
  · cases List.mem_singleton.mp isEntry
    rw [noRequest] at isField
    cases isField
  · exact List.mem_singleton.mp isEntry ▸ .startup environment

/-- The entries of the request logger under a request id. -/
def World.requestEntries (requestId : Str) (world : World) : List Entry :=
  world.entries.filter fun entry => entry.field (lit "logger") = some requestLogger ∧
    entry.field (lit "request_id") = some requestId

/-- The entries of the request logger under the id of a request are those at the end of its
own. -/
theorem requestEntries_of_ending
    (sound : world.Sound floats mayLog)
    (isDrawn : (pid, id) ∈ world.drawn)
    (isEntries : (world.entries.filter fun entry => entry.writer = some pid) = inner ++ last)
    (areInner : ∀ entry ∈ inner, entry.IsInner id)
    (ending : Ending stopwatch request id route answered result last) :
    world.requestEntries id.str = last.take 1 := by
  have ofRequest : ∀ entry ∈ world.entries,
      entry.field (lit "request_id") = some id.str → entry.writer = some pid := by
    intro entry isEntry isField
    obtain ⟨writer, drawn, isWriter, byWriter, sameText⟩ :=
      sound.attributed entry isEntry _ isField
    have sameId : id = drawn := UUID.str_injective sameText
    have same := List.inj_on_of_nodup_map sound.distinct isDrawn byWriter sameId
    rw [isWriter, (Prod.mk.inj same).1]
  have own : world.requestEntries id.str = (inner ++ last).filter fun entry =>
      entry.field (lit "logger") = some requestLogger ∧
        entry.field (lit "request_id") = some id.str := by
    rw [World.requestEntries, ← isEntries, List.filter_filter]
    apply List.filter_congr
    intro entry isEntry
    by_cases isField : entry.field (lit "request_id") = some id.str
    · simp [ofRequest entry isEntry isField]
    · simp [isField]
  have noInner : inner.filter (fun entry => entry.field (lit "logger") = some requestLogger ∧
      entry.field (lit "request_id") = some id.str) = [] := by
    apply List.filter_eq_nil_iff.mpr
    intro entry isEntry
    simp [(areInner entry isEntry).field_logger]
  rw [own, List.filter_append, noInner, List.nil_append]
  cases ending with
  | handled isHandled =>
      obtain ⟨start, now, isRecord⟩ := isHandled.record
      simp [fields_requestHandled isRecord]
  | unhandled isRaised isUnhandled =>
      obtain ⟨start, now, isRecord⟩ := isRaised.record
      simp [fields_requestRaised isRecord, fields_unhandledException isUnhandled]
  | cancelled => rfl

/-! ### Reading -/

theorem isClean_safeTemplate (route : Option Route) : IsClean (safeTemplate route) := by
  have isUnmatched : IsClean unmatched := isClean_of_printable (by decide)
  unfold safeTemplate
  split
  · rename_i template isTemplate
    split
    · obtain ⟨found, _, hasTemplate⟩ := Option.bind_eq_some_iff.mp isTemplate
      exact found.clean template hasTemplate
    · exact isUnmatched
  · exact isUnmatched

theorem loadable_text {content : Str} (isClean : IsClean content) : (text content).Loadable :=
  .scalar isClean

/-- What the middleware logs inside a request can be read back. -/
theorem isLoadable_of_printable
    {record : LogRecord}
    (name : Printable record.name)
    (message : Printable record.message)
    (noException : record.exception = none)
    (extraFields : ∀ member ∈ record.extraFields, Printable member.1 ∧ member.2.Loadable)
    (id : UUID) :
    record.IsLoadable ⟨some id.str, none⟩ where
  name := isClean_of_printable name
  message := isClean_of_printable message
  requestId requestId isId := Option.some.inj isId ▸ isClean_uuid id
  userId userId isId := by cases isId
  exception traceback isTraceback := by
    rw [noException] at isTraceback
    cases isTraceback
  extraFields member isMember :=
    ⟨isClean_of_printable (extraFields member isMember).1, (extraFields member isMember).2⟩

/-- The lines of the request logger can be read back. -/
theorem Ending.isLoadable (ending : Ending stopwatch request id route answered result last) :
    ∀ entry ∈ last.take 1, entry.record.IsLoadable entry.context := by
  have requestId := loadable_text (isClean_uuid id)
  have method := loadable_text (isClean_of_ascii request.ascii)
  have path := loadable_text (isClean_safeTemplate route)
  have duration : ∀ start now,
      (Value.scalar (.float (stopwatch.milliseconds start now))).Loadable :=
    fun start now => .scalar (stopwatch.isfinite start now)
  cases ending with
  | @handled answer entry isHandled =>
      obtain ⟨start, now, isRecord⟩ := isHandled.record
      have status : (Value.scalar (.int answer.statusCode)).Loadable := by
        refine .scalar (lt_of_lt_of_le ?_ (Nat.pow_le_pow_right (by decide) (by decide :
          3 ≤ maxStrDigits)))
        exact answer.isStatus
      intro other isOther
      rw [List.mem_singleton.mp isOther, isHandled.context, isRecord]
      refine isLoadable_of_printable (by decide : Printable requestLogger)
        (by decide : Printable (lit "request handled")) rfl ?_ id
      simp only [requestHandled, List.forall_mem_cons, List.not_mem_nil, false_imp_iff,
        implies_true, and_true]
      exact ⟨⟨by decide, requestId⟩, ⟨by decide, method⟩, ⟨by decide, path⟩,
        ⟨by decide, status⟩, by decide, duration start now⟩
  | unhandled isRaised _ =>
      obtain ⟨start, now, isRecord⟩ := isRaised.record
      have outcome : (text (lit "exception")).Loadable :=
        loadable_text (isClean_of_printable (by decide))
      intro other isOther
      rw [List.mem_singleton.mp isOther, isRaised.context, isRecord]
      refine isLoadable_of_printable (by decide : Printable requestLogger)
        (by decide : Printable (lit "request raised an exception")) rfl ?_ id
      simp only [requestRaised, List.forall_mem_cons, List.not_mem_nil, false_imp_iff,
        implies_true, and_true]
      exact ⟨⟨by decide, requestId⟩, ⟨by decide, method⟩, ⟨by decide, path⟩,
        ⟨by decide, outcome⟩, by decide, duration start now⟩
  | cancelled => exact fun _ isMember => absurd isMember List.not_mem_nil

/-- What the handler has written is made of the lines of the entries, wherever a reader stops,
and a line that can be read back is read back as the payload of its record. -/
structure World.IsReadable (floats : FloatText) (hooks : Hooks) (world : World) : Prop where
  lines : readLines world.stdout = world.entries.map (Entry.line floats)
  cut : ∀ text, text <+: world.stdout →
    ∃ count, readLines text = (world.entries.take count).map (Entry.line floats)
  loads : ∀ entry ∈ world.entries, entry.record.IsLoadable entry.context →
    loads floats hooks (entry.line floats) = .ok (.object entry.payload)

theorem World.Sound.isReadable
    (sound : world.Sound floats mayLog)
    {hooks : Hooks}
    (keepsDistinct : hooks.KeepsDistinct) :
    world.IsReadable floats hooks := by
  have unbroken : ∀ line ∈ world.entries.map (Entry.line floats), newline ∉ line := by
    intro line isLine
    obtain ⟨entry, _, rfl⟩ := List.mem_map.mp isLine
    exact newline_not_mem_encode floats _
  refine ⟨?_, fun text isPrefix => ?_, fun entry _ isLoadable => ?_⟩
  · rw [sound.stdout]
    exact readLines_writeLines unbroken
  · rw [sound.stdout] at isPrefix
    obtain ⟨count, unfinished, rfl, absent⟩ := exists_lines_of_prefix unbroken isPrefix
    refine ⟨count, ?_⟩
    rw [readLines_writeLines_append
      (fun line isLine => unbroken line (List.mem_of_mem_take isLine)) absent, List.map_take]
  · exact loads_encode keepsDistinct (isLoadable.payload entry.now)

/-- What the log and the response say about a request that has ended, by its id. -/
structure Observed (stopwatch : Stopwatch) (answers : RouterAnswers) (request : Request)
    (result : Except Raised Response) (pid : ProcId) (world : World) (id : UUID) : Prop where
  drawn : (pid, id) ∈ world.drawn
  entries : ∃ inner last answered,
    (world.entries.filter fun entry => entry.writer = some pid) = inner ++ last ∧
    (∀ entry ∈ inner, entry.IsInner id) ∧ answers (inner.map Entry.record) answered ∧
    Ending stopwatch request id (world.route pid) answered result last ∧
    world.requestEntries id.str = last.take 1
  loadable : ∀ entry ∈ world.requestEntries id.str, entry.record.IsLoadable entry.context
  secured : ∀ response, result = .ok response → response.IsSecured

theorem Trail.observed
    {answers : RouterAnswers}
    (trail : Trail id answers (fun route answered =>
      Ending stopwatch request id route answered result) (world.own pid))
    (sound : world.Sound floats mayLog) :
    Observed stopwatch answers request result pid world id := by
  have isDrawn : (pid, id) ∈ world.drawn := mem_own_drawn.mp trail.drawn
  obtain ⟨inner, last, answered, isEntries, areInner, isAnswer, ending⟩ := trail.entries
  have isLast := requestEntries_of_ending sound isDrawn isEntries areInner ending
  refine ⟨isDrawn, ⟨inner, last, answered, isEntries, areInner, isAnswer, ending, isLast⟩,
    isLast.symm ▸ ending.isLoadable, fun response isResponse => ?_⟩
  cases ending with
  | @handled answer _ _ =>
      cases isResponse
      exact (isSecured_setSecurityHeaders answer).setRequestId id.str
  | unhandled _ _ =>
      cases isResponse
      exact isSecured_setSecurityHeaders _
  | cancelled => cases isResponse

/-- Every run keeps the log in order, and what it says about a request that has ended can be
observed. -/
theorem observed_of_reachable
    {routers : Incoming Body → Web Reply Response}
    {answers : Incoming Body → RouterAnswers}
    (routes : ∀ incoming, Routes mayLog (answers incoming) (routers incoming))
    {now : UtcTime}
    {environment : Str}
    {config : Config Raised (WebAnswer Reply) (Incoming Body) World Response}
    (reachable : Reachable (webMachine Body Reply floats debug) (createApp stopwatch routers)
      (.started floats debug now environment) config) :
    config.shared.Sound floats mayLog ∧
      ∀ pid incoming result, config.process pid = some (incoming, .finished result) →
        ∃ id, Observed stopwatch (answers incoming) incoming.request result pid config.shared
          id := by
  have started := sound_started floats mayLog debug now environment
  have sound := (outlined_createApp routes).sound started.1 started.2 reachable
  refine ⟨sound.1, fun pid incoming result isFinished => ?_⟩
  obtain ⟨id, trail⟩ := sound.2 pid incoming result isFinished
  exact ⟨id, trail.observed sound.1⟩

end Log

/-! ### A request alone -/

/-- The response of `healthz`. -/
def healthy : Response where
  statusCode := 200
  isStatus := isStatus_ok
  headers := [(lit "content-type", lit "application/json")]
  content := some (.object [(lit "status", text (lit "ok"))])

/-- `healthz`, which waits for nothing. -/
def healthz {Body : Type} (_ : Incoming Body) : Web (fun _ : Empty => Unit) Response := do
  performWeb (.matchRoute
    { path := some (lit "/healthz")
      clean := fun _ isPath => Option.some.inj isPath ▸ isClean_of_printable (by decide) })
  pure healthy

theorem routes_healthz {Body : Type} (incoming : Incoming Body) :
    Routes (fun _ => False) (fun records answered => records = [] ∧ answered = .ok healthy)
      (healthz incoming) := by
  refine ⟨trivial, fun matched => ?_⟩
  cases matched with
  | error raised => exact follows_of_none _ fun result records isPhase => nomatch isPhase
  | ok _ =>
      intro records isPhase
      cases isPhase
      exact ⟨rfl, rfl⟩

/-- A stopwatch that always shows zero. -/
def Stopwatch.stopped : Stopwatch where
  milliseconds _ _ := ⟨0⟩
  isfinite _ _ := by decide

/-- A probe, and whether the endpoint fails. -/
def probe (fails : Bool) : Incoming Bool where
  request :=
    { method := lit "GET"
      path := lit "/healthz"
      ascii := fun c isMember => Nat.lt_of_le_of_lt
        ((by decide : Printable (lit "GET")) c isMember).2 (by decide) }
  body := fails

/-- `healthz`, or an endpoint that raises before a route is known. -/
def probed (incoming : Incoming Bool) : Web (fun _ : Empty => Unit) Response :=
  match incoming.body with
  | false => healthz incoming
  | true => throw (.exception (lit "RuntimeError"))

/-- What the endpoints of the probes answer. -/
def ProbeAnswers (incoming : Incoming Bool) : RouterAnswers := fun records answered =>
  records = [] ∧ answered =
    if incoming.body then .error (.exception (lit "RuntimeError")) else .ok healthy

theorem routes_probed (incoming : Incoming Bool) :
    Routes (fun _ => False) (ProbeAnswers incoming) (probed incoming) := by
  obtain ⟨request, fails⟩ := incoming
  cases fails with
  | false => exact routes_healthz (probe false)
  | true =>
      intro records isPhase
      cases isPhase
      exact ⟨rfl, rfl⟩

theorem probe_canEnd
    (floats : FloatText)
    (now : UtcTime)
    (pid : ProcId)
    {world : World}
    {id : UUID}
    (isFresh : id ∉ world.drawn.map Prod.snd) :
    CanEnd (webMachine Bool (fun _ : Empty => Unit) floats false) pid
      (fun result world' => result = .ok (identified id healthy) ∧
        world'.drawn = (pid, id) :: world.drawn)
      (createApp .stopped probed (probe false)) world := by
  refine .call _ ⟨id, isFresh, rfl, rfl⟩ ?_
  refine .call (.ok _) ⟨rfl, rfl⟩ ?_
  refine .call (.ok _) ⟨⟨⟨0, by decide⟩, rfl⟩, rfl⟩ ?_
  refine .call (.ok ()) ⟨rfl, rfl⟩ ?_
  refine .call (.ok _) ⟨rfl, rfl⟩ ?_
  refine .call (.ok _) ⟨⟨⟨0, by decide⟩, rfl⟩, rfl⟩ ?_
  refine .call (.ok ()) ⟨rfl, now, rfl⟩ ?_
  refine .call (.ok ()) ⟨rfl, rfl⟩ ?_
  exact .ret ⟨rfl, World.drawn_emit ..⟩

theorem failing_canEnd
    (floats : FloatText)
    (now : UtcTime)
    (pid : ProcId)
    {world : World}
    {id traceId : UUID}
    (isFresh : id ∉ world.drawn.map Prod.snd)
    (isTraceFresh : traceId ∉ world.drawn.map Prod.snd)
    (different : traceId ≠ id) :
    CanEnd (webMachine Bool (fun _ : Empty => Unit) floats false) pid
      (fun result _ => result =
        .ok (setSecurityHeaders (internalServerError (lit "/healthz") traceId.str)))
      (createApp .stopped probed (probe true)) world := by
  refine .call _ ⟨id, isFresh, rfl, rfl⟩ ?_
  refine .call (.ok _) ⟨rfl, rfl⟩ ?_
  refine .call (.ok _) ⟨⟨⟨0, by decide⟩, rfl⟩, rfl⟩ ?_
  -- the endpoint raises
  refine .call (.ok _) ⟨rfl, rfl⟩ ?_
  refine .call (.ok _) ⟨⟨⟨0, by decide⟩, rfl⟩, rfl⟩ ?_
  refine .call (.ok ()) ⟨rfl, now, rfl⟩ ?_
  refine .call (.ok ()) ⟨rfl, rfl⟩ ?_
  -- the exception is handled
  refine .call _ ⟨traceId, ?_, rfl, rfl⟩ ?_
  · simpa [World.draw, World.setContext, different] using isTraceFresh
  refine .call (.ok ()) ⟨rfl, now, rfl⟩ ?_
  exact .ret rfl

theorem nothingDrawn_started
    (floats : FloatText) (debug : Bool) (now : UtcTime) (environment : Str) :
    (World.started floats debug now environment).drawn = [] :=
  World.drawn_emit ..

/-- There is a run in which one probe is answered, and a second one fails. -/
theorem probes_run (floats : FloatText) (now : UtcTime) :
    ∃ config : Config Raised (WebAnswer fun _ : Empty => Unit) (Incoming Bool) World Response,
      Reachable (webMachine Bool _ floats false) (createApp .stopped probed)
        (.started floats false now (lit "test")) config ∧
      config.process 0 = some (probe false, .finished (.ok (identified 1 healthy))) ∧
      config.process 1 = some (probe true, .finished (.ok
        (setSecurityHeaders (internalServerError (lit "/healthz") (UUID.str 3))))) := by
  have nothingDrawn := nothingDrawn_started floats false now (lit "test")
  have isFresh : (1 : UUID) ∉ (World.started floats false now (lit "test")).drawn.map Prod.snd := by
    simp [nothingDrawn]
  have answers : CanEnd (webMachine Bool (fun _ : Empty => Unit) floats false) 0 _
      (createApp .stopped probed (probe false)) ((webMachine Bool (fun _ : Empty => Unit) floats
        false).opening 0 (probe false) (.started floats false now (lit "test"))) :=
    probe_canEnd floats now 0 isFresh
  obtain ⟨_, between, ⟨rfl, isDrawn⟩, steps⟩ := answers.serve (fun _ => none) rfl
  have stillFresh : ∀ id : UUID, id ≠ 1 → id ∉ between.drawn.map Prod.snd := by
    intro id different
    have isDrawn : between.drawn =
        (0, 1) :: (World.started floats false now (lit "test")).drawn := isDrawn
    simp [isDrawn, nothingDrawn, different]
  have fails : CanEnd (webMachine Bool (fun _ : Empty => Unit) floats false) 1 _
      (createApp .stopped probed (probe true)) ((webMachine Bool (fun _ : Empty => Unit) floats
        false).opening 1 (probe true) between) :=
    failing_canEnd floats now 1 (stillFresh 2 (by decide)) (stillFresh 3 (by decide)) (by decide)
  obtain ⟨_, last, rfl, steps'⟩ := fails.serve (Function.update (fun _ => none) 0
    (some (probe false, .finished (.ok (identified 1 healthy))))) rfl
  exact ⟨_, Relation.ReflTransGen.trans steps steps', rfl, rfl⟩

section Main

variable
    {Body Effect : Type}
    {Reply : Effect → Type}
    {floats : FloatText}
    {mayLog : LogRecord → Prop}
    {debug : Bool}
    {stopwatch : Stopwatch}

/-- In every run of any number of concurrent requests, the log can be read line by line,
wherever a reader stops; a line gives the id of a request only if this request has written
it; nothing but known records is logged; and each request that has ended has one line of the
request logger, which says how it has ended. -/
theorem requests_logged
    {hooks : Hooks}
    (keepsDistinct : hooks.KeepsDistinct)
    {routers : Incoming Body → Web Reply Response}
    {answers : Incoming Body → RouterAnswers}
    (routes : ∀ incoming, Routes mayLog (answers incoming) (routers incoming))
    {now : UtcTime}
    {environment : Str}
    {config : Config Raised (WebAnswer Reply) (Incoming Body) World Response}
    (reachable : Reachable (webMachine Body Reply floats debug) (createApp stopwatch routers)
      (.started floats debug now environment) config) :
    config.shared.IsReadable floats hooks ∧
      (∀ entry ∈ config.shared.entries, ∀ requestId,
        entry.field (lit "request_id") = some requestId →
        ∃ pid id, entry.writer = some pid ∧ (pid, id) ∈ config.shared.drawn ∧
          requestId = id.str) ∧
      (∀ entry ∈ config.shared.entries, IsKnown mayLog entry.record) ∧
      ∀ pid incoming result, config.process pid = some (incoming, .finished result) →
        ∃ id, Observed stopwatch (answers incoming) incoming.request result pid config.shared
          id :=
  have observed := observed_of_reachable routes reachable
  ⟨observed.1.isReadable keepsDistinct, observed.1.attributed, observed.1.known, observed.2⟩

/-- A probe is logged, and so is one that fails. -/
theorem sample_requests_logged :
    ∃ config : Config Raised (WebAnswer fun _ : Empty => Unit) (Incoming Bool) World Response,
      config.process 0 = some (probe false, .finished (.ok (identified 1 healthy))) ∧
      config.process 1 = some (probe true, .finished (.ok
        (setSecurityHeaders (internalServerError (lit "/healthz") (UUID.str 3))))) ∧
      config.shared.IsReadable .ofBits ⟨fun members => some (.object members), fun _ => none⟩ ∧
      (∃ id, Observed .stopped (ProbeAnswers (probe false)) (probe false).request
        (.ok (identified 1 healthy)) 0 config.shared id) ∧
      ∃ id, Observed .stopped (ProbeAnswers (probe true)) (probe true).request
        (.ok (setSecurityHeaders (internalServerError (lit "/healthz") (UUID.str 3)))) 1
        config.shared id := by
  obtain ⟨config, reachable, isAnswered, isFailed⟩ := probes_run .ofBits ⟨2025, 3, 9, 7, 5, 0, 0⟩
  have keepsDistinct : Hooks.KeepsDistinct
      ⟨fun members => some (.object members), fun _ => none⟩ := fun _ _ => rfl
  have logged := requests_logged keepsDistinct routes_probed reachable
  exact ⟨config, isAnswered, isFailed, logged.1, logged.2.2.2 0 _ _ isAnswered,
    logged.2.2.2 1 _ _ isFailed⟩

end Main

end Core
end SigmaForge
