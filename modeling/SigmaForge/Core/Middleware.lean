import SigmaForge.Core.Logging
import SigmaForge.Foundation.Columns
import SigmaForge.Foundation.Interleaving

/-!
# The middleware around the routes

What `create_app` puts around the routers: security headers, one line of log for each
request, and the answer to an exception that nothing else has handled.  The routers, with
everything they wait for, are a program that is left open.
-/

namespace SigmaForge
namespace Core

open Text Json

/-! ## Requests and responses -/

/-- An HTTP request, as far as the middleware reads it.  The server has decoded the method
as ASCII. -/
structure Request where
  method : Str
  /-- `request.url.path`. -/
  path : Str
  ascii : ∀ c ∈ method, c.val < 0x80

/-- A request with what only the routers read of it. -/
structure Incoming (Body : Type) where
  request : Request
  body : Body

/-- An HTTP response.  A status has three digits. -/
structure Response where
  statusCode : Nat
  isStatus : statusCode < 1000
  /-- The names in lower case, with their values. -/
  headers : List (Str × Str)
  /-- The content of a JSON response. -/
  content : Option Value

theorem isStatus_ok : 200 < 1000 := by decide

/-- `response.headers[name] = value`. -/
def Response.setHeader (name value : Str) (response : Response) : Response :=
  { response with headers := Dict.setItem (lower name) value response.headers }

/-- A route that has been matched, with its `path` if this is a text.  Routes are declared
with literals. -/
structure Route where
  path : Option Str
  clean : ∀ template ∈ path, IsClean template

/-- How a handler ends without a response: `CancelledError` is no `Exception`. -/
inductive Raised
  | exception (traceback : Str)
  | cancelled

/-! ## What handlers do -/

/-- A reading of `time.perf_counter()`, in nanoseconds. -/
abbrev PerfCounter := Fin (2 ^ 63)

/-- `round((now - start) * 1000, 2)`, which is a number. -/
structure Stopwatch where
  milliseconds : PerfCounter → PerfCounter → Float64
  isfinite : ∀ start now, (milliseconds start now).isfinite = true

/-- What a handler does: it logs, and it has effects of its own. -/
inductive WebOp (Effect : Type)
  | uuid4
  | setRequestId (id : Str)
  | resetRequestId (token : Option Str)
  | perfCounter
  /-- `request.scope.get("route")`. -/
  | scopeRoute
  /-- The router has found the route. -/
  | matchRoute (route : Route)
  | log (record : LogRecord)
  | effect (effect : Effect)

/-- The answers of the operations. -/
abbrev WebAnswer {Effect : Type} (Reply : Effect → Type) : WebOp Effect → Type
  | .uuid4 => UUID
  | .setRequestId _ => Option Str
  | .resetRequestId _ => Unit
  | .perfCounter => PerfCounter
  | .scopeRoute => Option Route
  | .matchRoute _ => Unit
  | .log _ => Unit
  | .effect effect => Reply effect

section Handlers

variable
    {Effect : Type}
    (Reply : Effect → Type)

/-- A handler. -/
abbrev Web (α : Type) := Program Raised (WebAnswer Reply) α

variable {Reply}

/-- One operation. -/
def performWeb (op : WebOp Effect) : Web Reply (WebAnswer Reply op) := Program.perform op

/-- `try … finally`. -/
def finallyDo {α : Type} (body : Web Reply α) (cleanup : Web Reply Unit) : Web Reply α := do
  let result ← body.attempt
  cleanup
  match result with
  | .ok value => pure value
  | .error raised => throw raised

/-! ## Security headers -/

/-- The headers that every response gets. -/
def securityHeaders : List (Str × Str) :=
  [(lit "X-Content-Type-Options", lit "nosniff"),
    (lit "X-Frame-Options", lit "DENY"),
    (lit "Referrer-Policy", lit "no-referrer"),
    (lit "Cache-Control", lit "no-store"),
    (lit "Strict-Transport-Security", lit "max-age=63072000; includeSubDomains"),
    (lit "Content-Security-Policy", lit "default-src 'none'; frame-ancestors 'none'")]

/-- `set_security_headers`. -/
def setSecurityHeaders (response : Response) : Response :=
  securityHeaders.foldl (fun response header => response.setHeader header.1 header.2) response

/-- `SecurityHeadersMiddleware.dispatch`. -/
def SecurityHeadersMiddleware.dispatch (callNext : Web Reply Response) : Web Reply Response := do
  let response ← callNext
  pure (setSecurityHeaders response)

/-! ## Request logging -/

/-- What is logged where no route has been found. -/
def unmatched : Str := lit "<unmatched>"

/-- `_safe_route_path`, given the route. -/
def safeTemplate (route : Option Route) : Str :=
  match route.bind Route.path with
  | some template =>
      if template.head? = some (chr '/') ∧ template.length ≤ 256 then template else unmatched
  | none => unmatched

/-- `_safe_route_path`. -/
def safeRoutePath : Web Reply Str := do
  let route ← performWeb .scopeRoute
  pure (safeTemplate route)

/-- The logger of the request middleware. -/
def requestLogger : Str := lit "app.request"

/-- The record of a request that has been answered. -/
def requestHandled (requestId method path : Str) (statusCode : Nat) (duration : Float64) :
    LogRecord where
  level := .info
  name := requestLogger
  message := lit "request handled"
  exception := none
  extraFields :=
    [(lit "request_id", text requestId), (lit "method", text method), (lit "path", text path),
      (lit "status_code", .scalar (.int statusCode)),
      (lit "duration_ms", .scalar (.float duration))]

/-- The record of a request that has raised an exception. -/
def requestRaised (requestId method path : Str) (duration : Float64) : LogRecord where
  level := .error
  name := requestLogger
  message := lit "request raised an exception"
  exception := none
  extraFields :=
    [(lit "request_id", text requestId), (lit "method", text method), (lit "path", text path),
      (lit "outcome", text (lit "exception")),
      (lit "duration_ms", .scalar (.float duration))]

variable (stopwatch : Stopwatch)

/-- The handler of `except Exception`. -/
def logRaised (request : Request) (requestId : Str) (start : PerfCounter) (raised : Raised) :
    Web Reply Response :=
  match raised with
  | .exception traceback => do
      let path ← safeRoutePath
      let now ← performWeb .perfCounter
      performWeb (.log (requestRaised requestId request.method path
        (stopwatch.milliseconds start now)))
      throw (.exception traceback)
  | .cancelled => throw .cancelled

/-- What is done with a response. -/
def logHandled (request : Request) (requestId : Str) (start : PerfCounter)
    (response : Response) : Web Reply Response := do
  let response := response.setHeader (lit "X-Request-ID") requestId
  let path ← safeRoutePath
  let now ← performWeb .perfCounter
  performWeb (.log (requestHandled requestId request.method path response.statusCode
    (stopwatch.milliseconds start now)))
  pure response

/-- The body of `try … finally` in `RequestLoggingMiddleware.dispatch`. -/
def observe (request : Request) (requestId : Str) (start : PerfCounter)
    (callNext : Web Reply Response) : Web Reply Response := do
  let response ← tryCatch callNext (logRaised stopwatch request requestId start)
  logHandled stopwatch request requestId start response

/-- `RequestLoggingMiddleware.dispatch`. -/
def RequestLoggingMiddleware.dispatch (request : Request) (callNext : Web Reply Response) :
    Web Reply Response := do
  let id ← performWeb .uuid4
  let token ← performWeb (.setRequestId id.str)
  let start ← performWeb .perfCounter
  finallyDo (observe stopwatch request id.str start callNext) (performWeb (.resetRequestId token))

/-! ## Unhandled exceptions -/

/-- The logger of `app.main`. -/
def mainLogger : Str := lit "app.main"

/-- The record of an exception that nothing has handled. -/
def unhandledException (traceId traceback : Str) : LogRecord where
  level := .error
  name := mainLogger
  message := lit "unhandled exception"
  exception := some traceback
  extraFields := [(lit "trace_id", text traceId)]

/-- The response to an exception that nothing has handled. -/
def internalServerError (path traceId : Str) : Response where
  statusCode := 500
  isStatus := by decide
  headers := [(lit "content-type", lit "application/json")]
  content := some (.object
    [(lit "type", text (lit "https://sigmaforge.dev/errors/internal-error")),
      (lit "title", text (lit "Internal Server Error")),
      (lit "status", .scalar (.int 500)),
      (lit "detail", text (lit "An unexpected error occurred")),
      (lit "instance", text path),
      (lit "trace_id", text traceId)])

/-- `unhandled_exception_handler`. -/
def unhandledExceptionHandler (request : Request) (traceback : Str) : Web Reply Response := do
  let traceId ← performWeb .uuid4
  performWeb (.log (unhandledException traceId.str traceback))
  pure (setSecurityHeaders (internalServerError request.path traceId.str))

/-- The outermost handler of exceptions, before anything of a response has been sent. -/
def handleUnhandled (request : Request) : Raised → Web Reply Response
  | .exception traceback => unhandledExceptionHandler request traceback
  | .cancelled => throw .cancelled

/-- A request goes through the middleware that `create_app` has added to the routers. -/
def createApp {Body : Type} (routers : Incoming Body → Web Reply Response)
    (incoming : Incoming Body) : Web Reply Response :=
  tryCatch
    (RequestLoggingMiddleware.dispatch stopwatch incoming.request
      (SecurityHeadersMiddleware.dispatch (routers incoming)))
    (handleUnhandled incoming.request)

end Handlers

/-! ## The process that serves requests -/

/-- A line of the log: who has written it, when, and in which context. -/
structure Entry where
  writer : Option ProcId
  now : UtcTime
  context : Context
  record : LogRecord

/-- The payload of a line. -/
def Entry.payload (entry : Entry) : List Member :=
  JsonFormatter.payload entry.now entry.context entry.record

/-- The server process: what it has written, and what belongs to each request. -/
structure World where
  /-- What the handler of the root logger has written to `sys.stdout`. -/
  stdout : Str
  /-- The records behind it, which nothing reads. -/
  entries : List Entry
  /-- The context variables of the task of a request. -/
  context : ProcId → Context
  /-- `scope["route"]`. -/
  route : ProcId → Option Route
  /-- What `uuid4` has drawn, and for whom. -/
  drawn : List (ProcId × UUID)

/-- `StreamHandler.emit` for a record that is loud enough.  An error of the formatter goes to
`handleError`. -/
def World.emit (floats : FloatText) (debug : Bool) (writer : Option ProcId) (now : UtcTime)
    (context : Context) (record : LogRecord) (world : World) : World :=
  if isEnabledFor debug record.level then
    match JsonFormatter.format floats now context record with
    | some line =>
        { world with
          stdout := world.stdout ++ line ++ [newline]
          entries := world.entries ++ [⟨writer, now, context, record⟩] }
    | none => world
  else world

/-- The context of a task after a change. -/
def World.setContext (pid : ProcId) (context : Context) (world : World) : World :=
  { world with context := Function.update world.context pid context }

/-- The router has found a route. -/
def World.setRoute (pid : ProcId) (route : Option Route) (world : World) : World :=
  { world with route := Function.update world.route pid route }

/-- `uuid4` has drawn an id. -/
def World.draw (pid : ProcId) (id : UUID) (world : World) : World :=
  { world with drawn := (pid, id) :: world.drawn }

/-- What `lifespan` logs. -/
def startupComplete (environment : Str) : LogRecord where
  level := .info
  name := mainLogger
  message := lit "startup complete"
  exception := none
  extraFields := [(lit "environment", text environment)]

/-- The process after `lifespan` has started. -/
def World.started (floats : FloatText) (debug : Bool) (now : UtcTime) (environment : Str) :
    World :=
  World.emit floats debug none now .default (startupComplete environment)
    ⟨[], [], fun _ => .default, fun _ => none, []⟩

/-- Tasks run between the points where they wait, so that a record is written at once.  Every
task has context variables of its own, and `uuid4` does not repeat itself. -/
def webMachine (Body : Type) {Effect : Type} (Reply : Effect → Type) (floats : FloatText)
    (debug : Bool) : Machine Raised (WebAnswer Reply) (Incoming Body) World where
  opening pid _ world := (world.setContext pid .default).setRoute pid none
  perform pid op world answer world' :=
    match op with
    | .uuid4 => ∃ id, id ∉ world.drawn.map Prod.snd ∧ answer = .ok id ∧
        world' = world.draw pid id
    | .setRequestId id => answer = .ok (world.context pid).requestId ∧
        world' = world.setContext pid { world.context pid with requestId := some id }
    | .resetRequestId token => answer = .ok () ∧
        world' = world.setContext pid { world.context pid with requestId := token }
    | .perfCounter => (∃ now, answer = .ok now) ∧ world' = world
    | .scopeRoute => answer = .ok (world.route pid) ∧ world' = world
    | .matchRoute route => answer = .ok () ∧ world' = world.setRoute pid (some route)
    | .log record => answer = .ok () ∧ ∃ now,
        world' = world.emit floats debug (some pid) now (world.context pid) record
    | .effect _ => world' = world
  closing _ world := world
  environment _ _ := False

end Core
end SigmaForge
