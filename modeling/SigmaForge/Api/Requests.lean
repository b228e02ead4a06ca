import SigmaForge.Foundation.Handover
import SigmaForge.Auth.AccessTokens
import SigmaForge.Detection.Serializable

/-!
# Requests of the API

The routers of the authentication and of the rules over one database.  A request has a session
of its own, in which its dependencies read who it comes from before its service runs.  The
reads of attributes are taken to succeed.
-/

namespace SigmaForge
namespace Api

open Text ReadCommitted

/-- The tables of both services. -/
abbrev schema (platform : Auth.Platform) (collation : Detection.Collation) :=
  (Auth.schema platform).beside (Detection.schema collation)

/-- The tables of the accounts. -/
abbrev accounts (platform : Auth.Platform) (collation : Detection.Collation) :
    Part (schema platform collation) (Auth.schema platform) :=
  .left (Auth.schema platform) (Detection.schema collation)

/-- The tables of the rule drafts. -/
abbrev drafts (platform : Auth.Platform) (collation : Detection.Collation) :
    Part (schema platform collation) (Detection.schema collation) :=
  .right (Auth.schema platform) (Detection.schema collation)

/-- An exception of SQLAlchemy or of the driver. -/
inductive Fault
  | database

/-- The database of the API. -/
abbrev ApiDb := Db (Auth.AuthStore × Detection.RuleStore) (Auth.Key ⊕ Detection.Key)
  (Auth.Write ⊕ Detection.Write)

/-- The answers of an operation on the database. -/
abbrev Answer := SessionAnswer (Sum.elim Auth.Answer Detection.Answer)

/-- A program of a request. -/
abbrev Handler (α : Type) := Program Fault Answer α

/-- The endpoints, with what they read of a valid request. -/
inductive Endpoint (python : Detection.Interpreter)
  | login (body : Auth.LoginRequest) (draw : Auth.Draw)
  | refresh (rawToken : Str) (draw : Auth.Draw)
  | logout (rawToken : Str)
  | logoutAll
  | me
  | preflightRule (draft : Detection.Draft python)
  | rules (call : Detection.RuleCall python)

/-- A request, with its bearer token if it has one. -/
structure Request (python : Detection.Interpreter) where
  credentials : Option Str
  endpoint : Endpoint python

/-- What the dependencies of a request lead to. -/
inductive Decision (python : Detection.Interpreter)
  | refuse (rejection : Auth.Rejection)
  | fail (error : Auth.AuthError)
  | me (user : Auth.User)
  | preflightRule (draft : Detection.Draft python)
  | auth (call : Auth.AuthCall)
  | rules (ownerId : UUID) (call : Detection.RuleCall python)

/-- What a request gets. -/
inductive Response
  | refused (rejection : Auth.Rejection)
  | failed (error : Auth.AuthError)
  | me (body : Auth.Orm.MeResponse)
  /-- The `selector_names` of a draft that passes the preflight. -/
  | preflight (selectorNames : List Str)
  | auth (result : Except Auth.AuthError Auth.AuthResponse)
  | rules (result : Except Detection.ServiceError Detection.Response)

/-- The check of `require_permission`. -/
def checkPermission (permissionCode : Str) (user : Auth.User) :
    Except Auth.Rejection Auth.User :=
  let granted := Auth.Orm.rolePermissions user.roleName
  if lit "*" ∉ granted ∧ permissionCode ∉ granted then
    .error (.http ⟨403, lit "Insufficient permissions", []⟩)
  else .ok user

/-- The decision for whoever `get_current_user` returns. -/
def decided {python : Detection.Interpreter} (permitted : Except Auth.Rejection Auth.User)
    (decision : Auth.User → Decision python) : Decision python :=
  match permitted with
  | .error rejection => .refuse rejection
  | .ok user => decision user

/-- The decision of a request, from what `get_current_user` returns or raises. -/
def Request.judge {python : Detection.Interpreter} (request : Request python)
    (current : Except Auth.Rejection Auth.User) : Decision python :=
  match request.endpoint with
  | .login body draw => .auth (.login body draw)
  | .refresh rawToken draw => .auth (.refresh rawToken draw)
  | .logout rawToken => .auth (.logout rawToken)
  | .logoutAll => decided current fun user => .auth (.logoutAll user.id)
  | .me => decided current .me
  | .preflightRule draft =>
      decided (current.bind (checkPermission (lit "rule:create"))) fun _ => .preflightRule draft
  | .rules call =>
      decided (current.bind (checkPermission (lit "rule:create"))) fun user => .rules user.id call

/-- The decision of a request, if SQLAlchemy does not raise. -/
def Request.judgeResult {python : Detection.Interpreter} (request : Request python) :
    Except Auth.AuthError (Except Auth.Rejection Auth.User) → Decision python
  | .error error => .fail error
  | .ok current => request.judge current

/-- Only these endpoints have no dependency on the user. -/
def Request.isPublic {python : Detection.Interpreter} (request : Request python) : Bool :=
  match request.endpoint with
  | .login _ _ | .refresh _ _ | .logout _ => true
  | _ => false

/-- The body of `me`. -/
def meResponse (user : Auth.User) : Auth.Orm.MeResponse where
  id := user.id.str
  email := user.email
  fullName := user.fullName
  role := user.roleName
  isActive := user.isActive
  mfaEnabled := user.mfaEnabled

section Programs

variable
    (reader : Auth.TokenReader)
    (settings : Auth.Settings)
    (platform : Auth.Platform)
    (collation : Detection.Collation)
    {python : Detection.Interpreter}

/-- `get_current_user` in the session of a request. -/
def currentUser (credentials : Option Str) :
    Handler (Except Auth.AuthError (Except Auth.Rejection Auth.User)) :=
  (accounts platform collation).host Auth.AuthError.database
    ((Attributes.erase (Auth.currentUser reader settings credentials)).interpret
      (Auth.sqlAlchemy platform))

/-- The dependencies of a request. -/
def decide (request : Request python) : Handler (Decision python) :=
  if request.isPublic then
    .ret (request.judge (.error (.http Auth.Orm.genericUnauthorized)))
  else
    (currentUser reader settings platform collation request.credentials).bind fun result =>
      .ret (request.judgeResult result)

/-- What a request does after its dependencies. -/
def route (_ : Request python) : Decision python → Handler Response
  | .refuse rejection => .ret (.refused rejection)
  | .fail error => .ret (.failed error)
  | .me user => .ret (.me (meResponse user))
  | .preflightRule draft => .ret (.preflight draft.request.selectorNames)
  | .auth call =>
      ((accounts platform collation).host Auth.AuthError.database
        (Auth.serve settings platform call)).bind fun result => .ret (.auth result)
  | .rules ownerId call =>
      ((drafts platform collation).host Detection.ServiceError.database
        (Detection.serve (ownerId, call))).bind fun result => .ret (.rules result)

/-- A request. -/
def handle (request : Request python) : Handler Response :=
  (decide reader settings platform collation request).bind
    (route settings platform collation request)

/-- The sessions of any number of requests. -/
abbrev apiMachine (python : Detection.Interpreter) :=
  machine (schema platform collation) Fault.database (Request python)

end Programs

/-! ## How a request is decided -/

/-- How far the dependencies have come. -/
inductive Phase
  | asking
  | timed (now : Nat)
  | looked (now : Nat) (userId : UUID) (found : Option Auth.User)
  | broken

/-- What `get_current_user` does: it reads the time, and then a row of a user. -/
def protocol : Protocol Fault Answer Phase where
  allowed
    | .asking, .now => True
    | .timed _, .execute (.inl (.selectUserById _)) => True
    | _, _ => False
  next
    | .asking, .now, .ok now => .timed now
    | .timed now, .execute (.inl (.selectUserById userId)), .ok found => .looked now userId found
    | _, _, _ => .broken

/-- A point of a run: the time, and what has been committed. -/
structure Point where
  clock : Nat
  log : List (Event (Auth.Key ⊕ Detection.Key) (Auth.Write ⊕ Detection.Write))

/-- The start of every run. -/
def Point.start : Point := ⟨0, []⟩

/-- The state is a later one. -/
structure Point.Before (point : Point) (db : ApiDb) : Prop where
  clock : point.clock ≤ db.clock
  log : point.log <+: db.log

section Phases

variable
    (reader : Auth.TokenReader)
    (settings : Auth.Settings)
    (platform : Auth.Platform)
    (collation : Detection.Collation)

/-- What has been read leads to the given account, as it does when nobody interferes. -/
def Sees (credentials : Option Str) (current : Except Auth.Rejection Auth.User) : Phase → Prop
  | .asking => ∀ now store,
      Auth.authenticated reader settings platform credentials now store = (.ok (.ok current), store)
  | .timed now => ∀ store,
      Auth.authenticated reader settings platform credentials now store = (.ok (.ok current), store)
  | .looked now userId found => ∀ store : Auth.AuthStore, store.user userId = found →
      Auth.authenticated reader settings platform credentials now store = (.ok (.ok current), store)
  | .broken => False

/-- The row of the user at some moment after the point. -/
def Looked (point : Point) (db : ApiDb) (userId : UUID) (found : Option Auth.User) : Prop :=
  ∃ moment, point.log <+: moment ∧ moment <+: db.log ∧
    (replay (schema platform collation) db.initial moment).1.user userId = found

/-- What a phase means for a session that has started after a point. -/
def Phase.Means (since : ProcId → Point) (pid : ProcId) (phase : Phase) (db : ApiDb) : Prop :=
  (since pid).Before db ∧
    match phase with
    | .asking => Clear pid db
    | .timed now => Clear pid db ∧ (since pid).clock ≤ now ∧ now ≤ db.clock
    | .looked now userId found => (since pid).clock ≤ now ∧ now ≤ db.clock ∧
        Looked platform collation (since pid) db userId found
    | .broken => True

/-- What `get_current_user` returns or raises for the credentials, at a time and with the
accounts of a moment, both of them after the point. -/
def Recognised (point : Point) (db : ApiDb) (credentials : Option Str)
    (current : Except Auth.Rejection Auth.User) : Prop :=
  ∃ now moment, point.clock ≤ now ∧ now ≤ db.clock ∧
    point.log <+: moment ∧ moment <+: db.log ∧
    (Auth.authenticated reader settings platform credentials now
      (replay (schema platform collation) db.initial moment).1).1 = .ok (.ok current)

end Phases

end Api
end SigmaForge
