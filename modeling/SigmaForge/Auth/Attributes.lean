import SigmaForge.Auth.Calls
import SigmaForge.Foundation.Attributes

/-!
# The attributes that authentication reads

`login`, `refresh` and the dependencies with every read of an attribute of a
`User` or a `RefreshToken`.  A `SELECT` loads columns and no relationship, a
rollback expires everything, and what is not loaded cannot be read.
-/

namespace SigmaForge
namespace Auth
namespace Orm

open Text Atomic Attributes

/-- The attributes of `User`. -/
inductive UserAttribute
  | id
  | email
  | hashedPassword
  | fullName
  | isActive
  | mfaEnabled
  | lockedUntil
  /-- `user.role`, of which only the name is read. -/
  | role
  deriving DecidableEq

/-- What the attribute holds. -/
abbrev UserAttribute.Value : UserAttribute → Type
  | .id => UUID
  | .email => Str
  | .hashedPassword => Str
  | .fullName => Str
  | .isActive => Bool
  | .mfaEnabled => Bool
  | .lockedUntil => Option Nat
  | .role => Str

/-- The value that a row has for it. -/
def UserAttribute.value (user : User) : (name : UserAttribute) → name.Value
  | .id => user.id
  | .email => user.email
  | .hashedPassword => user.hashedPassword
  | .fullName => user.fullName
  | .isActive => user.isActive
  | .mfaEnabled => user.mfaEnabled
  | .lockedUntil => user.lockedUntil
  | .role => user.roleName

/-- The attributes of `RefreshToken`. -/
inductive TokenAttribute
  | id
  | userId
  | expiresAt
  | revokedAt
  deriving DecidableEq

/-- What the attribute holds. -/
abbrev TokenAttribute.Value : TokenAttribute → Type
  | .id => UUID
  | .userId => UUID
  | .expiresAt => Nat
  | .revokedAt => Option Nat

/-- The value that a row has for it. -/
def TokenAttribute.value (token : RefreshToken) : (name : TokenAttribute) → name.Value
  | .id => token.id
  | .userId => token.userId
  | .expiresAt => token.expiresAt
  | .revokedAt => token.revokedAt

/-- An attribute of the object that the session has under a key. -/
inductive Attribute
  | user (id : UUID) (name : UserAttribute)
  | token (id : UUID) (name : TokenAttribute)
  deriving DecidableEq

/-- `relationship()` is lazy: only columns are loaded by a `SELECT`. -/
def UserAttribute.isColumn : UserAttribute → Bool
  | .role => false
  | _ => true

/-- The attributes after a `SELECT` of a user. -/
def loadUser (user : User) (loaded : Loaded Attribute) : Loaded Attribute
  | .user id name => (id = user.id && name.isColumn) || loaded (.user id name)
  | .token id name => loaded (.token id name)

/-- The attributes after a `SELECT` of a token. -/
def loadToken (token : RefreshToken) (loaded : Loaded Attribute) : Loaded Attribute
  | .user id name => loaded (.user id name)
  | .token id name => id = token.id || loaded (.token id name)

/-- The attributes of a new session, and those after a rollback. -/
def nothing : Loaded Attribute := fun _ => false

/-- The attributes after a call.  Commits expire nothing (`expire_on_commit=False`). -/
def after : (op : AuthOp) → Except AuthError (AuthAnswer op) → Loaded Attribute →
    Loaded Attribute
  | .getByEmail _, .ok (some user), loaded => loadUser user loaded
  | .getById _, .ok (some user), loaded => loadUser user loaded
  | .getByHash _, .ok (some token), loaded => loadToken token loaded
  | .create _, .ok token, loaded => loadToken token loaded
  | .rotateIfActive _ _ _, .ok true, loaded => loaded
  | .rotateIfActive _ _ _, .ok false, _ => nothing
  | .rotateIfActive _ _ _, .error _, _ => nothing
  | .revokeAllForUser _, .error _, _ => nothing
  | _, _, loaded => loaded

/-- A program over the repositories that reads attributes. -/
abbrev Handler (α : Type) := Reading AuthError AuthAnswer Attribute α

/-- A call of a repository, of the clock or of `verify_password`. -/
def invoke (op : AuthOp) : Handler (AuthAnswer op) := Attributes.call op

/-- A read of an attribute of a user. -/
def readUser (user : User) (name : UserAttribute) : Handler name.Value :=
  get (.user user.id name) (name.value user)

/-- A read of an attribute of a token. -/
def readToken (token : RefreshToken) (name : TokenAttribute) : Handler name.Value :=
  get (.token token.id name) (name.value token)

section Handlers

variable
    (settings : Settings)
    (platform : Platform)

/-! ## The service -/

/-- A comparison with the dummy hash, and the error. -/
def refuse {α : Type} (password : Str) (error : AuthError) : Handler α := do
  let _ ← invoke (.verifyPassword password .dummy)
  throw error

/-- The lockout of a user. -/
def checkLockout (user : User) (now : Nat) (password : Str) : Handler Unit := do
  let lockedUntil ← readUser user .lockedUntil
  match lockedUntil with
  | none => pure ()
  | some lockedUntil => do
      let _ ← readUser user .lockedUntil
      if now < lockedUntil then refuse password accountLocked
      else do
        let userId ← readUser user .id
        invoke (.resetExpiredLockout userId now)

/-- A wrong password. -/
def countFailure (user : User) : Handler Unit := do
  let userId ← readUser user .id
  let newFailedCount ← invoke (.incrementFailedLogin userId)
  if settings.maxFailedLoginAttempts ≤ newFailedCount then do
    let now ← invoke .now
    let userId ← readUser user .id
    invoke (.setLockedUntil userId (some (now + seconds settings.lockoutDurationSeconds)))
  else pure ()

/-- `create_access_token` with its arguments. -/
def createAccessToken (user : User) (jti : UUID) : Handler Str := do
  let userId ← readUser user .id
  let role ← readUser user .role
  let now ← invoke .now
  pure (platform.encode (accessClaims settings userId role jti now) settings.jwtPrivateKey)

/-- `_issue_token_pair`. -/
def issueTokenPair (user : User) (draw : Draw) : Handler TokenPair := do
  let accessToken ← createAccessToken settings platform user draw.jti
  let now ← invoke .now
  let userId ← readUser user .id
  let _ ← invoke (.create (newToken settings platform userId draw now))
  pure (tokenPair settings accessToken draw.rawToken)

/-- What `login` does with an account that is not locked. -/
def judgePassword (user : User) (password : Str) (draw : Draw) : Handler TokenPair := do
  let isActive ← readUser user .isActive
  if isActive then do
    let _ ← readUser user .hashedPassword
    let isRight ← invoke (.verifyPassword password (.ofUser user))
    if isRight then do
      let userId ← readUser user .id
      let lastLoginAt ← invoke .now
      invoke (.resetFailedLogin userId lastLoginAt)
      issueTokenPair settings platform user draw
    else do
      countFailure settings user
      throw invalidCredentials
  else refuse password invalidCredentials

/-- `login`. -/
def login (request : LoginRequest) (draw : Draw) : Handler TokenPair := do
  let found ← invoke (.getByEmail request.email)
  match found with
  | none => refuse request.password invalidCredentials
  | some user => do
      let now ← invoke .now
      checkLockout user now request.password
      judgePassword settings platform user request.password draw

/-- The reaction to a reuse. -/
def rejectReuse {α : Type} (existing : RefreshToken) : Handler α := do
  let userId ← readToken existing .userId
  invoke (.revokeAllForUser userId)
  throw reuseDetected

/-- The user, when the account is active. -/
def onlyActive (found : Option User) : Handler (Option User) :=
  match found with
  | none => pure none
  | some user => do
      let isActive ← readUser user .isActive
      pure (if isActive then some user else none)

/-- What `refresh` does with a token that is not revoked. -/
def rotate (existing : RefreshToken) (draw : Draw) : Handler TokenPair := do
  let now ← invoke .now
  let expiresAt ← readToken existing .expiresAt
  Program.ensure (now < expiresAt) (.refreshTokenInvalid (lit "refresh token expired"))
  let userId ← readToken existing .userId
  let found ← invoke (.getById userId)
  let active ← onlyActive found
  let user ← Program.ofOption (.refreshTokenInvalid (lit "account no longer active")) active
  let issuedAt ← invoke .now
  let tokenId ← readToken existing .id
  let userId ← readToken existing .userId
  let rotated ← invoke
    (.rotateIfActive tokenId now (newToken settings platform userId draw issuedAt))
  if rotated then do
    let accessToken ← createAccessToken settings platform user draw.jti
    pure (tokenPair settings accessToken draw.rawToken)
  else rejectReuse existing

/-- `refresh`. -/
def refresh (rawToken : Str) (draw : Draw) : Handler TokenPair := do
  let found ← invoke (.getByHash (hashRefreshToken platform rawToken))
  let existing ← Program.ofOption (.refreshTokenInvalid (lit "unknown refresh token")) found
  let revokedAt ← readToken existing .revokedAt
  if revokedAt = none then rotate settings platform existing draw
  else rejectReuse existing

/-! ## The dependencies -/

/-- `HTTPException`. -/
structure HTTPException where
  statusCode : Nat
  detail : Str
  headers : List (Str × Str)
  deriving DecidableEq

/-- `_generic_unauthorized`. -/
def genericUnauthorized : HTTPException where
  statusCode := 401
  detail := lit "Could not validate credentials"
  headers := [(lit "WWW-Authenticate", lit "Bearer")]

/-- `ROLE_PERMISSIONS.get(role_name, set())`. -/
def rolePermissions (roleName : Str) : List Str :=
  if roleName = lit "admin" then [lit "*"]
  else if roleName = lit "detection_lead" then
    [lit "rule:create", lit "rule:submit_review", lit "rule:approve", lit "rule:deploy",
      lit "fp:report", lit "ai:generate_rule", lit "ai:summarize_alert", lit "coverage:view"]
  else if roleName = lit "detection_engineer" then
    [lit "rule:create", lit "rule:submit_review", lit "fp:report", lit "ai:generate_rule",
      lit "coverage:view"]
  else if roleName = lit "analyst" then
    [lit "fp:report", lit "ai:summarize_alert", lit "coverage:view"]
  else if roleName = lit "researcher" then
    [lit "research:manage_corpus", lit "research:run_experiments", lit "ai:generate_rule",
      lit "research:view_reports", lit "coverage:view"]
  else []

/-- `get_current_user`, for the subject of the credentials, if these are valid. -/
def getCurrentUser (subject : Option UUID) : Handler (Except HTTPException User) :=
  match subject with
  | none => pure (.error genericUnauthorized)
  | some userId => do
      let found ← invoke (.getById userId)
      let active ← onlyActive found
      match active with
      | none => pure (.error genericUnauthorized)
      | some user => pure (.ok user)

/-- `require_permission`. -/
def requirePermission (permissionCode : Str) (subject : Option UUID) :
    Handler (Except HTTPException User) := do
  let current ← getCurrentUser subject
  match current with
  | .error exception => pure (.error exception)
  | .ok user => do
      let roleName ← readUser user .role
      let granted := rolePermissions roleName
      if lit "*" ∉ granted ∧ permissionCode ∉ granted then
        pure (.error ⟨403, lit "Insufficient permissions", []⟩)
      else pure (.ok user)

/-- `MeResponse`. -/
structure MeResponse where
  id : Str
  email : Str
  fullName : Str
  role : Str
  isActive : Bool
  mfaEnabled : Bool

/-- `me`. -/
def me (subject : Option UUID) : Handler (Except HTTPException MeResponse) := do
  let current ← getCurrentUser subject
  match current with
  | .error exception => pure (.error exception)
  | .ok user => do
      let id ← readUser user .id
      let email ← readUser user .email
      let fullName ← readUser user .fullName
      let role ← readUser user .role
      let isActive ← readUser user .isActive
      let mfaEnabled ← readUser user .mfaEnabled
      pure (.ok ⟨id.str, email, fullName, role, isActive, mfaEnabled⟩)

/-- A request. -/
inductive Request
  | login (request : LoginRequest) (draw : Draw)
  | refresh (rawToken : Str) (draw : Draw)
  | requirePermission (permissionCode : Str) (subject : Option UUID)
  | me (subject : Option UUID)

/-- What a request returns. -/
inductive Response
  | pair (pair : TokenPair)
  | granted (result : Except HTTPException User)
  | me (result : Except HTTPException MeResponse)

/-- The program of a request. -/
def Request.handler : Request → Handler Response
  | .login request draw => do
      let pair ← Orm.login settings platform request draw
      pure (.pair pair)
  | .refresh rawToken draw => do
      let pair ← Orm.refresh settings platform rawToken draw
      pure (.pair pair)
  | .requirePermission permissionCode subject => do
      let result ← Orm.requirePermission permissionCode subject
      pure (.granted result)
  | .me subject => do
      let result ← Orm.me subject
      pure (.me result)

/-- The program of a request as it runs, in a session of its own. -/
def Request.run (request : Request) :
    Program AuthError AuthAnswer (Except Attribute Response) :=
  track after (request.handler settings platform) nothing

end Handlers

/-! ## The functions of the service -/

section Erase

variable
    {settings : Settings}
    {platform : Platform}

@[simp] theorem erase_refuse {α : Type} (password : Str) (error : AuthError) :
    erase (refuse password error : Handler α) = Auth.refuse password error := by
  simp [refuse, Auth.refuse, invoke, perform]

theorem erase_checkLockout (user : User) (now : Nat) (password : Str) :
    erase (checkLockout user now password) = Auth.checkLockout user now password := by
  unfold checkLockout Auth.checkLockout
  simp only [readUser, UserAttribute.value, Program.bind_eq, erase_bind, erase_get,
    Program.ret_bind]
  cases user.lockedUntil with
  | none => rfl
  | some lockedUntil =>
      simp only [erase_bind, erase_get, Program.ret_bind]
      split_ifs
      · exact erase_refuse password accountLocked
      · simp [invoke, perform]

theorem erase_countFailure (user : User) :
    erase (countFailure settings user) = Auth.countFailure settings user := by
  unfold countFailure Auth.countFailure
  simp only [readUser, UserAttribute.value, invoke, perform, Program.bind_eq, erase_bind,
    erase_get, erase_call, Program.ret_bind]
  congr 1
  funext newFailedCount
  split_ifs <;> simp

theorem erase_createAccessToken (user : User) (jti : UUID) :
    erase (createAccessToken settings platform user jti) =
      Auth.createAccessToken settings platform user jti := by
  simp [createAccessToken, Auth.createAccessToken, readUser, UserAttribute.value, invoke, perform]

theorem erase_issueTokenPair (user : User) (draw : Draw) :
    erase (issueTokenPair settings platform user draw) =
      Auth.issueTokenPair settings platform user draw := by
  simp [issueTokenPair, Auth.issueTokenPair, readUser, UserAttribute.value, invoke, perform,
    erase_createAccessToken]

theorem erase_judgePassword (user : User) (password : Str) (draw : Draw) :
    erase (judgePassword settings platform user password draw) =
      Auth.judgePassword settings platform user password draw := by
  unfold judgePassword Auth.judgePassword
  simp only [readUser, UserAttribute.value, Program.bind_eq, erase_bind, erase_get,
    Program.ret_bind]
  split_ifs
  · simp only [invoke, perform, erase_bind, erase_get, erase_call, Program.ret_bind]
    congr 1
    funext isRight
    split_ifs
    · simp [erase_issueTokenPair]
    · simp [erase_countFailure]
  · exact erase_refuse password invalidCredentials

/-- Without its reads, `login` is the function of the service. -/
theorem erase_login (request : LoginRequest) (draw : Draw) :
    erase (login settings platform request draw) = Auth.login settings platform request draw := by
  unfold login Auth.login
  simp only [invoke, perform, Program.bind_eq, erase_bind, erase_call]
  congr 1
  funext found
  cases found with
  | none => exact erase_refuse request.password invalidCredentials
  | some user => simp [erase_checkLockout, erase_judgePassword]

theorem erase_rejectReuse {α : Type} (existing : RefreshToken) :
    erase (rejectReuse existing : Handler α) = Auth.rejectReuse existing.userId := by
  simp [rejectReuse, Auth.rejectReuse, readToken, TokenAttribute.value, invoke, perform]

theorem erase_onlyActive (found : Option User) :
    erase (onlyActive found) = .ret (found.filter fun user => user.isActive) := by
  cases found with
  | none => rfl
  | some user => simp [onlyActive, readUser, UserAttribute.value, Option.filter]

theorem erase_rotate (existing : RefreshToken) (draw : Draw) :
    erase (rotate settings platform existing draw) =
      Auth.rotate settings platform existing draw := by
  unfold rotate Auth.rotate
  simp only [readToken, TokenAttribute.value, invoke, perform, Program.bind_eq, erase_bind,
    erase_get, erase_call, erase_ensure, erase_onlyActive, erase_ofOption, Program.ret_bind]
  congr 1
  funext now
  congr 1
  funext _
  congr 1
  funext found
  congr 1
  funext user
  congr 1
  funext issuedAt
  congr 1
  funext rotated
  split_ifs
  · simp [erase_createAccessToken]
  · exact erase_rejectReuse existing

/-- Without its reads, `refresh` is the function of the service. -/
theorem erase_refresh (rawToken : Str) (draw : Draw) :
    erase (refresh settings platform rawToken draw) =
      Auth.refresh settings platform rawToken draw := by
  unfold refresh Auth.refresh
  simp only [readToken, TokenAttribute.value, invoke, perform, Program.bind_eq, erase_bind,
    erase_get, erase_call, erase_ofOption, Program.ret_bind]
  congr 1
  funext found
  congr 1
  funext existing
  split_ifs
  · exact erase_rotate existing draw
  · exact erase_rejectReuse existing

end Erase

/-! ## What is read -/

/-- The next read after this answer is one of an attribute that is not loaded: a
login has reset the counters, a rotation has been decided, or a dependency has
found an active account. -/
def Request.dooms (request : Request) : (op : AuthOp) → Except AuthError (AuthAnswer op) → Bool
  | .resetFailedLogin _ _, .ok _ => true
  | .rotateIfActive _ _ _, .ok _ => true
  | .getById _, .ok (some user) =>
      match request with
      | .requirePermission _ _ => user.isActive
      | .me _ => user.isActive
      | _ => false
  | _, _ => false

/-- Whether such an answer has come. -/
def Request.note (request : Request) (op : AuthOp)
    (answer : Except AuthError (AuthAnswer op)) (isDoomed : Bool) : Bool :=
  isDoomed || request.dooms op answer

/-- The request has ended with a read of what is not loaded, or not. -/
def Judged {α : Type} (result : Except AuthError (Except Attribute α)) (_ : Loaded Attribute)
    (isDoomed : Bool) : Prop :=
  (∃ name, result = .ok (.error name)) ↔ isDoomed = true

@[simp] theorem judged_value {α : Type} {value : α} {loaded : Loaded Attribute}
    {isDoomed : Bool} :
    Judged (.ok (.ok value)) loaded isDoomed ↔ isDoomed = false := by
  simp [Judged]

@[simp] theorem judged_unloaded {α : Type} {name : Attribute} {loaded : Loaded Attribute}
    {isDoomed : Bool} :
    Judged (.ok (.error name) : Except AuthError (Except Attribute α)) loaded isDoomed ↔
      isDoomed = true := by
  simp [Judged]

@[simp] theorem judged_error {α : Type} {error : AuthError} {loaded : Loaded Attribute}
    {isDoomed : Bool} :
    Judged (.error error : Except AuthError (Except Attribute α)) loaded isDoomed ↔
      isDoomed = false := by
  simp [Judged]

/-- The columns of the user are loaded, and its role is not. -/
def HasColumns (user : User) (loaded : Loaded Attribute) : Prop :=
  ∀ name, loaded (.user user.id name) = name.isColumn

/-- The columns of the token are loaded. -/
def HasToken (token : RefreshToken) (loaded : Loaded Attribute) : Prop :=
  ∀ name, loaded (.token token.id name) = true

theorem hasColumns_loadUser
    {loaded : Loaded Attribute}
    (user : User)
    (isNew : ∀ name, loaded (.user user.id name) = false) :
    HasColumns user (loadUser user loaded) := by
  intro name
  simp [loadUser, isNew]

theorem hasToken_loadToken (token : RefreshToken) : HasToken token (loadToken token nothing) := by
  intro name
  simp [loadToken]

/-- The program runs to the postcondition, and calls nothing once it is doomed. -/
abbrev Reads {α : Type} (request : Request)
    (post : Except AuthError (Except Attribute α) → Loaded Attribute → Bool → Prop)
    (program : Handler α) (loaded : Loaded Attribute) (isDoomed : Bool) : Prop :=
  Leads after request.note (· = false) post program loaded isDoomed

section Leads

variable
    {settings : Settings}
    {platform : Platform}
    {request : Request}
    {user : User}
    {existing : RefreshToken}
    {loaded : Loaded Attribute}
    {isDoomed : Bool}
    {α β : Type}
    {post : Except AuthError (Except Attribute β) → Loaded Attribute → Bool → Prop}

/-- The rule for a read of a column of a user. -/
theorem leads_readUser
    {name : UserAttribute}
    {rest : name.Value → Handler β}
    (columns : HasColumns user loaded)
    (isColumn : name.isColumn = true)
    (leads : Reads request post (rest (name.value user)) loaded isDoomed) :
    Reads request post ((readUser user name).bind rest) loaded isDoomed := by
  rw [Reads, leads_bind, readUser, leads_get, columns name, isColumn]
  exact leads

/-- The rule for a read of the role. -/
theorem leads_readRole
    {rest : Str → Handler β}
    (columns : HasColumns user loaded) :
    Reads request Judged ((readUser user .role).bind rest) loaded true := by
  rw [Reads, leads_bind, readUser, leads_get, columns .role]
  simp [UserAttribute.isColumn, andThen]

/-- The rule for a read of a column of a token. -/
theorem leads_readToken
    {name : TokenAttribute}
    {rest : name.Value → Handler β}
    (columns : HasToken existing loaded)
    (leads : Reads request post (rest (name.value existing)) loaded isDoomed) :
    Reads request post ((readToken existing name).bind rest) loaded isDoomed := by
  rw [Reads, leads_bind, readToken, leads_get, columns name]
  exact leads

/-- The rule for calls. -/
theorem leads_invoke
    {op : AuthOp}
    {rest : AuthAnswer op → Handler β}
    (raises : ∀ error, post (.error error) (after op (.error error) loaded)
      (request.dooms op (.error error)))
    (leads : ∀ value, Reads request post (rest value) (after op (.ok value) loaded)
      (request.dooms op (.ok value))) :
    Reads request post ((invoke op).bind rest) loaded false := by
  rw [Reads, leads_bind, invoke, leads_call]
  exact ⟨rfl, leads, raises⟩

/-- The call neither loads nor expires anything. -/
def Quiet (request : Request) (op : AuthOp) : Prop :=
  ∀ answer, (∀ loaded, after op answer loaded = loaded) ∧ request.dooms op answer = false

/-- The rule for calls that leave the objects alone. -/
theorem leads_quiet
    {op : AuthOp}
    {rest : AuthAnswer op → Handler β}
    (isQuiet : Quiet request op)
    (raises : ∀ error, post (.error error) loaded false)
    (leads : ∀ value, Reads request post (rest value) loaded false) :
    Reads request post ((invoke op).bind rest) loaded false := by
  apply leads_invoke
  · intro error
    rw [(isQuiet _).1, (isQuiet _).2]
    exact raises error
  · intro value
    rw [(isQuiet _).1, (isQuiet _).2]
    exact leads value

theorem quiet_now : Quiet request .now := fun _ => ⟨fun _ => rfl, rfl⟩

theorem quiet_verifyPassword (password : Str) (hash : PasswordHash) :
    Quiet request (.verifyPassword password hash) := fun _ => ⟨fun _ => rfl, rfl⟩

/-- A refused login. -/
theorem leads_refuse
    (password : Str)
    (error : AuthError)
    (raises : ∀ error, post (.error error) loaded false) :
    Reads request post (refuse password error) loaded false :=
  leads_quiet (quiet_verifyPassword _ _) raises fun _ => raises error

/-- The columns of the user stay loaded. -/
def Calm (user : User) (loaded : Loaded Attribute) (isDoomed : Bool) : Prop :=
  HasColumns user loaded ∧ isDoomed = false

/-- The rule for a call that comes last. -/
theorem leads_last
    {op : AuthOp}
    {between : AuthAnswer op → Loaded Attribute → Bool → Prop}
    (isQuiet : Quiet request op)
    (raises : ∀ error, post (.error error) loaded false)
    (returns : ∀ value, between value loaded false) :
    Reads request (andThen between post) (invoke op) loaded false := by
  rw [Reads, invoke, leads_call]
  refine ⟨rfl, fun value => ?_, fun error => ?_⟩
  · rw [(isQuiet _).1, Request.note, (isQuiet _).2, Bool.or_false]
    exact returns value
  · rw [(isQuiet _).1, Request.note, (isQuiet _).2, Bool.or_false]
    exact raises error

theorem leads_checkLockout
    (columns : HasColumns user loaded)
    (now : Nat)
    (password : Str) :
    Reads request (andThen (fun _ => Calm user) (Judged (α := α)))
      (checkLockout user now password) loaded false := by
  have raises : ∀ error : AuthError, Judged (α := α) (.error error) loaded false := by simp
  unfold checkLockout
  apply leads_readUser columns rfl
  simp only [UserAttribute.value]
  cases user.lockedUntil with
  | none => exact ⟨columns, rfl⟩
  | some lockedUntil =>
      apply leads_readUser columns rfl
      split_ifs
      · exact leads_refuse password accountLocked raises
      · apply leads_readUser columns rfl
        exact leads_last (fun _ => ⟨fun _ => rfl, rfl⟩) raises fun _ => ⟨columns, rfl⟩

theorem leads_countFailure (columns : HasColumns user loaded) :
    Reads request (andThen (fun _ => Calm user) (Judged (α := α)))
      (countFailure settings user) loaded false := by
  have raises : ∀ error : AuthError, Judged (α := α) (.error error) loaded false := by simp
  apply leads_readUser columns rfl
  refine leads_quiet (fun _ => ⟨fun _ => rfl, rfl⟩) raises fun newFailedCount => ?_
  split_ifs
  · refine leads_quiet quiet_now raises fun now => ?_
    apply leads_readUser columns rfl
    exact leads_last (fun _ => ⟨fun _ => rfl, rfl⟩) raises fun _ => ⟨columns, rfl⟩
  · exact ⟨columns, rfl⟩

/-- A token pair needs the role. -/
theorem leads_createAccessToken_bind
    (columns : HasColumns user loaded)
    (jti : UUID)
    (rest : Str → Handler β) :
    Reads request Judged
      ((createAccessToken settings platform user jti).bind rest) loaded true := by
  unfold createAccessToken
  simp only [Program.bind_eq, Program.bind_assoc]
  apply leads_readUser columns rfl
  exact leads_readRole columns

theorem leads_judgePassword
    (columns : HasColumns user loaded)
    (password : Str)
    (draw : Draw) :
    Reads request Judged (judgePassword settings platform user password draw) loaded
      false := by
  have raises : ∀ error : AuthError, Judged (α := TokenPair) (.error error) loaded false := by
    simp
  unfold judgePassword
  apply leads_readUser columns rfl
  split_ifs
  · apply leads_readUser columns rfl
    refine leads_quiet (quiet_verifyPassword _ _) raises fun isRight => ?_
    split_ifs
    · apply leads_readUser columns rfl
      refine leads_quiet quiet_now raises fun lastLoginAt => ?_
      refine leads_invoke raises fun _ => ?_
      exact leads_createAccessToken_bind columns draw.jti _
    · apply Leads.bind (leads_countFailure columns)
      intro _ loaded isDoomed calm
      exact judged_error.mpr calm.2
  · exact leads_refuse password invalidCredentials raises

theorem leads_login (credentials : LoginRequest) (draw : Draw) :
    Reads request Judged (login settings platform credentials draw) nothing false := by
  apply leads_invoke
  · simp [Request.dooms]
  · intro found
    cases found with
    | none => exact leads_refuse credentials.password invalidCredentials (by simp)
    | some user =>
        apply leads_quiet quiet_now
        · simp
        · intro now
          apply Leads.bind
            (leads_checkLockout (hasColumns_loadUser user fun _ => rfl) now credentials.password)
          rintro _ loaded _ ⟨columns, rfl⟩
          exact leads_judgePassword columns credentials.password draw

/-- A reuse is rejected by a token that is loaded. -/
theorem leads_rejectReuse (columns : HasToken existing loaded) :
    Reads request Judged (rejectReuse existing : Handler α) loaded false := by
  apply leads_readToken columns
  apply leads_invoke
  · simp [Request.dooms]
  · exact fun _ => judged_error.mpr rfl

/-- A rotation that has been lost has expired the token. -/
theorem leads_rejectReuse_expired :
    Reads request Judged (rejectReuse existing : Handler α) nothing true := by
  unfold rejectReuse
  rw [Reads, Program.bind_eq, leads_bind, readToken, leads_get]
  simp [nothing, andThen]

theorem leads_rotated
    (columns : HasColumns user loaded)
    (tokenId : UUID)
    (now : Nat)
    (replacement : NewToken)
    (draw : Draw) :
    Reads request Judged
      (do
        let rotated ← invoke (.rotateIfActive tokenId now replacement)
        if rotated then do
          let accessToken ← createAccessToken settings platform user draw.jti
          pure (tokenPair settings accessToken draw.rawToken)
        else rejectReuse existing) loaded false := by
  apply leads_invoke
  · simp [Request.dooms]
  · intro rotated
    cases rotated with
    | true => exact leads_createAccessToken_bind columns draw.jti _
    | false => exact leads_rejectReuse_expired

theorem leads_rotate
    (notDooms : ∀ userId answer, request.dooms (.getById userId) answer = false)
    (columns : HasToken existing loaded)
    (noUser : ∀ id name, loaded (.user id name) = false)
    (draw : Draw) :
    Reads request Judged (rotate settings platform existing draw) loaded false := by
  have raises : ∀ error : AuthError, Judged (α := TokenPair) (.error error) loaded false := by
    simp
  refine leads_quiet quiet_now raises fun now => ?_
  apply leads_readToken columns
  rw [Reads, Program.bind_eq, leads_bind, leads_ensure]
  split_ifs
  · apply leads_readToken columns
    apply leads_invoke
    · intro error
      rw [notDooms]
      exact raises error
    · intro found
      rw [notDooms]
      cases found with
      | none => exact judged_error.mpr rfl
      | some user =>
          have loadedColumns : HasColumns user (loadUser user loaded) :=
            hasColumns_loadUser user (noUser user.id)
          simp only [onlyActive, Program.bind_eq, Program.bind_assoc]
          apply leads_readUser loadedColumns rfl
          by_cases isActive : user.isActive = true
          · simp only [UserAttribute.value, isActive, if_true]
            refine leads_quiet quiet_now (by simp) fun issuedAt => ?_
            refine leads_readToken columns ?_
            refine leads_readToken columns ?_
            exact leads_rotated loadedColumns _ _ _ draw
          · simp only [UserAttribute.value, isActive]
            exact judged_error.mpr rfl
  · exact raises _

theorem leads_refresh
    (notDooms : ∀ userId answer, request.dooms (.getById userId) answer = false)
    (rawToken : Str)
    (draw : Draw) :
    Reads request Judged (refresh settings platform rawToken draw) nothing false := by
  apply leads_invoke
  · simp [Request.dooms]
  · intro found
    cases found with
    | none => exact judged_error.mpr rfl
    | some existing =>
        have columns := hasToken_loadToken existing
        apply leads_readToken columns
        split_ifs
        · exact leads_rotate notDooms columns (fun _ _ => rfl) draw
        · exact leads_rejectReuse columns

/-- What the dependencies find: an account with its columns, or nothing. -/
def Found : Except HTTPException User → Loaded Attribute → Bool → Prop
  | .ok user, loaded, isDoomed => HasColumns user loaded ∧ isDoomed = true
  | .error _, _, isDoomed => isDoomed = false

theorem leads_getCurrentUser
    (dooms : ∀ userId user, request.dooms (.getById userId) (.ok (some user)) = user.isActive)
    (subject : Option UUID) :
    Reads request (andThen Found (Judged (α := α))) (getCurrentUser subject) nothing
      false := by
  cases subject with
  | none => exact (rfl : false = false)
  | some userId =>
      apply leads_invoke
      · simp [Request.dooms, andThen]
      · intro found
        cases found with
        | none => exact (rfl : false = false)
        | some user =>
            have columns : HasColumns user (loadUser user nothing) :=
              hasColumns_loadUser user fun _ => rfl
            rw [dooms]
            simp only [onlyActive, Program.bind_eq, Program.bind_assoc]
            apply leads_readUser columns rfl
            cases isActive : user.isActive with
            | true =>
                simp only [UserAttribute.value, isActive]
                exact ⟨columns, rfl⟩
            | false =>
                simp only [UserAttribute.value, isActive]
                exact (rfl : false = false)

theorem leads_requirePermission
    (dooms : ∀ userId user, request.dooms (.getById userId) (.ok (some user)) = user.isActive)
    (permissionCode : Str)
    (subject : Option UUID) :
    Reads request Judged (requirePermission permissionCode subject) nothing false := by
  apply Leads.bind (leads_getCurrentUser dooms subject)
  intro current loaded isDoomed found
  cases current with
  | error exception => exact judged_value.mpr found
  | ok user =>
      obtain ⟨columns, rfl⟩ := found
      exact leads_readRole columns

theorem leads_me
    (dooms : ∀ userId user, request.dooms (.getById userId) (.ok (some user)) = user.isActive)
    (subject : Option UUID) :
    Reads request Judged (me subject) nothing false := by
  apply Leads.bind (leads_getCurrentUser dooms subject)
  intro current loaded isDoomed found
  cases current with
  | error exception => exact judged_value.mpr found
  | ok user =>
      obtain ⟨columns, rfl⟩ := found
      apply leads_readUser columns rfl
      apply leads_readUser columns rfl
      apply leads_readUser columns rfl
      exact leads_readRole columns

/-- What is done with the value of a program. -/
theorem leads_return
    {program : Handler α}
    (value : α → β)
    (leads : Reads request Judged program loaded isDoomed) :
    Reads request Judged (program.bind fun result => .ret (value result)) loaded
      isDoomed := by
  rw [Reads, leads_bind]
  apply leads.mono
  intro result loaded isDoomed judged
  match result with
  | .ok (.ok result) => simpa [andThen] using judged
  | .ok (.error name) => simpa [andThen] using judged
  | .error error => simpa [andThen] using judged

/-- A request ends with a read of what is not loaded exactly when an answer has
doomed it. -/
theorem leads_handler (request : Request) :
    Reads request (fun result _ => Judged result nothing) (request.handler settings platform)
      nothing false := by
  cases request with
  | login credentials draw => exact leads_return _ (leads_login credentials draw)
  | refresh rawToken draw =>
      apply leads_return _ (leads_refresh _ rawToken draw)
      intro userId answer
      match answer with
      | .ok none => rfl
      | .ok (some user) => rfl
      | .error error => rfl
  | requirePermission permissionCode subject =>
      exact leads_return _ (leads_requirePermission (fun _ _ => rfl) permissionCode subject)
  | me subject => exact leads_return _ (leads_me (fun _ _ => rfl) subject)

end Leads

/-! ## Runs -/

section Runs

variable
    {settings : Settings}
    {platform : Platform}

/-- The attribute that a process has come to read and that is not loaded. -/
def unloaded (status : Status AuthError AuthAnswer (Except Attribute Response)) :
    Option Attribute :=
  match status.result with
  | some (.ok (.error name)) => some name
  | _ => none

/-- The event is a call of the request with an answer that dooms it. -/
def Request.doomedBy (request : Request) : Event AuthError AuthAnswer Request → Bool
  | .opened _ _ _ => false
  | .called _ op answer _ => request.dooms op answer

theorem noted_iff
    (request : Request)
    (pid : ProcId)
    (log : List (Event AuthError AuthAnswer Request)) :
    noted Request.note false request (replies pid log) = true ↔
      ∃ event ∈ log, event.pid = pid ∧ request.doomedBy event = true := by
  have folded : ∀ (answers : List (Reply AuthError AuthAnswer)) (isDoomed : Bool),
      answers.foldl (fun ghost reply => request.note reply.1 reply.2 ghost) isDoomed = true ↔
        isDoomed = true ∨ ∃ reply ∈ answers, request.dooms reply.1 reply.2 = true := by
    intro answers
    induction answers with
    | nil => simp
    | cons reply answers inductionHypothesis =>
        intro isDoomed
        rw [List.foldl_cons, inductionHypothesis]
        simp [Request.note, or_assoc]
  unfold noted
  rw [folded]
  simp only [Bool.false_eq_true, false_or]
  constructor
  · rintro ⟨reply, isReply, dooms⟩
    obtain ⟨event, isEvent, isReply⟩ := List.mem_filterMap.mp isReply
    refine ⟨event, isEvent, ?_⟩
    cases event with
    | opened other call time => simp at isReply
    | called other op answer time =>
        simp only [Option.ite_none_right_eq_some, Option.some.injEq] at isReply
        obtain ⟨isOwn, rfl⟩ := isReply
        exact ⟨isOwn, dooms⟩
  · rintro ⟨event, isEvent, rfl, dooms⟩
    cases event with
    | opened other call time => contradiction
    | called other op answer time =>
        exact ⟨⟨op, answer⟩, List.mem_filterMap.mpr ⟨_, isEvent, by simp [Event.pid]⟩, dooms⟩

/-- The requests that are served, with their history. -/
abbrev Serving := Config AuthError AuthAnswer Request
  (Recorded AuthError AuthAnswer Request AuthStore) (Except Attribute Response)

/-- What a run of requests from the given tables reaches. -/
def Reaches (settings : Settings) (platform : Platform) (initial : AuthStore) (clock : Nat) :
    Serving → Prop :=
  Reachable (machine (callEffect platform) .database Request) (Request.run settings platform)
    (Recorded.start initial clock)

/-- Every attribute that a request has read was loaded. -/
def AttributesLoaded (config : Serving) : Prop :=
  ∀ pid request status, config.process pid = some (request, status) →
    unloaded status = none

/-- No answer has doomed its request. -/
def Spared (config : Serving) : Prop :=
  ∀ event ∈ config.shared.log, ∀ serving ∈ config.process event.pid,
    serving.1.doomedBy event = false

instance (config : Serving) : Decidable (Spared config) :=
  inferInstanceAs (Decidable (∀ event ∈ config.shared.log,
    ∀ serving ∈ config.process event.pid, serving.1.doomedBy event = false))

variable
    {initial : AuthStore}
    {clock : Nat}
    {config : Serving}

/-- A request has come to a read of what is not loaded exactly when an answer has
doomed it. -/
theorem unloaded_iff
    (reachable : Reaches settings platform initial clock config)
    {pid : ProcId}
    {request : Request}
    {status : Status AuthError AuthAnswer (Except Attribute Response)}
    (isServing : config.process pid = some (request, status)) :
    (unloaded status).isSome = true ↔
      ∃ event ∈ config.shared.log, event.pid = pid ∧ request.doomedBy event = true := by
  rw [← noted_iff]
  have ended : ∀ result, status.result = some result →
      ((∃ name, result = .ok (.error name)) ↔
        noted Request.note false request (replies pid config.shared.log) = true) := by
    intro result isResult
    exact post_of_leads leads_handler reachable isServing isResult
  cases isResult : status.result with
  | some result =>
      rw [← ended result isResult]
      simp only [unloaded, isResult]
      match result with
      | .ok (.ok response) => simp
      | .ok (.error name) => simp
      | .error error => simp
  | none =>
      -- a process that has not ended is at a call, and so it is not doomed
      match status with
      | .finished result => simp [Status.result] at isResult
      | .running (.ret value) => simp [Status.result, Program.outcome] at isResult
      | .running (.raise error) => simp [Status.result, Program.outcome] at isResult
      | .running (.call op next) =>
          have notDoomed : noted Request.note false request
              (replies pid config.shared.log) = false :=
            calling_of_leads leads_handler reachable isServing
          simp [unloaded, isResult, notDoomed]

/-- In every run, every attribute that is read is loaded exactly when no login has
reset the counters of its account, no rotation has been decided and no dependency
has found an active account. -/
theorem attributesLoaded_iff (reachable : Reaches settings platform initial clock config) :
    AttributesLoaded config ↔ Spared config := by
  constructor
  · intro areLoaded event isEvent serving isServing
    rw [Bool.eq_false_iff]
    intro dooms
    have isUnloaded := (unloaded_iff reachable isServing).mpr ⟨event, isEvent, rfl, dooms⟩
    rw [areLoaded event.pid serving.1 serving.2 isServing] at isUnloaded
    contradiction
  · intro spared pid request status isServing
    rw [← Option.not_isSome_iff_eq_none]
    intro isUnloaded
    obtain ⟨event, isEvent, rfl, dooms⟩ := (unloaded_iff reachable isServing).mp isUnloaded
    rw [spared event isEvent (request, status) isServing] at dooms
    contradiction

end Runs

/-! ## Small runs -/

/-- A run of requests on given tables. -/
def runRequests (store : AuthStore) (actions : List (Action Request)) : Serving :=
  schedule (callEffect .plain) .database (Request.run (Settings.sample 1) .plain)
    (.initial (Recorded.start store 0)) actions

theorem reaches_runRequests (store : AuthStore) (actions : List (Action Request)) :
    Reaches (Settings.sample 1) .plain store 0 (runRequests store actions) :=
  steps_of_schedule _ _ _ _ _

/-- The attribute that a process of a run has read, though it is not loaded. -/
def unloadedIn (config : Serving) (pid : ProcId) : Option Attribute :=
  (config.process pid).bind fun serving => unloaded serving.2

theorem not_attributesLoaded
    {config : Serving}
    (pid : ProcId)
    (isUnloaded : (unloadedIn config pid).isSome = true) :
    ¬AttributesLoaded config := by
  intro areLoaded
  unfold unloadedIn at isUnloaded
  cases isServing : config.process pid with
  | none => simp [isServing] at isUnloaded
  | some serving => simp [isServing, areLoaded pid serving.1 serving.2 isServing] at isUnloaded

/-- The account with a token. -/
def withToken : AuthStore :=
  AuthStore.sample.apply (.insertToken (newToken (Settings.sample 1) .plain 1 (.sample 1) 0))

/-- A login of the account. -/
def Request.sample (password : Str) : Request :=
  .login ⟨lit "user@corp.com", password⟩ (.sample 2)

/-- Two rotations of the token, one step of each at a time. -/
def rivals : List (Action Request) :=
  [.start 1 (.refresh (Draw.sample 1).rawToken (.sample 2)),
    .start 2 (.refresh (Draw.sample 1).rawToken (.sample 3))] ++
    ((List.replicate 5 [1, 2]).flatten.map .step)

/-- A login with the right password reads the role, which is not loaded, and a
rotation that has been lost reads the owner of the token, which has expired. -/
theorem attributes_unloaded :
    (∃ config, Reaches (Settings.sample 1) .plain .sample 0 config ∧
      unloadedIn config 1 = some (.user 1 .role) ∧ ¬AttributesLoaded config) ∧
    ∃ config, Reaches (Settings.sample 1) .plain withToken 0 config ∧
      unloadedIn config 2 = some (.token 1 .userId) ∧ ¬AttributesLoaded config := by
  have isRole : unloadedIn (runRequests .sample (.start 1 (.sample (lit "right")) ::
      List.replicate 5 (.step 1))) 1 = some (.user 1 .role) := by
    decide +kernel
  have isOwner : unloadedIn (runRequests withToken rivals) 2 = some (.token 1 .userId) := by
    decide +kernel
  constructor
  · refine ⟨_, reaches_runRequests _ _, isRole, not_attributesLoaded 1 ?_⟩
    rw [isRole]
    rfl
  · refine ⟨_, reaches_runRequests _ _, isOwner, not_attributesLoaded 2 ?_⟩
    rw [isOwner]
    rfl

/-- A login with a wrong password reads columns only. -/
theorem sample_attributesLoaded :
    AttributesLoaded (runRequests .sample (.start 1 (.sample (lit "wrong")) ::
      List.replicate 6 (.step 1))) :=
  (attributesLoaded_iff (reaches_runRequests _ _)).mpr (by decide +kernel)

end Orm
end Auth
end SigmaForge
