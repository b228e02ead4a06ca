import SigmaForge.Auth.Security
import SigmaForge.Foundation.Program
import SigmaForge.Auth.Store

/-!
# The authentication service

The functions of `AuthService` as programs over the calls of its repositories,
and these calls as programs over a session.  What `secrets` and `uuid4` draw is
an argument.
-/

namespace SigmaForge
namespace Auth

open Text ReadCommitted

/-- What the service raises. -/
inductive AuthError
  | invalidCredentials (message : Str)
  | accountLocked (message : Str)
  | refreshTokenInvalid (message : Str)
  /-- An exception of SQLAlchemy or of the driver. -/
  | database
  deriving DecidableEq

/-- What a password is compared with. -/
inductive PasswordHash
  /-- `_DUMMY_HASH`. -/
  | dummy
  /-- `user.hashed_password`. -/
  | ofUser (user : User)

/-- The operations of the service: the calls of the repositories, the clock and
`verify_password`. -/
inductive AuthOp
  | getByEmail (email : Str)
  | getById (userId : UUID)
  | incrementFailedLogin (userId : UUID)
  | resetFailedLogin (userId : UUID) (lastLoginAt : Nat)
  | setLockedUntil (userId : UUID) (lockedUntil : Option Nat)
  | resetExpiredLockout (userId : UUID) (now : Nat)
  | create (token : NewToken)
  | getByHash (tokenHash : Str)
  | rotateIfActive (tokenId : UUID) (now : Nat) (replacement : NewToken)
  | revoke (tokenId : UUID)
  | revokeAllForUser (userId : UUID)
  | now
  | verifyPassword (password : Str) (hash : PasswordHash)

/-- The answers of the operations. -/
abbrev AuthAnswer : AuthOp → Type
  | .getByEmail _ => Option User
  | .getById _ => Option User
  | .incrementFailedLogin _ => Int
  | .resetFailedLogin _ _ => Unit
  | .setLockedUntil _ _ => Unit
  | .resetExpiredLockout _ _ => Unit
  | .create _ => RefreshToken
  | .getByHash _ => Option RefreshToken
  | .rotateIfActive _ _ _ => Bool
  | .revoke _ => Unit
  | .revokeAllForUser _ => Unit
  | .now => Nat
  | .verifyPassword _ _ => Bool

/-- A function of the service. -/
abbrev Service (α : Type) := Program AuthError AuthAnswer α

/-- One operation. -/
def perform (op : AuthOp) : Service (AuthAnswer op) := Program.perform op

/-- `TokenPair`. -/
structure TokenPair where
  accessToken : Str
  refreshToken : Str
  tokenType : Str
  expiresIn : Nat

/-- The arguments of `login`, except for what is only stored. -/
structure LoginRequest where
  email : Str
  password : Str

/-- `InvalidCredentialsError("invalid credentials")`. -/
def invalidCredentials : AuthError := .invalidCredentials (lit "invalid credentials")

/-- `AccountLockedError("account locked")`. -/
def accountLocked : AuthError := .accountLocked (lit "account locked")

/-- The error of a detected reuse. -/
def reuseDetected : AuthError :=
  .refreshTokenInvalid (lit "refresh token reuse detected; all sessions revoked")

section Service

variable
    (settings : Settings)
    (platform : Platform)

/-! ## Logins -/

/-- A comparison with the dummy hash, and the error. -/
def refuse {α : Type} (password : Str) (error : AuthError) : Service α := do
  let _ ← perform (.verifyPassword password .dummy)
  throw error

/-- The lockout of a user. -/
def checkLockout (user : User) (now : Nat) (password : Str) : Service Unit :=
  match user.lockedUntil with
  | none => pure ()
  | some lockedUntil =>
      if now < lockedUntil then refuse password accountLocked
      else perform (.resetExpiredLockout user.id now)

/-- A wrong password. -/
def countFailure (user : User) : Service Unit := do
  let newFailedCount ← perform (.incrementFailedLogin user.id)
  if settings.maxFailedLoginAttempts ≤ newFailedCount then do
    let now ← perform .now
    perform (.setLockedUntil user.id (some (now + seconds settings.lockoutDurationSeconds)))
  else pure ()

/-- `create_access_token`. -/
def createAccessToken (user : User) (jti : UUID) : Service Str := do
  let now ← perform .now
  pure (platform.encode (accessClaims settings user.id user.roleName jti now)
    settings.jwtPrivateKey)

/-- The pair that is returned. -/
def tokenPair (accessToken rawToken : Str) : TokenPair where
  accessToken := accessToken
  refreshToken := rawToken
  tokenType := lit "bearer"
  expiresIn := settings.jwtAccessTokenTtlSeconds

/-- A refresh token that has been drawn. -/
def newToken (userId : UUID) (draw : Draw) (now : Nat) : NewToken where
  id := draw.tokenId
  userId := userId
  tokenHash := hashRefreshToken platform draw.rawToken
  expiresAt := now + seconds settings.jwtRefreshTokenTtlSeconds

/-- `_issue_token_pair`. -/
def issueTokenPair (user : User) (draw : Draw) : Service TokenPair := do
  let accessToken ← createAccessToken settings platform user draw.jti
  let now ← perform .now
  let _ ← perform (.create (newToken settings platform user.id draw now))
  pure (tokenPair settings accessToken draw.rawToken)

/-- What `login` does with an account that is not locked. -/
def judgePassword (user : User) (password : Str) (draw : Draw) : Service TokenPair :=
  if user.isActive then do
    let isRight ← perform (.verifyPassword password (.ofUser user))
    if isRight then do
      let lastLoginAt ← perform .now
      perform (.resetFailedLogin user.id lastLoginAt)
      issueTokenPair settings platform user draw
    else do
      countFailure settings user
      throw invalidCredentials
  else refuse password invalidCredentials

/-- `login`. -/
def login (request : LoginRequest) (draw : Draw) : Service TokenPair := do
  let found ← perform (.getByEmail request.email)
  match found with
  | none => refuse request.password invalidCredentials
  | some user => do
      let now ← perform .now
      checkLockout user now request.password
      judgePassword settings platform user request.password draw

/-! ## Refresh tokens -/

/-- The reaction to a reuse. -/
def rejectReuse {α : Type} (userId : UUID) : Service α := do
  perform (.revokeAllForUser userId)
  throw reuseDetected

/-- What `refresh` does with a token that is not revoked. -/
def rotate (existing : RefreshToken) (draw : Draw) : Service TokenPair := do
  let now ← perform .now
  Program.ensure (now < existing.expiresAt) (.refreshTokenInvalid (lit "refresh token expired"))
  let found ← perform (.getById existing.userId)
  let user ← Program.ofOption (.refreshTokenInvalid (lit "account no longer active"))
    (found.filter fun user => user.isActive)
  let issuedAt ← perform .now
  let rotated ← perform
    (.rotateIfActive existing.id now (newToken settings platform existing.userId draw issuedAt))
  if rotated then do
    let accessToken ← createAccessToken settings platform user draw.jti
    pure (tokenPair settings accessToken draw.rawToken)
  else rejectReuse existing.userId

/-- `refresh`. -/
def refresh (rawToken : Str) (draw : Draw) : Service TokenPair := do
  let found ← perform (.getByHash (hashRefreshToken platform rawToken))
  let existing ← Program.ofOption (.refreshTokenInvalid (lit "unknown refresh token")) found
  if existing.revokedAt = none then rotate settings platform existing draw
  else rejectReuse existing.userId

/-- `logout`. -/
def logout (rawToken : Str) : Service Unit := do
  let found ← perform (.getByHash (hashRefreshToken platform rawToken))
  match found.filter fun existing => existing.revokedAt = none with
  | none => pure ()
  | some existing => perform (.revoke existing.id)

/-- `logout_all`. -/
def logoutAll (userId : UUID) : Service Unit := perform (.revokeAllForUser userId)

/-- A call of the service. -/
inductive AuthCall
  | login (request : LoginRequest) (draw : Draw)
  | refresh (rawToken : Str) (draw : Draw)
  | logout (rawToken : Str)
  | logoutAll (userId : UUID)

/-- What a call returns. -/
inductive AuthResponse
  | pair (pair : TokenPair)
  | done

/-- The program of a call. -/
def AuthCall.program : AuthCall → Service AuthResponse
  | .login request draw => do
      let pair ← Auth.login settings platform request draw
      pure (.pair pair)
  | .refresh rawToken draw => do
      let pair ← Auth.refresh settings platform rawToken draw
      pure (.pair pair)
  | .logout rawToken => do
      Auth.logout platform rawToken
      pure .done
  | .logoutAll userId => do
      Auth.logoutAll userId
      pure .done

end Service

/-! ## Repositories -/

/-- A program over a session. -/
abbrev Session (α : Type) := Program AuthError (SessionAnswer Answer) α

/-- Executes a statement. -/
def execute (statement : Statement) : Session (Answer statement) :=
  Program.perform (SessionOp.execute statement)

/-- `COMMIT`. -/
def commit : Session Unit := Program.perform SessionOp.commit

/-- `session.rollback()`. -/
def rollback : Session Unit := Program.perform SessionOp.rollback

/-- `datetime.now(timezone.utc)`. -/
def clock : Session Nat := Program.perform SessionOp.now

/-- A transaction that is rolled back when something fails in it. -/
def transaction {α : Type} (body : Session α) : Session α :=
  tryCatch body fun error => do
    rollback
    throw error

/-- `increment_failed_login`. -/
def incrementFailedLogin (userId : UUID) : Session Int := do
  let count ← execute (.incrementFailedLogin userId)
  commit
  Program.ofOption .database count

/-- A statement in a transaction of its own. -/
def executeAndCommit (statement : Statement) : Session (Answer statement) := do
  let answer ← execute statement
  commit
  pure answer

/-- `create`. -/
def create (token : NewToken) : Session RefreshToken := do
  execute (.insertToken token)
  commit
  let stored ← execute (.selectTokenById token.id)
  Program.ofOption .database stored

/-- The transaction of `rotate_if_active`. -/
def rotateTransaction (tokenId : UUID) (now : Nat) (replacement : NewToken) : Session Bool := do
  let lockedUser ← execute (.lockUser replacement.userId)
  match lockedUser with
  | none => do
      rollback
      pure false
  | some _ => do
      let consumed ← execute (.consumeToken tokenId replacement.userId now)
      match consumed with
      | none => do
          rollback
          pure false
      | some _ => do
          execute (.insertToken replacement)
          commit
          pure true

/-- `rotate_if_active`. -/
def rotateIfActive (tokenId : UUID) (now : Nat) (replacement : NewToken) : Session Bool :=
  transaction (rotateTransaction tokenId now replacement)

/-- `revoke`. -/
def revoke (tokenId : UUID) : Session Unit := do
  let revokedAt ← clock
  executeAndCommit (.revokeToken tokenId revokedAt)

/-- The rows of an `UPDATE`, one after the other. -/
def revokeEach (userId : UUID) (revokedAt : Nat) : List UUID → Session Unit
  | [] => pure ()
  | id :: ids => do
      execute (.revokeUnrevoked id userId revokedAt)
      revokeEach userId revokedAt ids

/-- The transaction of `revoke_all_for_user`. -/
def revokeTransaction (userId : UUID) : Session Unit := do
  let _ ← execute (.lockUser userId)
  let revokedAt ← clock
  let ids ← execute (.unrevokedTokens userId)
  revokeEach userId revokedAt ids
  commit

/-- `revoke_all_for_user`. -/
def revokeAllForUser (userId : UUID) : Session Unit := transaction (revokeTransaction userId)

/-- `verify_password`. -/
def verifyPassword (platform : Platform) (password : Str) : PasswordHash → Bool
  | .dummy => platform.verify password platform.dummyHash
  | .ofUser user => platform.verify password user.hashedPassword

/-- The repositories over SQLAlchemy. -/
def sqlAlchemy (platform : Platform) : (op : AuthOp) → Session (AuthAnswer op)
  | .getByEmail email => execute (.selectUserByEmail email)
  | .getById userId => execute (.selectUserById userId)
  | .incrementFailedLogin userId => incrementFailedLogin userId
  | .resetFailedLogin userId lastLoginAt =>
      executeAndCommit (.resetFailedLogin userId lastLoginAt)
  | .setLockedUntil userId lockedUntil => executeAndCommit (.setLockedUntil userId lockedUntil)
  | .resetExpiredLockout userId now => executeAndCommit (.resetExpiredLockout userId now)
  | .create token => create token
  | .getByHash tokenHash => execute (.selectTokenByHash tokenHash)
  | .rotateIfActive tokenId now replacement => rotateIfActive tokenId now replacement
  | .revoke tokenId => revoke tokenId
  | .revokeAllForUser userId => revokeAllForUser userId
  | .now => clock
  | .verifyPassword password hash => .ret (verifyPassword platform password hash)

/-! ## A small deployment -/

/-- A platform for examples: a password is its own hash. -/
def Platform.plain : Platform where
  citext := id
  verify password hashedPassword := password = hashedPassword
  dummyHash := []
  sha256 := id
  encode claims _ := claims.sub

/-- An account whose password is `"right"`. -/
def User.sample (id : UUID) : User where
  failedLoginCount := 0
  lockedUntil := none
  lastLoginAt := none
  id := id
  email := lit "user@corp.com"
  hashedPassword := lit "right"
  fullName := lit "User"
  roleName := lit "detection_engineer"
  isActive := true
  mfaEnabled := false

/-- The account alone. -/
def AuthStore.sample : AuthStore := .ofUsers [.sample 1] (by decide)

/-- Settings with the given number of attempts, and a lockout of 15 minutes. -/
def Settings.sample (attempts : Nat) : Settings where
  maxFailedLoginAttempts := attempts + 1
  lockoutDurationSeconds := 900
  jwtAccessTokenTtlSeconds := 900
  jwtRefreshTokenTtlSeconds := 1209600
  jwtIssuer := lit "sigmaforge"
  jwtPrivateKey := []
  maxFailedLoginAttempts_pos := by omega
  lockoutDurationSeconds_pos := by decide

/-- What is drawn. -/
def Draw.sample (number : Nat) : Draw where
  rawToken := hexDigits number 28 4
  tokenId := Fin.ofNat _ number
  jti := Fin.ofNat _ number

/-- A login with the given password. -/
def AuthCall.sample (password : Str) (number : Nat) : AuthCall :=
  .login ⟨lit "user@corp.com", password⟩ (.sample number)

end Auth
end SigmaForge
