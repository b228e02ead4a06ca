import SigmaForge.Auth.LockoutAutomaton

/-!
# Logins that fail

What a client sees of a login, and how often the password is verified for it.  Without the
password of the account that it names, a login is declined in one way, whatever there is of
this account.
-/

namespace SigmaForge
namespace Auth

open Text

/-! ## The endpoint -/

/-- The body of a response. -/
inductive ResponseBody
  /-- `TokenResponse`. -/
  | tokens (pair : TokenPair)
  /-- The detail of an `HTTPException`. -/
  | detail (text : Str)

/-- A response of the endpoint. -/
structure HttpResponse where
  status : Nat
  body : ResponseBody

/-- `_GENERIC_AUTH_ERROR`. -/
def genericAuthError : Str := lit "Invalid email or password"

/-- What the endpoint `login` makes of the outcome of `AuthService.login`: a response, or
the exception that it does not catch. -/
def loginEndpoint : Except AuthError TokenPair → Except AuthError HttpResponse
  | .ok pair => .ok ⟨200, .tokens pair⟩
  | .error (.accountLocked _) => .ok ⟨401, .detail genericAuthError⟩
  | .error (.invalidCredentials _) => .ok ⟨401, .detail genericAuthError⟩
  | .error error => .error error

/-- The response to a login. -/
def LoginRun.response (run : LoginRun) : Except AuthError HttpResponse :=
  loginEndpoint run.result

/-- A call of `verify_password`. -/
def AuthOp.isVerification : AuthOp → Bool
  | .verifyPassword _ _ => true
  | _ => false

/-- How often a login has called `verify_password`. -/
def LoginRun.verifications (run : LoginRun) : Nat :=
  run.performed.countP fun entry => entry.op.isVerification

/-- The password is not the one of the account that has the email. -/
def LoginRequest.IsWrong (platform : Platform) (store : AuthStore) (request : LoginRequest) :
    Prop :=
  ∀ user, store.byEmail platform request.email = some user →
    platform.verify request.password user.hashedPassword = false

/-! ## One login -/

/-- The response to a login that is declined. -/
def declined : Except AuthError HttpResponse := .ok ⟨401, .detail genericAuthError⟩

/-- The login has failed with the error after these operations: the password was verified
once, and unless the database has failed, the response is the one to every such login. -/
structure Declines (error : AuthError) (ops : List AuthOp) : Prop where
  verifiedOnce : ops.countP AuthOp.isVerification = 1
  isDeclined : error ≠ .database → loginEndpoint (.error error) = declined

/-- Nothing was verified before. -/
theorem Declines.after
    {error : AuthError}
    {before ops : List AuthOp}
    (declines : Declines error ops)
    (noneVerified : before.countP AuthOp.isVerification = 0) :
    Declines error (before ++ ops) where
  verifiedOnce := by rw [List.countP_append, noneVerified, Nat.zero_add, declines.verifiedOnce]
  isDeclined := declines.isDeclined

theorem declines_dummy
    {error : AuthError}
    (password : Str)
    (isDeclined : loginEndpoint (.error error) = declined) :
    Declines error [.verifyPassword password .dummy] :=
  ⟨rfl, fun _ => isDeclined⟩

theorem countP_admitting (email : Str) (user : User) (now : Nat) :
    (admitting email user now).countP AuthOp.isVerification = 0 := by
  unfold admitting clearing
  cases user.lockedUntil <;> rfl

theorem countP_locking
    (settings : Settings)
    (userId : UUID)
    (newFailedCount : Int)
    (now : Nat) :
    (locking settings userId newFailedCount now).countP AuthOp.isVerification = 0 := by
  unfold locking
  split_ifs <;> rfl

section Logins

variable
    {settings : Settings}
    {platform : Platform}
    {clock : Nat → Nat}
    {line : AuthLine}
    {user row : User}

/-- A counter at the end of its column is not counted up. -/
theorem runAt_judgePassword_of_full
    {password : Str}
    (isActive : user.isActive = true)
    (isWrong : platform.verify password user.hashedPassword = false)
    (found : line.state.user user.id = some row)
    (outOfRange : ¬IsSmallInt (row.failedLoginCount + 1))
    (draw : Draw) :
    runAt platform clock (judgePassword settings platform user password draw) line =
      (.error .database, calledAll platform clock line
        [.verifyPassword password (.ofUser user), .incrementFailedLogin user.id]) := by
  have isVerified : (callEffect platform (.verifyPassword password (.ofUser user))
      (line.time clock) line.state).1 = .ok false := congrArg Except.ok isWrong
  have found' : (called platform clock line (.verifyPassword password (.ofUser user))).state.user
      user.id = some row := found
  unfold judgePassword
  rw [if_pos isActive]
  simp only [Program.bind_eq]
  rw [runAt_perform_bind isVerified]
  simp only [Bool.false_eq_true, if_false]
  unfold countFailure
  simp only [Program.bind_eq, Program.bind_assoc]
  exact Timeline.run_bind_of_error (Timeline.run_perform_of_error
    (congrArg Prod.fst (incrementFailedLogin_raises found' outOfRange))) _

/-- A wrong password is declined once it is judged. -/
theorem judgePassword_declines
    (settings : Settings)
    (clock : Nat → Nat)
    {password : Str}
    (isWrong : platform.verify password user.hashedPassword = false)
    (found : line.state.user user.id = some row)
    (draw : Draw) :
    ∃ error ops, runAt platform clock (judgePassword settings platform user password draw) line =
        (.error error, calledAll platform clock line ops) ∧ Declines error ops := by
  by_cases isActive : user.isActive = true
  · by_cases inRange : IsSmallInt (row.failedLoginCount + 1)
    · refine ⟨_, _, runAt_judgePassword_of_wrong isActive isWrong found inRange draw, ?_, ?_⟩
      · rw [List.countP_cons_of_pos rfl, List.countP_cons_of_neg (by simp [AuthOp.isVerification]),
          countP_locking]
      · exact fun _ => rfl
    · exact ⟨_, _, runAt_judgePassword_of_full isActive isWrong found inRange draw, rfl,
        fun notDatabase => absurd rfl notDatabase⟩
  · unfold judgePassword
    rw [if_neg isActive]
    exact ⟨_, _, runAt_refuse password invalidCredentials, declines_dummy password rfl⟩

/-- The row of the user is still there when the password is judged. -/
theorem user_of_admitting
    (platform : Platform)
    (clock : Nat → Nat)
    (found : line.state.user user.id = some row)
    (email : Str)
    (now : Nat) :
    ∃ row', (calledAll platform clock line (admitting email user now)).state.user user.id =
      some row' := by
  have found' : (calledAll platform clock line [.getByEmail email, .now]).state.user user.id =
      some row := found
  unfold admitting clearing
  cases user.lockedUntil with
  | none => exact ⟨row, found'⟩
  | some deadline => exact ⟨_, user_called (resetExpiredLockout_returns user.id now) found'⟩

/-- A login with a wrong password is declined. -/
theorem login_declines
    (settings : Settings)
    (clock : Nat → Nat)
    {request : LoginRequest}
    (isWrong : request.IsWrong platform line.state)
    (draw : Draw) :
    ∃ error ops, runAt platform clock (login settings platform request draw) line =
        (.error error, calledAll platform clock line ops) ∧ Declines error ops := by
  cases isFound : line.state.byEmail platform request.email with
  | none =>
      have isAnswer : (callEffect platform (.getByEmail request.email) (line.time clock)
          line.state).1 = .ok none := congrArg Except.ok isFound
      unfold login
      simp only [Program.bind_eq]
      rw [runAt_perform_bind isAnswer]
      exact ⟨_, [.getByEmail request.email, .verifyPassword request.password .dummy],
        runAt_refuse _ _, rfl, fun _ => rfl⟩
  | some user =>
      rw [runAt_login isFound]
      generalize clock (line.performed.length + 1) = now
      by_cases isLocked : ∃ deadline, user.lockedUntil = some deadline ∧ now < deadline
      · obtain ⟨deadline, hasLock, isActive⟩ := isLocked
        exact ⟨_, [.getByEmail request.email, .now, .verifyPassword request.password .dummy],
          runAt_bind_of_error (runAt_checkLockout_of_locked hasLock isActive _) _, rfl,
          fun _ => rfl⟩
      · have isOver : ∀ deadline, user.lockedUntil = some deadline → deadline ≤ now :=
          fun deadline hasLock => Nat.le_of_not_lt fun isActive =>
            isLocked ⟨deadline, hasLock, isActive⟩
        rw [runAt_bind_of_ok (runAt_checkLockout_of_unlocked isOver _)]
        obtain ⟨row, isRow⟩ := user_of_admitting platform clock
          (AuthStore.user_of_mem (List.mem_of_find?_eq_some isFound)) request.email now
        obtain ⟨error, ops, isJudged, declines⟩ := judgePassword_declines settings clock
          (isWrong user isFound) isRow draw
        exact ⟨error, admitting request.email user now ++ ops,
          isJudged.trans (congrArg (_, ·) (Timeline.afterAll_append _ _ _).symm),
          declines.after (countP_admitting _ _ _)⟩

/-- A wrong password stays wrong. -/
theorem LoginRequest.IsWrong.after
    {request : LoginRequest}
    (isWrong : request.IsWrong platform line.state)
    (other : LoginRequest × Draw) :
    request.IsWrong platform (loginRun settings platform clock other line).after.state := by
  have sameHash : ∀ userId columns user,
      (AuthTables.updatedUser userId columns user).hashedPassword = user.hashedPassword := by
    intro userId columns user
    unfold AuthTables.updatedUser
    split_ifs <;> rfl
  have isKept : ((loginRun settings platform clock other line).after.state.byEmail platform
      request.email).map (fun user => user.hashedPassword) =
        (line.state.byEmail platform request.email).map fun user => user.hashedPassword :=
    Timeline.run_keeps
      (fun store => (store.byEmail platform request.email).map fun user => user.hashedPassword)
      (fun op time store => byEmail_callEffect sameHash op request.email) _ line
  intro user isFound
  rw [isFound] at isKept
  obtain ⟨user', isFound', sameUser⟩ := Option.map_eq_some_iff.mp isKept.symm
  have isHash : user'.hashedPassword = user.hashedPassword := sameUser
  rw [← isHash]
  exact isWrong user' isFound'

theorem LoginRun.Performs.verifications
    {run : LoginRun}
    {ops : List AuthOp}
    {result : Except AuthError TokenPair}
    (performs : run.Performs platform clock ops result) :
    run.verifications = ops.countP AuthOp.isVerification := by
  calc run.verifications
      = (run.before.performing (callEffect platform) clock ops).countP
          fun entry => entry.op.isVerification := by
        rw [LoginRun.verifications, performs.performed]
    _ = ((run.before.performing (callEffect platform) clock ops).map
          fun entry => entry.op).countP AuthOp.isVerification := by
        rw [List.countP_map]
        rfl
    _ = ops.countP AuthOp.isVerification := by rw [Timeline.map_op_performing]

/-! ## Logins one after the other -/

/-- Logins with wrong passwords are declined alike. -/
theorem loginRuns_declined
    {requests : List (LoginRequest × Draw)}
    (areWrong : ∀ request ∈ requests, request.1.IsWrong platform line.state)
    (noFailure : ∀ run ∈ loginRuns settings platform clock requests line,
      run.result ≠ .error .database) :
    (loginRuns settings platform clock requests line).map LoginRun.response =
        requests.map (fun _ => declined) ∧
      ∀ run ∈ loginRuns settings platform clock requests line, run.verifications = 1 := by
  induction requests generalizing line with
  | nil => exact ⟨rfl, by simp [loginRuns]⟩
  | cons request requests inductionHypothesis =>
      obtain ⟨error, ops, isRun, declines⟩ := login_declines settings clock
        (areWrong request List.mem_cons_self) request.2
      have performs := loginRun_performs isRun
      have notDatabase : error ≠ .database := by
        rintro rfl
        exact noFailure _ List.mem_cons_self performs.result
      obtain ⟨areDeclined, areVerified⟩ := inductionHypothesis
        (fun other isOther => (areWrong other (List.mem_cons_of_mem _ isOther)).after request)
        (fun run isRun => noFailure run (List.mem_cons_of_mem _ isRun))
      constructor
      · rw [loginRuns, List.map_cons, List.map_cons, areDeclined, LoginRun.response,
          performs.result, declines.isDeclined notDatabase]
      · intro run isRun
        rcases List.mem_cons.mp isRun with rfl | isLater
        · exact performs.verifications.trans declines.verifiedOnce
        · exact areVerified run isLater

end Logins

/-- Failed logins do not depend on the accounts. -/
theorem failed_logins_alike
    {settings : Settings}
    {platform : Platform}
    {clock clock' : Nat → Nat}
    {store store' : AuthStore}
    {requests : List (LoginRequest × Draw)}
    (areWrong : ∀ request ∈ requests, request.1.IsWrong platform store)
    (areWrong' : ∀ request ∈ requests, request.1.IsWrong platform store')
    (noFailure : ∀ run ∈ loginRuns settings platform clock requests ⟨store, []⟩,
      run.result ≠ .error .database)
    (noFailure' : ∀ run ∈ loginRuns settings platform clock' requests ⟨store', []⟩,
      run.result ≠ .error .database) :
    (loginRuns settings platform clock requests ⟨store, []⟩).map LoginRun.response =
        (loginRuns settings platform clock' requests ⟨store', []⟩).map LoginRun.response ∧
      (∀ run ∈ loginRuns settings platform clock requests ⟨store, []⟩,
        run.verifications = 1) ∧
      ∀ run ∈ loginRuns settings platform clock' requests ⟨store', []⟩,
        run.verifications = 1 := by
  obtain ⟨areDeclined, areVerified⟩ := loginRuns_declined areWrong noFailure
  obtain ⟨areDeclined', areVerified'⟩ := loginRuns_declined areWrong' noFailure'
  exact ⟨areDeclined.trans areDeclined'.symm, areVerified, areVerified'⟩

/-! ## Two deployments -/

/-- No account. -/
def AuthStore.empty : AuthStore := .ofUsers [] (by decide)

/-- Two guesses. -/
def twoGuesses : List (LoginRequest × Draw) :=
  [(⟨lit "user@corp.com", lit "wrong"⟩, .sample 1), (⟨lit "user@corp.com", lit "guess"⟩, .sample 2)]

/-- The first guess locks the account, and there is none in the other tables. -/
theorem twoGuesses_alike :
    (loginRuns (.sample 0) .plain id twoGuesses ⟨AuthStore.sample, []⟩).map LoginRun.response =
        (loginRuns (.sample 0) .plain id twoGuesses ⟨AuthStore.empty, []⟩).map
          LoginRun.response ∧
      (∀ run ∈ loginRuns (.sample 0) .plain id twoGuesses ⟨AuthStore.sample, []⟩,
        run.verifications = 1) ∧
      ∀ run ∈ loginRuns (.sample 0) .plain id twoGuesses ⟨AuthStore.empty, []⟩,
        run.verifications = 1 := by
  have areWrong : ∀ request ∈ twoGuesses, request.1.IsWrong .plain AuthStore.sample := by
    have noneRight : ∀ request ∈ twoGuesses, ∀ user ∈ AuthStore.sample.users,
        Platform.plain.verify request.1.password user.hashedPassword = false := by decide
    exact fun request isRequest user isFound =>
      noneRight request isRequest user (List.mem_of_find?_eq_some isFound)
  have areWrong' : ∀ request ∈ twoGuesses, request.1.IsWrong .plain AuthStore.empty :=
    fun request _ user isFound => absurd (List.mem_of_find?_eq_some isFound) List.not_mem_nil
  have isLocked : (loginRuns (.sample 0) .plain id twoGuesses ⟨AuthStore.sample, []⟩).map
      LoginRun.result = [.error invalidCredentials, .error accountLocked] := rfl
  have isUnknown : (loginRuns (.sample 0) .plain id twoGuesses ⟨AuthStore.empty, []⟩).map
      LoginRun.result = [.error invalidCredentials, .error invalidCredentials] := rfl
  refine failed_logins_alike areWrong areWrong' (fun run isRun isFailure => ?_)
    (fun run isRun isFailure => ?_)
  · have isResult := List.mem_map_of_mem (f := LoginRun.result) isRun
    rw [isLocked, isFailure] at isResult
    simp [invalidCredentials, accountLocked] at isResult
  · have isResult := List.mem_map_of_mem (f := LoginRun.result) isRun
    rw [isUnknown, isFailure] at isResult
    simp [invalidCredentials] at isResult

end Auth
end SigmaForge
