import SigmaForge.Auth.Sequential
import SigmaForge.Foundation.AttemptLimit

/-!
# Logins as steps of the lockout automaton

The counter and the lock of an account are the state of an automaton that limits
attempts.  Logins that run one after the other are its steps.
-/

namespace SigmaForge
namespace Auth

open Text AttemptLimit

/-- The limit that the settings ask for. -/
def Settings.lockoutPolicy (settings : Settings) : AttemptLimit Nat where
  limit := settings.maxFailedLoginAttempts.toNat
  duration := seconds settings.lockoutDurationSeconds
  limit_pos := by
    have isPositive := settings.maxFailedLoginAttempts_pos
    omega

/-- The columns of the row are those of a state. -/
def User.Represents {policy : AttemptLimit Nat} (user : User) : State policy → Prop
  | .counting wrong _ => user.lockedUntil = none ∧ user.failedLoginCount = wrong
  | .locked deadline => user.lockedUntil = some deadline

/-- The account is active, has the given hash and is in the given state. -/
structure User.IsIn {policy : AttemptLimit Nat} (user : User) (hashedPassword : Str)
    (state : State policy) : Prop where
  isActive : user.isActive = true
  hasPassword : user.hashedPassword = hashedPassword
  represents : user.Represents state

/-- The tables have the account in the given state. -/
def AccountIn {policy : AttemptLimit Nat} (userId : UUID) (hashedPassword : Str)
    (state : State policy) (store : AuthStore) : Prop :=
  ∃ user, store.user userId = some user ∧ user.IsIn hashedPassword state

/-! ## Runs -/

/-- A login that has run. -/
structure LoginRun where
  request : LoginRequest
  draw : Draw
  before : AuthLine
  result : Except AuthError TokenPair
  after : AuthLine

/-- The times that an operation brings along are dates. -/
def AuthOp.HasDates : AuthOp → Prop
  | .setLockedUntil _ lockedUntil => ∀ time ∈ lockedUntil, time ≤ datetimeMax
  | .create token => token.expiresAt ≤ datetimeMax
  | .rotateIfActive _ _ replacement => replacement.expiresAt ≤ datetimeMax
  | _ => True

/-- What it has performed. -/
def LoginRun.performed (run : LoginRun) : List (Performed AuthOp AuthStore) :=
  run.after.performed.drop run.before.performed.length

section Runs

variable
    (settings : Settings)
    (platform : Platform)
    (clock : Nat → Nat)

/-- The run of a request. -/
def loginRun (request : LoginRequest × Draw) (line : AuthLine) : LoginRun :=
  let ran := runAt platform clock (login settings platform request.1 request.2) line
  ⟨request.1, request.2, line, ran.1, ran.2⟩

/-- The runs of some requests, one after the other. -/
def loginRuns : List (LoginRequest × Draw) → AuthLine → List LoginRun
  | [], _ => []
  | request :: requests, line =>
      let run := loginRun settings platform clock request line
      run :: loginRuns requests run.after

end Runs

section Observations

variable
    (platform : Platform)
    (userId : UUID)
    (hashedPassword : Str)

/-- The outcome of a comparison with the hash of the account. -/
def comparison : AuthOp → Option Bool
  | .verifyPassword password (.ofUser user) =>
      if user.id = userId then some (platform.verify password user.hashedPassword) else none
  | _ => none

/-- The times and outcomes of these comparisons. -/
def comparisons (performed : List (Performed AuthOp AuthStore)) : List (Nat × Bool) :=
  performed.filterMap fun entry =>
    (comparison platform userId entry.op).map fun isRight => (entry.time, isRight)

/-- What the clock has said. -/
def clockReadings (performed : List (Performed AuthOp AuthStore)) : List Nat :=
  performed.filterMap fun entry =>
    match entry.op with
    | .now => some entry.time
    | _ => none

/-- A login as a guess: the first reading of the clock checks the lock, and the second one
follows the comparison. -/
def LoginRun.guess (run : LoginRun) : Guess Nat :=
  let readings := clockReadings run.performed
  let checkedAt := readings.headD 0
  let comparedAt := ((comparisons platform userId run.performed).map Prod.fst).headD checkedAt
  { checkedAt, comparedAt
    judgedAt := readings.getD 1 comparedAt
    isRight := platform.verify run.request.password hashedPassword }

/-- What a login shows of its verdict. -/
def LoginRun.Shows (run : LoginRun) : Verdict → Prop
  | .refused =>
      run.result = .error accountLocked ∧ comparisons platform userId run.performed = [] ∧
        run.after.state = run.before.state
  | .wrong =>
      run.result = .error invalidCredentials ∧
        comparisons platform userId run.performed =
          [((run.guess platform userId hashedPassword).comparedAt, false)]
  | .right =>
      (run.draw.IsNew platform run.before.state → ∃ pair, run.result = .ok pair) ∧
        (¬run.draw.IsNew platform run.before.state → run.result = .error .database) ∧
        comparisons platform userId run.performed =
          [((run.guess platform userId hashedPassword).comparedAt, true)]

/-- A login is a step of the automaton. -/
structure LoginRun.Follows {policy : AttemptLimit Nat} (run : LoginRun) (state : State policy) :
    Prop where
  before : AccountIn userId hashedPassword state run.before.state
  after : AccountIn userId hashedPassword
    (state.guess (run.guess platform userId hashedPassword)).2 run.after.state
  /-- An expired lock is gone before the password is compared. -/
  compared : ∀ entry ∈ run.performed, comparison platform userId entry.op ≠ none →
    AccountIn userId hashedPassword
      (state.expire (run.guess platform userId hashedPassword).checkedAt) entry.state
  shows : run.Shows platform userId hashedPassword
    (state.guess (run.guess platform userId hashedPassword)).1
  lastLoginAt : (state.guess (run.guess platform userId hashedPassword)).1 ≠ .right →
    (run.after.state.user userId).map (fun user => user.lastLoginAt) =
      (run.before.state.user userId).map fun user => user.lastLoginAt

/-- Logins are the steps of the automaton, one after the other. -/
def Refines {policy : AttemptLimit Nat} : State policy → List LoginRun → Prop
  | _, [] => True
  | state, run :: runs =>
      run.Follows platform userId hashedPassword state ∧
        Refines (state.guess (run.guess platform userId hashedPassword)).2 runs

end Observations

/-! ## What a login shows -/

section Shows

variable
    {settings : Settings}
    {platform : Platform}
    {clock : Nat → Nat}
    {userId : UUID}
    {hashedPassword : Str}
    {line : AuthLine}

theorem comparisons_append (first second : List (Performed AuthOp AuthStore)) :
    comparisons platform userId (first ++ second) =
      comparisons platform userId first ++ comparisons platform userId second :=
  List.filterMap_append

theorem clockReadings_append (first second : List (Performed AuthOp AuthStore)) :
    clockReadings (first ++ second) = clockReadings first ++ clockReadings second :=
  List.filterMap_append

/-- Without comparisons, no operation is one. -/
theorem comparison_eq_none
    {performed : List (Performed AuthOp AuthStore)}
    (noneCompared : comparisons platform userId performed = [])
    {entry : Performed AuthOp AuthStore}
    (isEntry : entry ∈ performed) :
    comparison platform userId entry.op = none := by
  have isNone := List.filterMap_eq_nil_iff.mp noneCompared entry isEntry
  exact Option.map_eq_none_iff.mp isNone

/-- The run consists of these calls. -/
structure LoginRun.Performs (platform : Platform) (clock : Nat → Nat) (run : LoginRun)
    (ops : List AuthOp) (result : Except AuthError TokenPair) : Prop where
  result : run.result = result
  after : run.after = calledAll platform clock run.before ops

theorem LoginRun.Performs.performed
    {run : LoginRun}
    {ops : List AuthOp}
    {result : Except AuthError TokenPair}
    (performs : run.Performs platform clock ops result) :
    run.performed = run.before.performing (callEffect platform) clock ops := by
  rw [LoginRun.performed, performs.after, Timeline.afterAll_performed, List.drop_left]

theorem loginRun_performs
    {request : LoginRequest × Draw}
    {result : Except AuthError TokenPair}
    {ops : List AuthOp}
    (isRun : runAt platform clock (login settings platform request.1 request.2) line =
      (result, calledAll platform clock line ops)) :
    (loginRun settings platform clock request line).Performs platform clock ops result :=
  ⟨congrArg Prod.fst isRun, congrArg Prod.snd isRun⟩

/-- A run has performed its operations, and no other. -/
theorem LoginRun.Performs.hasDates
    {run : LoginRun}
    {ops : List AuthOp}
    {result : Except AuthError TokenPair}
    (performs : run.Performs platform clock ops result)
    (areDates : ∀ op ∈ ops, op.HasDates) :
    ∀ entry ∈ run.performed, entry.op.HasDates := by
  intro entry isEntry
  rw [performs.performed] at isEntry
  have areOps : (run.before.performing (callEffect platform) clock ops).map
      (fun entry => entry.op) = ops := Timeline.map_op_performing run.before ops
  have isOp : entry.op ∈ (run.before.performing (callEffect platform) clock ops).map
      fun entry => entry.op := List.mem_map_of_mem isEntry
  rw [areOps] at isOp
  exact areDates entry.op isOp

/-- What is performed before the password is judged. -/
def admitting (email : Str) (user : User) (now : Nat) : List AuthOp :=
  .getByEmail email :: .now :: clearing user now

theorem comparisons_admitting (email : Str) (user : User) (now : Nat) :
    comparisons platform userId
      (line.performing (callEffect platform) clock (admitting email user now)) = [] := by
  unfold admitting clearing
  cases user.lockedUntil <;> rfl

theorem hasDates_admitting (email : Str) (user : User) (now : Nat) :
    ∀ op ∈ admitting email user now, op.HasDates := by
  unfold admitting clearing
  cases user.lockedUntil <;> simp [AuthOp.HasDates]

theorem clockReadings_admitting (email : Str) (user : User) (now : Nat) :
    clockReadings (line.performing (callEffect platform) clock (admitting email user now)) =
      [clock (line.performed.length + 1)] := by
  have isTime : (line.after (callEffect platform) clock (.getByEmail email)).time clock =
      clock (line.performed.length + 1) := Timeline.after_time line _
  rw [← isTime]
  unfold admitting clearing
  cases user.lockedUntil <;> rfl

/-- What a wrong password leads to. -/
def failing (settings : Settings) (password : Str) (user : User) (newFailedCount : Int)
    (now : Nat) : List AuthOp :=
  .verifyPassword password (.ofUser user) :: .incrementFailedLogin user.id ::
    locking settings user.id newFailedCount now

theorem comparisons_counting (userId : UUID) (newFailedCount : Int) (now : Nat) :
    comparisons platform userId (line.performing (callEffect platform) clock
      (.incrementFailedLogin userId :: locking settings userId newFailedCount now)) = [] := by
  unfold locking
  split_ifs <;> rfl

theorem hasDates_failing
    {now : Nat}
    (fit : settings.FitAt now)
    (password : Str)
    (user : User)
    (newFailedCount : Int) :
    ∀ op ∈ failing settings password user newFailedCount now, op.HasDates := by
  have isDate := fit.lockout
  unfold failing locking
  split_ifs <;> simp [AuthOp.HasDates, isDate]

theorem clockReadings_failing
    (user : User)
    (password : Str)
    (newFailedCount : Int)
    (now : Nat) :
    clockReadings (line.performing (callEffect platform) clock
      (failing settings password user newFailedCount now)) =
        if settings.maxFailedLoginAttempts ≤ newFailedCount then
          [clock (line.performed.length + 2)] else [] := by
  unfold failing locking
  split_ifs <;> simp [Timeline.performing, clockReadings]

/-- What the right password leads to. -/
def succeeding (settings : Settings) (platform : Platform) (password : Str) (user : User)
    (draw : Draw) (lastLoginAt now : Nat) : List AuthOp :=
  .verifyPassword password (.ofUser user) :: .now :: .resetFailedLogin user.id lastLoginAt ::
    issuing settings platform user.id draw now

theorem hasDates_succeeding
    {now : Nat}
    (fit : settings.FitAt now)
    (password : Str)
    (user : User)
    (draw : Draw)
    (lastLoginAt : Nat) :
    ∀ op ∈ succeeding settings platform password user draw lastLoginAt now, op.HasDates := by
  have isDate := fit.refreshToken
  simp [succeeding, issuing, newToken, AuthOp.HasDates, isDate]

theorem comparisons_resetting
    (user : User)
    (draw : Draw)
    (lastLoginAt now : Nat) :
    comparisons platform user.id (line.performing (callEffect platform) clock
      (.now :: .resetFailedLogin user.id lastLoginAt ::
        issuing settings platform user.id draw now)) = [] := rfl

/-- The comparisons of a login whose password is judged. -/
theorem comparisons_judging
    {email password : Str}
    {user : User}
    {now : Nat}
    {ops : List AuthOp}
    (noMore : comparisons platform user.id
      ((called platform clock (calledAll platform clock line (admitting email user now))
        (.verifyPassword password (.ofUser user))).performing (callEffect platform) clock ops) =
          []) :
    comparisons platform user.id (line.performing (callEffect platform) clock
      (admitting email user now ++ .verifyPassword password (.ofUser user) :: ops)) =
        [(clock (line.performed.length + (admitting email user now).length),
          platform.verify password user.hashedPassword)] := by
  have isCompared : comparison platform user.id (.verifyPassword password (.ofUser user)) =
      some (platform.verify password user.hashedPassword) := if_pos rfl
  rw [Timeline.performing_append, comparisons_append, comparisons_admitting, List.nil_append,
    Timeline.performing, comparisons, List.filterMap_cons, isCompared]
  change (_, _) :: comparisons platform user.id _ = _
  rw [noMore, Timeline.time, Timeline.length_afterAll]

/-- The password is compared once, on the tables that the check of the lock has left. -/
theorem compared_judging
    {email password : Str}
    {user : User}
    {now : Nat}
    {ops : List AuthOp}
    (noMore : comparisons platform user.id
      ((called platform clock (calledAll platform clock line (admitting email user now))
        (.verifyPassword password (.ofUser user))).performing (callEffect platform) clock ops) =
          [])
    {entry : Performed AuthOp AuthStore}
    (isEntry : entry ∈ line.performing (callEffect platform) clock
      (admitting email user now ++ .verifyPassword password (.ofUser user) :: ops))
    (isCompared : comparison platform user.id entry.op ≠ none) :
    entry.state = (calledAll platform clock line (admitting email user now)).state := by
  rw [Timeline.performing_append] at isEntry
  rcases List.mem_append.mp isEntry with isBefore | isEntry
  · exact absurd (comparison_eq_none (comparisons_admitting email user now) isBefore) isCompared
  · rcases List.mem_cons.mp isEntry with rfl | isLater
    · rfl
    · exact absurd (comparison_eq_none noMore isLater) isCompared

theorem clockReadings_succeeding
    (user : User)
    (password : Str)
    (draw : Draw)
    (lastLoginAt now : Nat) :
    clockReadings (line.performing (callEffect platform) clock
      (succeeding settings platform password user draw lastLoginAt now)) =
        [clock (line.performed.length + 1), clock (line.performed.length + 3),
          clock (line.performed.length + 4)] := by
  simp [succeeding, issuing, Timeline.performing, clockReadings]

/-! ## What a login leaves -/

variable
    {state : State settings.lockoutPolicy}
    {user row : User}

/-- A call that returns, on the row of a user. -/
theorem user_called
    {op : AuthOp}
    {value : AuthAnswer op}
    (returns : (callEffect platform op (line.time clock) line.state).1 = .ok value)
    (found : line.state.user userId = some row) :
    (called platform clock line op).state.user userId = some (op.onUser row) := by
  refine (user_callEffect returns userId).trans ?_
  rw [found]
  rfl

/-- The columns that logins leave as they are. -/
theorem User.IsIn.of_columns
    {policy : AttemptLimit Nat}
    {before after : State policy}
    (isIn : user.IsIn hashedPassword before)
    {columns : LoginColumns}
    (represents : User.Represents { user with toLoginColumns := columns } after) :
    User.IsIn { user with toLoginColumns := columns } hashedPassword after where
  isActive := isIn.isActive
  hasPassword := isIn.hasPassword
  represents := represents

/-- An expired lockout is cleared, and with it its counter. -/
theorem user_admitting
    (platform : Platform)
    (clock : Nat → Nat)
    {line : AuthLine}
    (found : line.state.user user.id = some user)
    (isIn : user.IsIn hashedPassword state)
    (email : Str)
    (now : Nat) :
    ∃ row, (calledAll platform clock line (admitting email user now)).state.user user.id =
        some row ∧ row.IsIn hashedPassword (state.expire now) ∧
      row.lastLoginAt = user.lastLoginAt := by
  unfold admitting clearing
  cases state with
  | counting wrong below =>
      have isUnlocked : user.lockedUntil = none := isIn.represents.1
      rw [isUnlocked]
      exact ⟨user, found, isIn, rfl⟩
  | locked deadline =>
      have isLocked : user.lockedUntil = some deadline := isIn.represents
      rw [isLocked]
      refine ⟨_, user_called (resetExpiredLockout_returns user.id now) found, ?_, ?_⟩
      · simp only [AuthOp.onUser, isLocked, Option.any_some, true_and, decide_eq_true_eq,
          State.expire]
        split_ifs
        · exact isIn.of_columns ⟨rfl, rfl⟩
        · exact isIn
      · simp only [AuthOp.onUser]
        split_ifs <;> rfl

theorem tokens_admitting (email : Str) (user : User) (now : Nat) :
    (calledAll platform clock line (admitting email user now)).state.tokens =
      line.state.tokens := by
  unfold admitting clearing
  cases user.lockedUntil with
  | none => rfl
  | some deadline => exact resetExpiredLockout_tokens user.id now

variable
    {wrong : Nat}
    {below : wrong < settings.lockoutPolicy.limit}

/-- The counter of an open account fits into its column. -/
theorem isSmallInt_of_below
    (isSmall : settings.maxFailedLoginAttempts < 2 ^ 15)
    (represents : row.Represents (.counting wrong below)) :
    IsSmallInt (row.failedLoginCount + 1) := by
  have isCount : row.failedLoginCount = wrong := represents.2
  have isBelow : wrong < settings.maxFailedLoginAttempts.toNat := below
  unfold IsSmallInt
  omega

/-- The account is locked exactly by the last wrong password. -/
theorem isLast_iff (represents : row.Represents (.counting wrong below)) :
    settings.maxFailedLoginAttempts ≤ row.failedLoginCount + 1 ↔
      wrong + 1 = settings.lockoutPolicy.limit := by
  have isCount : row.failedLoginCount = wrong := represents.2
  have isBelow : wrong < settings.maxFailedLoginAttempts.toNat := below
  change _ ↔ wrong + 1 = settings.maxFailedLoginAttempts.toNat
  omega

/-- A wrong password is counted. -/
theorem user_failing
    (platform : Platform)
    (clock : Nat → Nat)
    {line : AuthLine}
    (isSmall : settings.maxFailedLoginAttempts < 2 ^ 15)
    (found : line.state.user user.id = some row)
    (isIn : row.IsIn hashedPassword (.counting wrong below))
    (password : Str)
    {now : Nat}
    (judgedAt : Nat)
    (isJudged : settings.maxFailedLoginAttempts ≤ row.failedLoginCount + 1 → now = judgedAt) :
    ∃ row', (calledAll platform clock line
        (failing settings password user (row.failedLoginCount + 1) now)).state.user user.id =
        some row' ∧ row'.IsIn hashedPassword (State.countWrong wrong below judgedAt) ∧
      row'.lastLoginAt = row.lastLoginAt := by
  have isRow : row.id = user.id := AuthStore.user_id found
  have inRange := isSmallInt_of_below isSmall isIn.represents
  have found' : (called platform clock line (.verifyPassword password (.ofUser user))).state.user
      user.id = some row := found
  have isCounted : (called platform clock (called platform clock line
      (.verifyPassword password (.ofUser user))) (.incrementFailedLogin user.id)).state.user
        user.id = some ((AuthOp.incrementFailedLogin user.id).onUser row) :=
    user_called (incrementFailedLogin_returns found' inRange) found'
  simp only [AuthOp.onUser, if_pos isRow] at isCounted
  unfold failing locking State.countWrong
  by_cases isLast : settings.maxFailedLoginAttempts ≤ row.failedLoginCount + 1
  · rw [if_pos isLast, dif_pos ((isLast_iff isIn.represents).mp isLast)]
    have atLock : (called platform clock (called platform clock (called platform clock line
        (.verifyPassword password (.ofUser user))) (.incrementFailedLogin user.id)) .now).state.user
          user.id = some { row with failedLoginCount := row.failedLoginCount + 1 } := isCounted
    refine ⟨_, user_called (setLockedUntil_returns user.id _) atLock, ?_, ?_⟩
    · simp only [AuthOp.onUser, if_pos isRow]
      rw [isJudged isLast]
      exact isIn.of_columns rfl
    · simp only [AuthOp.onUser, if_pos isRow]
  · rw [if_neg isLast, dif_neg (mt (isLast_iff isIn.represents).mpr isLast)]
    refine ⟨_, isCounted, isIn.of_columns ⟨isIn.represents.1, ?_⟩, rfl⟩
    have isCount : row.failedLoginCount = wrong := isIn.represents.2
    rw [isCount]
    rfl

/-- A login clears the counter. -/
theorem user_succeeding
    (platform : Platform)
    (clock : Nat → Nat)
    {line : AuthLine}
    (found : line.state.user user.id = some row)
    (isIn : row.IsIn hashedPassword (.counting wrong below))
    (password : Str)
    (draw : Draw)
    (lastLoginAt now : Nat) :
    ∃ row', (calledAll platform clock line
        (succeeding settings platform password user draw lastLoginAt now)).state.user user.id =
        some row' ∧ row'.IsIn hashedPassword (.fresh : State settings.lockoutPolicy) := by
  have isRow : row.id = user.id := AuthStore.user_id found
  have atReset : (called platform clock (called platform clock line
      (.verifyPassword password (.ofUser user))) .now).state.user user.id = some row := found
  have isReset : (called platform clock (called platform clock (called platform clock line
      (.verifyPassword password (.ofUser user))) .now)
        (.resetFailedLogin user.id lastLoginAt)).state.user user.id =
          some ((AuthOp.resetFailedLogin user.id lastLoginAt).onUser row) :=
    user_called (resetFailedLogin_returns user.id lastLoginAt) atReset
  simp only [AuthOp.onUser, if_pos isRow] at isReset
  have isIssued : (called platform clock (called platform clock (called platform clock
      (called platform clock (called platform clock (called platform clock line
        (.verifyPassword password (.ofUser user))) .now)
          (.resetFailedLogin user.id lastLoginAt)) .now) .now)
            (.create (newToken settings platform user.id draw now))).state.user user.id =
        some { row with failedLoginCount := 0, lockedUntil := none,
                        lastLoginAt := some lastLoginAt } := by
    rw [Timeline.after_state, user_callEffect_of_only (only_create allowsGuarded_onTokens _)]
    exact isReset
  exact ⟨_, isIssued, isIn.of_columns ⟨rfl, rfl⟩⟩

/-! ## The three verdicts -/

variable
    {request : LoginRequest × Draw}

/-- The email is that of the account. -/
theorem byEmail_of_names
    {email : Str}
    (names : (line.state.byEmail platform email).map (fun user => user.id) = some userId)
    (found : line.state.user userId = some user) :
    line.state.byEmail platform email = some user ∧ user.id = userId := by
  obtain ⟨row, isRow, rfl⟩ := Option.map_eq_some_iff.mp names
  have isStored : line.state.user row.id = some row :=
    AuthStore.user_of_mem (List.mem_of_find?_eq_some isRow)
  obtain rfl : row = user := Option.some.inj (isStored.symm.trans found)
  exact ⟨isRow, rfl⟩

/-- A lock that has not expired. -/
theorem login_of_locked
    {deadline : Nat}
    (found : line.state.byEmail platform request.1.email = some user)
    (represents : user.Represents state)
    (isLocked : state.expire (clock (line.performed.length + 1)) = .locked deadline) :
    runAt platform clock (login settings platform request.1 request.2) line =
      (.error accountLocked, calledAll platform clock line
        [.getByEmail request.1.email, .now, .verifyPassword request.1.password .dummy]) := by
  rw [runAt_login found]
  cases state with
  | counting wrong below => exact absurd isLocked (by simp [State.expire])
  | locked until' =>
      have hasLock : user.lockedUntil = some until' := represents
      simp only [State.expire] at isLocked
      split_ifs at isLocked with isOver
      · exact absurd isLocked (by simp [State.fresh])
      · exact runAt_bind_of_error
          (runAt_checkLockout_of_locked hasLock (Nat.lt_of_not_le isOver) _) _

/-- The lock has been checked, and the password is judged. -/
theorem login_of_open
    (found : line.state.byEmail platform request.1.email = some user)
    (represents : user.Represents state)
    (isOpen : state.expire (clock (line.performed.length + 1)) = .counting wrong below) :
    runAt platform clock (login settings platform request.1 request.2) line =
      runAt platform clock
        (judgePassword settings platform user request.1.password request.2)
        (calledAll platform clock line (admitting request.1.email user
          (clock (line.performed.length + 1)))) := by
  rw [runAt_login found]
  have isOver : ∀ deadline, user.lockedUntil = some deadline →
      deadline ≤ clock (line.performed.length + 1) := by
    intro deadline hasLock
    cases state with
    | counting wrong below =>
        have isUnlocked : user.lockedUntil = none := represents.1
        rw [isUnlocked] at hasLock
        contradiction
    | locked until' =>
        have hasLock' : user.lockedUntil = some until' := represents
        obtain rfl := Option.some.inj (hasLock'.symm.trans hasLock)
        simp only [State.expire] at isOpen
        split_ifs at isOpen with isOver
        exact isOver
  exact runAt_bind_of_ok (runAt_checkLockout_of_unlocked isOver _) _

/-- The guess of a run from what it has performed. -/
theorem guess_of_performed
    {run : LoginRun}
    {readings : List Nat}
    {compared : List (Nat × Bool)}
    (hashedPassword : Str)
    (areReadings : clockReadings run.performed = readings)
    (areCompared : comparisons platform userId run.performed = compared) :
    run.guess platform userId hashedPassword =
      { checkedAt := readings.headD 0
        comparedAt := (compared.map Prod.fst).headD (readings.headD 0)
        judgedAt := readings.getD 1 ((compared.map Prod.fst).headD (readings.headD 0))
        isRight := platform.verify run.request.password hashedPassword } := by
  unfold LoginRun.guess
  rw [areReadings, areCompared]

/-- The times of a run lie between its start and its end. -/
structure LoginRun.InTime (platform : Platform) (userId : UUID) (hashedPassword : Str)
    (clock : Nat → Nat) (run : LoginRun) : Prop where
  inOrder : (run.guess platform userId hashedPassword).InOrder
  started : clock run.before.performed.length ≤
    (run.guess platform userId hashedPassword).checkedAt
  ended : (run.guess platform userId hashedPassword).judgedAt ≤
    clock run.after.performed.length

variable
    {run : LoginRun}
    {email password : Str}

/-- A login while the account is locked. -/
theorem LoginRun.Performs.guess_of_locked
    (performs : run.Performs platform clock
      [.getByEmail email, .now, .verifyPassword password .dummy] (.error accountLocked)) :
    comparisons platform userId run.performed = [] ∧
      run.guess platform userId hashedPassword =
        { checkedAt := clock (run.before.performed.length + 1)
          comparedAt := clock (run.before.performed.length + 1)
          judgedAt := clock (run.before.performed.length + 1)
          isRight := platform.verify run.request.password hashedPassword } := by
  have isTime : (run.before.after (callEffect platform) clock (.getByEmail email)).time clock =
      clock (run.before.performed.length + 1) := Timeline.after_time _ _
  have areReadings : clockReadings run.performed =
      [clock (run.before.performed.length + 1)] := by
    rw [performs.performed, ← isTime]
    rfl
  have noneCompared : comparisons platform userId run.performed = [] := by
    rw [performs.performed]
    rfl
  exact ⟨noneCompared, guess_of_performed hashedPassword areReadings noneCompared⟩

theorem LoginRun.Performs.follows_of_locked
    {deadline : Nat}
    (performs : run.Performs platform clock
      [.getByEmail email, .now, .verifyPassword password .dummy] (.error accountLocked))
    (found : run.before.state.user userId = some user)
    (isIn : user.IsIn hashedPassword state)
    (isLocked : state.expire (clock (run.before.performed.length + 1)) = .locked deadline) :
    run.Follows platform userId hashedPassword state := by
  obtain ⟨noneCompared, isGuess⟩ := performs.guess_of_locked
  have isStep : state.guess (run.guess platform userId hashedPassword) =
      (.refused, .locked deadline) :=
    State.guess_of_locked (by rw [isGuess]; exact isLocked)
  obtain ⟨isState, _⟩ := State.expire_eq_locked isLocked
  have sameState : run.after.state = run.before.state := by
    rw [performs.after]
    rfl
  constructor
  case before => exact ⟨user, found, isIn⟩
  case after =>
      rw [isStep, sameState, ← isState]
      exact ⟨user, found, isIn⟩
  case compared =>
      intro entry isEntry isCompared
      exact absurd (comparison_eq_none noneCompared isEntry) isCompared
  case shows =>
      rw [isStep]
      exact ⟨performs.result, noneCompared, sameState⟩
  case lastLoginAt =>
      intro _
      rw [sameState]

theorem LoginRun.Performs.inTime_of_locked
    (performs : run.Performs platform clock
      [.getByEmail email, .now, .verifyPassword password .dummy] (.error accountLocked))
    (isMonotone : Monotone clock) :
    run.InTime platform userId hashedPassword clock := by
  obtain ⟨_, isGuess⟩ := performs.guess_of_locked
  constructor
  case inOrder =>
      rw [isGuess]
      exact ⟨Nat.le_refl _, Nat.le_refl _⟩
  case started =>
      rw [isGuess]
      exact isMonotone (Nat.le_succ _)
  case ended =>
      rw [isGuess, performs.after, Timeline.length_afterAll]
      exact isMonotone (Nat.add_le_add_left (by simp) _)

/-! ## A wrong password -/

/-- What a login performs whose password is wrong. -/
abbrev wrongOps (settings : Settings) (email password : Str) (user : User) (now : Nat)
    (newFailedCount : Int) (later : Nat) : List AuthOp :=
  admitting email user now ++ failing settings password user newFailedCount later

theorem LoginRun.Performs.guess_of_wrong
    {now later : Nat}
    {count : Int}
    (performs : run.Performs platform clock (wrongOps settings email password user now count later)
      (.error invalidCredentials))
    (isWrong : platform.verify password user.hashedPassword = false) :
    comparisons platform user.id run.performed =
        [(clock (run.before.performed.length + (admitting email user now).length), false)] ∧
      run.guess platform user.id hashedPassword =
        { checkedAt := clock (run.before.performed.length + 1)
          comparedAt := clock (run.before.performed.length + (admitting email user now).length)
          judgedAt := clock (run.before.performed.length + (admitting email user now).length +
            if settings.maxFailedLoginAttempts ≤ count then 2 else 0)
          isRight := platform.verify run.request.password hashedPassword } := by
  have areReadings : clockReadings run.performed =
      clock (run.before.performed.length + 1) ::
        if settings.maxFailedLoginAttempts ≤ count then
          [clock (run.before.performed.length + (admitting email user now).length + 2)]
        else [] := by
    rw [performs.performed, Timeline.performing_append, clockReadings_append,
      clockReadings_admitting, clockReadings_failing, Timeline.length_afterAll]
    rfl
  have areCompared : comparisons platform user.id run.performed =
      [(clock (run.before.performed.length + (admitting email user now).length), false)] := by
    rw [performs.performed, ← isWrong]
    exact comparisons_judging (comparisons_counting user.id count later)
  refine ⟨areCompared, (guess_of_performed hashedPassword areReadings areCompared).trans ?_⟩
  split_ifs <;> rfl

theorem LoginRun.Performs.follows_of_wrong
    {now later : Nat}
    (performs : run.Performs platform clock
      (wrongOps settings email run.request.password user now (wrong + 1 : Int) later)
      (.error invalidCredentials))
    (isSmall : settings.maxFailedLoginAttempts < 2 ^ 15)
    (found : run.before.state.user user.id = some user)
    (isIn : user.IsIn hashedPassword state)
    (isNow : now = clock (run.before.performed.length + 1))
    (isLater : later =
      clock (run.before.performed.length + (admitting email user now).length + 2))
    (isOpen : state.expire now = .counting wrong below)
    (isWrong : platform.verify run.request.password hashedPassword = false) :
    run.Follows platform user.id hashedPassword state := by
  have isWrong' : platform.verify run.request.password user.hashedPassword = false := by
    rw [isIn.hasPassword]
    exact isWrong
  obtain ⟨isCompared, isGuess⟩ := performs.guess_of_wrong isWrong'
  have checkedAt : (run.guess platform user.id hashedPassword).checkedAt = now := by
    rw [isGuess, isNow]
  have isStep : state.guess (run.guess platform user.id hashedPassword) =
      (.wrong, .countWrong wrong below (run.guess platform user.id hashedPassword).judgedAt) :=
    State.guess_of_wrong (by rw [checkedAt]; exact isOpen) (by rw [isGuess]; exact isWrong)
  obtain ⟨row, isRow, rowIsIn, sameLogin⟩ := user_admitting platform clock found isIn email now
  rw [isOpen] at rowIsIn
  have isCount : row.failedLoginCount = wrong := rowIsIn.represents.2
  have isJudged : settings.maxFailedLoginAttempts ≤ row.failedLoginCount + 1 →
      later = (run.guess platform user.id hashedPassword).judgedAt := by
    intro isLast
    rw [isCount] at isLast
    rw [isGuess, isLater, if_pos isLast]
  obtain ⟨row', isRow', rowIsIn', sameLogin'⟩ := user_failing platform clock isSmall isRow
    rowIsIn run.request.password _ isJudged
  have isAfter : run.after = calledAll platform clock
      (calledAll platform clock run.before (admitting email user now))
      (failing settings run.request.password user (wrong + 1 : Int) later) :=
    performs.after.trans (Timeline.afterAll_append _ _ _)
  rw [isCount, ← isAfter] at isRow'
  constructor
  case before => exact ⟨user, found, isIn⟩
  case after =>
      rw [isStep]
      exact ⟨row', isRow', rowIsIn'⟩
  case compared =>
      intro entry isEntry isComparison
      rw [performs.performed] at isEntry
      rw [compared_judging (comparisons_counting user.id _ later) isEntry isComparison, checkedAt,
        isOpen]
      exact ⟨row, isRow, rowIsIn⟩
  case shows =>
      rw [isStep]
      refine ⟨performs.result, ?_⟩
      rw [isCompared, isGuess]
  case lastLoginAt =>
      intro _
      rw [isRow', found, Option.map_some, Option.map_some, sameLogin', sameLogin]

theorem LoginRun.Performs.inTime_of_wrong
    {now later : Nat}
    {count : Int}
    (performs : run.Performs platform clock (wrongOps settings email password user now count later)
      (.error invalidCredentials))
    (isWrong : platform.verify password user.hashedPassword = false)
    (isMonotone : Monotone clock) :
    run.InTime platform user.id hashedPassword clock := by
  obtain ⟨_, isGuess⟩ := performs.guess_of_wrong isWrong
  have isLonger : 1 ≤ (admitting email user now).length := by
    unfold admitting
    simp
  constructor
  case inOrder =>
      rw [isGuess]
      exact ⟨isMonotone (Nat.add_le_add_left isLonger _), isMonotone (Nat.le_add_right _ _)⟩
  case started =>
      rw [isGuess]
      exact isMonotone (Nat.le_succ _)
  case ended =>
      rw [isGuess, performs.after, Timeline.length_afterAll]
      apply isMonotone
      rw [List.length_append]
      simp only [failing, locking]
      split_ifs <;> simp [Nat.add_assoc]

/-! ## The right password -/

/-- What a login performs whose password is right. -/
abbrev rightOps (settings : Settings) (platform : Platform) (email password : Str) (user : User)
    (draw : Draw) (now lastLoginAt issuedAt : Nat) : List AuthOp :=
  admitting email user now ++ succeeding settings platform password user draw lastLoginAt issuedAt

theorem LoginRun.Performs.guess_of_right
    {now lastLoginAt issuedAt : Nat}
    {draw : Draw}
    {result : Except AuthError TokenPair}
    (performs : run.Performs platform clock
      (rightOps settings platform email password user draw now lastLoginAt issuedAt) result)
    (isRight : platform.verify password user.hashedPassword = true) :
    comparisons platform user.id run.performed =
        [(clock (run.before.performed.length + (admitting email user now).length), true)] ∧
      run.guess platform user.id hashedPassword =
        { checkedAt := clock (run.before.performed.length + 1)
          comparedAt := clock (run.before.performed.length + (admitting email user now).length)
          judgedAt := clock (run.before.performed.length + (admitting email user now).length + 1)
          isRight := platform.verify run.request.password hashedPassword } := by
  have areReadings : clockReadings run.performed =
      clock (run.before.performed.length + 1) ::
        [clock (run.before.performed.length + (admitting email user now).length + 1),
          clock (run.before.performed.length + (admitting email user now).length + 3),
          clock (run.before.performed.length + (admitting email user now).length + 4)] := by
    rw [performs.performed, Timeline.performing_append, clockReadings_append,
      clockReadings_admitting, clockReadings_succeeding, Timeline.length_afterAll]
    rfl
  have areCompared : comparisons platform user.id run.performed =
      [(clock (run.before.performed.length + (admitting email user now).length), true)] := by
    rw [performs.performed, ← isRight]
    exact comparisons_judging (comparisons_resetting user draw lastLoginAt issuedAt)
  exact ⟨areCompared, guess_of_performed hashedPassword areReadings areCompared⟩

theorem LoginRun.Performs.follows_of_right
    {now lastLoginAt issuedAt : Nat}
    {pair : TokenPair}
    (performs : run.Performs platform clock
      (rightOps settings platform email run.request.password user run.draw now lastLoginAt
        issuedAt)
      (if run.draw.IsNew platform run.before.state then .ok pair else .error .database))
    (found : run.before.state.user user.id = some user)
    (isIn : user.IsIn hashedPassword state)
    (isNow : now = clock (run.before.performed.length + 1))
    (isOpen : state.expire now = .counting wrong below)
    (isRight : platform.verify run.request.password hashedPassword = true) :
    run.Follows platform user.id hashedPassword state := by
  have isRight' : platform.verify run.request.password user.hashedPassword = true := by
    rw [isIn.hasPassword]
    exact isRight
  obtain ⟨isCompared, isGuess⟩ := performs.guess_of_right isRight'
  have checkedAt : (run.guess platform user.id hashedPassword).checkedAt = now := by
    rw [isGuess, isNow]
  have isStep : state.guess (run.guess platform user.id hashedPassword) = (.right, .fresh) :=
    State.guess_of_right (by rw [checkedAt]; exact isOpen) (by rw [isGuess]; exact isRight)
  obtain ⟨row, isRow, rowIsIn, _⟩ := user_admitting platform clock found isIn email now
  rw [isOpen] at rowIsIn
  obtain ⟨row', isRow', rowIsIn'⟩ := user_succeeding platform clock isRow rowIsIn
    run.request.password run.draw lastLoginAt issuedAt
  have isAfter : run.after = calledAll platform clock
      (calledAll platform clock run.before (admitting email user now))
      (succeeding settings platform run.request.password user run.draw lastLoginAt issuedAt) :=
    performs.after.trans (Timeline.afterAll_append _ _ _)
  rw [← isAfter] at isRow'
  constructor
  case before => exact ⟨user, found, isIn⟩
  case after =>
      rw [isStep]
      exact ⟨row', isRow', rowIsIn'⟩
  case compared =>
      intro entry isEntry isComparison
      rw [performs.performed] at isEntry
      rw [compared_judging (comparisons_resetting user run.draw lastLoginAt issuedAt) isEntry
        isComparison, checkedAt, isOpen]
      exact ⟨row, isRow, rowIsIn⟩
  case shows =>
      rw [isStep]
      refine ⟨fun isNew => ⟨pair, ?_⟩, fun notNew => ?_, ?_⟩
      · rw [performs.result, if_pos isNew]
      · rw [performs.result, if_neg notNew]
      · rw [isCompared, isGuess]
  case lastLoginAt =>
      rw [isStep]
      exact fun notRight => absurd rfl notRight

theorem LoginRun.Performs.inTime_of_right
    {now lastLoginAt issuedAt : Nat}
    {draw : Draw}
    {result : Except AuthError TokenPair}
    (performs : run.Performs platform clock
      (rightOps settings platform email password user draw now lastLoginAt issuedAt) result)
    (isRight : platform.verify password user.hashedPassword = true)
    (isMonotone : Monotone clock) :
    run.InTime platform user.id hashedPassword clock := by
  obtain ⟨_, isGuess⟩ := performs.guess_of_right isRight
  have isLonger : 1 ≤ (admitting email user now).length := by
    unfold admitting
    simp
  constructor
  case inOrder =>
      rw [isGuess]
      exact ⟨isMonotone (Nat.add_le_add_left isLonger _), isMonotone (Nat.le_add_right _ _)⟩
  case started =>
      rw [isGuess]
      exact isMonotone (Nat.le_succ _)
  case ended =>
      rw [isGuess, performs.after, Timeline.length_afterAll]
      apply isMonotone
      rw [List.length_append]
      simp [succeeding, issuing, Nat.add_assoc]

/-! ## One login -/

/-- A login on the account is a step of the automaton. -/
theorem loginRun_follows
    (isSmall : settings.maxFailedLoginAttempts < 2 ^ 15)
    (names : (line.state.byEmail platform request.1.email).map (fun user => user.id) =
      some userId)
    (isAccount : AccountIn userId hashedPassword state line.state) :
    (loginRun settings platform clock request line).Follows platform userId hashedPassword
        state ∧
      (Monotone clock → (loginRun settings platform clock request line).InTime platform userId
        hashedPassword clock) ∧
      ((∀ index, settings.FitAt (clock index)) →
        ∀ entry ∈ (loginRun settings platform clock request line).performed,
          entry.op.HasDates) := by
  obtain ⟨user, found, isIn⟩ := isAccount
  obtain ⟨isFound, rfl⟩ := byEmail_of_names names found
  cases isOpen : state.expire (clock (line.performed.length + 1)) with
  | locked deadline =>
      have performs := loginRun_performs (login_of_locked isFound isIn.represents isOpen)
      exact ⟨performs.follows_of_locked found isIn isOpen, performs.inTime_of_locked,
        fun _ => performs.hasDates (by simp [AuthOp.HasDates])⟩
  | counting wrong below =>
      have isRun : runAt platform clock (login settings platform request.1 request.2) line = _ :=
        login_of_open isFound isIn.represents isOpen
      obtain ⟨row, isRow, rowIsIn, _⟩ := user_admitting platform clock found isIn
        request.1.email (clock (line.performed.length + 1))
      rw [isOpen] at rowIsIn
      have isCount : row.failedLoginCount = wrong := rowIsIn.represents.2
      by_cases isRight : platform.verify request.1.password user.hashedPassword = true
      · have isJudged : runAt platform clock
            (judgePassword settings platform user request.1.password request.2)
            (calledAll platform clock line (admitting request.1.email user
              (clock (line.performed.length + 1)))) = _ :=
          runAt_judgePassword_of_right isIn.isActive isRight (Option.isSome_of_mem isRow) request.2
        simp only [isNew_congr (tokens_admitting request.1.email user
          (clock (line.performed.length + 1)))] at isJudged
        have performs : (loginRun settings platform clock request line).Performs platform clock
            (rightOps settings platform request.1.email request.1.password user request.2 _ _ _)
            _ := loginRun_performs ((isRun.trans isJudged).trans
              (congrArg (_, ·) (Timeline.afterAll_append _ _ _).symm))
        exact ⟨performs.follows_of_right found isIn rfl isOpen (isIn.hasPassword ▸ isRight),
          performs.inTime_of_right isRight, fun fit => performs.hasDates
            (List.forall_mem_append.mpr ⟨hasDates_admitting _ _ _,
              hasDates_succeeding (fit _) _ _ _ _⟩)⟩
      · have isWrong : platform.verify request.1.password user.hashedPassword = false := by
          simpa using isRight
        have isJudged : runAt platform clock
            (judgePassword settings platform user request.1.password request.2)
            (calledAll platform clock line (admitting request.1.email user
              (clock (line.performed.length + 1)))) = _ :=
          runAt_judgePassword_of_wrong isIn.isActive isWrong isRow
            (isSmallInt_of_below isSmall rowIsIn.represents) request.2
        rw [isCount, Timeline.length_afterAll] at isJudged
        have performs : (loginRun settings platform clock request line).Performs platform clock
            (wrongOps settings request.1.email request.1.password user _ _ _) _ :=
          loginRun_performs ((isRun.trans isJudged).trans
            (congrArg (_, ·) (Timeline.afterAll_append _ _ _).symm))
        exact ⟨performs.follows_of_wrong isSmall found isIn rfl rfl isOpen
          (isIn.hasPassword ▸ isWrong), performs.inTime_of_wrong isWrong,
          fun fit => performs.hasDates (List.forall_mem_append.mpr
            ⟨hasDates_admitting _ _ _, hasDates_failing (fit _) _ _ _⟩)⟩

/-! ## Logins one after the other -/

/-- The requests are for the account. -/
def NameAccount (platform : Platform) (userId : UUID) (requests : List (LoginRequest × Draw))
    (store : AuthStore) : Prop :=
  ∀ request ∈ requests,
    (store.byEmail platform request.1.email).map (fun user => user.id) = some userId

variable
    {requests : List (LoginRequest × Draw)}

theorem NameAccount.after
    (names : NameAccount platform userId requests line.state)
    (request : LoginRequest × Draw) :
    NameAccount platform userId requests
      (loginRun settings platform clock request line).after.state := by
  intro other isOther
  have isKept : ((loginRun settings platform clock request line).after.state.byEmail platform
      other.1.email).map (fun user => user.id) =
        (line.state.byEmail platform other.1.email).map fun user => user.id :=
    Timeline.run_keeps
      (fun store => (store.byEmail platform other.1.email).map fun user => user.id)
      (fun op time store => byEmail_callEffect AuthTables.updatedUser_id op other.1.email) _ line
  exact isKept.trans (names other isOther)

/-- Each login is a step of the automaton. -/
theorem loginRuns_refine
    (isSmall : settings.maxFailedLoginAttempts < 2 ^ 15)
    (names : NameAccount platform userId requests line.state)
    (isAccount : AccountIn userId hashedPassword state line.state) :
    Refines platform userId hashedPassword state
      (loginRuns settings platform clock requests line) := by
  induction requests generalizing line state with
  | nil => trivial
  | cons request requests inductionHypothesis =>
      have follows : (loginRun settings platform clock request line).Follows platform userId
          hashedPassword state :=
        (loginRun_follows isSmall (names request List.mem_cons_self) isAccount).1
      exact ⟨follows, inductionHypothesis
        (NameAccount.after (fun other isOther => names other (List.mem_cons_of_mem _ isOther))
          request) follows.after⟩

/-- No login is checked before the line that it runs on. -/
theorem loginRuns_inTime
    (isMonotone : Monotone clock)
    (isSmall : settings.maxFailedLoginAttempts < 2 ^ 15)
    (names : NameAccount platform userId requests line.state)
    (isAccount : AccountIn userId hashedPassword state line.state) :
    ∀ run ∈ loginRuns settings platform clock requests line,
      run.InTime platform userId hashedPassword clock ∧
        clock line.performed.length ≤ (run.guess platform userId hashedPassword).checkedAt := by
  induction requests generalizing line state with
  | nil => simp [loginRuns]
  | cons request requests inductionHypothesis =>
      have isNamed : (line.state.byEmail platform request.1.email).map (fun user => user.id) =
          some userId := names request List.mem_cons_self
      obtain ⟨follows, inTime, _⟩ := loginRun_follows isSmall isNamed isAccount
      intro run isRun
      rcases List.mem_cons.mp isRun with rfl | isLater
      · exact ⟨inTime isMonotone, (inTime isMonotone).started⟩
      · obtain ⟨inTime', isLater⟩ := inductionHypothesis
          (NameAccount.after (fun other isOther => names other (List.mem_cons_of_mem _ isOther))
            request) follows.after run isLater
        exact ⟨inTime', (isMonotone (Timeline.length_run_le _ _)).trans isLater⟩

/-- No login computes a time that overflows. -/
theorem loginRuns_hasDates
    (isSmall : settings.maxFailedLoginAttempts < 2 ^ 15)
    (fit : ∀ index, settings.FitAt (clock index))
    (names : NameAccount platform userId requests line.state)
    (isAccount : AccountIn userId hashedPassword state line.state) :
    ∀ run ∈ loginRuns settings platform clock requests line,
      ∀ entry ∈ run.performed, entry.op.HasDates := by
  induction requests generalizing line state with
  | nil => simp [loginRuns]
  | cons request requests inductionHypothesis =>
      have isNamed : (line.state.byEmail platform request.1.email).map (fun user => user.id) =
          some userId := names request List.mem_cons_self
      obtain ⟨follows, _, hasDates⟩ := loginRun_follows isSmall isNamed isAccount
      intro run isRun
      rcases List.mem_cons.mp isRun with rfl | isLater
      · exact hasDates fit
      · exact inductionHypothesis
          (NameAccount.after (fun other isOther => names other (List.mem_cons_of_mem _ isOther))
            request) follows.after run isLater

/-- A login is checked after the earlier ones have been judged. -/
theorem loginRuns_oneByOne
    (isMonotone : Monotone clock)
    (isSmall : settings.maxFailedLoginAttempts < 2 ^ 15)
    (names : NameAccount platform userId requests line.state)
    (isAccount : AccountIn userId hashedPassword state line.state) :
    ((loginRuns settings platform clock requests line).map
      (·.guess platform userId hashedPassword)).Pairwise
        fun earlier later => earlier.judgedAt ≤ later.checkedAt := by
  induction requests generalizing line state with
  | nil => exact .nil
  | cons request requests inductionHypothesis =>
      have isNamed : (line.state.byEmail platform request.1.email).map (fun user => user.id) =
          some userId := names request List.mem_cons_self
      obtain ⟨follows, inTime, _⟩ := loginRun_follows isSmall isNamed isAccount
      have names' : NameAccount platform userId requests
          (loginRun settings platform clock request line).after.state :=
        NameAccount.after (fun other isOther => names other (List.mem_cons_of_mem _ isOther))
          request
      rw [loginRuns, List.map_cons, List.pairwise_cons]
      refine ⟨fun guess isGuess => ?_, inductionHypothesis names' follows.after⟩
      obtain ⟨run, isRun, rfl⟩ := List.mem_map.mp isGuess
      exact (inTime isMonotone).ended.trans
        (loginRuns_inTime isMonotone isSmall names' follows.after run isRun).2

/-- The comparisons of logins that are steps of the automaton are those of its guesses. -/
theorem Refines.comparisons_eq
    {runs : List LoginRun}
    (refines : Refines platform userId hashedPassword state runs) :
    comparisons platform userId (runs.flatMap LoginRun.performed) =
      outcomes (state.play (runs.map (·.guess platform userId hashedPassword))) := by
  induction runs generalizing state with
  | nil => rfl
  | cons run runs inductionHypothesis =>
      obtain ⟨follows, refines⟩ := refines
      rw [List.flatMap_cons, comparisons_append, inductionHypothesis refines, List.map_cons,
        State.play, outcomes_cons]
      congr 1
      have shows := follows.shows
      cases isVerdict : (state.guess (run.guess platform userId hashedPassword)).1 with
      | refused =>
          rw [isVerdict] at shows
          exact shows.2.1
      | wrong =>
          rw [isVerdict] at shows
          exact shows.2
      | right =>
          rw [isVerdict] at shows
          exact shows.2.2

end Shows

/-- Logins on an active account that run one after the other are the steps of the lockout
automaton, as long as the counter fits into its column and no date overflows: then every time
that is stored is a date.  An interval that lasts as long as a lock has at most as many wrong
comparisons with the hash of the account as lock it, unless one of them is right.  The
attributes of the user are taken to be loaded. -/
theorem logins_refine_lockout
    {settings : Settings}
    {platform : Platform}
    {clock : Nat → Nat}
    {userId : UUID}
    {hashedPassword : Str}
    {state : State settings.lockoutPolicy}
    {store : AuthStore}
    {requests : List (LoginRequest × Draw)}
    (isMonotone : Monotone clock)
    (isSmall : settings.maxFailedLoginAttempts < 2 ^ 15)
    (fit : ∀ index, settings.FitAt (clock index))
    (isAccount : AccountIn userId hashedPassword state store)
    (names : NameAccount platform userId requests store) :
    let runs := loginRuns settings platform clock requests ⟨store, []⟩
    Refines platform userId hashedPassword state runs ∧
      (∀ run ∈ runs, ∀ entry ∈ run.performed, entry.op.HasDates) ∧
      (∀ run ∈ runs, (run.guess platform userId hashedPassword).InOrder) ∧
      ∀ start, (∀ time, (time, true) ∈ comparisons platform userId
          (runs.flatMap LoginRun.performed) →
            ¬(start ≤ time ∧ time < start + seconds settings.lockoutDurationSeconds)) →
        (((comparisons platform userId (runs.flatMap LoginRun.performed)).countP
          fun (time, isRight) => isRight = false ∧ start ≤ time ∧
            time < start + seconds settings.lockoutDurationSeconds : Nat) : Int) ≤
          settings.maxFailedLoginAttempts := by
  intro runs
  have refines : Refines platform userId hashedPassword state runs :=
    loginRuns_refine isSmall names isAccount
  have inOrder : ∀ run ∈ runs, (run.guess platform userId hashedPassword).InOrder :=
    fun run isRun => (loginRuns_inTime isMonotone isSmall names isAccount run isRun).1.inOrder
  refine ⟨refines, loginRuns_hasDates isSmall fit names isAccount, inOrder,
    fun start noneRight => ?_⟩
  rw [refines.comparisons_eq] at noneRight ⊢
  have isBounded := State.countP_outcomes_le
    (by
      intro guess isGuess
      obtain ⟨run, isRun, rfl⟩ := List.mem_map.mp isGuess
      exact inOrder run isRun)
    (loginRuns_oneByOne isMonotone isSmall names isAccount) noneRight
  calc (((outcomes _).countP _ : Nat) : Int)
      ≤ (settings.maxFailedLoginAttempts.toNat : Int) := Int.ofNat_le.mpr isBounded
    _ = settings.maxFailedLoginAttempts :=
        Int.toNat_of_nonneg settings.maxFailedLoginAttempts_pos.le

/-! ## Two deployments -/

/-- Three logins at the given sequence of clock readings. -/
def threeLogins : List (LoginRequest × Draw) :=
  [(⟨lit "user@corp.com", lit "wrong"⟩, .sample 1), (⟨lit "user@corp.com", lit "wrong"⟩, .sample 2),
    (⟨lit "user@corp.com", lit "right"⟩, .sample 3)]

/-- A clock that goes on by a second at each call, for a quarter of an hour. -/
def quarterHour (index : Nat) : Nat := seconds (min index 900)

theorem monotone_quarterHour : Monotone quarterHour := fun _ _ isBefore =>
  Nat.mul_le_mul_right 1000000 (min_le_min_right 900 isBefore)

theorem quarterHour_fit (attempts index : Nat) :
    (Settings.sample attempts).FitAt (quarterHour index) := by
  have isShort : min index 900 ≤ 900 := Nat.min_le_right _ _
  constructor <;> simp only [Settings.sample, quarterHour, seconds, datetimeMax] <;> omega

theorem threeLogins_refine_lockout :
    let runs := loginRuns (.sample 1) .plain quarterHour threeLogins ⟨AuthStore.sample, []⟩
    Monotone quarterHour ∧ (Settings.sample 1).maxFailedLoginAttempts < 2 ^ 15 ∧
      (∀ index, (Settings.sample 1).FitAt (quarterHour index)) ∧
      AccountIn 1 (lit "right") (.fresh : State (Settings.sample 1).lockoutPolicy)
        AuthStore.sample ∧
      NameAccount .plain 1 threeLogins AuthStore.sample ∧
      Refines .plain 1 (lit "right") (.fresh : State (Settings.sample 1).lockoutPolicy) runs ∧
      (∀ run ∈ runs, ∀ entry ∈ run.performed, entry.op.HasDates) ∧
      (∀ run ∈ runs, (run.guess .plain 1 (lit "right")).InOrder) ∧
      ∀ start, (∀ time, (time, true) ∈ comparisons .plain 1 (runs.flatMap LoginRun.performed) →
          ¬(start ≤ time ∧ time < start + seconds 900)) →
        (((comparisons .plain 1 (runs.flatMap LoginRun.performed)).countP
          fun (time, isRight) => isRight = false ∧ start ≤ time ∧
            time < start + seconds 900 : Nat) : Int) ≤ 2 := by
  have isAccount : AccountIn 1 (lit "right")
      (.fresh : State (Settings.sample 1).lockoutPolicy) AuthStore.sample :=
    ⟨.sample 1, rfl, rfl, rfl, rfl, rfl⟩
  have names : NameAccount .plain 1 threeLogins AuthStore.sample := by
    unfold NameAccount
    decide
  exact ⟨monotone_quarterHour, by decide, quarterHour_fit 1, isAccount, names,
    logins_refine_lockout monotone_quarterHour (by decide) (quarterHour_fit 1) isAccount names⟩

/-- An account whose counter is at the end of its column. -/
def AuthStore.full : AuthStore :=
  .ofUsers [{ User.sample 1 with failedLoginCount := 2 ^ 15 - 1 }] (by decide)

/-- The state of this account, if more wrong passwords are allowed than the column can
count. -/
def fullState : State (Settings.sample (2 ^ 15 - 1)).lockoutPolicy :=
  .counting (2 ^ 15 - 1) (by decide)

theorem full_not_refines :
    Monotone quarterHour ∧
      (∀ index, (Settings.sample (2 ^ 15 - 1)).FitAt (quarterHour index)) ∧
      AccountIn 1 (lit "right") fullState AuthStore.full ∧
      NameAccount .plain 1 [(⟨lit "user@corp.com", lit "wrong"⟩, .sample 1)] AuthStore.full ∧
      ¬Refines .plain 1 (lit "right") fullState
        (loginRuns (.sample (2 ^ 15 - 1)) .plain quarterHour
          [(⟨lit "user@corp.com", lit "wrong"⟩, .sample 1)] ⟨AuthStore.full, []⟩) := by
  have names : NameAccount .plain 1 [(⟨lit "user@corp.com", lit "wrong"⟩, .sample 1)]
      AuthStore.full := by
    unfold NameAccount
    decide
  refine ⟨monotone_quarterHour, quarterHour_fit _, ⟨_, rfl, rfl, rfl, rfl, rfl⟩, names,
    fun refines => ?_⟩
  have isVerdict : (fullState.guess ((loginRun (.sample (2 ^ 15 - 1)) .plain quarterHour
      (⟨lit "user@corp.com", lit "wrong"⟩, .sample 1) ⟨AuthStore.full, []⟩).guess .plain 1
        (lit "right"))).1 = .wrong := rfl
  have shows := refines.1.shows
  rw [isVerdict] at shows
  -- the driver raises
  have isResult : (loginRun (.sample (2 ^ 15 - 1)) .plain quarterHour
      (⟨lit "user@corp.com", lit "wrong"⟩, .sample 1) ⟨AuthStore.full, []⟩).result =
        .error .database := rfl
  rw [LoginRun.Shows, isResult] at shows
  exact absurd shows.1 (by simp [invalidCredentials])

end Auth
end SigmaForge
