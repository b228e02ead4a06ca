import SigmaForge.Auth.Calls
import SigmaForge.Foundation.Timeline

/-!
# Logins one after the other

What each call of a login answers and leaves when it runs alone, and from it what a login
performs from its start to its end.
-/

namespace SigmaForge
namespace Auth

open Text ReadCommitted

/-- The user that `get_by_email` finds. -/
def AuthStore.byEmail (platform : Platform) (store : AuthStore) (email : Str) : Option User :=
  store.users.find? fun user => platform.citext user.email = platform.citext email

section Calls

variable
    {platform : Platform}
    {store : AuthStore}
    {time : Nat}

theorem callEffect_now : callEffect platform .now time store = (.ok time, store) := rfl

theorem callEffect_verifyPassword (password : Str) (hash : PasswordHash) :
    callEffect platform (.verifyPassword password hash) time store =
      (.ok (verifyPassword platform password hash), store) := rfl

/-- A statement in a transaction of its own returns its answer. -/
theorem executeAndCommit_returns
    (statement : Statement)
    {answer : Answer statement}
    (isAnswer : (effect platform statement store).answer = some answer) :
    (alone (schema platform) AuthError.database time (executeAndCommit statement) store).1 =
      .ok answer :=
  congrArg Prod.fst (alone_executeAndCommit isAnswer)

theorem resetFailedLogin_returns (userId : UUID) (lastLoginAt : Nat) :
    (callEffect platform (.resetFailedLogin userId lastLoginAt) time store).1 = .ok () :=
  executeAndCommit_returns (.resetFailedLogin userId lastLoginAt) (updateLogin_answer _ _ _)

theorem setLockedUntil_returns (userId : UUID) (lockedUntil : Option Nat) :
    (callEffect platform (.setLockedUntil userId lockedUntil) time store).1 = .ok () :=
  executeAndCommit_returns (.setLockedUntil userId lockedUntil) (updateLogin_answer _ _ _)

theorem resetExpiredLockout_returns (userId : UUID) (now : Nat) :
    (callEffect platform (.resetExpiredLockout userId now) time store).1 = .ok () :=
  executeAndCommit_returns (.resetExpiredLockout userId now) (updateLogin_answer _ _ _)

/-- A counter that fits into its column is counted up. -/
theorem incrementFailedLogin_returns
    {userId : UUID}
    {user : User}
    (found : store.user userId = some user)
    (inRange : IsSmallInt (user.failedLoginCount + 1)) :
    (callEffect platform (.incrementFailedLogin userId) time store).1 =
      .ok (user.failedLoginCount + 1) := by
  have isAnswer : (effect platform (.incrementFailedLogin userId) store).answer =
      some (some (user.failedLoginCount + 1)) := by
    simp only [effect, found, if_pos inRange, writes]
  simp only [callEffect, alone, sqlAlchemy, incrementFailedLogin, Program.bind_eq,
    Program.solo_bind, execute, commit, Program.solo_perform]
  rw [answerAlone_of_some _ _ _ isAnswer]
  rfl

/-- A counter that does not fit is left as it is. -/
theorem incrementFailedLogin_raises
    {userId : UUID}
    {user : User}
    (found : store.user userId = some user)
    (outOfRange : ¬IsSmallInt (user.failedLoginCount + 1)) :
    callEffect platform (.incrementFailedLogin userId) time store = (.error .database, store) := by
  have noAnswer : (effect platform (.incrementFailedLogin userId) store).answer = none := by
    simp only [effect, found, if_neg outOfRange, raises]
  simp only [callEffect, alone, sqlAlchemy, incrementFailedLogin, Program.bind_eq,
    Program.solo_bind, execute, commit, Program.solo_perform]
  rw [answerAlone_of_none _ _ _ noAnswer]

/-- A token is stored, if its keys are new. -/
theorem create_answer (token : NewToken) :
    (callEffect platform (.create token) time store).1 =
      if store.Admissible (.insertToken token) then .ok ⟨token, none⟩ else .error .database := by
  simp only [callEffect, alone, sqlAlchemy, create, Program.bind_eq, Program.solo_bind, execute,
    commit, Program.solo_perform]
  split_ifs with admissible
  · have isEffect : effect platform (.insertToken token) store =
        writes (.insertToken token) () := by
      simp only [effect, if_pos admissible]
    have isWrites : ((schema platform).effect (.insertToken token)
        (([] : List Write).foldl (schema platform).apply store)).writes =
          [.insertToken token] := congrArg Effect.writes isEffect
    have isAbsent : store.token token.id = none := by
      rw [AuthStore.token, List.find?_eq_none]
      exact fun other isOther => by simpa using admissible.1 other isOther
    have isStored : (store.apply (.insertToken token)).token token.id = some ⟨token, none⟩ := by
      rw [AuthStore.token_insertToken admissible, isAbsent, if_pos rfl]
      rfl
    rw [answerAlone_of_some _ _ _ (congrArg Effect.answer isEffect), isWrites]
    change ((Program.ofOption AuthError.database
      ((store.apply (.insertToken token)).token token.id)).solo _ _).1 = _
    rw [isStored]
    rfl
  · have noAnswer : (effect platform (.insertToken token) store).answer = none := by
      simp only [effect, if_neg admissible, raises]
    rw [answerAlone_of_none _ _ _ noAnswer]

/-! ## What logins keep -/

/-- A write changes no email, and of a user only the login columns. -/
theorem byEmail_apply
    {β : Type}
    {part : User → β}
    (isKept : ∀ userId columns user,
      part (AuthTables.updatedUser userId columns user) = part user)
    (write : Write)
    (email : Str) :
    ((store.apply write).byEmail platform email).map part =
      (store.byEmail platform email).map part := by
  by_cases admissible : store.Admissible write
  · unfold AuthStore.byEmail
    rw [AuthStore.apply_toAuthTables admissible]
    cases write with
    | updateLogin userId columns =>
        have sameEmail : ∀ user, (AuthTables.updatedUser userId columns user).email =
            user.email := by
          intro user
          unfold AuthTables.updatedUser
          split_ifs <;> rfl
        simp only [AuthTables.write, List.find?_map, Function.comp_def, sameEmail,
          Option.map_map, isKept]
    | insertToken token => rfl
    | revokeToken id revokedAt => rfl
  · rw [AuthStore.apply, dif_neg admissible]

/-- So does every call. -/
theorem byEmail_callEffect
    {β : Type}
    {part : User → β}
    (isKept : ∀ userId columns user,
      part (AuthTables.updatedUser userId columns user) = part user)
    (op : AuthOp)
    (email : Str) :
    ((callEffect platform op time store).2.byEmail platform email).map part =
      (store.byEmail platform email).map part := by
  have only : (sqlAlchemy platform op).Only (Writes (schema platform) fun _ => True) := by
    generalize sqlAlchemy platform op = program
    induction program with
    | ret value => trivial
    | raise error => trivial
    | call op next inductionHypothesis =>
        refine ⟨?_, inductionHypothesis⟩
        cases op <;> simp [Writes]
  obtain ⟨changes, -, isCommitted⟩ :=
    solo_writes AuthError.database time only store [] (by simp)
  have isFolded : (callEffect platform op time store).2 = changes.foldl AuthStore.apply store :=
    isCommitted
  rw [isFolded]
  clear isCommitted isFolded
  induction changes generalizing store with
  | nil => rfl
  | cons write changes inductionHypothesis =>
      rw [List.foldl_cons, inductionHypothesis, byEmail_apply isKept]

/-- An `UPDATE` of login columns changes no token. -/
theorem tokens_updateLogin_effect
    (userId : UUID)
    (condition : User → Bool)
    (columns : User → LoginColumns) :
    ((updateLogin store userId condition columns).writes.foldl AuthStore.apply store).tokens =
      store.tokens := by
  unfold updateLogin
  cases (store.user userId).filter condition with
  | none => rfl
  | some user =>
      have admissible : store.Admissible (.updateLogin userId (columns user)) := trivial
      have isApplied := congrArg AuthTables.tokens (AuthStore.apply_toAuthTables admissible)
      exact isApplied

theorem resetFailedLogin_tokens (userId : UUID) (lastLoginAt : Nat) :
    (callEffect platform (.resetFailedLogin userId lastLoginAt) time store).2.tokens =
      store.tokens := by
  have isAlone : callEffect platform (.resetFailedLogin userId lastLoginAt) time store = _ :=
    alone_executeAndCommit (updateLogin_answer _ _ _)
  rw [isAlone]
  exact tokens_updateLogin_effect _ _ _

theorem resetExpiredLockout_tokens (userId : UUID) (now : Nat) :
    (callEffect platform (.resetExpiredLockout userId now) time store).2.tokens =
      store.tokens := by
  have isAlone : callEffect platform (.resetExpiredLockout userId now) time store = _ :=
    alone_executeAndCommit (updateLogin_answer _ _ _)
  rw [isAlone]
  exact tokens_updateLogin_effect _ _ _

end Calls

/-! ## What a login performs -/

/-- A run of the service, alone on its tables. -/
abbrev AuthLine := Timeline AuthOp AuthStore

/-- The keys of the token that is drawn are new. -/
def Draw.IsNew (platform : Platform) (store : AuthStore) (draw : Draw) : Prop :=
  (∀ token ∈ store.tokens, token.id ≠ draw.tokenId) ∧
    ∀ token ∈ store.tokens, token.tokenHash ≠ hashRefreshToken platform draw.rawToken

instance (platform : Platform) (store : AuthStore) (draw : Draw) :
    Decidable (draw.IsNew platform store) := inferInstanceAs (Decidable (_ ∧ _))

theorem isNew_congr
    {platform : Platform}
    {store store' : AuthStore}
    (sameTokens : store.tokens = store'.tokens)
    {draw : Draw} :
    draw.IsNew platform store ↔ draw.IsNew platform store' := by
  unfold Draw.IsNew
  rw [sameTokens]

section Logins

variable
    (settings : Settings)
    (platform : Platform)
    (clock : Nat → Nat)

/-- The line after one more call. -/
abbrev called (line : AuthLine) (op : AuthOp) : AuthLine :=
  line.after (callEffect platform) clock op

/-- The run of a function of the service. -/
abbrev runAt {α : Type} (program : Service α) (line : AuthLine) : Except AuthError α × AuthLine :=
  Timeline.run (callEffect platform) clock program line

variable
    {settings}
    {platform}
    {clock}
    {line : AuthLine}

/-- A call that returns, and what follows it. -/
theorem runAt_perform_bind
    {α : Type}
    {op : AuthOp}
    {answer : AuthAnswer op}
    (isAnswer : (callEffect platform op (line.time clock) line.state).1 = .ok answer)
    (rest : AuthAnswer op → Service α) :
    runAt platform clock ((perform op).bind rest) line =
      runAt platform clock (rest answer) (called platform clock line op) :=
  Timeline.run_perform_bind isAnswer rest

theorem runAt_bind_of_ok
    {α β : Type}
    {first : Service α}
    {line' : AuthLine}
    {value : α}
    (isDone : runAt platform clock first line = (.ok value, line'))
    (rest : α → Service β) :
    runAt platform clock (first.bind rest) line = runAt platform clock (rest value) line' :=
  Timeline.run_bind_of_ok isDone rest

theorem runAt_bind_of_error
    {α β : Type}
    {first : Service α}
    {line' : AuthLine}
    {error : AuthError}
    (isDone : runAt platform clock first line = (.error error, line'))
    (rest : α → Service β) :
    runAt platform clock (first.bind rest) line = (.error error, line') :=
  Timeline.run_bind_of_error isDone rest

theorem runAt_refuse {α : Type} (password : Str) (error : AuthError) :
    runAt platform clock (refuse password error : Service α) line =
      (.error error, called platform clock line (.verifyPassword password .dummy)) := by
  unfold refuse
  simp only [Program.bind_eq, Program.throw_eq]
  rw [runAt_perform_bind (congrArg Prod.fst (callEffect_verifyPassword password .dummy))]
  rfl

/-- `check_lockout` with an active lockout. -/
theorem runAt_checkLockout_of_locked
    {user : User}
    {now deadline : Nat}
    (isLocked : user.lockedUntil = some deadline)
    (isActive : now < deadline)
    (password : Str) :
    runAt platform clock (checkLockout user now password) line =
      (.error accountLocked, called platform clock line (.verifyPassword password .dummy)) := by
  unfold checkLockout
  rw [isLocked]
  simp only [if_pos isActive]
  exact runAt_refuse password accountLocked

/-- What clears an expired lockout. -/
def clearing (user : User) (now : Nat) : List AuthOp :=
  match user.lockedUntil with
  | none => []
  | some _ => [.resetExpiredLockout user.id now]

/-- The line after some more calls. -/
abbrev calledAll (platform : Platform) (clock : Nat → Nat) (line : AuthLine)
    (ops : List AuthOp) : AuthLine :=
  line.afterAll (callEffect platform) clock ops

theorem runAt_checkLockout_of_unlocked
    {user : User}
    {now : Nat}
    (isOver : ∀ deadline, user.lockedUntil = some deadline → deadline ≤ now)
    (password : Str) :
    runAt platform clock (checkLockout user now password) line =
      (.ok (), calledAll platform clock line (clearing user now)) := by
  unfold checkLockout clearing
  cases isLocked : user.lockedUntil with
  | none => rfl
  | some deadline =>
      simp only [if_neg (Nat.not_lt.mpr (isOver deadline isLocked))]
      exact Timeline.run_perform_of_ok (resetExpiredLockout_returns user.id now)

/-- The start of a login: the account is found, and the clock is read. -/
theorem runAt_login
    {user : User}
    {request : LoginRequest}
    (found : line.state.byEmail platform request.email = some user)
    (draw : Draw) :
    runAt platform clock (login settings platform request draw) line =
      runAt platform clock
        ((checkLockout user (clock (line.performed.length + 1)) request.password).bind fun _ =>
          judgePassword settings platform user request.password draw)
        (calledAll platform clock line [.getByEmail request.email, .now]) := by
  unfold login
  simp only [Program.bind_eq]
  have isFound : (callEffect platform (.getByEmail request.email) (line.time clock)
      line.state).1 = .ok (some user) := congrArg Except.ok found
  rw [runAt_perform_bind isFound, runAt_perform_bind (congrArg Prod.fst callEffect_now),
    Timeline.after_time]
  rfl

/-- What locks the account once the wrong passwords have been counted. -/
def locking (settings : Settings) (userId : UUID) (newFailedCount : Int) (now : Nat) :
    List AuthOp :=
  if settings.maxFailedLoginAttempts ≤ newFailedCount then
    [.now, .setLockedUntil userId (some (now + seconds settings.lockoutDurationSeconds))]
  else []

theorem runAt_countFailure
    {user row : User}
    (found : line.state.user user.id = some row)
    (inRange : IsSmallInt (row.failedLoginCount + 1)) :
    runAt platform clock (countFailure settings user) line =
      (.ok (), calledAll platform clock line (.incrementFailedLogin user.id ::
        locking settings user.id (row.failedLoginCount + 1)
          (clock (line.performed.length + 1)))) := by
  unfold countFailure locking
  simp only [Program.bind_eq]
  rw [runAt_perform_bind (incrementFailedLogin_returns found inRange)]
  split_ifs with isLast
  · rw [runAt_perform_bind (congrArg Prod.fst callEffect_now), Timeline.after_time]
    exact Timeline.run_perform_of_ok (setLockedUntil_returns user.id _)
  · rfl

/-- A wrong password. -/
theorem runAt_judgePassword_of_wrong
    {user row : User}
    {password : Str}
    (isActive : user.isActive = true)
    (isWrong : platform.verify password user.hashedPassword = false)
    (found : line.state.user user.id = some row)
    (inRange : IsSmallInt (row.failedLoginCount + 1))
    (draw : Draw) :
    runAt platform clock (judgePassword settings platform user password draw) line =
      (.error invalidCredentials, calledAll platform clock line
        (.verifyPassword password (.ofUser user) :: .incrementFailedLogin user.id ::
          locking settings user.id (row.failedLoginCount + 1)
            (clock (line.performed.length + 2)))) := by
  have isVerified : (callEffect platform (.verifyPassword password (.ofUser user))
      (line.time clock) line.state).1 = .ok false := congrArg Except.ok isWrong
  unfold judgePassword
  rw [if_pos isActive]
  simp only [Program.bind_eq]
  rw [runAt_perform_bind isVerified]
  simp only [Bool.false_eq_true, if_false]
  have isHere : (called platform clock line (.verifyPassword password (.ofUser user))).state.user
      user.id = some row := found
  rw [runAt_bind_of_ok (runAt_countFailure isHere inRange)]
  simp only [Timeline.after_performed, List.length_append, List.length_singleton]
  rfl

/-- The pair that a login issues. -/
def issuedPair (settings : Settings) (platform : Platform) (user : User) (draw : Draw)
    (now : Nat) : TokenPair :=
  tokenPair settings
    (platform.encode (accessClaims settings user.id user.roleName draw.jti now)
      settings.jwtPrivateKey) draw.rawToken

theorem admissible_iff_isNew
    {store : AuthStore}
    {userId : UUID}
    {draw : Draw}
    {now : Nat}
    (isUser : (store.user userId).isSome) :
    store.Admissible (.insertToken (newToken settings platform userId draw now)) ↔
      draw.IsNew platform store := by
  obtain ⟨user, found⟩ := Option.isSome_iff_exists.mp isUser
  have isOwner : ∃ user ∈ store.users, user.id = userId :=
    ⟨user, List.mem_of_find?_eq_some found, AuthStore.user_id found⟩
  exact ⟨fun admissible => ⟨admissible.1, admissible.2.1⟩,
    fun isNew => ⟨isNew.1, isNew.2, isOwner⟩⟩

/-- What issues the tokens. -/
def issuing (settings : Settings) (platform : Platform) (userId : UUID) (draw : Draw) (now : Nat) :
    List AuthOp :=
  [.now, .now, .create (newToken settings platform userId draw now)]

theorem runAt_issueTokenPair
    {user : User}
    (isUser : (line.state.user user.id).isSome)
    (draw : Draw) :
    runAt platform clock (issueTokenPair settings platform user draw) line =
      (if draw.IsNew platform line.state then
          .ok (issuedPair settings platform user draw (line.time clock))
        else .error .database,
        calledAll platform clock line (issuing settings platform user.id draw
          (clock (line.performed.length + 1)))) := by
  have isEncoded : runAt platform clock (createAccessToken settings platform user draw.jti) line =
      (.ok (platform.encode (accessClaims settings user.id user.roleName draw.jti
        (line.time clock)) settings.jwtPrivateKey), called platform clock line .now) := rfl
  unfold issueTokenPair
  simp only [Program.bind_eq]
  rw [runAt_bind_of_ok isEncoded,
    runAt_perform_bind (congrArg Prod.fst callEffect_now), Timeline.after_time]
  have isAnswer : (callEffect platform
      (.create (newToken settings platform user.id draw (clock (line.performed.length + 1))))
      ((called platform clock (called platform clock line .now) .now).time clock) line.state).1 =
        if draw.IsNew platform line.state then .ok ⟨newToken settings platform user.id draw
          (clock (line.performed.length + 1)), none⟩ else .error .database := by
    rw [create_answer]
    exact if_congr (admissible_iff_isNew isUser) rfl rfl
  split_ifs at isAnswer ⊢
  · exact Timeline.run_perform_bind isAnswer _
  · exact Timeline.run_bind_of_error (Timeline.run_perform_of_error isAnswer) _

/-- The right password. -/
theorem runAt_judgePassword_of_right
    {user : User}
    {password : Str}
    (isActive : user.isActive = true)
    (isRight : platform.verify password user.hashedPassword = true)
    (isUser : (line.state.user user.id).isSome)
    (draw : Draw) :
    runAt platform clock (judgePassword settings platform user password draw) line =
      (if draw.IsNew platform line.state then
          .ok (issuedPair settings platform user draw (clock (line.performed.length + 3)))
        else .error .database,
        calledAll platform clock line
          (.verifyPassword password (.ofUser user) :: .now ::
            .resetFailedLogin user.id (clock (line.performed.length + 1)) ::
            issuing settings platform user.id draw (clock (line.performed.length + 4)))) := by
  have isVerified : (callEffect platform (.verifyPassword password (.ofUser user))
      (line.time clock) line.state).1 = .ok true := congrArg Except.ok isRight
  unfold judgePassword
  rw [if_pos isActive]
  simp only [Program.bind_eq]
  rw [runAt_perform_bind isVerified]
  simp only [if_true]
  rw [runAt_perform_bind (congrArg Prod.fst callEffect_now), Timeline.after_time]
  rw [runAt_perform_bind (resetFailedLogin_returns user.id _)]
  have isReset : (called platform clock (called platform clock (called platform clock line
      (.verifyPassword password (.ofUser user))) .now) (.resetFailedLogin user.id
        (clock (line.performed.length + 1)))).state.user user.id =
      (line.state.user user.id).map
        (AuthOp.resetFailedLogin user.id (clock (line.performed.length + 1))).onUser :=
    user_callEffect (resetFailedLogin_returns user.id _) user.id
  have sameTokens : (called platform clock (called platform clock (called platform clock line
      (.verifyPassword password (.ofUser user))) .now) (.resetFailedLogin user.id
        (clock (line.performed.length + 1)))).state.tokens = line.state.tokens :=
    resetFailedLogin_tokens user.id _
  rw [runAt_issueTokenPair (by rw [isReset, Option.isSome_map]; exact isUser)]
  simp only [calledAll, Timeline.afterAll_cons]
  simp only [isNew_congr sameTokens, Timeline.after_performed, Timeline.after_time,
    List.length_append, List.length_singleton]

end Logins

end Auth
end SigmaForge
