import SigmaForge.Auth.Account

/-!
# Active lockouts

A lockout lasts until its end when no login that could shorten it is in flight
while it is stored.
-/

namespace SigmaForge
namespace Auth

open Text Atomic

namespace Attempt

/-- The row that the login has read. -/
def row : Attempt → Option User
  | .read _ row => some row
  | .expired _ row _ => some row
  | .admitted _ row => some row
  | .compared _ row _ => some row
  | .broken row => some row
  | .counted row _ => some row
  | .locking row _ => some row
  | .accepted row => some row
  | .issued row => some row
  | _ => none

variable
    (settings : Settings)
    (platform : Platform)
    (userId : UUID)

/-- The request has the password of an active account. -/
def Entitled (request : LoginRequest) (row : User) : Prop :=
  row.id = userId ∧ row.isActive = true ∧
    platform.verify request.password row.hashedPassword = true

/-- What the login still does may end a lockout of the account before the given
time, or issue tokens during it: it has the right password and has not seen a
lockout up to then, or it has computed an earlier end. -/
def Threatens (lockedUntil : Nat) : Attempt → Prop
  | .read request row => Entitled platform userId request row ∧
      ∀ seen ∈ row.lockedUntil, seen < lockedUntil
  | .expired request row _ => Entitled platform userId request row
  | .admitted request row => Entitled platform userId request row
  | .compared _ row isRight => row.id = userId ∧ isRight = true
  | .locking row computed => row.id = userId ∧ computed < lockedUntil
  | .accepted row => row.id = userId
  | _ => False

/-- The login has seen this lockout, if it concerns the account. -/
def Saw (lockedUntil : Nat) (attempt : Attempt) : Prop :=
  ∀ row ∈ attempt.row, row.id = userId → row.lockedUntil = some lockedUntil

/-- The times of the login are past ones. -/
def Punctual (time : Nat) : Attempt → Prop
  | .expired _ row checkedAt => checkedAt ≤ time ∧ ∀ seen ∈ row.lockedUntil, seen ≤ time
  | .admitted _ row => ∀ seen ∈ row.lockedUntil, seen ≤ time
  | .compared _ row _ => ∀ seen ∈ row.lockedUntil, seen ≤ time
  | .counted row _ => ∀ seen ∈ row.lockedUntil, seen ≤ time
  | .locking _ computed => computed ≤ time + seconds settings.lockoutDurationSeconds
  | _ => True

variable
    {settings}
    {platform}
    {userId}

theorem Punctual.mono
    {time later : Nat}
    (isLater : time ≤ later)
    {attempt : Attempt}
    (punctual : attempt.Punctual settings time) :
    attempt.Punctual settings later := by
  cases attempt with
  | expired request row checkedAt =>
      exact ⟨punctual.1.trans isLater, fun seen isSeen =>
        (punctual.2 seen isSeen).trans isLater⟩
  | admitted request row => exact fun seen isSeen => (punctual seen isSeen).trans isLater
  | compared request row isRight => exact fun seen isSeen => (punctual seen isSeen).trans isLater
  | counted row count => exact fun seen isSeen => (punctual seen isSeen).trans isLater
  | locking row computed => exact punctual.trans (Nat.add_le_add_right isLater _)
  | _ => trivial

end Attempt

/-! ## The invariant -/

section Invariant

variable
    {settings : Settings}
    {platform : Platform}
    {userId : UUID}
    {attempts : ProcId → Attempt}
    {account account' : User}
    {time later : Nat}

/-- No login in flight can end the lockout of the account. -/
structure Secure (settings : Settings) (platform : Platform) (userId : UUID)
    (attempts : ProcId → Attempt) (account : User) (time : Nat) : Prop where
  isAccount : account.id = userId
  safe : ∀ lockedUntil, account.lockedUntil = some lockedUntil → time < lockedUntil →
    ∀ pid, ¬(attempts pid).Threatens platform userId lockedUntil
  /-- A lockout that is too long has been there from the start. -/
  bounded : ∀ lockedUntil, account.lockedUntil = some lockedUntil →
    lockedUntil ≤ time + seconds settings.lockoutDurationSeconds ∨
      ∀ pid, (attempts pid).Saw userId lockedUntil
  punctual : ∀ pid, (attempts pid).Punctual settings time

theorem Secure.mono
    (secure : Secure settings platform userId attempts account time)
    (isLater : time ≤ later) :
    Secure settings platform userId attempts account later where
  isAccount := secure.isAccount
  safe lockedUntil isLocked isActive :=
    secure.safe lockedUntil isLocked (Nat.lt_of_le_of_lt isLater isActive)
  bounded lockedUntil isLocked := by
    rcases secure.bounded lockedUntil isLocked with isShort | areSeen
    · exact .inl (isShort.trans (Nat.add_le_add_right isLater _))
    · exact .inr areSeen
  punctual pid := (secure.punctual pid).mono isLater

/-- One login moves on, and the lockout stays as it is or is gone. -/
theorem Secure.update
    (secure : Secure settings platform userId attempts account time)
    {pid : ProcId}
    {reached : Attempt}
    (sameId : account'.id = account.id)
    (sameLock : account'.lockedUntil = none ∨ account'.lockedUntil = account.lockedUntil)
    (safe : ∀ lockedUntil, account.lockedUntil = some lockedUntil → time < lockedUntil →
      ¬reached.Threatens platform userId lockedUntil)
    (saw : ∀ lockedUntil, account.lockedUntil = some lockedUntil →
      (attempts pid).Saw userId lockedUntil → reached.Saw userId lockedUntil)
    (punctual : reached.Punctual settings time) :
    Secure settings platform userId (Function.update attempts pid reached) account' time where
  isAccount := sameId.trans secure.isAccount
  safe lockedUntil isLocked isActive other := by
    rcases sameLock with isGone | isSame
    · rw [isGone] at isLocked
      contradiction
    · rw [isSame] at isLocked
      by_cases isOwn : other = pid
      · subst isOwn
        rw [Function.update_self]
        exact safe lockedUntil isLocked isActive
      · rw [Function.update_of_ne isOwn]
        exact secure.safe lockedUntil isLocked isActive other
  bounded lockedUntil isLocked := by
    rcases sameLock with isGone | isSame
    · rw [isGone] at isLocked
      contradiction
    · rw [isSame] at isLocked
      rcases secure.bounded lockedUntil isLocked with isShort | areSeen
      · exact .inl isShort
      · right
        intro other
        by_cases isOwn : other = pid
        · subst isOwn
          rw [Function.update_self]
          exact saw lockedUntil isLocked (areSeen other)
        · rw [Function.update_of_ne isOwn]
          exact areSeen other
  punctual other := by
    by_cases isOwn : other = pid
    · subst isOwn
      rw [Function.update_self]
      exact punctual
    · rw [Function.update_of_ne isOwn]
      exact secure.punctual other

/-- While nothing threatens it, a lockout is never shortened. -/
theorem Secure.lock_kept
    (secure : Secure settings platform userId attempts account time)
    {pid : ProcId}
    {reached : Attempt}
    {made : Mark}
    (step : AttemptStep settings platform userId time made (attempts pid) account reached
      account')
    {lockedUntil : Nat}
    (isLocked : account.lockedUntil = some lockedUntil)
    (isActive : time < lockedUntil) :
    ∃ lockedUntil', account'.lockedUntil = some lockedUntil' ∧ lockedUntil ≤ lockedUntil' := by
  have safe := secure.safe lockedUntil isLocked isActive pid
  have punctual := secure.punctual pid
  generalize attempts pid = current at step safe punctual
  cases step with
  | @cleared request row _ checkedAt =>
      refine ⟨lockedUntil, ?_, Nat.le_refl _⟩
      simp only [AuthOp.onUser, isLocked, Option.any_some, decide_eq_true_eq]
      split_ifs with isExpired
      · have isPast : checkedAt ≤ time := punctual.1
        omega
      · exact isLocked
  | counted _ =>
      refine ⟨lockedUntil, ?_, Nat.le_refl _⟩
      simp only [AuthOp.onUser]
      split_ifs <;> exact isLocked
  | @locked row _ computed =>
      simp only [AuthOp.onUser]
      split_ifs with isOwn
      · refine ⟨computed, rfl, ?_⟩
        by_contra isEarlier
        exact safe ⟨isOwn.symm.trans secure.isAccount, Nat.lt_of_not_le isEarlier⟩
      · exact ⟨lockedUntil, isLocked, Nat.le_refl _⟩
  | @accepted request row _ lastLoginAt =>
      simp only [AuthOp.onUser]
      split_ifs with isOwn
      · exact absurd ⟨isOwn.symm.trans secure.isAccount, rfl⟩ safe
      · exact ⟨lockedUntil, isLocked, Nat.le_refl _⟩
  | _ => exact ⟨lockedUntil, isLocked, Nat.le_refl _⟩

/-- A login checks the lockout of the row that it has read. -/
theorem Secure.checked
    (secure : Secure settings platform userId attempts account time)
    {pid : ProcId}
    {request : LoginRequest}
    {row : User}
    (isRead : attempts pid = .read request row) :
    Secure settings platform userId
      (Function.update attempts pid (Attempt.check request row time)) account time := by
  have isSafe : ∀ lockedUntil, account.lockedUntil = some lockedUntil → time < lockedUntil →
      ¬(Attempt.read request row).Threatens platform userId lockedUntil :=
    fun lockedUntil isLocked isActive => isRead ▸ secure.safe lockedUntil isLocked isActive pid
  unfold Attempt.check
  cases isSeen : row.lockedUntil with
  | none =>
      refine secure.update rfl (.inr rfl) ?_ ?_ ?_
      · intro lockedUntil isLocked isActive entitled
        exact isSafe lockedUntil isLocked isActive ⟨entitled, by simp [isSeen]⟩
      · rw [isRead]
        exact fun _ _ saw => saw
      · simp [Attempt.Punctual, isSeen]
  | some seen =>
      dsimp only
      split_ifs with isLate
      · exact secure.update rfl (.inr rfl) (fun _ _ _ threat => threat)
          (by simp [Attempt.Saw, Attempt.row]) trivial
      · refine secure.update rfl (.inr rfl) ?_ ?_ ?_
        · intro lockedUntil isLocked isActive entitled
          refine isSafe lockedUntil isLocked isActive ⟨entitled, ?_⟩
          rw [isSeen]
          rintro _ ⟨⟩
          omega
        · rw [isRead]
          exact fun _ _ saw => saw
        · refine ⟨Nat.le_refl _, ?_⟩
          rw [isSeen]
          rintro _ ⟨⟩
          omega

/-- A login computes the end of a lockout. -/
theorem Secure.computed
    (secure : Secure settings platform userId attempts account time)
    {pid : ProcId}
    {row : User}
    {newFailedCount : Int}
    (isCounted : attempts pid = .counted row newFailedCount) :
    Secure settings platform userId
      (Function.update attempts pid
        (.locking row (time + seconds settings.lockoutDurationSeconds))) account time := by
  refine secure.update rfl (.inr rfl) ?_ ?_ (Nat.le_refl _)
  · rintro lockedUntil isLocked isFuture ⟨isOwn, isEarlier⟩
    rcases secure.bounded lockedUntil isLocked with isShort | areSeen
    · omega
    · -- the login has seen this lockout, and has been admitted after it
      have saw := areSeen pid
      have punctual := secure.punctual pid
      rw [isCounted] at saw punctual
      have isPast := punctual lockedUntil (saw row rfl isOwn)
      omega
  · rw [isCounted]
    exact fun _ _ saw => saw

/-- A login locks the account, and no other one threatens the lockout. -/
theorem Secure.locked
    (secure : Secure settings platform userId attempts account time)
    {pid : ProcId}
    {row : User}
    {computed : Nat}
    (isLocking : attempts pid = .locking row computed)
    (isOwn : row.id = userId)
    (alone : time < computed →
      ∀ other, other ≠ pid → ¬(attempts other).Threatens platform userId computed) :
    Secure settings platform userId (Function.update attempts pid .over)
      ((AuthOp.setLockedUntil row.id (some computed)).onUser account) time := by
  have isStored : ((AuthOp.setLockedUntil row.id (some computed)).onUser account).lockedUntil =
      some computed := by
    simp only [AuthOp.onUser, if_pos (secure.isAccount.trans isOwn.symm)]
  constructor
  case isAccount => exact (onUser_id _ _).trans secure.isAccount
  case safe =>
    intro lockedUntil isLocked isActive other
    obtain rfl : computed = lockedUntil := Option.some.inj (isStored.symm.trans isLocked)
    by_cases isSelf : other = pid
    · subst isSelf
      rw [Function.update_self]
      exact fun threat => threat
    · rw [Function.update_of_ne isSelf]
      exact alone isActive other isSelf
  case bounded =>
    intro lockedUntil isLocked
    obtain rfl : computed = lockedUntil := Option.some.inj (isStored.symm.trans isLocked)
    have punctual := secure.punctual pid
    rw [isLocking] at punctual
    exact .inl punctual
  case punctual =>
    intro other
    by_cases isSelf : other = pid
    · subst isSelf
      rw [Function.update_self]
      trivial
    · rw [Function.update_of_ne isSelf]
      exact secure.punctual other

/-- A step of a login keeps the account secure, if no other login threatens a
lockout that it stores. -/
theorem Secure.step
    (secure : Secure settings platform userId attempts account time)
    {pid : ProcId}
    {reached : Attempt}
    {made : Mark}
    (step : AttemptStep settings platform userId time made (attempts pid) account reached
      account')
    (alone : ∀ lockedUntil, made = .locked userId lockedUntil → time < lockedUntil →
      ∀ other, other ≠ pid → ¬(attempts other).Threatens platform userId lockedUntil) :
    Secure settings platform userId (Function.update attempts pid reached) account' time := by
  have isSafe : ∀ lockedUntil, account.lockedUntil = some lockedUntil → time < lockedUntil →
      ¬(attempts pid).Threatens platform userId lockedUntil :=
    fun lockedUntil isLocked isActive => secure.safe lockedUntil isLocked isActive pid
  have punctual := secure.punctual pid
  generalize isCurrent : attempts pid = current at step isSafe punctual
  cases step with
  | opened request =>
      exact secure.update rfl (.inr rfl) (fun _ _ _ threat => threat)
        (by simp [Attempt.Saw, Attempt.row]) trivial
  | ended _ _ _ =>
      exact secure.update rfl (.inr rfl) (fun _ _ _ threat => threat)
        (by simp [Attempt.Saw, Attempt.row]) trivial
  | broke =>
      refine secure.update rfl (.inr rfl) (fun _ _ _ threat => threat) ?_ trivial
      rw [isCurrent]
      exact fun _ _ saw => saw
  | waited _ =>
      refine secure.update rfl (.inr rfl) isSafe ?_ punctual
      rw [isCurrent]
      exact fun _ _ saw => saw
  | read isRow =>
      refine secure.update rfl (.inr rfl) ?_ ?_ trivial
      · rintro lockedUntil isLocked _ ⟨⟨isOwn, _⟩, isEarlier⟩
        rw [isRow isOwn, isLocked] at isEarlier
        exact Nat.lt_irrefl _ (isEarlier lockedUntil rfl)
      · rintro lockedUntil isLocked _ row isSame isOwn
        obtain rfl := Option.some.inj isSame
        rw [isRow isOwn, isLocked]
  | checked => exact secure.checked isCurrent
  | cleared =>
      refine secure.update (onUser_id _ _) ?_ isSafe ?_ punctual.2
      · simp only [AuthOp.onUser]
        split_ifs
        · exact .inl rfl
        · exact .inr rfl
      · rw [isCurrent]
        exact fun _ _ saw => saw
  | compared isActive =>
      refine secure.update rfl (.inr rfl) ?_ ?_ punctual
      · rintro lockedUntil isLocked isFuture ⟨isOwn, isRight⟩
        exact isSafe lockedUntil isLocked isFuture ⟨isOwn, isActive, isRight⟩
      · rw [isCurrent]
        exact fun _ _ saw => saw
  | counted _ =>
      refine secure.update (onUser_id _ _) ?_ (fun _ _ _ threat => threat) ?_ punctual
      · simp only [AuthOp.onUser]
        split_ifs <;> exact .inr rfl
      · rw [isCurrent]
        exact fun _ _ saw => saw
  | computed _ => exact secure.computed isCurrent
  | @locked row _ computed =>
      by_cases isOwn : row.id = userId
      · exact secure.locked isCurrent isOwn (alone computed (by rw [isOwn]))
      · have isOther : account.id ≠ row.id := secure.isAccount.trans_ne (Ne.symm isOwn)
        simp only [AuthOp.onUser, if_neg isOther]
        exact secure.update rfl (.inr rfl) (fun _ _ _ threat => threat)
          (by simp [Attempt.Saw, Attempt.row]) trivial
  | accepted lastLoginAt =>
      refine secure.update (onUser_id _ _) ?_ ?_ ?_ trivial
      · simp only [AuthOp.onUser]
        split_ifs
        · exact .inl rfl
        · exact .inr rfl
      · intro lockedUntil isLocked isFuture isOwn
        exact isSafe lockedUntil isLocked isFuture ⟨isOwn, rfl⟩
      · rw [isCurrent]
        exact fun _ _ saw => saw
  | issued =>
      refine secure.update rfl (.inr rfl) (fun _ _ _ threat => threat) ?_ trivial
      rw [isCurrent]
      exact fun _ _ saw => saw

end Invariant

/-! ## Runs -/

section Runs

variable
    {settings : Settings}
    {platform : Platform}
    {userId : UUID}
    {initial : AuthStore}
    {clock : Nat}

/-- `users.locked_until` of an account. -/
def lockedUntilOf (platform : Platform) (userId : UUID) (state : AuthHistory) : Option Nat :=
  ((state.store (callEffect platform)).user userId).bind fun user => user.lockedUntil

/-- When the end of a lockout is stored before that time, no other login
threatens it. -/
def lockedAlone (settings : Settings) (platform : Platform) (userId : UUID) :
    EventProperty AuthError AuthAnswer AuthCall AuthStore := fun _ before event =>
  ∀ lockedUntil, mark event = .locked userId lockedUntil → event.time < lockedUntil →
    ∀ other, other ≠ event.pid →
      ¬(attempt settings other before).Threatens platform userId lockedUntil

/-- The account is secure after the history. -/
def SecureAfter (settings : Settings) (platform : Platform) (userId : UUID) (initial : AuthStore)
    (log : List AuthEvent) : Prop :=
  ∃ account, (replay (callEffect platform) initial log).user userId = some account ∧
    ∀ time, (∀ event ∈ log, event.time ≤ time) →
      Secure settings platform userId (fun pid => attempt settings pid log) account time

/-- An event keeps the account secure, and its lockout. -/
theorem SecureAfter.concat
    {before : List AuthEvent}
    {event : AuthEvent}
    (proper : Proper settings platform initial before event)
    (alone : lockedAlone settings platform userId initial before event)
    (secureBefore : SecureAfter settings platform userId initial before) :
    SecureAfter settings platform userId initial (before ++ [event]) := by
  obtain ⟨account, isAccount, secure⟩ := secureBefore
  obtain ⟨account', isAccount', step⟩ := step_of_event proper.1 proper.2 isAccount
  refine ⟨account', isAccount', fun time areEarlier => ?_⟩
  rw [attempts_concat]
  have isLater : event.time ≤ time := areEarlier event (by simp)
  refine Secure.mono ?_ isLater
  exact (secure event.time (times_le proper)).step step alone

/-- The account is secure along the run. -/
theorem secure_history
    {account : User}
    {log : List AuthEvent}
    (satisfied : EventsSatisfy (Proper settings platform) initial log)
    (alone : EventsSatisfy (lockedAlone settings platform userId) initial log)
    (isAccount : initial.user userId = some account) :
    SecureAfter settings platform userId initial log := by
  induction log using List.reverseRecOn with
  | nil =>
      refine ⟨account, isAccount, fun time _ => ⟨AuthStore.user_id isAccount, ?_, ?_, ?_⟩⟩
      · exact fun _ _ _ _ threat => threat
      · exact fun _ _ => .inr fun _ => by simp [Attempt.Saw, Attempt.row, progress]
      · exact fun _ => trivial
  | append_singleton log event inductionHypothesis =>
      exact (inductionHypothesis satisfied.of_append alone.of_append).concat satisfied.last
        alone.last

/-- A lockout is kept along the run, until its end. -/
theorem lock_kept_history
    {account : User}
    {log events : List AuthEvent}
    {lockedUntil : Nat}
    (satisfied : EventsSatisfy (Proper settings platform) initial (log ++ events))
    (alone : EventsSatisfy (lockedAlone settings platform userId) initial (log ++ events))
    (isAccount : (replay (callEffect platform) initial log).user userId = some account)
    (isLocked : account.lockedUntil = some lockedUntil)
    (exists_initially : ∃ account, initial.user userId = some account)
    (areActive : ∀ event ∈ events, event.time < lockedUntil) :
    ∃ account' lockedUntil',
      (replay (callEffect platform) initial (log ++ events)).user userId = some account' ∧
      account'.lockedUntil = some lockedUntil' ∧ lockedUntil ≤ lockedUntil' := by
  induction events using List.reverseRecOn with
  | nil =>
      rw [List.append_nil]
      exact ⟨account, lockedUntil, isAccount, isLocked, Nat.le_refl _⟩
  | append_singleton events event inductionHypothesis =>
      rw [← List.append_assoc] at satisfied alone ⊢
      obtain ⟨account', lockedUntil', isAccount', isLocked', isLater⟩ :=
        inductionHypothesis satisfied.of_append alone.of_append
          fun earlier isEarlier => areActive earlier (List.mem_append_left _ isEarlier)
      obtain ⟨first, isFirst⟩ := exists_initially
      obtain ⟨current, isCurrent, secure⟩ :=
        secure_history satisfied.of_append alone.of_append isFirst
      obtain rfl : account' = current := Option.some.inj (isAccount'.symm.trans isCurrent)
      obtain ⟨account'', isAccount'', step⟩ :=
        step_of_event satisfied.last.1 satisfied.last.2 isAccount'
      have isActive : event.time < lockedUntil := areActive event (by simp)
      obtain ⟨lockedUntil'', isLocked'', isLater'⟩ :=
        (secure event.time (times_le satisfied.last)).lock_kept step isLocked'
          (Nat.lt_of_lt_of_le isActive isLater)
      exact ⟨account'', lockedUntil'', isAccount'', isLocked'', isLater.trans isLater'⟩

/-- A lockout up to the given time, stored in the first configuration, holds in
the second one: before that time it is neither gone nor shorter, and a login of
the account that has returned has not stored its refresh token, which is its
last commit, during the lockout. -/
def HoldsUntil (platform : Platform) (userId : UUID) (lockedUntil : Nat)
    (config config' : Config AuthError AuthAnswer AuthCall AuthHistory AuthResponse) : Prop :=
  (config'.shared.clock < lockedUntil →
    ∃ lockedUntil', lockedUntilOf platform userId config'.shared = some lockedUntil' ∧
      lockedUntil ≤ lockedUntil') ∧
  ∀ pid request draw response,
    config'.process pid = some (.login request draw, .finished (.ok response)) →
    ∃ before token stored time after,
      config'.shared.log = before ++ .called pid (.create token) (.ok stored) time :: after ∧
      (∀ event ∈ after, event.pid ≠ pid) ∧
      (token.userId = userId → config.shared.log.length ≤ before.length → lockedUntil ≤ time)

/-- In every run in which each lockout of the account is stored while no other
login threatens it, a lockout holds until its end. -/
theorem active_lockout_holds
    {config config' : Config AuthError AuthAnswer AuthCall AuthHistory AuthResponse}
    (reachable : Reachable (authMachine platform) (AuthCall.program settings platform)
      (Recorded.start initial clock) config)
    (steps : Steps (authMachine platform) (AuthCall.program settings platform) config config')
    (alone : EventsSatisfy (lockedAlone settings platform userId) initial config'.shared.log)
    {lockedUntil : Nat}
    (isLocked : lockedUntilOf platform userId config.shared = some lockedUntil) :
    HoldsUntil platform userId lockedUntil config config' := by
  obtain ⟨invariant, returned⟩ := orderly_history (reachable.trans steps)
  obtain ⟨isInitial, _, _⟩ := log_extends reachable
  obtain ⟨sameInitial, _, events, isLog, _⟩ := log_extends steps
  have first : config.shared.initial = initial := isInitial
  have second : config'.shared.initial = initial := sameInitial.trans first
  have satisfied : EventsSatisfy (Proper settings platform) initial config'.shared.log := by
    rw [← second]
    exact invariant.1
  unfold lockedUntilOf Recorded.store at isLocked
  rw [first] at isLocked
  obtain ⟨account, isAccount, isLocked⟩ := Option.bind_eq_some_iff.mp isLocked
  have satisfiedBefore : EventsSatisfy (Proper settings platform) initial config.shared.log := by
    rw [isLog] at satisfied
    exact satisfied.of_append
  have existed := account_existed satisfiedBefore isAccount
  constructor
  · intro isActive
    rw [isLog] at satisfied alone
    have areActive : ∀ event ∈ events, event.time < lockedUntil := by
      intro event isEvent
      have isPast := invariant.2 event (by rw [isLog]; exact List.mem_append_right _ isEvent)
      omega
    obtain ⟨account', lockedUntil', isAccount', isLocked', isLater⟩ :=
      lock_kept_history satisfied alone isAccount isLocked existed areActive
    refine ⟨lockedUntil', ?_, isLater⟩
    unfold lockedUntilOf Recorded.store
    rw [second, isLog, isAccount']
    exact isLocked'
  · intro pid request draw response isFinished
    obtain ⟨row, isIssued⟩ := returned pid _ _ isFinished
    obtain ⟨before, token, stored, time, after, isSplit, isOwner, isAccepted, others⟩ :=
      issued_last satisfied isIssued
    refine ⟨before, token, stored, time, after, isSplit, others, fun isOwn isLate => ?_⟩
    by_contra isEarly
    -- the token is stored in front of the end: the account is secure and locked there
    obtain ⟨between, rfl⟩ : ∃ between, before = config.shared.log ++ between := by
      have isFirst : config.shared.log <+: config'.shared.log := ⟨events, isLog.symm⟩
      obtain ⟨between, isBetween⟩ :=
        List.prefix_of_prefix_length_le isFirst ⟨_, isSplit.symm⟩ isLate
      exact ⟨between, isBetween.symm⟩
    rw [isSplit] at satisfied alone
    have proper := satisfied _ _ _ rfl
    obtain ⟨account', lockedUntil', isAccount', isLocked', isLater⟩ :=
      lock_kept_history satisfied.of_append alone.of_append isAccount isLocked existed
        fun event isEvent => Nat.lt_of_le_of_lt
          (times_le proper event (List.mem_append_right _ isEvent)) (Nat.lt_of_not_le isEarly)
    obtain ⟨_, isFirst⟩ := existed
    obtain ⟨current, isCurrent, secure⟩ :=
      secure_history satisfied.of_append alone.of_append isFirst
    obtain rfl : account' = current := Option.some.inj (isAccount'.symm.trans isCurrent)
    have isSafe := (secure time (times_le proper)).safe lockedUntil' isLocked' (by omega) pid
    rw [isAccepted] at isSafe
    exact isSafe (isOwner.symm.trans isOwn)

end Runs

/-- A right password is compared, and then a wrong one is counted and locks the
account. -/
def lockedBetween : List (Action AuthCall) :=
  [.start 0 (.sample (lit "right") 0), .start 1 (.sample (lit "wrong") 1)] ++
    List.replicate 3 (.step 0) ++ List.replicate 6 (.step 1)

/-- A login that has read the row of the account before a lockout ends the
lockout: `reset_failed_login` has no condition. -/
theorem lockout_ended :
    ∃ config config', Reachable (authMachine .plain)
        (AuthCall.program (Settings.sample 0) .plain) (Recorded.start AuthStore.sample 0) config ∧
      Steps (authMachine .plain) (AuthCall.program (Settings.sample 0) .plain) config config' ∧
      lockedUntilOf .plain 1 config.shared = some 900000000 ∧
      ¬HoldsUntil .plain 1 900000000 config config' := by
  refine ⟨runSample 0 lockedBetween,
    schedule (callEffect .plain) AuthError.database
      (AuthCall.program (Settings.sample 0) .plain) (runSample 0 lockedBetween)
      (List.replicate 2 (.step 0)),
    reachable_runSample 0 lockedBetween, steps_of_schedule _ _ _ _ _, by decide +kernel, ?_⟩
  rintro ⟨isKept, _⟩
  obtain ⟨lockedUntil', isLocked, _⟩ := isKept (by decide +kernel)
  have isGone : lockedUntilOf .plain 1 (schedule (callEffect .plain) AuthError.database
      (AuthCall.program (Settings.sample 0) .plain) (runSample 0 lockedBetween)
      (List.replicate 2 (.step 0))).shared = none := by
    decide +kernel
  rw [isGone] at isLocked
  contradiction

/-- The mark says that a lockout is stored. -/
def Mark.IsLock : Mark → Bool
  | .locked _ _ => true
  | _ => false

/-- A login that stores a lockout has been alone until then. -/
def lockedUndisturbed : EventProperty AuthError AuthAnswer AuthCall AuthStore :=
  fun _ before event =>
    (mark event).IsLock = true → ∀ earlier ∈ before, earlier.pid = event.pid

instance (initial : AuthStore) (before : List AuthEvent) (event : AuthEvent) :
    Decidable (lockedUndisturbed initial before event) :=
  inferInstanceAs (Decidable (_ → _))

/-- A login that has been alone is not threatened by others. -/
theorem lockedAlone_of_undisturbed
    {settings : Settings}
    {platform : Platform}
    {userId : UUID}
    {initial : AuthStore}
    {log : List AuthEvent}
    (undisturbed : EventsSatisfy lockedUndisturbed initial log) :
    EventsSatisfy (lockedAlone settings platform userId) initial log := by
  intro before event after isSplit lockedUntil isLocked _ other isOther
  have isLock : (mark event).IsLock = true := by
    rw [isLocked]
    rfl
  rw [attempt_of_absent]
  · exact fun threat => threat
  · intro earlier isEarlier
    rw [undisturbed before event after isSplit isLock earlier isEarlier]
    exact isOther.symm

/-- A wrong password locks the account. -/
def lockedRun : Config AuthError AuthAnswer AuthCall AuthHistory AuthResponse :=
  runSample 0 (.start 0 (.sample (lit "wrong") 0) :: List.replicate 6 (.step 0))

/-- A second later, another login has the right password. -/
def duringLockout : Config AuthError AuthAnswer AuthCall AuthHistory AuthResponse :=
  schedule (callEffect .plain) AuthError.database (AuthCall.program (Settings.sample 0) .plain)
    lockedRun
    ([.step 0, .wait 1000000, .start 1 (.sample (lit "right") 1)] ++ List.replicate 4 (.step 1))

/-- So has a third one, at the end of the lockout. -/
def afterLockout : Config AuthError AuthAnswer AuthCall AuthHistory AuthResponse :=
  schedule (callEffect .plain) AuthError.database (AuthCall.program (Settings.sample 0) .plain)
    duringLockout
    ([.wait 899000000, .start 2 (.sample (lit "right") 2)] ++ List.replicate 10 (.step 2))

/-- The login during the lockout is refused, and the one after it succeeds. -/
theorem sample_lockout_holds :
    Reachable (authMachine .plain) (AuthCall.program (Settings.sample 0) .plain)
      (Recorded.start AuthStore.sample 0) lockedRun ∧
    lockedUntilOf .plain 1 lockedRun.shared = some 900000000 ∧
    duringLockout.process 1 =
      some (.sample (lit "right") 1, .finished (.error accountLocked)) ∧
    duringLockout.shared.clock = 1000000 ∧
    HoldsUntil .plain 1 900000000 lockedRun duringLockout ∧
    (∃ response,
      afterLockout.process 2 = some (.sample (lit "right") 2, .finished (.ok response))) ∧
    HoldsUntil .plain 1 900000000 lockedRun afterLockout := by
  have reachable : Reachable (authMachine .plain) (AuthCall.program (Settings.sample 0) .plain)
      (Recorded.start AuthStore.sample 0) lockedRun := reachable_runSample 0 _
  have steps : Steps (authMachine .plain) (AuthCall.program (Settings.sample 0) .plain) lockedRun
      duringLockout := steps_of_schedule _ _ _ _ _
  have steps' : Steps (authMachine .plain) (AuthCall.program (Settings.sample 0) .plain)
      duringLockout afterLockout := steps_of_schedule _ _ _ _ _
  have isLocked : lockedUntilOf .plain 1 lockedRun.shared = some 900000000 := by decide +kernel
  refine ⟨reachable, isLocked, rfl, rfl, ?_, ⟨_, rfl⟩, ?_⟩
  · exact active_lockout_holds reachable steps
      (lockedAlone_of_undisturbed (by decide +kernel)) isLocked
  · exact active_lockout_holds reachable (steps.trans steps')
      (lockedAlone_of_undisturbed (by decide +kernel)) isLocked

end Auth
end SigmaForge
