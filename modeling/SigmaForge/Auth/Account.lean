import SigmaForge.Auth.Attempt

/-!
# What an event does to an account

Every event of an orderly history is one of a few steps of its login, with a
definite effect on the row of a given account.
-/

namespace SigmaForge
namespace Auth

open Text Atomic

/-- What an event does to a user, beside counting and clearing. -/
inductive Mark
  /-- A password is compared with the hash of the user. -/
  | compared (userId : UUID)
  | locked (userId : UUID) (lockedUntil : Nat)
  /-- A login succeeds. -/
  | succeeded (userId : UUID)
  | other
  deriving DecidableEq

/-- The mark of an event. -/
def mark : AuthEvent → Mark
  | .called _ (.verifyPassword _ (.ofUser user)) (.ok _) _ => .compared user.id
  | .called _ (.setLockedUntil userId (some lockedUntil)) (.ok _) _ =>
      .locked userId lockedUntil
  | .called _ (.resetFailedLogin userId _) (.ok _) _ => .succeeded userId
  | _ => .other

/-- A step of a login at a time, with its mark, and what it does to an account:
its phase and the row of the account, before and after. -/
inductive AttemptStep (settings : Settings) (platform : Platform) (userId : UUID) (time : Nat) :
    Mark → Attempt → User → Attempt → User → Prop
  | opened {account : User} (request : LoginRequest) :
      AttemptStep settings platform userId time .other .idle account (.opened request) account
  | ended {account : User} (attempt : Attempt) :
      (∀ request row isRight, attempt ≠ .compared request row isRight) →
      (∀ row, attempt ≠ .broken row) →
      AttemptStep settings platform userId time .other attempt account .over account
  | broke {request : LoginRequest} {row : User} {isRight : Bool} {account : User} :
      AttemptStep settings platform userId time .other (.compared request row isRight) account
        (.broken row) account
  | waited {account : User} (attempt : Attempt) :
      AttemptStep settings platform userId time .other attempt account attempt account
  | read {request : LoginRequest} {row account : User} :
      (row.id = userId → row = account) →
      AttemptStep settings platform userId time .other (.opened request) account
        (.read request row) account
  | checked {request : LoginRequest} {row account : User} :
      AttemptStep settings platform userId time .other (.read request row) account
        (.check request row time) account
  | cleared {request : LoginRequest} {row account : User} {checkedAt : Nat} :
      AttemptStep settings platform userId time .other (.expired request row checkedAt) account
        (.admitted request row) ((AuthOp.resetExpiredLockout row.id checkedAt).onUser account)
  | compared {request : LoginRequest} {row account : User} :
      row.isActive = true →
      AttemptStep settings platform userId time (.compared row.id) (.admitted request row) account
        (.compared request row (platform.verify request.password row.hashedPassword)) account
  | counted {request : LoginRequest} {row account : User} {newFailedCount : Int} :
      (row.id = userId → newFailedCount = account.failedLoginCount + 1) →
      AttemptStep settings platform userId time .other (.compared request row false) account
        (.counted row newFailedCount) ((AuthOp.incrementFailedLogin row.id).onUser account)
  | computed {row account : User} {newFailedCount : Int} :
      settings.maxFailedLoginAttempts ≤ newFailedCount →
      AttemptStep settings platform userId time .other (.counted row newFailedCount) account
        (.locking row (time + seconds settings.lockoutDurationSeconds)) account
  | locked {row account : User} {lockedUntil : Nat} :
      AttemptStep settings platform userId time (.locked row.id lockedUntil)
        (.locking row lockedUntil) account .over
        ((AuthOp.setLockedUntil row.id (some lockedUntil)).onUser account)
  | accepted {request : LoginRequest} {row account : User} (lastLoginAt : Nat) :
      AttemptStep settings platform userId time (.succeeded row.id) (.compared request row true)
        account (.accepted row) ((AuthOp.resetFailedLogin row.id lastLoginAt).onUser account)
  | issued {row account : User} :
      AttemptStep settings platform userId time .other (.accepted row) account (.issued row)
        account

section Steps

variable
    {settings : Settings}
    {platform : Platform}
    {initial : AuthStore}
    {before : List AuthEvent}
    {userId : UUID}
    {account : User}

/-- A neutral operation leaves the users alone. -/
theorem onUser_of_neutral {op : AuthOp} (neutral : Attempt.Neutral op) (user : User) :
    op.onUser user = user := by
  cases op <;> first | rfl | contradiction

theorem mark_of_neutral
    {pid : ProcId}
    {op : AuthOp}
    {answer : Except AuthError (AuthAnswer op)}
    {time : Nat}
    (neutral : Attempt.Neutral op) :
    mark (.called pid op answer time) = .other := by
  cases op with
  | verifyPassword password hash => cases hash <;> first | rfl | contradiction
  | _ => first | rfl | contradiction

theorem mark_of_failure (pid : ProcId) (op : AuthOp) (error : AuthError) (time : Nat) :
    mark (.called pid op (.error error) time) = .other := by
  cases op with
  | verifyPassword password hash => cases hash <;> rfl
  | setLockedUntil userId lockedUntil => cases lockedUntil <;> rfl
  | _ => rfl

/-- An operation that fails. -/
theorem step_of_failure
    (time : Nat)
    {op : AuthOp}
    {reached : Attempt}
    (allows : reached.Allows settings op)
    (error : AuthError) :
    AttemptStep settings platform userId time .other reached account
      (reached.after settings op (.error error)) account := by
  by_cases isCompared : ∃ request row isRight, reached = .compared request row isRight
  · obtain ⟨request, row, isRight, rfl⟩ := isCompared
    have isBroken : (Attempt.compared request row isRight).after settings op (.error error) =
        .broken row := by
      cases isRight <;> cases op <;> rfl
    rw [isBroken]
    exact .broke
  · have isOver : reached.after settings op (.error error) = .over := by
      cases reached with
      | compared request row isRight => exact absurd ⟨request, row, isRight, rfl⟩ isCompared
      | admitted request row =>
          cases op with
          | verifyPassword password hash => cases hash <;> rfl
          | _ => rfl
      | _ => cases op <;> rfl
    rw [isOver]
    apply AttemptStep.ended reached
    · exact fun request row isRight isReached => isCompared ⟨request, row, isRight, isReached⟩
    · rintro row rfl
      exact allows.elim

/-- An operation that returns. -/
theorem step_of_success
    {time : Nat}
    {op : AuthOp}
    {reached : Attempt}
    {value : AuthAnswer op}
    {store : AuthStore}
    (pid : ProcId)
    (allows : reached.Allows settings op)
    (returns : (callEffect platform op time store).1 = .ok value)
    (isAccount : store.user userId = some account) :
    AttemptStep settings platform userId time (mark (.called pid op (.ok value) time)) reached
      account (reached.after settings op (.ok value)) (op.onUser account) := by
  cases reached with
  | idle => exact allows.elim
  | opened request =>
      obtain rfl : op = .getByEmail request.email := allows
      cases value with
      | none => exact .ended _ (by simp) (by simp)
      | some row =>
          apply AttemptStep.read
          rintro rfl
          have isRow := callEffect_getByEmail returns
          rw [isAccount] at isRow
          exact (Option.some.inj isRow).symm
  | read request row =>
      obtain rfl : op = .now := allows
      obtain rfl : time = value := Except.ok.inj returns
      exact .checked
  | expired request row checkedAt =>
      obtain rfl : op = .resetExpiredLockout row.id checkedAt := allows
      exact .cleared
  | admitted request row =>
      rcases allows with ⟨isActive, rfl⟩ | rfl
      · obtain rfl : platform.verify request.password row.hashedPassword = value :=
          Except.ok.inj returns
        exact .compared isActive
      · exact .ended _ (by simp) (by simp)
  | compared request row isRight =>
      cases isRight with
      | false =>
          obtain rfl : op = .incrementFailedLogin row.id := allows
          apply AttemptStep.counted
          rintro rfl
          obtain ⟨user, found, isCount, _⟩ := callEffect_incrementFailedLogin returns
          rw [isAccount] at found
          rw [Option.some.inj found]
          exact isCount
      | true =>
          rcases allows with rfl | ⟨lastLoginAt, rfl⟩
          · exact .waited _
          · exact .accepted lastLoginAt
  | broken row => exact allows.elim
  | counted row newFailedCount =>
      obtain ⟨isLast, rfl⟩ := allows
      obtain rfl : time = value := Except.ok.inj returns
      exact .computed isLast
  | locking row lockedUntil =>
      obtain rfl : op = .setLockedUntil row.id (some lockedUntil) := allows
      exact .locked
  | accepted row =>
      rcases allows with rfl | ⟨token, _, rfl⟩
      · exact .waited _
      · exact .issued
  | issued row => exact allows.elim
  | «over» =>
      rw [onUser_of_neutral allows, after_over, mark_of_neutral allows]
      exact .waited _

/-- What an event does to the account and to its login. -/
theorem step_of_event
    {event : AuthEvent}
    (genuine : Genuine (callEffect platform) AuthError.database initial before event)
    (isOrderly : orderly settings initial before event)
    (isAccount : (replay (callEffect platform) initial before).user userId = some account) :
    ∃ account',
      (replay (callEffect platform) initial (before ++ [event])).user userId =
        some account' ∧
      AttemptStep settings platform userId event.time (mark event)
        (attempt settings event.pid before) account
        (attempt settings event.pid (before ++ [event])) account' := by
  rw [replay_append, attempt, attempt, progress_concat_self]
  cases genuine with
  | @opened pid call time times =>
      refine ⟨account, isAccount, ?_⟩
      have isIdle : progress (Attempt.next settings) .idle pid before = .idle := isOrderly
      simp only [Event.pid, isIdle]
      cases call with
      | login request draw => exact .opened request
      | refresh rawToken draw => exact .ended _ (by simp) (by simp)
      | logout rawToken => exact .ended _ (by simp) (by simp)
      | logoutAll userId => exact .ended _ (by simp) (by simp)
  | @ok pid op value time _ returns =>
      refine ⟨op.onUser account, ?_, step_of_success pid isOrderly returns isAccount⟩
      exact (user_callEffect returns userId).trans (congrArg (Option.map op.onUser) isAccount)
  | failed times =>
      rw [mark_of_failure]
      exact ⟨account, isAccount, step_of_failure _ isOrderly _⟩

/-- An event moves one login. -/
theorem attempts_concat (settings : Settings) (before : List AuthEvent) (event : AuthEvent) :
    (fun pid => attempt settings pid (before ++ [event])) =
      Function.update (fun pid => attempt settings pid before) event.pid
        (attempt settings event.pid (before ++ [event])) := by
  funext pid
  by_cases isOwn : pid = event.pid
  · rw [isOwn, Function.update_self]
  · rw [Function.update_of_ne isOwn]
    exact progress_concat_of_ne _ _ (Ne.symm isOwn) before

/-- A process without events has not started. -/
theorem attempt_of_absent
    {log : List AuthEvent}
    {pid : ProcId}
    (isAbsent : ∀ event ∈ log, event.pid ≠ pid) :
    attempt settings pid log = .idle := by
  have isEmpty : log.filter (fun event => event.pid = pid) = [] := by
    rw [List.filter_eq_nil_iff]
    intro event isEvent
    simp [isAbsent event isEvent]
  rw [attempt, progress, isEmpty]
  rfl

/-- The events of a run. -/
abbrev Proper (settings : Settings) (platform : Platform) :
    EventProperty AuthError AuthAnswer AuthCall AuthStore := fun initial before event =>
  Genuine (callEffect platform) AuthError.database initial before event ∧
    orderly settings initial before event

/-- The history of an event that belongs to an earlier time. -/
theorem times_le
    {event : AuthEvent}
    (proper : Proper settings platform initial before event) :
    ∀ earlier ∈ before, earlier.time ≤ event.time := by
  cases proper.1 with
  | opened times => exact times
  | ok times _ => exact times
  | failed times => exact times

/-- No event makes an account. -/
theorem account_existed
    {log : List AuthEvent}
    (satisfied : EventsSatisfy (Proper settings platform) initial log)
    (isAccount : (replay (callEffect platform) initial log).user userId = some account) :
    ∃ account', initial.user userId = some account' := by
  induction log using List.reverseRecOn generalizing account with
  | nil => exact ⟨account, isAccount⟩
  | append_singleton log event inductionHypothesis =>
      have proper := satisfied.last
      rw [replay_append] at isAccount
      cases found : (replay (callEffect platform) initial log).user userId with
      | some account' => exact inductionHypothesis satisfied.of_append found
      | none =>
          cases proper.1 with
          | opened _ => exact absurd (found.symm.trans isAccount) (by simp)
          | failed _ => exact absurd (found.symm.trans isAccount) (by simp)
          | ok _ returns =>
              have isNone := user_callEffect returns userId
              rw [found] at isNone
              exact absurd (isNone.symm.trans isAccount) (by simp)

theorem check_ne_issued (request : LoginRequest) (row issuedRow : User) (time : Nat) :
    Attempt.check request row time ≠ .issued issuedRow := by
  unfold Attempt.check
  split
  · exact Attempt.noConfusion
  · split_ifs <;> exact Attempt.noConfusion

/-- Tokens are issued by storing a refresh token. -/
theorem create_of_issued
    {op : AuthOp}
    {answer : Except AuthError (AuthAnswer op)}
    {reached : Attempt}
    {row : User}
    (allows : reached.Allows settings op)
    (isIssued : reached.after settings op answer = .issued row) :
    reached = .accepted row ∧ ∃ token stored, token.userId = row.id ∧
      ∀ pid time, (Event.called pid op answer time : AuthEvent) =
        .called pid (.create token) (.ok stored) time := by
  cases reached with
  | accepted accepted =>
      rcases allows with rfl | ⟨token, isOwner, rfl⟩
      · cases answer <;> contradiction
      · cases answer with
        | ok stored =>
            obtain rfl := Attempt.issued.inj isIssued
            exact ⟨rfl, token, stored, isOwner, fun _ _ => rfl⟩
        | error error => contradiction
  | opened request =>
      obtain rfl : op = .getByEmail request.email := allows
      rcases answer with error | found
      · contradiction
      · cases found <;> contradiction
  | read request row =>
      obtain rfl : op = .now := allows
      cases answer with
      | ok time => exact absurd isIssued (check_ne_issued _ _ _ _)
      | error error => contradiction
  | expired request row checkedAt =>
      obtain rfl : op = .resetExpiredLockout row.id checkedAt := allows
      cases answer <;> contradiction
  | admitted request row =>
      rcases allows with ⟨_, rfl⟩ | rfl
      · cases answer <;> contradiction
      · cases answer <;> contradiction
  | compared request row isRight =>
      cases isRight with
      | false =>
          obtain rfl : op = .incrementFailedLogin row.id := allows
          cases answer <;> contradiction
      | true =>
          rcases allows with rfl | ⟨time, rfl⟩
          · cases answer <;> contradiction
          · cases answer <;> contradiction
  | counted row newFailedCount =>
      obtain ⟨_, rfl⟩ := allows
      cases answer <;> contradiction
  | locking row lockedUntil =>
      obtain rfl : op = .setLockedUntil row.id (some lockedUntil) := allows
      cases answer <;> contradiction
  | «over» =>
      rw [after_over] at isIssued
      contradiction
  | idle => exact allows.elim
  | broken row => exact allows.elim
  | issued row => exact allows.elim

/-- A login that has issued tokens has stored its refresh token last. -/
theorem issued_last
    {log : List AuthEvent}
    {pid : ProcId}
    {row : User}
    (satisfied : EventsSatisfy (Proper settings platform) initial log)
    (isIssued : attempt settings pid log = .issued row) :
    ∃ before token stored time after,
      log = before ++ .called pid (.create token) (.ok stored) time :: after ∧
      token.userId = row.id ∧ attempt settings pid before = .accepted row ∧
      ∀ event ∈ after, event.pid ≠ pid := by
  induction log using List.reverseRecOn with
  | nil => exact Attempt.noConfusion isIssued
  | append_singleton log event inductionHypothesis =>
      by_cases isOwn : event.pid = pid
      · subst isOwn
        have isOrderly := satisfied.last.2
        rw [attempt, progress_concat_self] at isIssued
        cases event with
        | opened pid call time =>
            cases call <;> contradiction
        | called pid op answer time =>
            obtain ⟨isAccepted, token, stored, isOwner, isEvent⟩ :=
              create_of_issued isOrderly isIssued
            exact ⟨log, token, stored, time, [], congrArg (log ++ [·]) (isEvent pid time), isOwner,
              isAccepted, by simp⟩
      · rw [attempt, progress_concat_of_ne _ _ isOwn] at isIssued
        obtain ⟨before, token, stored, time, after, rfl, isOwner, isAccepted, others⟩ :=
          inductionHypothesis satisfied.of_append isIssued
        refine ⟨before, token, stored, time, after ++ [event], by simp, isOwner, isAccepted, ?_⟩
        intro later isLater
        rcases List.mem_append.mp isLater with isOld | isNew
        · exact others later isOld
        · rw [List.mem_singleton.mp isNew]
          exact isOwn

end Steps

end Auth
end SigmaForge
