import SigmaForge.Auth.Calls
import SigmaForge.Foundation.Atomic

/-!
# How far a login has come

The service at the granularity of the calls of its repositories.  Each call and
each comparison of a password is one step.  A login moves through the phases of
an attempt, and every operation on a user belongs to one of them.
-/

namespace SigmaForge
namespace Auth

open Text Atomic

/-- An event of the history. -/
abbrev AuthEvent := Event AuthError AuthAnswer AuthCall

/-- The history of the tables. -/
abbrev AuthHistory := Recorded AuthError AuthAnswer AuthCall AuthStore

/-- Any number of requests, one repository call at a time. -/
abbrev authMachine (platform : Platform) :=
  machine (callEffect platform) AuthError.database AuthCall

/-- The phases of a login. -/
inductive Attempt
  | idle
  | opened (request : LoginRequest)
  /-- The row has been read. -/
  | read (request : LoginRequest) (row : User)
  /-- The row shows a lockout that has expired, which is to be reset. -/
  | expired (request : LoginRequest) (row : User) (checkedAt : Nat)
  /-- The account is not locked. -/
  | admitted (request : LoginRequest) (row : User)
  /-- The password has been compared with the hash of the account. -/
  | compared (request : LoginRequest) (row : User) (isRight : Bool)
  /-- It has, but what is done about it has failed. -/
  | broken (row : User)
  /-- A wrong password has been counted. -/
  | counted (row : User) (newFailedCount : Int)
  /-- The end of a lockout has been computed. -/
  | locking (row : User) (lockedUntil : Nat)
  /-- A right password has reset the counter. -/
  | accepted (row : User)
  /-- The refresh token is stored. -/
  | issued (row : User)
  /-- Nothing is left to do. -/
  | over

namespace Attempt

/-- The lockout check. -/
def check (request : LoginRequest) (row : User) (checkedAt : Nat) : Attempt :=
  match row.lockedUntil with
  | none => .admitted request row
  | some lockedUntil =>
      if checkedAt < lockedUntil then .over else .expired request row checkedAt

variable (settings : Settings)

/-- The phase after an operation. -/
def after : Attempt → (op : AuthOp) → Except AuthError (AuthAnswer op) → Attempt
  | .opened request, .getByEmail _, .ok (some row) => .read request row
  | .read request row, .now, .ok time => check request row time
  | .expired request row _, .resetExpiredLockout _ _, .ok _ => .admitted request row
  | .admitted request row, .verifyPassword _ (.ofUser _), .ok isRight =>
      .compared request row isRight
  | .compared _ row false, .incrementFailedLogin _, .ok newFailedCount =>
      .counted row newFailedCount
  | .counted row _, .now, .ok time =>
      .locking row (time + seconds settings.lockoutDurationSeconds)
  | .compared request row true, .now, .ok _ => .compared request row true
  | .compared _ row true, .resetFailedLogin _ _, .ok _ => .accepted row
  | .accepted row, .now, .ok _ => .accepted row
  | .accepted row, .create _, .ok _ => .issued row
  | .compared _ row _, _, .error _ => .broken row
  | _, _, _ => .over

/-- The phase after an event. -/
def next (attempt : Attempt) : AuthEvent → Attempt
  | .opened _ (.login request _) _ => .opened request
  | .opened _ _ _ => .over
  | .called _ op answer _ => attempt.after settings op answer

/-- The operations of calls that log nobody in, and of refusals. -/
def Neutral : AuthOp → Prop
  | .getById _ => True
  | .getByHash _ => True
  | .rotateIfActive _ _ _ => True
  | .revoke _ => True
  | .revokeAllForUser _ => True
  | .now => True
  | .verifyPassword _ .dummy => True
  | _ => False

/-- The operations that belong to a phase. -/
def Allows : Attempt → AuthOp → Prop
  | .opened request, op => op = .getByEmail request.email
  | .read _ _, op => op = .now
  | .expired _ row checkedAt, op => op = .resetExpiredLockout row.id checkedAt
  | .admitted request row, op =>
      (row.isActive = true ∧ op = .verifyPassword request.password (.ofUser row)) ∨
        op = .verifyPassword request.password .dummy
  | .compared _ row false, op => op = .incrementFailedLogin row.id
  | .compared _ row true, op => op = .now ∨ ∃ time, op = .resetFailedLogin row.id time
  | .counted _ newFailedCount, op =>
      settings.maxFailedLoginAttempts ≤ newFailedCount ∧ op = .now
  | .locking row lockedUntil, op => op = .setLockedUntil row.id (some lockedUntil)
  | .accepted row, op => op = .now ∨ ∃ token, token.userId = row.id ∧ op = .create token
  | .over, op => Neutral op
  | _, _ => False

end Attempt

section Outlines

variable
    {settings : Settings}
    {platform : Platform}
    {pid : ProcId}

/-- The phase of a process. -/
abbrev attempt (settings : Settings) (pid : ProcId) (log : List AuthEvent) : Attempt :=
  progress (Attempt.next settings) .idle pid log

/-- A process starts once, and its operations belong to its phase. -/
def orderly (settings : Settings) : EventProperty AuthError AuthAnswer AuthCall AuthStore :=
  fun _ before event =>
    match event with
    | .opened pid _ _ => attempt settings pid before = .idle
    | .called pid op _ _ => (attempt settings pid before).Allows settings op

/-- Orderly processes. -/
abbrev orderlyOnly (settings : Settings) (platform : Platform) : Discipline AuthHistory :=
  discipline (callEffect platform) AuthError.database (orderly settings)

/-- The process is in the phase. -/
abbrev At (settings : Settings) (pid : ProcId) (reached : Attempt) (state : AuthHistory) : Prop :=
  attempt settings pid state.log = reached

theorem allowed_of_allows
    {op : AuthOp}
    {reached : Attempt}
    (allows : reached.Allows settings op)
    (initial : AuthStore)
    (before : List AuthEvent)
    (answer : Except AuthError (AuthAnswer op))
    (time : Nat)
    (isReached : attempt settings pid before = reached) :
    orderly settings initial before (.called pid op answer time) := by
  subst isReached
  exact allows

/-- The outline of an operation. -/
theorem outline_op
    {op : AuthOp}
    {reached : Attempt}
    (allows : reached.Allows settings op) :
    Outline (authMachine platform) (orderlyOnly settings platform) pid (perform op)
      (At settings pid reached)
      (byOutcome (fun value => At settings pid (reached.after settings op (.ok value)))
        fun error => At settings pid (reached.after settings op (.error error))) := by
  apply (outline_perform (allowed_of_allows allows)).consequence
  intro result state _ holds
  cases result with
  | ok value =>
      obtain ⟨_, isReached⟩ := holds
      exact isReached
  | error error =>
      obtain ⟨_, isReached⟩ := holds
      exact isReached

/-- The outline of a refusal. -/
theorem outline_refuse
    {α : Type}
    {reached : Attempt}
    {password : Str}
    (allows : reached.Allows settings (.verifyPassword password .dummy))
    (error : AuthError)
    (returned : α → AuthHistory → Prop) :
    Outline (authMachine platform) (orderlyOnly settings platform) pid
      (refuse password error : Service α) (At settings pid reached)
      (byOutcome returned fun _ _ => True) := by
  apply Outline.bind (outline_op allows)
  · exact fun _ _ _ _ => trivial
  · exact fun _ _ _ _ => trivial

/-- The outline of the lockout check. -/
theorem outline_checkLockout (request : LoginRequest) (row : User) (checkedAt : Nat) :
    Outline (authMachine platform) (orderlyOnly settings platform) pid
      (checkLockout row checkedAt request.password)
      (At settings pid (.check request row checkedAt))
      (byOutcome (fun _ => At settings pid (.admitted request row)) fun _ _ => True) := by
  unfold checkLockout Attempt.check
  cases row.lockedUntil with
  | none => exact fun _ _ holds => holds
  | some lockedUntil =>
      dsimp only
      split_ifs with isLocked
      · have allows : Attempt.over.Allows settings
            (.verifyPassword request.password .dummy) := trivial
        exact outline_refuse allows _ _
      · have allows : (Attempt.expired request row checkedAt).Allows settings
            (.resetExpiredLockout row.id checkedAt) := rfl
        apply (outline_op allows).consequence
        intro result state _ holds
        cases result with
        | ok value => exact holds
        | error error => trivial

/-- The outline of a wrong password. -/
theorem outline_countFailure (request : LoginRequest) (row : User) :
    Outline (authMachine platform) (orderlyOnly settings platform) pid
      (countFailure settings row) (At settings pid (.compared request row false))
      (byOutcome (fun _ _ => True) fun _ _ => True) := by
  have increments : (Attempt.compared request row false).Allows settings
      (.incrementFailedLogin row.id) := rfl
  apply Outline.bind (outline_op increments)
  · intro newFailedCount
    split_ifs with isLast
    · have reads : (Attempt.counted row newFailedCount).Allows settings .now := ⟨isLast, rfl⟩
      apply Outline.bind (outline_op reads)
      · intro time
        have locks : (Attempt.locking row
            (time + seconds settings.lockoutDurationSeconds)).Allows settings
            (.setLockedUntil row.id (some (time + seconds settings.lockoutDurationSeconds))) :=
          rfl
        apply (outline_op locks).consequence
        intro result state _ _
        cases result <;> trivial
      · exact fun _ _ _ _ => trivial
    · exact fun _ _ _ => trivial
  · exact fun _ _ _ _ => trivial

/-- The outline of `_issue_token_pair`. -/
theorem outline_issueTokenPair (row : User) (draw : Draw) :
    Outline (authMachine platform) (orderlyOnly settings platform) pid
      (issueTokenPair settings platform row draw) (At settings pid (.accepted row))
      (byOutcome (fun _ => At settings pid (.issued row)) fun _ _ => True) := by
  have reads : (Attempt.accepted row).Allows settings .now := .inl rfl
  have stores : ∀ token : NewToken, token.userId = row.id →
      (Attempt.accepted row).Allows settings (.create token) := fun token isOwner =>
    .inr ⟨token, isOwner, rfl⟩
  unfold issueTokenPair createAccessToken
  simp only [Program.bind_eq, Program.bind_assoc, Program.pure_eq, Program.ret_bind]
  apply Outline.bind (outline_op reads)
  · intro now
    apply Outline.bind (outline_op reads)
    · intro issuedAt
      apply Outline.bind (outline_op (stores _ rfl))
      · exact fun stored state _ holds => holds
      · exact fun _ _ _ _ => trivial
    · exact fun _ _ _ _ => trivial
  · exact fun _ _ _ _ => trivial

/-- The outline of an account that is not locked. -/
theorem outline_judgePassword (request : LoginRequest) (row : User) (draw : Draw) :
    Outline (authMachine platform) (orderlyOnly settings platform) pid
      (judgePassword settings platform row request.password draw)
      (At settings pid (.admitted request row))
      (byOutcome (fun _ => At settings pid (.issued row)) fun _ _ => True) := by
  unfold judgePassword
  split_ifs with isActive
  · have compares : (Attempt.admitted request row).Allows settings
        (.verifyPassword request.password (.ofUser row)) := .inl ⟨isActive, rfl⟩
    apply Outline.bind (outline_op compares)
    · intro isRight
      cases isRight with
      | true =>
          have reads : (Attempt.compared request row true).Allows settings .now := .inl rfl
          have resets : ∀ time, (Attempt.compared request row true).Allows settings
              (.resetFailedLogin row.id time) := fun time => .inr ⟨time, rfl⟩
          apply Outline.bind (outline_op reads)
          · intro lastLoginAt
            apply Outline.bind (outline_op (resets lastLoginAt))
            · exact fun _ => outline_issueTokenPair row draw
            · exact fun _ _ _ _ => trivial
          · exact fun _ _ _ _ => trivial
      | false =>
          apply Outline.bind (outline_countFailure request row)
          · exact fun _ _ _ _ => trivial
          · exact fun _ _ _ _ => trivial
    · exact fun _ _ _ _ => trivial
  · have allows : (Attempt.admitted request row).Allows settings
        (.verifyPassword request.password .dummy) := .inr rfl
    exact outline_refuse allows _ _

/-- How far a call has come that has returned. -/
def Returned (call : AuthCall) (result : Except AuthError AuthResponse) (reached : Attempt) :
    Prop :=
  match call, result with
  | .login _ _, .ok _ => ∃ row, reached = .issued row
  | _, _ => True

/-- The outline of `login`. -/
theorem outline_login (request : LoginRequest) (draw : Draw) :
    Outline (authMachine platform) (orderlyOnly settings platform) pid
      ((AuthCall.login request draw).program settings platform)
      (At settings pid (.opened request))
      fun result state => Returned (.login request draw) result
        (attempt settings pid state.log) := by
  unfold AuthCall.program login
  simp only [Program.bind_eq, Program.bind_assoc, Program.pure_eq]
  have finds : (Attempt.opened request).Allows settings (.getByEmail request.email) := rfl
  apply Outline.bind (outline_op finds)
  · intro found
    cases found with
    | none =>
        have allows : Attempt.over.Allows settings
            (.verifyPassword request.password .dummy) := trivial
        apply Outline.bind (outline_refuse allows _ fun _ _ => False)
        · exact fun _ _ _ unreachable => unreachable.elim
        · exact fun _ _ _ _ => trivial
    | some row =>
        have reads : (Attempt.read request row).Allows settings .now := rfl
        simp only [Program.bind_assoc]
        apply Outline.bind (outline_op reads)
        · intro checkedAt
          apply Outline.bind (outline_checkLockout request row checkedAt)
          · intro _
            apply Outline.bind (outline_judgePassword request row draw)
            · exact fun pair state _ holds => ⟨row, holds⟩
            · exact fun _ _ _ _ => trivial
          · exact fun _ _ _ _ => trivial
        · exact fun _ _ _ _ => trivial
  · exact fun _ _ _ _ => trivial

theorem after_over
    (settings : Settings)
    (op : AuthOp)
    (answer : Except AuthError (AuthAnswer op)) :
    Attempt.over.after settings op answer = .over := by
  cases op <;> rfl

/-- The outline of the other calls. -/
theorem outline_unphased
    {program : Service AuthResponse}
    (only : program.Only (Attempt.over.Allows settings)) :
    Outline (authMachine platform) (orderlyOnly settings platform) pid program
      (At settings pid .over) fun _ => At settings pid .over := by
  apply Outline.of_only only (stable_progress (· = Attempt.over))
  intro op answer state state' allows invariant holds performed
  obtain ⟨invariant', guarantee, time, isReached⟩ :=
    perform_progress (allowed_of_allows allows) invariant holds performed
  exact ⟨invariant', guarantee, isReached.trans (after_over settings op answer)⟩

theorem only_now : (perform .now).Only (Attempt.over.Allows settings) :=
  Program.Only.perform trivial

theorem only_rejectReuse {α : Type} (userId : UUID) :
    (rejectReuse userId : Service α).Only (Attempt.over.Allows settings) :=
  Program.Only.bind (Program.Only.perform trivial) fun _ => trivial

theorem only_createAccessToken (user : User) (jti : UUID) :
    (createAccessToken settings platform user jti).Only (Attempt.over.Allows settings) :=
  only_now.bind fun _ => trivial

theorem only_rotate (existing : RefreshToken) (draw : Draw) :
    (rotate settings platform existing draw).Only (Attempt.over.Allows settings) := by
  apply only_now.bind fun now => (Program.Only.ensure _ _).bind fun _ => ?_
  apply Program.Only.bind (Program.Only.perform trivial)
  intro found
  apply (Program.Only.ofOption _ _).bind fun user => only_now.bind fun issuedAt => ?_
  apply Program.Only.bind (Program.Only.perform trivial)
  intro rotated
  split_ifs
  · exact (only_createAccessToken user draw.jti).bind fun _ => trivial
  · exact only_rejectReuse existing.userId

theorem only_refresh (rawToken : Str) (draw : Draw) :
    (refresh settings platform rawToken draw).Only (Attempt.over.Allows settings) := by
  apply Program.Only.bind (Program.Only.perform trivial)
  intro found
  apply (Program.Only.ofOption _ _).bind
  intro existing
  split_ifs
  · exact only_rotate existing draw
  · exact only_rejectReuse existing.userId

theorem only_logout (rawToken : Str) :
    (logout platform rawToken).Only (Attempt.over.Allows settings) := by
  apply Program.Only.bind (Program.Only.perform trivial)
  intro found
  split
  · trivial
  · exact Program.Only.perform trivial

/-- The history of every run is orderly. -/
theorem orderly_history
    {initial : AuthStore}
    {clock : Nat}
    {config : Config AuthError AuthAnswer AuthCall AuthHistory AuthResponse}
    (reachable : Reachable (authMachine platform) (AuthCall.program settings platform)
      (Recorded.start initial clock) config) :
    (orderlyOnly settings platform).invariant config.shared ∧
      ∀ pid call result, config.process pid = some (call, .finished result) →
        Returned call result (attempt settings pid config.shared.log) := by
  have others : ∀ {pid : ProcId} {call : AuthCall},
      (call.program settings platform).Only (Attempt.over.Allows settings) →
      (∀ result reached, Returned call result reached) →
      Outline (authMachine platform) (orderlyOnly settings platform) pid
        (call.program settings platform) (At settings pid .over)
        fun result state => Returned call result (attempt settings pid state.log) := by
    intro pid call only returned
    exact (outline_unphased only).consequence fun result _ _ _ => returned result _
  apply sound_of_outlines
  · exact fun _ before pid call time isIdle => isIdle
  · intro pid call time
    cases call with
    | login request draw => exact outline_login request draw
    | refresh rawToken draw =>
        exact others ((only_refresh rawToken draw).bind fun _ => trivial) fun _ _ => trivial
    | logout rawToken =>
        exact others ((only_logout rawToken).bind fun _ => trivial) fun _ _ => trivial
    | logoutAll userId =>
        have only : (logoutAll userId).Only (Attempt.over.Allows settings) :=
          Program.Only.perform trivial
        exact others (only.bind fun _ => trivial) fun _ _ => trivial
  · exact reachable

end Outlines

/-- A schedule of logins to the account. -/
def runSample (attempts : Nat) (actions : List (Action AuthCall)) :
    Config AuthError AuthAnswer AuthCall AuthHistory AuthResponse :=
  schedule (callEffect .plain) AuthError.database
    (AuthCall.program (Settings.sample attempts) .plain)
    (.initial (Recorded.start AuthStore.sample 0)) actions

theorem reachable_runSample (attempts : Nat) (actions : List (Action AuthCall)) :
    Reachable (authMachine .plain) (AuthCall.program (Settings.sample attempts) .plain)
      (Recorded.start AuthStore.sample 0) (runSample attempts actions) :=
  steps_of_schedule _ _ _ _ _

end Auth
end SigmaForge
