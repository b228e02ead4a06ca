import SigmaForge.Auth.Account
import Mathlib.Algebra.BigOperators.Group.Finset.Basic
import Mathlib.Tactic.Linarith

/-!
# The number of guesses

How many passwords are compared with the hash of an account while no login
succeeds.  Each login that has passed the lockout check and is not counted yet
takes one of the attempts.
-/

namespace SigmaForge
namespace Auth

open Text Atomic

namespace Attempt

/-- The login has passed the lockout check of the account, and is not counted. -/
def IsOpen (userId : UUID) : Attempt → Prop
  | .expired _ row _ => row.id = userId
  | .admitted _ row => row.id = userId
  | .compared _ row _ => row.id = userId
  | .broken row => row.id = userId
  | _ => False

/-- The password has been compared, and the login is not counted. -/
def IsCompared (userId : UUID) : Attempt → Prop
  | .compared _ row _ => row.id = userId
  | .broken row => row.id = userId
  | _ => False

/-- The login is about to lock the account. -/
def IsLocking (settings : Settings) (userId : UUID) : Attempt → Prop
  | .counted row newFailedCount =>
      row.id = userId ∧ settings.maxFailedLoginAttempts ≤ newFailedCount
  | .locking row _ => row.id = userId
  | _ => False

instance (userId : UUID) : DecidablePred (IsOpen userId)
  | .expired _ row _ => inferInstanceAs (Decidable (row.id = userId))
  | .admitted _ row => inferInstanceAs (Decidable (row.id = userId))
  | .compared _ row _ => inferInstanceAs (Decidable (row.id = userId))
  | .broken row => inferInstanceAs (Decidable (row.id = userId))
  | .idle | .opened _ | .read _ _ | .counted _ _ | .locking _ _ | .accepted _ | .issued _
  | .over => inferInstanceAs (Decidable False)

instance (userId : UUID) : DecidablePred (IsCompared userId)
  | .compared _ row _ => inferInstanceAs (Decidable (row.id = userId))
  | .broken row => inferInstanceAs (Decidable (row.id = userId))
  | .idle | .opened _ | .read _ _ | .expired _ _ _ | .admitted _ _ | .counted _ _
  | .locking _ _ | .accepted _ | .issued _ | .over => inferInstanceAs (Decidable False)

theorem IsCompared.isOpen
    {userId : UUID}
    {attempt : Attempt}
    (isCompared : attempt.IsCompared userId) :
    attempt.IsOpen userId := by
  cases attempt <;> first | exact isCompared | contradiction

end Attempt

/-! ## Counting logins -/

section Tally

variable
    {property : Attempt → Prop}
    [DecidablePred property]
    {attempts : ProcId → Attempt}
    {members : Finset ProcId}

/-- The number of logins with the property. -/
def tally (property : Attempt → Prop) [DecidablePred property] (attempts : ProcId → Attempt)
    (members : Finset ProcId) : Nat :=
  (members.filter fun pid => property (attempts pid)).card

/-- A login that moves on leaves one number for another. -/
theorem tally_update
    (property : Attempt → Prop)
    [DecidablePred property]
    (notIdle : ¬property .idle)
    (idle : ∀ pid ∉ members, attempts pid = .idle)
    (pid : ProcId)
    (reached : Attempt) :
    tally property (Function.update attempts pid reached) (insert pid members) +
        (if property (attempts pid) then 1 else 0) =
      tally property attempts members + (if property reached then 1 else 0) := by
  have isInserted : tally property attempts members =
      tally property attempts (insert pid members) := by
    by_cases isMember : pid ∈ members
    · rw [Finset.insert_eq_of_mem isMember]
    · unfold tally
      rw [Finset.filter_insert, if_neg]
      rw [idle pid isMember]
      exact notIdle
  rw [isInserted]
  simp only [tally, Finset.card_filter]
  rw [← Finset.add_sum_erase _ _ (Finset.mem_insert_self pid members),
    ← Finset.add_sum_erase _ (fun other => if property (attempts other) then 1 else 0)
      (Finset.mem_insert_self pid members), Function.update_self]
  have sameOthers : ∑ other ∈ (insert pid members).erase pid,
        (if property (Function.update attempts pid reached other) then 1 else 0) =
      ∑ other ∈ (insert pid members).erase pid, if property (attempts other) then 1 else 0 := by
    apply Finset.sum_congr rfl
    intro other isOther
    rw [Function.update_of_ne (Finset.ne_of_mem_erase isOther)]
  rw [sameOthers]
  omega

theorem tally_pos
    (notIdle : ¬property .idle)
    (idle : ∀ pid ∉ members, attempts pid = .idle)
    {pid : ProcId}
    (holds : property (attempts pid)) :
    0 < tally property attempts members := by
  apply Finset.card_pos.mpr
  refine ⟨pid, Finset.mem_filter.mpr ⟨?_, holds⟩⟩
  by_contra isAbsent
  rw [idle pid isAbsent] at holds
  exact notIdle holds

theorem tally_le
    {property' : Attempt → Prop}
    [DecidablePred property']
    (implies : ∀ attempt, property attempt → property' attempt) :
    tally property attempts members ≤ tally property' attempts members :=
  Finset.card_le_card (Finset.monotone_filter_right _ fun _ _ holds => implies _ holds)

end Tally

/-! ## The invariant -/

section Invariant

variable
    {settings : Settings}
    {platform : Platform}
    {userId : UUID}
    {attempts : ProcId → Attempt}
    {members : Finset ProcId}
    {account account' : User}
    {time later : Nat}

/-- The attempts that the account has counted; an expired lockout counts none. -/
def usedAttempts (account : User) (time : Nat) : Int :=
  if account.lockedUntil.any (· ≤ time) then 0 else account.failedLoginCount

/-- The attempts that are counted and the ones under way are within the limit. -/
structure Bounded (settings : Settings) (userId : UUID) (attempts : ProcId → Attempt)
    (members : Finset ProcId) (account : User) (time : Nat) : Prop where
  isAccount : account.id = userId
  nonneg : 0 ≤ account.failedLoginCount
  full : account.lockedUntil ≠ none →
    settings.maxFailedLoginAttempts ≤ account.failedLoginCount
  bound : usedAttempts account time + tally (Attempt.IsOpen userId) attempts members ≤
    settings.maxFailedLoginAttempts
  idle : ∀ pid ∉ members, attempts pid = .idle
  /-- While a lockout is stored, open logins wait for it to be reset. -/
  waiting : ∀ pid lockedUntil, account.lockedUntil = some lockedUntil →
    (attempts pid).IsOpen userId →
    ∃ request row checkedAt, attempts pid = .expired request row checkedAt ∧
      lockedUntil ≤ checkedAt
  locking : ∀ pid, (attempts pid).IsLocking settings userId →
    account.lockedUntil = none ∧ settings.maxFailedLoginAttempts ≤ account.failedLoginCount
  single : ∀ pid pid', (attempts pid).IsLocking settings userId →
    (attempts pid').IsLocking settings userId → pid = pid'

theorem usedAttempts_of_unlocked (isUnlocked : account.lockedUntil = none) (time : Nat) :
    usedAttempts account time = account.failedLoginCount := by
  simp [usedAttempts, isUnlocked]

theorem usedAttempts_of_locked
    {lockedUntil : Nat}
    (isLocked : account.lockedUntil = some lockedUntil)
    (time : Nat) :
    usedAttempts account time = if lockedUntil ≤ time then 0 else account.failedLoginCount := by
  simp [usedAttempts, isLocked]

theorem usedAttempts_nonneg (nonneg : 0 ≤ account.failedLoginCount) (time : Nat) :
    0 ≤ usedAttempts account time := by
  unfold usedAttempts
  split_ifs
  · exact le_rfl
  · exact nonneg

theorem usedAttempts_mono (nonneg : 0 ≤ account.failedLoginCount) (isLater : time ≤ later) :
    usedAttempts account later ≤ usedAttempts account time := by
  cases isLocked : account.lockedUntil with
  | none => rw [usedAttempts_of_unlocked isLocked, usedAttempts_of_unlocked isLocked]
  | some lockedUntil =>
      rw [usedAttempts_of_locked isLocked, usedAttempts_of_locked isLocked]
      split_ifs <;> omega

theorem Bounded.mono
    (bounded : Bounded settings userId attempts members account time)
    (isLater : time ≤ later) :
    Bounded settings userId attempts members account later where
  isAccount := bounded.isAccount
  nonneg := bounded.nonneg
  full := bounded.full
  bound := by
    have fewer := usedAttempts_mono bounded.nonneg isLater
    have bound := bounded.bound
    omega
  idle := bounded.idle
  waiting := bounded.waiting
  locking := bounded.locking
  single := bounded.single

/-- Without a free attempt, no login is open. -/
theorem Bounded.noneOpen
    (bounded : Bounded settings userId attempts members account time)
    (isFull : settings.maxFailedLoginAttempts ≤ usedAttempts account time)
    (pid : ProcId) :
    ¬(attempts pid).IsOpen userId := by
  intro isOpen
  have bound := bounded.bound
  have positive : 0 < tally (Attempt.IsOpen userId) attempts members :=
    tally_pos (fun holds => holds) bounded.idle isOpen
  omega

theorem Bounded.noneOpen_of_locking
    (bounded : Bounded settings userId attempts members account time)
    {pid : ProcId}
    (isLocking : (attempts pid).IsLocking settings userId)
    (other : ProcId) :
    ¬(attempts other).IsOpen userId := by
  obtain ⟨isUnlocked, isFull⟩ := bounded.locking pid isLocking
  apply bounded.noneOpen
  rw [usedAttempts_of_unlocked isUnlocked]
  exact isFull

theorem Bounded.noneOpen_of_active
    (bounded : Bounded settings userId attempts members account time)
    {lockedUntil : Nat}
    (isLocked : account.lockedUntil = some lockedUntil)
    (isActive : time < lockedUntil)
    (pid : ProcId) :
    ¬(attempts pid).IsOpen userId := by
  apply bounded.noneOpen
  rw [usedAttempts_of_locked isLocked, if_neg (Nat.not_le_of_lt isActive)]
  exact bounded.full (by simp [isLocked])

/-- A login that is not waiting for a lockout to be reset is open on an unlocked
account only. -/
theorem Bounded.unlocked
    (bounded : Bounded settings userId attempts members account time)
    {pid : ProcId}
    (isOpen : (attempts pid).IsOpen userId)
    (notExpired : ∀ request row checkedAt, attempts pid ≠ .expired request row checkedAt) :
    account.lockedUntil = none := by
  cases isLocked : account.lockedUntil with
  | none => rfl
  | some lockedUntil =>
      obtain ⟨request, row, checkedAt, isExpired, _⟩ :=
        bounded.waiting pid lockedUntil isLocked isOpen
      exact absurd isExpired (notExpired request row checkedAt)

theorem idle_update
    {pid : ProcId}
    (idle : ∀ pid ∉ members, attempts pid = .idle)
    (reached : Attempt) :
    ∀ other ∉ insert pid members, Function.update attempts pid reached other = .idle := by
  intro other isAbsent
  rw [Finset.mem_insert, not_or] at isAbsent
  rw [Function.update_of_ne isAbsent.1]
  exact idle other isAbsent.2

/-- A login moves on and leaves the account as it is. -/
theorem Bounded.move
    (bounded : Bounded settings userId attempts members account time)
    {pid : ProcId}
    {reached : Attempt}
    (opens : reached.IsOpen userId → ¬(attempts pid).IsOpen userId →
      usedAttempts account time + tally (Attempt.IsOpen userId) attempts members <
        settings.maxFailedLoginAttempts)
    (waits : ∀ lockedUntil, account.lockedUntil = some lockedUntil → reached.IsOpen userId →
      ∃ request row checkedAt, reached = .expired request row checkedAt ∧
        lockedUntil ≤ checkedAt)
    (locks : reached.IsLocking settings userId → (attempts pid).IsLocking settings userId) :
    Bounded settings userId (Function.update attempts pid reached) (insert pid members) account
      time where
  isAccount := bounded.isAccount
  nonneg := bounded.nonneg
  full := bounded.full
  bound := by
    have moved := tally_update (Attempt.IsOpen userId) (fun holds => holds) bounded.idle pid
      reached
    have bound := bounded.bound
    split_ifs at moved with wasOpen isOpen isOpen
    · omega
    · omega
    · have room := opens isOpen wasOpen
      omega
    · omega
  idle := idle_update bounded.idle reached
  waiting other lockedUntil isLocked isOpen := by
    by_cases isOwn : other = pid
    · subst isOwn
      rw [Function.update_self] at isOpen ⊢
      exact waits lockedUntil isLocked isOpen
    · rw [Function.update_of_ne isOwn] at isOpen ⊢
      exact bounded.waiting other lockedUntil isLocked isOpen
  locking other isLocking := by
    by_cases isOwn : other = pid
    · subst isOwn
      rw [Function.update_self] at isLocking
      exact bounded.locking other (locks isLocking)
    · rw [Function.update_of_ne isOwn] at isLocking
      exact bounded.locking other isLocking
  single other other' isLocking isLocking' := by
    have before : ∀ third, (Function.update attempts pid reached third).IsLocking settings userId →
        (attempts third).IsLocking settings userId := by
      intro third isThird
      by_cases isOwn : third = pid
      · subst isOwn
        rw [Function.update_self] at isThird
        exact locks isThird
      · rwa [Function.update_of_ne isOwn] at isThird
    exact bounded.single other other' (before other isLocking) (before other' isLocking')

/-- A login that is over, or has not got to the check. -/
theorem Bounded.quiet
    (bounded : Bounded settings userId attempts members account time)
    {pid : ProcId}
    {reached : Attempt}
    (notOpen : ¬reached.IsOpen userId)
    (notLocking : ¬reached.IsLocking settings userId) :
    Bounded settings userId (Function.update attempts pid reached) (insert pid members) account
      time :=
  bounded.move (fun isOpen => absurd isOpen notOpen) (fun _ _ isOpen => absurd isOpen notOpen)
    fun isLocking => absurd isLocking notLocking

/-- A login that stays open, and has reset the lockout that it has seen. -/
theorem Bounded.advance
    (bounded : Bounded settings userId attempts members account time)
    {pid : ProcId}
    {reached : Attempt}
    (wasOpen : reached.IsOpen userId → (attempts pid).IsOpen userId)
    (notExpired : ∀ request row checkedAt, attempts pid ≠ .expired request row checkedAt)
    (notLocking : ¬reached.IsLocking settings userId) :
    Bounded settings userId (Function.update attempts pid reached) (insert pid members) account
      time := by
  apply bounded.move
  · exact fun isOpen notOpen => absurd (wasOpen isOpen) notOpen
  · intro lockedUntil isLocked isOpen
    rw [bounded.unlocked (wasOpen isOpen) notExpired] at isLocked
    contradiction
  · exact fun isLocking => absurd isLocking notLocking

/-- The attempts that count for a login with the given row: it resets a lockout
only if its row shows one. -/
def countedFor (row account : User) (time : Nat) : Int :=
  if row.lockedUntil = none then account.failedLoginCount else usedAttempts account time

/-- A call on another user leaves the account as it is. -/
theorem onUser_of_other
    (op : AuthOp)
    {other : UUID}
    (isOther : account.id ≠ other)
    (isCall : op = .incrementFailedLogin other ∨ (∃ time, op = .resetFailedLogin other time) ∨
      (∃ lockedUntil, op = .setLockedUntil other lockedUntil) ∨
      ∃ time, op = .resetExpiredLockout other time) :
    op.onUser account = account := by
  rcases isCall with rfl | ⟨_, rfl⟩ | ⟨_, rfl⟩ | ⟨_, rfl⟩ <;>
    simp [AuthOp.onUser, isOther]

theorem Bounded.onUser_counted
    (bounded : Bounded settings userId attempts members account time)
    {rowId : UUID}
    (isOwn : rowId = userId) :
    (AuthOp.incrementFailedLogin rowId).onUser account =
      { account with failedLoginCount := account.failedLoginCount + 1 } := by
  simp [AuthOp.onUser, bounded.isAccount, isOwn]

theorem Bounded.onUser_locked
    (bounded : Bounded settings userId attempts members account time)
    {rowId : UUID}
    (isOwn : rowId = userId)
    (lockedUntil : Nat) :
    (AuthOp.setLockedUntil rowId (some lockedUntil)).onUser account =
      { account with lockedUntil := some lockedUntil } := by
  simp [AuthOp.onUser, bounded.isAccount, isOwn]

/-- A login that passes the check has a free attempt. -/
theorem Bounded.checked
    (bounded : Bounded settings userId attempts members account time)
    {pid : ProcId}
    {request : LoginRequest}
    {row : User}
    (within : (Attempt.check request row time).IsOpen userId →
      countedFor row account time + tally (Attempt.IsOpen userId) attempts members <
        settings.maxFailedLoginAttempts) :
    Bounded settings userId (Function.update attempts pid (.check request row time))
      (insert pid members) account time := by
  have full : account.lockedUntil ≠ none →
      settings.maxFailedLoginAttempts ≤ account.failedLoginCount := bounded.full
  unfold Attempt.check at within ⊢
  cases isSeen : row.lockedUntil with
  | none =>
      simp only [isSeen] at within ⊢
      simp only [countedFor, isSeen, if_true] at within
      have unlocked : row.id = userId → account.lockedUntil = none := by
        intro isOwn
        by_contra isLocked
        have room := within isOwn
        have isFull := full isLocked
        omega
      apply bounded.move
      · intro isOwn _
        rw [usedAttempts_of_unlocked (unlocked isOwn)]
        exact within isOwn
      · intro lockedUntil isLocked isOwn
        rw [unlocked isOwn] at isLocked
        contradiction
      · exact fun isLocking => isLocking.elim
  | some seen =>
      simp only [isSeen] at within ⊢
      split_ifs at within ⊢ with isLate
      · exact bounded.move (fun isOpen => isOpen.elim) (fun _ _ isOpen => isOpen.elim)
          fun isLocking => isLocking.elim
      · simp only [countedFor, isSeen, reduceCtorEq, if_false] at within
        apply bounded.move
        · exact fun isOwn _ => within isOwn
        · intro lockedUntil isLocked isOwn
          refine ⟨request, row, time, rfl, ?_⟩
          by_contra isActive
          have room := within isOwn
          have isFull := full (by simp [isLocked])
          rw [usedAttempts_of_locked isLocked, if_neg isActive] at room
          omega
        · exact fun isLocking => isLocking.elim

/-- An open login clears or counts: the account is not locked afterwards. -/
theorem Bounded.judged
    (bounded : Bounded settings userId attempts members account time)
    {pid : ProcId}
    {reached : Attempt}
    (isOpen : (attempts pid).IsOpen userId)
    (sameId : account'.id = account.id)
    (isUnlocked : account'.lockedUntil = none)
    (nonneg : 0 ≤ account'.failedLoginCount)
    (fits : account'.failedLoginCount + (if reached.IsOpen userId then 1 else 0) ≤
      usedAttempts account time + 1)
    (locks : reached.IsLocking settings userId →
      settings.maxFailedLoginAttempts ≤ account'.failedLoginCount) :
    Bounded settings userId (Function.update attempts pid reached) (insert pid members) account'
      time := by
  -- nobody was about to lock the account, since an attempt was free for this login
  have onlyThis : ∀ other, (Function.update attempts pid reached other).IsLocking settings userId →
      other = pid ∧ reached.IsLocking settings userId := by
    intro other isLocking
    by_cases isOwn : other = pid
    · subst isOwn
      rw [Function.update_self] at isLocking
      exact ⟨rfl, isLocking⟩
    · rw [Function.update_of_ne isOwn] at isLocking
      exact absurd isOpen (bounded.noneOpen_of_locking isLocking pid)
  constructor
  case isAccount => exact sameId.trans bounded.isAccount
  case nonneg => exact nonneg
  case full => exact fun isLocked => absurd isUnlocked isLocked
  case bound =>
    have moved := tally_update (Attempt.IsOpen userId) (fun holds => holds) bounded.idle pid
      reached
    rw [if_pos isOpen] at moved
    rw [usedAttempts_of_unlocked isUnlocked]
    have bound := bounded.bound
    split_ifs at moved fits <;> omega
  case idle => exact idle_update bounded.idle reached
  case waiting =>
    intro other lockedUntil isLocked
    rw [isUnlocked] at isLocked
    contradiction
  case locking =>
    intro other isLocking
    exact ⟨isUnlocked, locks (onlyThis other isLocking).2⟩
  case single =>
    intro other other' isLocking isLocking'
    exact (onlyThis other isLocking).1.trans (onlyThis other' isLocking').1.symm

/-- What the account has once the expired lockout is reset. -/
theorem Bounded.onUser_cleared
    (bounded : Bounded settings userId attempts members account time)
    {pid : ProcId}
    {request : LoginRequest}
    {row : User}
    {checkedAt : Nat}
    (isExpired : attempts pid = .expired request row checkedAt)
    (isOwn : row.id = userId) :
    (AuthOp.resetExpiredLockout row.id checkedAt).onUser account =
      { account with failedLoginCount := usedAttempts account time, lockedUntil := none } := by
  have isOpen : (attempts pid).IsOpen userId := by
    rw [isExpired]
    exact isOwn
  cases isLocked : account.lockedUntil with
  | none =>
      have unchanged : (AuthOp.resetExpiredLockout row.id checkedAt).onUser account = account := by
        simp [AuthOp.onUser, isLocked]
      rw [usedAttempts_of_unlocked isLocked, ← isLocked]
      exact unchanged
  | some lockedUntil =>
      have isPast : lockedUntil ≤ checkedAt := by
        obtain ⟨_, _, _, isSame, isPast⟩ := bounded.waiting pid lockedUntil isLocked isOpen
        rw [isExpired, Attempt.expired.injEq] at isSame
        rw [isSame.2.2]
        exact isPast
      have isOver : lockedUntil ≤ time := by
        by_contra isActive
        exact bounded.noneOpen_of_active isLocked (Nat.lt_of_not_le isActive) pid isOpen
      rw [usedAttempts_of_locked isLocked, if_pos isOver]
      simp [AuthOp.onUser, isLocked, isPast, bounded.isAccount, isOwn]

/-- The login resets the expired lockout. -/
theorem Bounded.cleared
    (bounded : Bounded settings userId attempts members account time)
    {pid : ProcId}
    {request : LoginRequest}
    {row : User}
    {checkedAt : Nat}
    (isExpired : attempts pid = .expired request row checkedAt)
    (isOwn : row.id = userId) :
    Bounded settings userId (Function.update attempts pid (.admitted request row))
      (insert pid members) ((AuthOp.resetExpiredLockout row.id checkedAt).onUser account)
      time := by
  have isOpen : (attempts pid).IsOpen userId := by
    rw [isExpired]
    exact isOwn
  rw [bounded.onUser_cleared isExpired isOwn]
  refine bounded.judged isOpen (by rfl) (by rfl) (usedAttempts_nonneg bounded.nonneg time) ?_ ?_
  · dsimp only
    split_ifs <;> omega
  · exact fun isLocking => isLocking.elim

/-- The login counts a wrong password. -/
theorem Bounded.counted
    (bounded : Bounded settings userId attempts members account time)
    {pid : ProcId}
    {request : LoginRequest}
    {row : User}
    {newFailedCount : Int}
    (isCompared : attempts pid = .compared request row false)
    (isOwn : row.id = userId)
    (isCount : newFailedCount = account.failedLoginCount + 1) :
    Bounded settings userId (Function.update attempts pid (.counted row newFailedCount))
      (insert pid members) ((AuthOp.incrementFailedLogin row.id).onUser account) time := by
  have isOpen : (attempts pid).IsOpen userId := by
    rw [isCompared]
    exact isOwn
  have isUnlocked : account.lockedUntil = none :=
    bounded.unlocked isOpen (by simp [isCompared])
  have nonneg := bounded.nonneg
  rw [bounded.onUser_counted isOwn]
  refine bounded.judged isOpen (by rfl) isUnlocked ?_ ?_ ?_
  · dsimp only
    omega
  · have notOpen : ¬(Attempt.counted row newFailedCount).IsOpen userId := fun holds => holds
    rw [usedAttempts_of_unlocked isUnlocked, if_neg notOpen]
    exact Int.le_of_eq (Int.add_zero _)
  · intro isLocking
    rw [← isCount]
    exact isLocking.2

/-- The login locks the account. -/
theorem Bounded.locked
    (bounded : Bounded settings userId attempts members account time)
    {pid : ProcId}
    {row : User}
    {lockedUntil : Nat}
    (isLocking : attempts pid = .locking row lockedUntil)
    (isOwn : row.id = userId) :
    Bounded settings userId (Function.update attempts pid .over)
      (insert pid members) ((AuthOp.setLockedUntil row.id (some lockedUntil)).onUser account)
      time := by
  have wasLocking : (attempts pid).IsLocking settings userId := by
    rw [isLocking]
    exact isOwn
  obtain ⟨isUnlocked, isFull⟩ := bounded.locking pid wasLocking
  have noneOpen : ∀ other, ¬(Function.update attempts pid .over other).IsOpen userId := by
    intro other
    by_cases isSelf : other = pid
    · subst isSelf
      rw [Function.update_self]
      exact fun isOpen => isOpen
    · rw [Function.update_of_ne isSelf]
      exact bounded.noneOpen_of_locking wasLocking other
  have noneLocking : ∀ other,
      ¬(Function.update attempts pid .over other).IsLocking settings userId := by
    intro other
    by_cases isSelf : other = pid
    · subst isSelf
      rw [Function.update_self]
      exact fun isLocking => isLocking
    · rw [Function.update_of_ne isSelf]
      exact fun isLocking => isSelf (bounded.single other pid isLocking wasLocking)
  have nonneg := bounded.nonneg
  rw [bounded.onUser_locked isOwn]
  constructor
  case isAccount => exact bounded.isAccount
  case nonneg => exact nonneg
  case full => exact fun _ => isFull
  case bound =>
    have isEmpty : tally (Attempt.IsOpen userId) (Function.update attempts pid .over)
        (insert pid members) = 0 :=
      Finset.card_eq_zero.mpr (Finset.filter_eq_empty_iff.mpr fun other _ => noneOpen other)
    have bound := bounded.bound
    rw [usedAttempts_of_unlocked isUnlocked] at bound
    rw [isEmpty]
    unfold usedAttempts
    dsimp only
    split_ifs <;> omega
  case idle => exact idle_update bounded.idle .over
  case waiting => exact fun other _ _ isOpen => absurd isOpen (noneOpen other)
  case locking => exact fun other isLocking => absurd isLocking (noneLocking other)
  case single => exact fun other _ isLocking => absurd isLocking (noneLocking other)

/-- The login accepts a right password. -/
theorem Bounded.accepted
    (bounded : Bounded settings userId attempts members account time)
    {pid : ProcId}
    {request : LoginRequest}
    {row : User}
    (isCompared : attempts pid = .compared request row true)
    (isOwn : row.id = userId)
    (lastLoginAt : Nat) :
    Bounded settings userId (Function.update attempts pid (.accepted row))
      (insert pid members) ((AuthOp.resetFailedLogin row.id lastLoginAt).onUser account)
      time := by
  have isOpen : (attempts pid).IsOpen userId := by
    rw [isCompared]
    exact isOwn
  have isReset : (AuthOp.resetFailedLogin row.id lastLoginAt).onUser account =
      { account with failedLoginCount := 0, lockedUntil := none, lastLoginAt := lastLoginAt } := by
    simp [AuthOp.onUser, bounded.isAccount, isOwn]
  have nonneg := usedAttempts_nonneg bounded.nonneg time
  rw [isReset]
  refine bounded.judged isOpen (by rfl) (by rfl) (by rfl) ?_ ?_
  · have notOpen : ¬(Attempt.accepted row).IsOpen userId := fun holds => holds
    rw [if_neg notOpen]
    dsimp only
    omega
  · exact fun isLocking => isLocking.elim

/-- A step of a login keeps the bound, if there is a free attempt whenever a
login passes the check. -/
theorem Bounded.step
    (bounded : Bounded settings userId attempts members account time)
    {pid : ProcId}
    {reached : Attempt}
    {made : Mark}
    (step : AttemptStep settings platform userId time made (attempts pid) account reached
      account')
    (within : ∀ request row, attempts pid = .read request row →
      (Attempt.check request row time).IsOpen userId →
      countedFor row account time + tally (Attempt.IsOpen userId) attempts members <
        settings.maxFailedLoginAttempts) :
    Bounded settings userId (Function.update attempts pid reached) (insert pid members) account'
      time := by
  generalize isCurrent : attempts pid = current at step within
  cases step with
  | opened request => exact bounded.quiet (fun isOpen => isOpen) fun isLocking => isLocking
  | ended _ _ _ => exact bounded.quiet (fun isOpen => isOpen) fun isLocking => isLocking
  | broke =>
      exact bounded.advance (fun isOpen => by rwa [isCurrent]) (by simp [isCurrent])
        fun isLocking => isLocking
  | waited _ =>
      apply bounded.move
      · intro isOpen notOpen
        rw [isCurrent] at notOpen
        exact absurd isOpen notOpen
      · intro lockedUntil isLocked isOpen
        rw [← isCurrent] at isOpen ⊢
        exact bounded.waiting pid lockedUntil isLocked isOpen
      · intro isLocking
        rwa [isCurrent]
  | read _ => exact bounded.quiet (fun isOpen => isOpen) fun isLocking => isLocking
  | @checked request row _ => exact bounded.checked (within request row rfl)
  | compared _ =>
      exact bounded.advance (fun isOpen => by rwa [isCurrent]) (by simp [isCurrent])
        fun isLocking => isLocking
  | @computed row _ count isLast =>
      refine bounded.move (fun isOpen => isOpen.elim) (fun _ _ isOpen => isOpen.elim) ?_
      intro isOwn
      rw [isCurrent]
      exact ⟨isOwn, isLast⟩
  | issued => exact bounded.quiet (fun isOpen => isOpen) fun isLocking => isLocking
  | @cleared request row _ checkedAt =>
      by_cases isOwn : row.id = userId
      · exact bounded.cleared isCurrent isOwn
      · rw [onUser_of_other _ (bounded.isAccount.trans_ne (Ne.symm isOwn))
          (.inr (.inr (.inr ⟨_, rfl⟩)))]
        exact bounded.quiet isOwn fun isLocking => isLocking
  | @counted request row _ newFailedCount isCount =>
      by_cases isOwn : row.id = userId
      · exact bounded.counted isCurrent isOwn (isCount isOwn)
      · rw [onUser_of_other _ (bounded.isAccount.trans_ne (Ne.symm isOwn)) (.inl rfl)]
        exact bounded.quiet (fun isOpen => isOpen) fun isLocking => isOwn isLocking.1
  | @locked row _ lockedUntil =>
      by_cases isOwn : row.id = userId
      · exact bounded.locked isCurrent isOwn
      · rw [onUser_of_other _ (bounded.isAccount.trans_ne (Ne.symm isOwn))
          (.inr (.inr (.inl ⟨_, rfl⟩)))]
        exact bounded.quiet (fun isOpen => isOpen) fun isLocking => isLocking
  | @accepted request row _ lastLoginAt =>
      by_cases isOwn : row.id = userId
      · exact bounded.accepted isCurrent isOwn lastLoginAt
      · rw [onUser_of_other _ (bounded.isAccount.trans_ne (Ne.symm isOwn))
          (.inr (.inl ⟨_, rfl⟩))]
        exact bounded.quiet (fun isOpen => isOpen) fun isLocking => isLocking

/-! ## A stretch of time -/

/-- In a stretch of time the guesses use up attempts: the account has counted
them, or is about to.  A lockout of the stretch outlasts it. -/
structure Within (settings : Settings) (userId : UUID) (start : Nat)
    (attempts : ProcId → Attempt) (members : Finset ProcId) (account : User) (time guesses : Nat) :
    Prop where
  spent : guesses ≤
    usedAttempts account time + tally (Attempt.IsCompared userId) attempts members
  stored : ∀ lockedUntil, account.lockedUntil = some lockedUntil →
    guesses = 0 ∨ start + seconds settings.lockoutDurationSeconds ≤ lockedUntil
  computed : ∀ pid row lockedUntil, attempts pid = .locking row lockedUntil → row.id = userId →
    guesses = 0 ∨ start + seconds settings.lockoutDurationSeconds ≤ lockedUntil

variable
    {start guesses : Nat}

/-- The guesses of a stretch are within the limit. -/
theorem Within.le
    (within : Within settings userId start attempts members account time guesses)
    (bounded : Bounded settings userId attempts members account time) :
    guesses ≤ settings.maxFailedLoginAttempts := by
  have fewer : tally (Attempt.IsCompared userId) attempts members ≤
      tally (Attempt.IsOpen userId) attempts members :=
    tally_le fun _ isCompared => isCompared.isOpen
  have spent := within.spent
  have bound := bounded.bound
  omega

/-- Time passes, but not as long as a lockout lasts. -/
theorem Within.mono
    (within : Within settings userId start attempts members account time guesses)
    (nonneg : 0 ≤ account.failedLoginCount)
    (isLater : time ≤ later)
    (isShort : later < start + seconds settings.lockoutDurationSeconds) :
    Within settings userId start attempts members account later guesses where
  spent := by
    have spent := within.spent
    cases isLocked : account.lockedUntil with
    | none =>
        rw [usedAttempts_of_unlocked isLocked] at spent ⊢
        exact spent
    | some lockedUntil =>
        rw [usedAttempts_of_locked isLocked] at spent ⊢
        rcases within.stored lockedUntil isLocked with isZero | isLong
        · split_ifs <;> omega
        · rw [if_neg (by omega)] at spent ⊢
          exact spent
  stored := within.stored
  computed := within.computed

/-- One login moves on, and the account stays as it is. -/
theorem Within.move
    (within : Within settings userId start attempts members account time guesses)
    (idle : ∀ pid ∉ members, attempts pid = .idle)
    {pid : ProcId}
    {reached : Attempt}
    (compares : (attempts pid).IsCompared userId → reached.IsCompared userId)
    (locks : ∀ row lockedUntil, reached = .locking row lockedUntil → row.id = userId →
      (attempts pid = .locking row lockedUntil ∨
        start + seconds settings.lockoutDurationSeconds ≤ lockedUntil)) :
    Within settings userId start (Function.update attempts pid reached) (insert pid members)
      account time guesses where
  spent := by
    have moved := tally_update (Attempt.IsCompared userId) (fun holds => holds) idle pid reached
    have spent := within.spent
    split_ifs at moved with wasCompared isCompared isCompared
    · omega
    · exact absurd (compares wasCompared) isCompared
    · omega
    · omega
  stored := within.stored
  computed other row lockedUntil isLocking isOwn := by
    by_cases isSelf : other = pid
    · subst isSelf
      rw [Function.update_self] at isLocking
      rcases locks row lockedUntil isLocking isOwn with wasLocking | isLong
      · exact within.computed other row lockedUntil wasLocking isOwn
      · exact .inr isLong
    · rw [Function.update_of_ne isSelf] at isLocking
      exact within.computed other row lockedUntil isLocking isOwn

/-- An open login guesses, counts or clears: nobody is about to lock the
account, which is unlocked afterwards. -/
theorem Within.judged
    (within : Within settings userId start attempts members account time guesses)
    (bounded : Bounded settings userId attempts members account time)
    {pid : ProcId}
    {reached : Attempt}
    {guesses' : Nat}
    (isOpen : (attempts pid).IsOpen userId)
    (isUnlocked : account'.lockedUntil = none)
    (fits : guesses' + usedAttempts account time +
        (if (attempts pid).IsCompared userId then 1 else 0) ≤
      guesses + account'.failedLoginCount + (if reached.IsCompared userId then 1 else 0))
    (notLocking : ∀ row lockedUntil, reached ≠ .locking row lockedUntil) :
    Within settings userId start (Function.update attempts pid reached) (insert pid members)
      account' time guesses' where
  spent := by
    have moved := tally_update (Attempt.IsCompared userId) (fun holds => holds) bounded.idle pid
      reached
    have spent := within.spent
    rw [usedAttempts_of_unlocked isUnlocked]
    split_ifs at moved fits <;> omega
  stored lockedUntil isLocked := by
    rw [isUnlocked] at isLocked
    contradiction
  computed other row lockedUntil isLocking isOwn := by
    by_cases isSelf : other = pid
    · subst isSelf
      rw [Function.update_self] at isLocking
      exact absurd isLocking (notLocking row lockedUntil)
    · rw [Function.update_of_ne isSelf] at isLocking
      have wasLocking : (attempts other).IsLocking settings userId := by
        rw [isLocking]
        exact isOwn
      exact absurd isOpen (bounded.noneOpen_of_locking wasLocking pid)

/-- The login resets the expired lockout. -/
theorem Within.cleared
    (within : Within settings userId start attempts members account time guesses)
    (bounded : Bounded settings userId attempts members account time)
    {pid : ProcId}
    {request : LoginRequest}
    {row : User}
    {checkedAt : Nat}
    (isExpired : attempts pid = .expired request row checkedAt)
    (isOwn : row.id = userId) :
    Within settings userId start (Function.update attempts pid (.admitted request row))
      (insert pid members) ((AuthOp.resetExpiredLockout row.id checkedAt).onUser account)
      time guesses := by
  have isOpen : (attempts pid).IsOpen userId := by
    rw [isExpired]
    exact isOwn
  have notCompared : ¬(attempts pid).IsCompared userId := by
    rw [isExpired]
    exact fun isCompared => isCompared
  rw [bounded.onUser_cleared isExpired isOwn]
  refine within.judged bounded isOpen (by rfl) ?_ fun _ _ => Attempt.noConfusion
  rw [if_neg notCompared]
  dsimp only
  split_ifs <;> omega

/-- The login compares a password. -/
theorem Within.compared
    (within : Within settings userId start attempts members account time guesses)
    (bounded : Bounded settings userId attempts members account time)
    {pid : ProcId}
    {request : LoginRequest}
    {row : User}
    (isAdmitted : attempts pid = .admitted request row)
    (isOwn : row.id = userId)
    (isRight : Bool) :
    Within settings userId start (Function.update attempts pid (.compared request row isRight))
      (insert pid members) account time (guesses + 1) := by
  have isOpen : (attempts pid).IsOpen userId := by
    rw [isAdmitted]
    exact isOwn
  have isUnlocked : account.lockedUntil = none :=
    bounded.unlocked isOpen (by simp [isAdmitted])
  have isCompared : (Attempt.compared request row isRight).IsCompared userId := isOwn
  have notCompared : ¬(attempts pid).IsCompared userId := by
    rw [isAdmitted]
    exact fun isCompared => isCompared
  refine within.judged bounded isOpen isUnlocked ?_ fun _ _ => Attempt.noConfusion
  rw [usedAttempts_of_unlocked isUnlocked, if_neg notCompared, if_pos isCompared]
  omega

/-- The login counts a wrong password. -/
theorem Within.counted
    (within : Within settings userId start attempts members account time guesses)
    (bounded : Bounded settings userId attempts members account time)
    {pid : ProcId}
    {request : LoginRequest}
    {row : User}
    (wasCompared : attempts pid = .compared request row false)
    (isOwn : row.id = userId)
    (newFailedCount : Int) :
    Within settings userId start (Function.update attempts pid (.counted row newFailedCount))
      (insert pid members) ((AuthOp.incrementFailedLogin row.id).onUser account) time
      guesses := by
  have isOpen : (attempts pid).IsOpen userId := by
    rw [wasCompared]
    exact isOwn
  have isUnlocked : account.lockedUntil = none :=
    bounded.unlocked isOpen (by simp [wasCompared])
  have isCompared : (attempts pid).IsCompared userId := by
    rw [wasCompared]
    exact isOwn
  have notCompared : ¬(Attempt.counted row newFailedCount).IsCompared userId :=
    fun isCompared => isCompared
  rw [bounded.onUser_counted isOwn]
  refine within.judged bounded isOpen isUnlocked ?_ fun _ _ => Attempt.noConfusion
  rw [usedAttempts_of_unlocked isUnlocked, if_pos isCompared, if_neg notCompared]
  dsimp only
  omega

/-- The login locks the account. -/
theorem Within.locked
    (within : Within settings userId start attempts members account time guesses)
    (bounded : Bounded settings userId attempts members account time)
    (isShort : time < start + seconds settings.lockoutDurationSeconds)
    {pid : ProcId}
    {row : User}
    {lockedUntil : Nat}
    (isLocking : attempts pid = .locking row lockedUntil)
    (isOwn : row.id = userId) :
    Within settings userId start (Function.update attempts pid .over)
      (insert pid members) ((AuthOp.setLockedUntil row.id (some lockedUntil)).onUser account)
      time guesses := by
  have isLong := within.computed pid row lockedUntil isLocking isOwn
  have moved : Within settings userId start (Function.update attempts pid .over)
      (insert pid members) account time guesses := by
    apply within.move bounded.idle
    · rw [isLocking]
      exact fun isCompared => isCompared
    · exact fun _ _ => Attempt.noConfusion
  have wasLocking : (attempts pid).IsLocking settings userId := by
    rw [isLocking]
    exact isOwn
  have isUnlocked : account.lockedUntil = none := (bounded.locking pid wasLocking).1
  have spent := moved.spent
  rw [usedAttempts_of_unlocked isUnlocked] at spent
  rw [bounded.onUser_locked isOwn]
  constructor
  case spent =>
    rw [usedAttempts_of_locked rfl]
    rcases isLong with isZero | isLong
    · have nonneg := bounded.nonneg
      split_ifs <;> omega
    · rw [if_neg (by omega)]
      exact spent
  case stored =>
    rintro _ ⟨⟩
    exact isLong
  case computed => exact moved.computed

/-- A step of a login keeps the guesses within the limit. -/
theorem Within.step
    (within : Within settings userId start attempts members account time guesses)
    (bounded : Bounded settings userId attempts members account time)
    (isStarted : start ≤ time)
    (isShort : time < start + seconds settings.lockoutDurationSeconds)
    {pid : ProcId}
    {reached : Attempt}
    {made : Mark}
    (step : AttemptStep settings platform userId time made (attempts pid) account reached
      account')
    (notSucceeded : made ≠ .succeeded userId) :
    Within settings userId start (Function.update attempts pid reached) (insert pid members)
      account' time (if made = .compared userId then guesses + 1 else guesses) := by
  -- a login that has not compared, or leaves what it has compared to be counted
  have quiet : ∀ reached : Attempt,
      ((attempts pid).IsCompared userId → reached.IsCompared userId) →
      (∀ row lockedUntil, reached ≠ .locking row lockedUntil) →
      Within settings userId start (Function.update attempts pid reached) (insert pid members)
        account time guesses := fun reached compares notLocking =>
    within.move bounded.idle compares fun row lockedUntil isLocking =>
      absurd isLocking (notLocking row lockedUntil)
  generalize isCurrent : attempts pid = current at step
  cases step with
  | opened request =>
      exact quiet _ (by simp [isCurrent, Attempt.IsCompared]) fun _ _ => Attempt.noConfusion
  | ended _ notCompared notBroken =>
      apply quiet
      · rw [isCurrent]
        intro isCompared
        cases current with
        | compared request row isRight => exact absurd rfl (notCompared request row isRight)
        | broken row => exact absurd rfl (notBroken row)
        | _ => exact isCompared
      · exact fun _ _ => Attempt.noConfusion
  | broke =>
      apply quiet
      · rw [isCurrent]
        exact fun isCompared => isCompared
      · exact fun _ _ => Attempt.noConfusion
  | waited _ =>
      rw [← isCurrent]
      exact within.move bounded.idle (fun isCompared => isCompared)
        fun _ _ isLocking _ => .inl isLocking
  | read _ =>
      exact quiet _ (by simp [isCurrent, Attempt.IsCompared]) fun _ _ => Attempt.noConfusion
  | @checked request row _ =>
      apply quiet
      · simp [isCurrent, Attempt.IsCompared]
      · intro _ _
        unfold Attempt.check
        split
        · exact Attempt.noConfusion
        · split_ifs <;> exact Attempt.noConfusion
  | @cleared request row _ checkedAt =>
      by_cases isOwn : row.id = userId
      · exact within.cleared bounded isCurrent isOwn
      · rw [onUser_of_other _ (bounded.isAccount.trans_ne (Ne.symm isOwn))
          (.inr (.inr (.inr ⟨_, rfl⟩)))]
        exact quiet _ (by simp [isCurrent, Attempt.IsCompared]) fun _ _ => Attempt.noConfusion
  | @compared request row _ isActive =>
      by_cases isOwn : row.id = userId
      · rw [if_pos (by rw [isOwn])]
        exact within.compared bounded isCurrent isOwn _
      · rw [if_neg (by simp [isOwn])]
        exact quiet _ (by simp [isCurrent, Attempt.IsCompared]) fun _ _ => Attempt.noConfusion
  | @counted request row _ newFailedCount isCount =>
      by_cases isOwn : row.id = userId
      · exact within.counted bounded isCurrent isOwn newFailedCount
      · rw [onUser_of_other _ (bounded.isAccount.trans_ne (Ne.symm isOwn)) (.inl rfl)]
        exact quiet _ (by simp [isCurrent, Attempt.IsCompared, isOwn])
          fun _ _ => Attempt.noConfusion
  | @computed row _ count isLast =>
      apply within.move bounded.idle
      · simp [isCurrent, Attempt.IsCompared]
      · rintro _ _ ⟨⟩ _
        exact .inr (Nat.add_le_add_right isStarted _)
  | @locked row _ lockedUntil =>
      by_cases isOwn : row.id = userId
      · exact within.locked bounded isShort isCurrent isOwn
      · rw [onUser_of_other _ (bounded.isAccount.trans_ne (Ne.symm isOwn))
          (.inr (.inr (.inl ⟨_, rfl⟩)))]
        exact quiet _ (by simp [isCurrent, Attempt.IsCompared]) fun _ _ => Attempt.noConfusion
  | @accepted request row _ lastLoginAt =>
      have isOther : row.id ≠ userId := fun isOwn => notSucceeded (by rw [isOwn])
      rw [onUser_of_other _ (bounded.isAccount.trans_ne (Ne.symm isOther))
        (.inr (.inl ⟨_, rfl⟩))]
      exact quiet _ (by simp [isCurrent, Attempt.IsCompared, isOther])
        fun _ _ => Attempt.noConfusion
  | issued =>
      exact quiet _ (by simp [isCurrent, Attempt.IsCompared]) fun _ _ => Attempt.noConfusion

end Invariant

/-! ## Runs -/

section Runs

variable
    {settings : Settings}
    {platform : Platform}
    {userId : UUID}
    {initial : AuthStore}
    {clock : Nat}
    {account : User}
    {before : List AuthEvent}
    {event : AuthEvent}

/-- The requests of a history. -/
def requests (log : List AuthEvent) : Finset ProcId := (log.map Event.pid).toFinset

/-- The logins that have passed the lockout check, and are not counted. -/
def openLogins (settings : Settings) (userId : UUID) (log : List AuthEvent) : Nat :=
  tally (Attempt.IsOpen userId) (fun pid => attempt settings pid log) (requests log)

/-- A login that is about to pass the lockout check has a free attempt. -/
def attemptFree (settings : Settings) (platform : Platform) (userId : UUID) :
    EventProperty AuthError AuthAnswer AuthCall AuthStore := fun initial before event =>
  match attempt settings event.pid before,
    (replay (callEffect platform) initial before).user userId with
  | .read request row, some account =>
      (Attempt.check request row event.time).IsOpen userId →
        countedFor row account event.time + openLogins settings userId before <
          settings.maxFailedLoginAttempts
  | _, _ => True

instance (initial : AuthStore) (before : List AuthEvent) (event : AuthEvent) :
    Decidable (attemptFree settings platform userId initial before event) := by
  unfold attemptFree
  split <;> infer_instance

/-- The requests whose password is compared with the hash of the account. -/
def comparedRequests (userId : UUID) (events : List AuthEvent) : Finset ProcId :=
  requests (events.filter fun event => mark event = .compared userId)

theorem requests_concat (before : List AuthEvent) (event : AuthEvent) :
    requests (before ++ [event]) = insert event.pid (requests before) := by
  ext pid
  simp only [requests, List.map_append, List.map_cons, List.map_nil, List.mem_toFinset,
    List.mem_append, List.mem_singleton, Finset.mem_insert]
  exact or_comm

/-- The attempts are within the limit after the history. -/
def BoundedAfter (settings : Settings) (platform : Platform) (userId : UUID)
    (initial : AuthStore) (log : List AuthEvent) (account : User) : Prop :=
  (replay (callEffect platform) initial log).user userId = some account ∧
    ∀ time, (∀ event ∈ log, event.time ≤ time) →
      Bounded settings userId (fun pid => attempt settings pid log) (requests log) account time

/-- An event keeps the attempts within the limit. -/
theorem BoundedAfter.concat
    (boundedBefore : BoundedAfter settings platform userId initial before account)
    (proper : Proper settings platform initial before event)
    (isFree : attemptFree settings platform userId initial before event) :
    ∃ account', BoundedAfter settings platform userId initial (before ++ [event]) account' ∧
      AttemptStep settings platform userId event.time (mark event)
        (attempt settings event.pid before) account
        (attempt settings event.pid (before ++ [event])) account' := by
  obtain ⟨isAccount, bounded⟩ := boundedBefore
  obtain ⟨account', isAccount', step⟩ := step_of_event proper.1 proper.2 isAccount
  refine ⟨account', ⟨isAccount', fun time areEarlier => ?_⟩, step⟩
  rw [attempts_concat, requests_concat]
  have isLater : event.time ≤ time := areEarlier event (by simp)
  refine Bounded.mono ?_ isLater
  apply (bounded event.time (times_le proper)).step step
  intro request row isRead passes
  rw [attemptFree, isRead, isAccount] at isFree
  exact isFree passes

/-- The attempts are within the limit along the run. -/
theorem bounded_history
    {log : List AuthEvent}
    (satisfied : EventsSatisfy (Proper settings platform) initial log)
    (areFree : EventsSatisfy (attemptFree settings platform userId) initial log)
    (isAccount : initial.user userId = some account)
    (isUnlocked : account.lockedUntil = none)
    (isFresh : account.failedLoginCount = 0) :
    ∃ account', BoundedAfter settings platform userId initial log account' := by
  induction log using List.reverseRecOn with
  | nil =>
      have positive := settings.maxFailedLoginAttempts_pos
      refine ⟨account, isAccount, fun time _ => ?_⟩
      constructor
      case isAccount => exact AuthStore.user_id isAccount
      case nonneg => exact Int.le_of_eq isFresh.symm
      case full => exact fun isLocked => absurd isUnlocked isLocked
      case bound =>
        rw [usedAttempts_of_unlocked isUnlocked, isFresh]
        exact Int.le_of_lt positive
      case idle => exact fun _ _ => rfl
      case waiting => exact fun _ _ _ isOpen => isOpen.elim
      case locking => exact fun _ isLocking => isLocking.elim
      case single => exact fun _ _ isLocking => isLocking.elim
  | append_singleton log event inductionHypothesis =>
      obtain ⟨account', boundedBefore⟩ :=
        inductionHypothesis satisfied.of_append areFree.of_append
      obtain ⟨account'', boundedAfter, _⟩ := boundedBefore.concat satisfied.last areFree.last
      exact ⟨account'', boundedAfter⟩

/-- The guesses of a stretch are within the limit along the run. -/
theorem within_history
    {log events : List AuthEvent}
    {start : Nat}
    (satisfied : EventsSatisfy (Proper settings platform) initial (log ++ events))
    (areFree : EventsSatisfy (attemptFree settings platform userId) initial (log ++ events))
    (boundedBefore : BoundedAfter settings platform userId initial log account)
    (areShort : ∀ event ∈ events, start ≤ event.time ∧
      event.time < start + seconds settings.lockoutDurationSeconds)
    (noneSucceeds : ∀ event ∈ events, mark event ≠ .succeeded userId) :
    ∃ account', BoundedAfter settings platform userId initial (log ++ events) account' ∧
      ∀ time, (∀ event ∈ log ++ events, event.time ≤ time) → start ≤ time →
        time < start + seconds settings.lockoutDurationSeconds →
        Within settings userId start (fun pid => attempt settings pid (log ++ events))
          (requests (log ++ events)) account' time
          (events.countP fun event => mark event = .compared userId) := by
  induction events using List.reverseRecOn with
  | nil =>
      rw [List.append_nil]
      refine ⟨account, boundedBefore, fun time areEarlier isLater isShort => ?_⟩
      have nonneg := usedAttempts_nonneg (boundedBefore.2 time areEarlier).nonneg time
      rw [List.countP_nil]
      constructor
      case spent => omega
      case stored => exact fun _ _ => .inl rfl
      case computed => exact fun _ _ _ _ _ => .inl rfl
  | append_singleton events event inductionHypothesis =>
      rw [← List.append_assoc] at satisfied areFree ⊢
      obtain ⟨account', boundedBetween, within⟩ :=
        inductionHypothesis satisfied.of_append areFree.of_append
          (fun earlier isEarlier => areShort earlier (List.mem_append_left _ isEarlier))
          fun earlier isEarlier => noneSucceeds earlier (List.mem_append_left _ isEarlier)
      obtain ⟨account'', boundedAfter, step⟩ :=
        boundedBetween.concat satisfied.last areFree.last
      refine ⟨account'', boundedAfter, fun time areEarlier isLater isShort => ?_⟩
      obtain ⟨isStarted, isEarly⟩ := areShort event (by simp)
      have times := times_le satisfied.last
      have stepped := (within event.time times isStarted isEarly).step
        (boundedBetween.2 event.time times) isStarted isEarly step
        (noneSucceeds event (by simp))
      have isCount : (events ++ [event]).countP (fun event => mark event = .compared userId) =
          if mark event = .compared userId
            then events.countP (fun event => mark event = .compared userId) + 1
            else events.countP (fun event => mark event = .compared userId) := by
        rw [List.countP_append, List.countP_singleton]
        simp only [decide_eq_true_eq]
        split_ifs <;> rfl
      have nonneg : 0 ≤ account''.failedLoginCount := (boundedAfter.2 time areEarlier).nonneg
      rw [attempts_concat, requests_concat, isCount]
      exact stepped.mono nonneg (areEarlier event (by simp)) isShort

theorem card_comparedRequests_le (userId : UUID) (events : List AuthEvent) :
    (comparedRequests userId events).card ≤
      events.countP fun event => mark event = .compared userId := by
  refine (List.toFinset_card_le _).trans ?_
  rw [List.length_map, List.countP_eq_length_filter]

/-- The events between two configurations of a run. -/
def eventsBetween (config config' : Config AuthError AuthAnswer AuthCall AuthHistory AuthResponse) :
    List AuthEvent :=
  config'.shared.log.drop config.shared.log.length

/-- In every run in which a login passes the lockout check only while an attempt
is free, as many passwords as there are attempts are compared with the hash of
the account in a stretch that is shorter than a lockout and in which no login
succeeds. -/
theorem guesses_bounded
    {config config' : Config AuthError AuthAnswer AuthCall AuthHistory AuthResponse}
    (reachable : Reachable (authMachine platform) (AuthCall.program settings platform)
      (Recorded.start initial clock) config)
    (steps : Steps (authMachine platform) (AuthCall.program settings platform) config config')
    (isAccount : initial.user userId = some account)
    (isUnlocked : account.lockedUntil = none)
    (isFresh : account.failedLoginCount = 0)
    (areFree : EventsSatisfy (attemptFree settings platform userId) initial config'.shared.log)
    (isShort : config'.shared.clock <
      config.shared.clock + seconds settings.lockoutDurationSeconds)
    (noneSucceeds : ∀ event ∈ eventsBetween config config', mark event ≠ .succeeded userId) :
    (comparedRequests userId (eventsBetween config config')).card ≤
      settings.maxFailedLoginAttempts := by
  obtain ⟨invariant, _⟩ := orderly_history (reachable.trans steps)
  obtain ⟨isInitial, _, _⟩ := log_extends reachable
  obtain ⟨sameInitial, isLater, events, isLog, times⟩ := log_extends steps
  have first : config.shared.initial = initial := isInitial
  have second : config'.shared.initial = initial := sameInitial.trans first
  have satisfied : EventsSatisfy (Proper settings platform) initial config'.shared.log := by
    rw [← second]
    exact invariant.1
  have areBetween : eventsBetween config config' = events := by
    rw [eventsBetween, isLog, List.drop_left]
  have areShort : ∀ event ∈ events, config.shared.clock ≤ event.time ∧
      event.time < config.shared.clock + seconds settings.lockoutDurationSeconds := by
    intro event isEvent
    have isPast := invariant.2 event (by rw [isLog]; exact List.mem_append_right _ isEvent)
    exact ⟨times event isEvent, Nat.lt_of_le_of_lt isPast isShort⟩
  have arePast := invariant.2
  rw [areBetween] at noneSucceeds ⊢
  rw [isLog] at satisfied areFree arePast
  obtain ⟨account', boundedBefore⟩ :=
    bounded_history satisfied.of_append areFree.of_append isAccount isUnlocked isFresh
  obtain ⟨account'', boundedAfter, within⟩ :=
    within_history satisfied areFree boundedBefore areShort noneSucceeds
  have isBounded := (within _ arePast isLater isShort).le (boundedAfter.2 _ arePast)
  have fewer := card_comparedRequests_le userId events
  omega

end Runs

/-- Logins that are all past the lockout check before the first one compares its
wrong password. -/
def parallelLogins (count : Nat) : List (Action AuthCall) :=
  (List.range count).map (fun number => .start number (.sample (lit "wrong") number)) ++
    (List.replicate 3 (List.range count)).flatten.map .step

/-- Two parallel logins use up the single attempt of an account. -/
theorem guesses_exceeded :
    ∃ config, Reachable (authMachine .plain) (AuthCall.program (Settings.sample 0) .plain)
        (Recorded.start AuthStore.sample 0) config ∧
      AuthStore.sample.user 1 = some (.sample 1) ∧
      config.shared.clock < seconds (Settings.sample 0).lockoutDurationSeconds ∧
      (∀ event ∈ config.shared.log, mark event ≠ .succeeded 1) ∧
      (Settings.sample 0).maxFailedLoginAttempts <
        (comparedRequests 1 config.shared.log).card :=
  ⟨runSample 0 (parallelLogins 2), reachable_runSample 0 _, by decide +kernel, by decide +kernel,
    by decide +kernel, by decide +kernel⟩

theorem sample_guesses_bounded :
    (comparedRequests 1 (eventsBetween (.initial (Recorded.start AuthStore.sample 0))
        (runSample 1 (parallelLogins 2)))).card ≤
      (Settings.sample 1).maxFailedLoginAttempts :=
  @guesses_bounded (.sample 1) _ _ _ _ _ _ _ .refl (reachable_runSample 1 _) rfl rfl rfl
    (by decide +kernel) (by decide +kernel) (by decide +kernel)

end Auth
end SigmaForge
