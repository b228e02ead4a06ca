import SigmaForge.Auth.Service
import SigmaForge.Foundation.Serial

/-!
# The calls of the repositories, one at a time

What each call does when no other session runs.
-/

namespace SigmaForge
namespace Auth

open Text ReadCommitted

/-- What a call answers and leaves in the tables, when it runs alone. -/
def callEffect (platform : Platform) (op : AuthOp) (time : Nat) (store : AuthStore) :
    Except AuthError (AuthAnswer op) × AuthStore :=
  alone (schema platform) .database time (sqlAlchemy platform op) store

/-- What a call does to the row of a user. -/
def AuthOp.onUser : AuthOp → User → User
  | .incrementFailedLogin userId, user =>
      if user.id = userId then { user with failedLoginCount := user.failedLoginCount + 1 }
      else user
  | .resetFailedLogin userId lastLoginAt, user =>
      if user.id = userId then
        { user with failedLoginCount := 0, lockedUntil := none, lastLoginAt := some lastLoginAt }
      else user
  | .setLockedUntil userId lockedUntil, user =>
      if user.id = userId then { user with lockedUntil } else user
  | .resetExpiredLockout userId time, user =>
      if user.id = userId ∧ user.lockedUntil.any (· ≤ time) then
        { user with failedLoginCount := 0, lockedUntil := none }
      else user
  | _, user => user

/-- No call changes the key of a user. -/
@[simp] theorem onUser_id (op : AuthOp) (user : User) : (op.onUser user).id = user.id := by
  cases op <;> simp only [AuthOp.onUser] <;> split_ifs <;> rfl

section Calls

variable
    {platform : Platform}
    {store : AuthStore}
    {time : Nat}

/-- A statement in a transaction of its own. -/
theorem alone_executeAndCommit
    {statement : Statement}
    {answer : Answer statement}
    (isAnswer : (effect platform statement store).answer = some answer) :
    alone (schema platform) .database time (executeAndCommit statement) store =
      (.ok answer, (effect platform statement store).writes.foldl AuthStore.apply store) := by
  have isAnswered : answerAlone (schema platform) AuthError.database time (.execute statement)
      (store, []) = (.ok answer, store, (effect platform statement store).writes) :=
    answerAlone_of_some _ _ _ isAnswer
  simp only [alone, executeAndCommit, Program.bind_eq, Program.solo_bind, execute, commit,
    Program.solo_perform]
  rw [isAnswered]
  rfl

/-- The write concerns the tokens. -/
def OnTokens (write : Write) : Prop := ∀ userId columns, write ≠ .updateLogin userId columns

/-- Writes of tokens change no user. -/
theorem user_foldl
    {changes : List Write}
    (notUpdates : ∀ write ∈ changes, OnTokens write)
    (store : AuthStore)
    (id : UUID) :
    (changes.foldl AuthStore.apply store).user id = store.user id := by
  induction changes generalizing store with
  | nil => rfl
  | cons write changes inductionHypothesis =>
      rw [List.foldl_cons, inductionHypothesis
        (fun other isOther => notUpdates other (List.mem_cons_of_mem _ isOther))]
      exact AuthStore.user_apply_of_other (notUpdates write List.mem_cons_self) id

/-- The rows of the users after an `UPDATE` of one of them. -/
theorem user_updated
    {userId : UUID}
    {user : User}
    (found : store.user userId = some user)
    (columns : User → LoginColumns)
    (id : UUID) :
    (store.apply (.updateLogin userId (columns user))).user id =
      (store.user id).map fun other =>
        if other.id = userId then { other with toLoginColumns := columns other } else other := by
  rw [AuthStore.user_updateLogin]
  cases isOther : store.user id with
  | none => rfl
  | some other =>
      simp only [Option.map_some, AuthTables.updatedUser]
      split_ifs with sameId
      · rw [AuthStore.user_unique found isOther sameId]
      · rfl

/-- The rows of the users after `updateLogin`. -/
theorem user_updateLogin_effect
    (userId : UUID)
    (condition : User → Bool)
    (columns : User → LoginColumns)
    (id : UUID) :
    ((updateLogin store userId condition columns).writes.foldl AuthStore.apply store).user id =
      (store.user id).map fun user =>
        if user.id = userId ∧ condition user then { user with toLoginColumns := columns user }
        else user := by
  unfold updateLogin
  cases found : store.user userId with
  | none =>
      simp only [Option.filter_none, reads, List.foldl_nil]
      cases isUser : store.user id with
      | none => rfl
      | some user =>
          rw [Option.map_some, if_neg]
          rintro ⟨rfl, _⟩
          rw [AuthStore.user_id isUser, isUser] at found
          contradiction
  | some user =>
      by_cases holds : condition user
      · simp only [Option.filter_some, holds, if_true, writes, List.foldl_cons, List.foldl_nil]
        rw [user_updated found]
        cases isOther : store.user id with
        | none => rfl
        | some other =>
            simp only [Option.map_some]
            by_cases sameId : other.id = userId
            · obtain rfl := AuthStore.user_unique found isOther sameId
              rw [if_pos sameId, if_pos ⟨sameId, holds⟩]
            · rw [if_neg sameId, if_neg fun both => sameId both.1]
      · simp only [Option.filter_some, holds, if_false, Bool.false_eq_true, reads,
          List.foldl_nil]
        cases isOther : store.user id with
        | none => rfl
        | some other =>
            rw [Option.map_some, if_neg]
            rintro ⟨sameId, isHeld⟩
            obtain rfl := AuthStore.user_unique found isOther sameId
            exact holds isHeld

theorem revokeWhere_onTokens
    {id : UUID}
    {condition : RefreshToken → Bool}
    {revokedAt : Nat}
    {write : Write}
    (isWritten : write ∈ (revokeWhere store id condition revokedAt).writes) :
    OnTokens write := by
  unfold revokeWhere at isWritten
  split at isWritten
  · simp [reads] at isWritten
  · rw [List.mem_singleton.mp isWritten]
    exact fun _ _ => Write.noConfusion

/-- The statement writes tokens only, and none that is revoked. -/
def isGuarded : Statement → Bool
  | .incrementFailedLogin _ => false
  | .resetFailedLogin _ _ => false
  | .setLockedUntil _ _ => false
  | .resetExpiredLockout _ _ => false
  | .revokeToken _ _ => false
  | _ => true

/-- The operations that the calls about tokens need. -/
structure AllowsGuarded (allowed : SessionOp Statement → Prop) : Prop where
  execute : ∀ statement, isGuarded statement = true → allowed (.execute statement)
  commit : allowed .commit
  rollback : allowed .rollback
  now : allowed .now

section Only

variable
    {allowed : SessionOp Statement → Prop}

theorem AllowsGuarded.only_execute
    (allows : AllowsGuarded allowed)
    {statement : Statement}
    (guarded : isGuarded statement = true) :
    (Auth.execute statement).Only allowed :=
  Program.Only.perform (allows.execute statement guarded)

theorem AllowsGuarded.only_commit (allows : AllowsGuarded allowed) : Auth.commit.Only allowed :=
  Program.Only.perform allows.commit

theorem AllowsGuarded.only_rollback (allows : AllowsGuarded allowed) :
    Auth.rollback.Only allowed :=
  Program.Only.perform allows.rollback

theorem AllowsGuarded.only_clock (allows : AllowsGuarded allowed) : clock.Only allowed :=
  Program.Only.perform allows.now

theorem only_executeAndCommit
    (allows : AllowsGuarded allowed)
    {statement : Statement}
    (isAllowed : allowed (.execute statement)) :
    (executeAndCommit statement).Only allowed :=
  (Program.Only.perform isAllowed).bind fun _ => allows.only_commit.bind fun _ => trivial

theorem only_incrementFailedLogin
    (allows : AllowsGuarded allowed)
    {userId : UUID}
    (isAllowed : allowed (.execute (.incrementFailedLogin userId))) :
    (incrementFailedLogin userId).Only allowed :=
  (Program.Only.perform isAllowed).bind fun _ =>
    allows.only_commit.bind fun _ => Program.Only.ofOption _ _

theorem only_transaction
    {α : Type}
    (allows : AllowsGuarded allowed)
    {body : Session α}
    (only : body.Only allowed) :
    (transaction body).Only allowed :=
  only.catchWith fun _ => allows.only_rollback.bind fun _ => trivial

theorem only_create (allows : AllowsGuarded allowed) (token : NewToken) :
    (create token).Only allowed := by
  apply (allows.only_execute rfl).bind fun _ => allows.only_commit.bind fun _ => ?_
  exact (allows.only_execute rfl).bind fun stored => Program.Only.ofOption _ _

theorem only_rotateTransaction
    (allows : AllowsGuarded allowed)
    (tokenId : UUID)
    (now : Nat)
    (replacement : NewToken) :
    (rotateTransaction tokenId now replacement).Only allowed := by
  apply (allows.only_execute rfl).bind
  intro lockedUser
  cases lockedUser with
  | none => exact allows.only_rollback.bind fun _ => trivial
  | some userId =>
      apply (allows.only_execute rfl).bind
      intro consumed
      cases consumed with
      | none => exact allows.only_rollback.bind fun _ => trivial
      | some id =>
          exact (allows.only_execute rfl).bind fun _ => allows.only_commit.bind fun _ => trivial

theorem only_revoke
    (allows : AllowsGuarded allowed)
    {tokenId : UUID}
    (isAllowed : ∀ revokedAt, allowed (.execute (.revokeToken tokenId revokedAt))) :
    (revoke tokenId).Only allowed :=
  allows.only_clock.bind fun revokedAt => only_executeAndCommit allows (isAllowed revokedAt)

theorem only_revokeEach
    (allows : AllowsGuarded allowed)
    (userId : UUID)
    (revokedAt : Nat)
    (ids : List UUID) :
    (revokeEach userId revokedAt ids).Only allowed := by
  induction ids with
  | nil => trivial
  | cons id ids inductionHypothesis =>
      exact (allows.only_execute rfl).bind fun _ => inductionHypothesis

theorem only_revokeTransaction (allows : AllowsGuarded allowed) (userId : UUID) :
    (revokeTransaction userId).Only allowed := by
  apply (allows.only_execute rfl).bind fun _ => allows.only_clock.bind fun revokedAt => ?_
  apply (allows.only_execute rfl).bind
  exact fun ids => (only_revokeEach allows userId revokedAt ids).bind fun _ => allows.only_commit

end Only

/-- What is allowed then writes tokens only. -/
theorem allowsGuarded_onTokens : AllowsGuarded (Writes (schema platform) OnTokens) := by
  refine ⟨fun statement guarded store write isWritten => ?_, trivial, trivial, trivial⟩
  change write ∈ (effect platform statement store).writes at isWritten
  cases statement with
  | selectUserByEmail email => simp [effect, reads] at isWritten
  | selectUserById id => simp [effect, reads] at isWritten
  | lockUser id =>
      simp only [effect] at isWritten
      split at isWritten <;> simp [reads] at isWritten
  | incrementFailedLogin userId => contradiction
  | resetFailedLogin userId lastLoginAt => contradiction
  | setLockedUntil userId lockedUntil => contradiction
  | resetExpiredLockout userId now => contradiction
  | selectTokenByHash tokenHash => simp [effect, reads] at isWritten
  | selectTokenById id => simp [effect, reads] at isWritten
  | insertToken token =>
      simp only [effect] at isWritten
      split_ifs at isWritten
      · rw [List.mem_singleton.mp isWritten]
        exact fun _ _ => Write.noConfusion
      · simp [raises] at isWritten
  | consumeToken id userId now => exact revokeWhere_onTokens isWritten
  | revokeToken id revokedAt => contradiction
  | unrevokedTokens userId => simp [effect, reads] at isWritten
  | revokeUnrevoked id userId revokedAt => exact revokeWhere_onTokens isWritten

/-- A call that writes tokens only leaves the users alone. -/
theorem user_callEffect_of_only
    {op : AuthOp}
    (only : (sqlAlchemy platform op).Only (Writes (schema platform) OnTokens))
    (id : UUID) :
    (callEffect platform op time store).2.user id = store.user id := by
  obtain ⟨changes, onTokens, isCommitted⟩ :=
    solo_writes AuthError.database time only store [] (by simp)
  exact (congrArg (AuthStore.user · id) isCommitted).trans (user_foldl onTokens store id)

theorem updateLogin_answer
    (userId : UUID)
    (condition : User → Bool)
    (columns : User → LoginColumns) :
    (updateLogin store userId condition columns).answer = some () := by
  unfold updateLogin
  split <;> rfl

/-- `increment_failed_login` counts one more. -/
theorem callEffect_incrementFailedLogin
    {userId : UUID}
    {count : Int}
    (returns : (callEffect platform (.incrementFailedLogin userId) time store).1 = .ok count) :
    ∃ user, store.user userId = some user ∧ count = user.failedLoginCount + 1 ∧
      (callEffect platform (.incrementFailedLogin userId) time store).2 =
        store.apply (.updateLogin userId
          { user.toLoginColumns with failedLoginCount := user.failedLoginCount + 1 }) := by
  simp only [callEffect, alone, sqlAlchemy, incrementFailedLogin, Program.bind_eq,
    Program.solo_bind, execute, commit, Program.solo_perform] at returns ⊢
  cases found : store.user userId with
  | none =>
      have isEffect : effect platform (.incrementFailedLogin userId) store = reads none := by
        simp only [effect, found]
      rw [answerAlone_of_some _ _ _ (congrArg Effect.answer isEffect)] at returns
      contradiction
  | some user =>
      by_cases inRange : IsSmallInt (user.failedLoginCount + 1)
      · have isEffect : effect platform (.incrementFailedLogin userId) store =
            writes (.updateLogin userId
              { user.toLoginColumns with failedLoginCount := user.failedLoginCount + 1 })
              (some (user.failedLoginCount + 1)) := by
          simp only [effect, found, if_pos inRange]
        have isAnswered : answerAlone (schema platform) AuthError.database time
            (.execute (.incrementFailedLogin userId)) (store, []) =
              (.ok (some (user.failedLoginCount + 1)), store,
                (effect platform (.incrementFailedLogin userId) store).writes) :=
          answerAlone_of_some _ _ _ (congrArg Effect.answer isEffect)
        rw [isAnswered] at returns ⊢
        refine ⟨user, rfl, (Except.ok.inj returns).symm, ?_⟩
        change (effect platform (.incrementFailedLogin userId) store).writes.foldl
          AuthStore.apply store = _
        rw [isEffect]
        rfl
      · have isEffect : effect platform (.incrementFailedLogin userId) store = raises := by
          simp only [effect, found, if_neg inRange]
        rw [answerAlone_of_none _ _ _ (congrArg Effect.answer isEffect)] at returns
        contradiction

/-- An `UPDATE` of the login columns in a transaction of its own. -/
theorem user_executeAndCommit
    (statement : Statement)
    {userId : UUID}
    {condition : User → Bool}
    {columns : User → LoginColumns}
    (isAnswer : ∃ answer, (effect platform statement store).answer = some answer)
    (isWrites : (effect platform statement store).writes =
      (updateLogin store userId condition columns).writes)
    (id : UUID) :
    (alone (schema platform) AuthError.database time (executeAndCommit statement) store).2.user
        id =
      (store.user id).map fun user =>
        if user.id = userId ∧ condition user then { user with toLoginColumns := columns user }
        else user := by
  obtain ⟨answer, isAnswer⟩ := isAnswer
  rw [alone_executeAndCommit isAnswer, isWrites]
  exact user_updateLogin_effect userId condition columns id

/-- What a call that returns does to the users. -/
theorem user_callEffect
    {op : AuthOp}
    {value : AuthAnswer op}
    (returns : (callEffect platform op time store).1 = .ok value)
    (id : UUID) :
    (callEffect platform op time store).2.user id = (store.user id).map op.onUser := by
  have unchanged : (sqlAlchemy platform op).Only (Writes (schema platform) OnTokens) →
      (∀ user, op.onUser user = user) →
      (callEffect platform op time store).2.user id = (store.user id).map op.onUser := by
    intro only same
    rw [user_callEffect_of_only only, funext same]
    exact Option.map_id'.symm
  have allows : AllowsGuarded (Writes (schema platform) OnTokens) := allowsGuarded_onTokens
  cases op with
  | getByEmail email => exact unchanged (allows.only_execute rfl) fun _ => rfl
  | getById userId => exact unchanged (allows.only_execute rfl) fun _ => rfl
  | create token => exact unchanged (only_create allows token) fun _ => rfl
  | getByHash tokenHash => exact unchanged (allows.only_execute rfl) fun _ => rfl
  | rotateIfActive tokenId now replacement =>
      exact unchanged
        (only_transaction allows (only_rotateTransaction allows tokenId now replacement))
        fun _ => rfl
  | revoke tokenId =>
      exact unchanged (only_revoke allows fun _ _ _ => revokeWhere_onTokens) fun _ => rfl
  | revokeAllForUser userId =>
      exact unchanged (only_transaction allows (only_revokeTransaction allows userId))
        fun _ => rfl
  | now => exact unchanged allows.only_clock fun _ => rfl
  | verifyPassword password hash => exact unchanged trivial fun _ => rfl
  | incrementFailedLogin userId =>
      obtain ⟨user, found, _, isStore⟩ := callEffect_incrementFailedLogin returns
      rw [isStore]
      exact user_updated found
        (fun user => { user.toLoginColumns with failedLoginCount := user.failedLoginCount + 1 })
        id
  | resetFailedLogin userId lastLoginAt =>
      apply (user_executeAndCommit (.resetFailedLogin userId lastLoginAt)
        ⟨(), updateLogin_answer _ _ _⟩ rfl id).trans
      apply congrArg (Option.map · (store.user id))
      funext user
      simp [AuthOp.onUser]
  | setLockedUntil userId lockedUntil =>
      apply (user_executeAndCommit (.setLockedUntil userId lockedUntil)
        ⟨(), updateLogin_answer _ _ _⟩ rfl id).trans
      apply congrArg (Option.map · (store.user id))
      funext user
      simp [AuthOp.onUser]
  | resetExpiredLockout userId now =>
      exact user_executeAndCommit (.resetExpiredLockout userId now)
        ⟨(), updateLogin_answer _ _ _⟩ rfl id

/-- The row of `get_by_email` is the row of its user. -/
theorem callEffect_getByEmail
    {email : Str}
    {row : User}
    (returns : (callEffect platform (.getByEmail email) time store).1 = .ok (some row)) :
    store.user row.id = some row := by
  have found : store.users.find? (fun user => platform.citext user.email =
      platform.citext email) = some row := Except.ok.inj returns
  exact AuthStore.user_of_mem (List.mem_of_find?_eq_some found)

end Calls

end Auth
end SigmaForge
