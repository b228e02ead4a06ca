import SigmaForge.Foundation.ReadCommitted
import SigmaForge.Auth.Security
import Mathlib.Data.List.Nodup

/-!
# The tables of users and refresh tokens

`users` and `refresh_tokens` with their keys, the statements that the
repositories execute on them and the rows that these lock.
-/

namespace SigmaForge
namespace Auth

open Text ReadCommitted

/-- The columns of `users` that logins change. -/
structure LoginColumns where
  failedLoginCount : Int
  lockedUntil : Option Nat
  lastLoginAt : Option Nat
  deriving DecidableEq

/-- `User`, with the name of its role. -/
structure User extends LoginColumns where
  id : UUID
  email : Str
  hashedPassword : Str
  fullName : Str
  roleName : Str
  isActive : Bool
  mfaEnabled : Bool
  deriving DecidableEq

/-- A refresh token that is to be stored. -/
structure NewToken where
  id : UUID
  userId : UUID
  tokenHash : Str
  expiresAt : Nat
  deriving DecidableEq

/-- `RefreshToken`. -/
structure RefreshToken extends NewToken where
  revokedAt : Option Nat
  deriving DecidableEq

/-- The rows of both tables. -/
structure AuthTables where
  users : List User
  tokens : List RefreshToken

/-- What the statements write. -/
inductive Write
  | updateLogin (userId : UUID) (columns : LoginColumns)
  | insertToken (token : NewToken)
  | revokeToken (id : UUID) (revokedAt : Nat)

/-- What a statement can lock: rows, and entries of the unique index. -/
inductive Key
  | user (id : UUID)
  | token (id : UUID)
  | tokenHash (tokenHash : Str)
  deriving DecidableEq

namespace AuthTables

/-- The keys of the tables. -/
structure Consistent (tables : AuthTables) : Prop where
  userIds : (tables.users.map fun user => user.id).Nodup
  tokenIds : (tables.tokens.map fun token => token.id).Nodup
  tokenHashes : (tables.tokens.map fun token => token.tokenHash).Nodup
  owner : ∀ token ∈ tables.tokens, ∃ user ∈ tables.users, user.id = token.userId

/-- The write violates no key. -/
def Admissible (tables : AuthTables) : Write → Prop
  | .updateLogin _ _ => True
  | .revokeToken _ _ => True
  | .insertToken token =>
      (∀ other ∈ tables.tokens, other.id ≠ token.id) ∧
        (∀ other ∈ tables.tokens, other.tokenHash ≠ token.tokenHash) ∧
        ∃ user ∈ tables.users, user.id = token.userId

instance (tables : AuthTables) (write : Write) : Decidable (tables.Admissible write) :=
  match write with
  | .updateLogin _ _ => inferInstanceAs (Decidable True)
  | .revokeToken _ _ => inferInstanceAs (Decidable True)
  | .insertToken _ => inferInstanceAs (Decidable (_ ∧ _ ∧ _))

/-- The row of the user with other login columns. -/
def updatedUser (userId : UUID) (columns : LoginColumns) (user : User) : User :=
  if user.id = userId then { user with toLoginColumns := columns } else user

/-- The row of the token with a revocation. -/
def revokedToken (id : UUID) (revokedAt : Nat) (token : RefreshToken) : RefreshToken :=
  if token.id = id then { token with revokedAt := some revokedAt } else token

@[simp] theorem updatedUser_id (userId : UUID) (columns : LoginColumns) (user : User) :
    (updatedUser userId columns user).id = user.id := by
  unfold updatedUser
  split_ifs <;> rfl

@[simp] theorem revokedToken_id (id : UUID) (revokedAt : Nat) (token : RefreshToken) :
    (revokedToken id revokedAt token).id = token.id := by
  unfold revokedToken
  split_ifs <;> rfl

@[simp] theorem revokedToken_userId (id : UUID) (revokedAt : Nat) (token : RefreshToken) :
    (revokedToken id revokedAt token).userId = token.userId := by
  unfold revokedToken
  split_ifs <;> rfl

@[simp] theorem revokedToken_tokenHash (id : UUID) (revokedAt : Nat) (token : RefreshToken) :
    (revokedToken id revokedAt token).tokenHash = token.tokenHash := by
  unfold revokedToken
  split_ifs <;> rfl

/-- The effect of a write. -/
def write (tables : AuthTables) : Write → AuthTables
  | .updateLogin userId columns =>
      { tables with users := tables.users.map (updatedUser userId columns) }
  | .insertToken token => { tables with tokens := tables.tokens ++ [⟨token, none⟩] }
  | .revokeToken id revokedAt =>
      { tables with tokens := tables.tokens.map (revokedToken id revokedAt) }

/-- Admissible writes keep the keys. -/
theorem Consistent.write
    {tables : AuthTables}
    (consistent : tables.Consistent)
    {write : Write}
    (admissible : tables.Admissible write) :
    (tables.write write).Consistent := by
  cases write with
  | updateLogin userId columns =>
      refine ⟨?_, consistent.tokenIds, consistent.tokenHashes, ?_⟩
      · simp only [AuthTables.write, List.map_map, Function.comp_def, updatedUser_id]
        exact consistent.userIds
      · intro token isToken
        obtain ⟨user, isUser, isOwner⟩ := consistent.owner token isToken
        exact ⟨_, List.mem_map_of_mem isUser, (updatedUser_id _ _ _).trans isOwner⟩
  | revokeToken id revokedAt =>
      refine ⟨consistent.userIds, ?_, ?_, ?_⟩
      · simp only [AuthTables.write, List.map_map, Function.comp_def, revokedToken_id]
        exact consistent.tokenIds
      · simp only [AuthTables.write, List.map_map, Function.comp_def, revokedToken_tokenHash]
        exact consistent.tokenHashes
      · intro token isToken
        obtain ⟨old, isOld, rfl⟩ := List.mem_map.mp isToken
        rw [revokedToken_userId]
        exact consistent.owner old isOld
  | insertToken token =>
      obtain ⟨idNew, hashNew, owned⟩ := admissible
      refine ⟨consistent.userIds, ?_, ?_, ?_⟩
      · simp only [AuthTables.write, List.map_append, List.map_cons, List.map_nil]
        rw [← List.concat_eq_append]
        apply consistent.tokenIds.concat
        intro isOld
        obtain ⟨other, isOther, sameId⟩ := List.mem_map.mp isOld
        exact idNew other isOther sameId
      · simp only [AuthTables.write, List.map_append, List.map_cons, List.map_nil]
        rw [← List.concat_eq_append]
        apply consistent.tokenHashes.concat
        intro isOld
        obtain ⟨other, isOther, sameHash⟩ := List.mem_map.mp isOld
        exact hashNew other isOther sameHash
      · intro other isOther
        rcases List.mem_append.mp isOther with isOld | isNew
        · exact consistent.owner other isOld
        · rw [List.mem_singleton.mp isNew]
          exact owned

end AuthTables

/-- Tables that satisfy their keys. -/
structure AuthStore extends AuthTables where
  consistent : toAuthTables.Consistent

namespace AuthStore

/-- A write that violates a key does nothing. -/
def apply (store : AuthStore) (write : Write) : AuthStore :=
  if admissible : store.Admissible write then
    ⟨store.toAuthTables.write write, store.consistent.write admissible⟩
  else store

theorem apply_toAuthTables
    {store : AuthStore}
    {write : Write}
    (admissible : store.Admissible write) :
    (store.apply write).toAuthTables = store.toAuthTables.write write := by
  rw [apply, dif_pos admissible]

/-- The user with the given key. -/
def user (store : AuthStore) (id : UUID) : Option User :=
  store.users.find? fun user => user.id = id

/-- The token with the given key. -/
def token (store : AuthStore) (id : UUID) : Option RefreshToken :=
  store.tokens.find? fun token => token.id = id

/-- The tables with the given users and no token. -/
def ofUsers (users : List User) (userIds : (users.map fun user => user.id).Nodup) :
    AuthStore where
  users := users
  tokens := []
  consistent := ⟨userIds, List.nodup_nil, List.nodup_nil, by simp⟩

end AuthStore

/-! ## Statements -/

/-- The statements of the repositories. -/
inductive Statement
  | selectUserByEmail (email : Str)
  | selectUserById (id : UUID)
  /-- `select(User.id) … .with_for_update()`. -/
  | lockUser (id : UUID)
  | incrementFailedLogin (userId : UUID)
  | resetFailedLogin (userId : UUID) (lastLoginAt : Nat)
  | setLockedUntil (userId : UUID) (lockedUntil : Option Nat)
  | resetExpiredLockout (userId : UUID) (now : Nat)
  | selectTokenByHash (tokenHash : Str)
  | selectTokenById (id : UUID)
  | insertToken (token : NewToken)
  /-- The conditional `UPDATE` of `rotate_if_active`. -/
  | consumeToken (id userId : UUID) (now : Nat)
  | revokeToken (id : UUID) (revokedAt : Nat)
  /-- The rows that the `UPDATE` of `revoke_all_for_user` finds. -/
  | unrevokedTokens (userId : UUID)
  /-- One of these rows, for which the condition is evaluated again. -/
  | revokeUnrevoked (id userId : UUID) (revokedAt : Nat)

/-- The answers of the statements. -/
abbrev Answer : Statement → Type
  | .selectUserByEmail _ => Option User
  | .selectUserById _ => Option User
  | .lockUser _ => Option UUID
  | .incrementFailedLogin _ => Option Int
  | .resetFailedLogin _ _ => Unit
  | .setLockedUntil _ _ => Unit
  | .resetExpiredLockout _ _ => Unit
  | .selectTokenByHash _ => Option RefreshToken
  | .selectTokenById _ => Option RefreshToken
  | .insertToken _ => Unit
  | .consumeToken _ _ _ => Option UUID
  | .revokeToken _ _ => Unit
  | .unrevokedTokens _ => List UUID
  | .revokeUnrevoked _ _ _ => Unit

/-- The keys that a write locks. -/
def Write.keys : Write → List Key
  | .updateLogin userId _ => [.user userId]
  | .insertToken token => [.token token.id, .tokenHash token.tokenHash]
  | .revokeToken id _ => [.token id]

/-- A statement that only reads. -/
def reads {α : Type} (answer : α) : Effect Key Write α := ⟨[], some answer, []⟩

/-- A statement that writes. -/
def writes {α : Type} (write : Write) (answer : α) : Effect Key Write α :=
  ⟨write.keys, some answer, [write]⟩

/-- A statement that raises. -/
def raises {α : Type} : Effect Key Write α := ⟨[], none, []⟩

/-- An `UPDATE` of the login columns, where the condition holds. -/
def updateLogin (store : AuthStore) (userId : UUID) (condition : User → Bool)
    (columns : User → LoginColumns) : Effect Key Write Unit :=
  match (store.user userId).filter condition with
  | none => reads ()
  | some user => writes (.updateLogin userId (columns user)) ()

/-- An `UPDATE` of `revoked_at`, where the condition holds. -/
def revokeWhere (store : AuthStore) (id : UUID) (condition : RefreshToken → Bool)
    (revokedAt : Nat) : Effect Key Write (Option UUID) :=
  match (store.token id).filter condition with
  | none => reads none
  | some token => writes (.revokeToken id revokedAt) (some token.id)

/-- The effect of a statement. -/
def effect (platform : Platform) :
    (statement : Statement) → AuthStore → Effect Key Write (Answer statement)
  | .selectUserByEmail email, store =>
      reads (store.users.find? fun user => platform.citext user.email = platform.citext email)
  | .selectUserById id, store => reads (store.user id)
  | .lockUser id, store =>
      match store.user id with
      | none => reads none
      | some user => ⟨[.user id], some (some user.id), []⟩
  | .incrementFailedLogin userId, store =>
      match store.user userId with
      | none => reads none
      | some user =>
          let count := user.failedLoginCount + 1
          -- `smallint out of range`: the type that the migration gives the column
          if IsSmallInt count then
            writes (.updateLogin userId { user.toLoginColumns with failedLoginCount := count })
              (some count)
          else raises
  | .resetFailedLogin userId lastLoginAt, store =>
      updateLogin store userId (fun _ => true) fun _ =>
        { failedLoginCount := 0, lockedUntil := none, lastLoginAt := some lastLoginAt }
  | .setLockedUntil userId lockedUntil, store =>
      updateLogin store userId (fun _ => true) fun user =>
        { user.toLoginColumns with lockedUntil }
  | .resetExpiredLockout userId now, store =>
      updateLogin store userId (fun user => user.lockedUntil.any (· ≤ now)) fun user =>
        { user.toLoginColumns with failedLoginCount := 0, lockedUntil := none }
  | .selectTokenByHash tokenHash, store =>
      reads (store.tokens.find? fun token => token.tokenHash = tokenHash)
  | .selectTokenById id, store => reads (store.token id)
  | .insertToken token, store =>
      if store.Admissible (.insertToken token) then writes (.insertToken token) () else raises
  | .consumeToken id userId now, store =>
      revokeWhere store id
        (fun token => token.userId = userId ∧ token.revokedAt = none ∧ now < token.expiresAt) now
  | .revokeToken id revokedAt, store =>
      let effect := revokeWhere store id (fun _ => true) revokedAt
      { effect with answer := some () }
  | .unrevokedTokens userId, store =>
      reads ((store.tokens.filter fun token =>
        token.userId = userId ∧ token.revokedAt = none).map fun token => token.id)
  | .revokeUnrevoked id userId revokedAt, store =>
      let effect := revokeWhere store id
        (fun token => token.userId = userId ∧ token.revokedAt = none) revokedAt
      { effect with answer := some () }

/-- What a statement writes is locked by it. -/
theorem effect_locked
    (platform : Platform)
    (statement : Statement)
    (store : AuthStore)
    (write : Write)
    (isWritten : write ∈ (effect platform statement store).writes)
    (key : Key)
    (isKey : key ∈ write.keys) :
    key ∈ (effect platform statement store).locks := by
  have ofUpdate : ∀ {userId condition columns},
      write ∈ (updateLogin store userId condition columns).writes →
      key ∈ (updateLogin store userId condition columns).locks := by
    intro userId condition columns
    unfold updateLogin
    split
    · simp [reads]
    · rintro isWritten
      rwa [List.mem_singleton.mp isWritten] at isKey
  have ofRevoke : ∀ {id condition revokedAt},
      write ∈ (revokeWhere store id condition revokedAt).writes →
      key ∈ (revokeWhere store id condition revokedAt).locks := by
    intro id condition revokedAt
    unfold revokeWhere
    split
    · simp [reads]
    · rintro isWritten
      rwa [List.mem_singleton.mp isWritten] at isKey
  cases statement with
  | selectUserByEmail email => simp [effect, reads] at isWritten
  | selectUserById id => simp [effect, reads] at isWritten
  | lockUser id =>
      simp only [effect] at isWritten
      split at isWritten <;> simp [reads] at isWritten
  | incrementFailedLogin userId =>
      simp only [effect] at isWritten ⊢
      split at isWritten
      · simp [reads] at isWritten
      · split_ifs at isWritten ⊢ with inRange
        · rwa [List.mem_singleton.mp isWritten] at isKey
        · simp [raises] at isWritten
  | resetFailedLogin userId lastLoginAt => exact ofUpdate isWritten
  | setLockedUntil userId lockedUntil => exact ofUpdate isWritten
  | resetExpiredLockout userId now => exact ofUpdate isWritten
  | selectTokenByHash tokenHash => simp [effect, reads] at isWritten
  | selectTokenById id => simp [effect, reads] at isWritten
  | insertToken token =>
      simp only [effect] at isWritten ⊢
      split_ifs at isWritten ⊢
      · rwa [List.mem_singleton.mp isWritten] at isKey
      · simp [raises] at isWritten
  | consumeToken id userId now => exact ofRevoke isWritten
  | revokeToken id revokedAt => exact ofRevoke isWritten
  | unrevokedTokens userId => simp [effect, reads] at isWritten
  | revokeUnrevoked id userId revokedAt => exact ofRevoke isWritten

/-- The tables and their statements. -/
def schema (platform : Platform) : Schema AuthStore Key Write Answer where
  apply := AuthStore.apply
  keys := Write.keys
  effect := effect platform
  locked := effect_locked platform

/-! ## What writes do to the rows -/

namespace AuthStore

variable {store : AuthStore}

theorem user_id {id : UUID} {user : User} (found : store.user id = some user) : user.id = id := by
  simpa using List.find?_some found

theorem token_id
    {id : UUID}
    {token : RefreshToken}
    (found : store.token id = some token) :
    token.id = id := by
  simpa using List.find?_some found

/-- A row is found under its key. -/
theorem user_of_mem {user : User} (isUser : user ∈ store.users) :
    store.user user.id = some user := by
  obtain ⟨found, isFound⟩ : ∃ found, store.user user.id = some found := by
    rw [← Option.isSome_iff_exists, AuthStore.user, List.find?_isSome]
    exact ⟨user, isUser, by simp⟩
  have same := List.inj_on_of_nodup_map store.consistent.userIds
    (List.mem_of_find?_eq_some isFound) isUser (user_id isFound)
  rw [isFound, same]

/-- Two rows with one key are the same. -/
theorem user_unique
    {id other : UUID}
    {user user' : User}
    (found : store.user id = some user)
    (found' : store.user other = some user')
    (sameId : user'.id = id) :
    user' = user := by
  have isOther := user_id found'
  rw [sameId] at isOther
  rw [← isOther, found, Option.some.injEq] at found'
  exact found'.symm

theorem token_of_mem {token : RefreshToken} (isToken : token ∈ store.tokens) :
    store.token token.id = some token := by
  obtain ⟨found, isFound⟩ : ∃ found, store.token token.id = some found := by
    rw [← Option.isSome_iff_exists, AuthStore.token, List.find?_isSome]
    exact ⟨token, isToken, by simp⟩
  have same := List.inj_on_of_nodup_map store.consistent.tokenIds
    (List.mem_of_find?_eq_some isFound) isToken (token_id isFound)
  rw [isFound, same]

theorem mem_of_token
    {id : UUID}
    {token : RefreshToken}
    (found : store.token id = some token) :
    token ∈ store.tokens :=
  List.mem_of_find?_eq_some found

/-- The rows of the users after an `UPDATE`. -/
theorem user_updateLogin (store : AuthStore) (userId id : UUID) (columns : LoginColumns) :
    (store.apply (.updateLogin userId columns)).user id =
      (store.user id).map (AuthTables.updatedUser userId columns) := by
  have admissible : store.Admissible (.updateLogin userId columns) := trivial
  unfold user
  rw [apply_toAuthTables admissible, AuthTables.write, List.find?_map]
  simp only [Function.comp_def, AuthTables.updatedUser_id]

/-- The rows of the tokens after an `UPDATE`. -/
theorem token_revokeToken (store : AuthStore) (id other : UUID) (revokedAt : Nat) :
    (store.apply (.revokeToken id revokedAt)).token other =
      (store.token other).map (AuthTables.revokedToken id revokedAt) := by
  have admissible : store.Admissible (.revokeToken id revokedAt) := trivial
  unfold token
  rw [apply_toAuthTables admissible, AuthTables.write, List.find?_map]
  simp only [Function.comp_def, AuthTables.revokedToken_id]

/-- The rows of the tokens after an `INSERT`. -/
theorem token_insertToken
    {token : NewToken}
    (admissible : store.Admissible (.insertToken token))
    (id : UUID) :
    (store.apply (.insertToken token)).token id =
      (store.token id).or (if token.id = id then some ⟨token, none⟩ else none) := by
  unfold AuthStore.token
  rw [apply_toAuthTables admissible, AuthTables.write, List.find?_append]
  congr 1
  simp only [List.find?_cons, List.find?_nil]
  split_ifs with sameId <;> simp [sameId]

/-- Only an `UPDATE` of its login columns changes a user. -/
theorem user_apply_of_other
    {write : Write}
    (notUpdate : ∀ userId columns, write ≠ .updateLogin userId columns)
    (id : UUID) :
    (store.apply write).user id = store.user id := by
  by_cases admissible : store.Admissible write
  · unfold user
    rw [apply_toAuthTables admissible]
    cases write with
    | updateLogin userId columns => exact absurd rfl (notUpdate userId columns)
    | insertToken token => rfl
    | revokeToken tokenId revokedAt => rfl
  · rw [apply, dif_neg admissible]

/-- No write removes a token or changes what it was stored with, and no write
takes a revocation back. -/
theorem token_kept
    {id : UUID}
    {token : RefreshToken}
    (write : Write)
    (found : store.token id = some token) :
    ∃ token', (store.apply write).token id = some token' ∧
      token'.toNewToken = token.toNewToken ∧
      (token.revokedAt ≠ none → token'.revokedAt ≠ none) := by
  by_cases admissible : store.Admissible write
  · cases write with
    | updateLogin userId columns =>
        refine ⟨token, ?_, rfl, fun isRevoked => isRevoked⟩
        unfold AuthStore.token at found ⊢
        rw [apply_toAuthTables admissible]
        exact found
    | insertToken inserted =>
        refine ⟨token, ?_, rfl, fun isRevoked => isRevoked⟩
        rw [token_insertToken admissible, found]
        rfl
    | revokeToken revoked revokedAt =>
        refine ⟨AuthTables.revokedToken revoked revokedAt token, ?_, ?_, ?_⟩
        · rw [token_revokeToken, found]
          rfl
        · unfold AuthTables.revokedToken
          split_ifs <;> rfl
        · intro isRevoked
          unfold AuthTables.revokedToken
          split_ifs
          · exact Option.some_ne_none revokedAt
          · exact isRevoked
  · exact ⟨token, by rwa [apply, dif_neg admissible], rfl, fun isRevoked => isRevoked⟩

end AuthStore

/-- A token changes only under its key. -/
theorem dependsOn_token (platform : Platform) (id : UUID) :
    DependsOn (schema platform) (fun store => store.token id) (.token id) := by
  intro store write notKey
  change (store.apply write).token id = store.token id
  by_cases admissible : store.Admissible write
  · cases write with
    | updateLogin userId columns =>
        unfold AuthStore.token
        rw [AuthStore.apply_toAuthTables admissible]
        rfl
    | insertToken token =>
        have different : token.id ≠ id := by
          rintro rfl
          exact notKey List.mem_cons_self
        rw [AuthStore.token_insertToken admissible, if_neg different, Option.or_none]
    | revokeToken revoked revokedAt =>
        have different : revoked ≠ id := by
          rintro rfl
          exact notKey List.mem_cons_self
        rw [AuthStore.token_revokeToken]
        cases found : store.token id with
        | none => rfl
        | some token =>
            have isId := AuthStore.token_id found
            rw [Option.map_some, AuthTables.revokedToken, if_neg]
            rw [isId]
            exact different.symm
  · rw [AuthStore.apply, dif_neg admissible]

end Auth
end SigmaForge
