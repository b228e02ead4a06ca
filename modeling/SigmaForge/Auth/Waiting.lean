import SigmaForge.Foundation.Waiting
import SigmaForge.Auth.Knowledge

/-!
# Sessions of users do not deadlock

What the transactions of the repositories lock, and in which order.  A session that holds
the lock of a user waits for tokens of this user only, and whoever holds one of these
without the lock of the user does not wait.
-/

namespace SigmaForge
namespace Auth

open Text ReadCommitted

/-! ## Locks -/

/-- The row of the user, if it is there. -/
def needsUser (store : AuthStore) (id : UUID) (mode : Mode) : List (Key × Mode) :=
  if (store.user id).isSome then [(.user id, mode)] else []

/-- The row of the token, if it is there.  A row that the snapshot has found is waited
for, even if it does not satisfy the condition any more. -/
def needsToken (store : AuthStore) (id : UUID) (condition : RefreshToken → Bool) :
    List (Key × Mode) :=
  if ((store.token id).filter condition).isSome then [(.token id, .update)] else []

/-- The locks that a statement may have to wait for. -/
def needs : Statement → AuthStore → List (Key × Mode)
  | .lockUser id, store => needsUser store id .exclusive
  | .incrementFailedLogin userId, store => needsUser store userId .update
  | .resetFailedLogin userId _, store => needsUser store userId .update
  | .setLockedUntil userId _, store => needsUser store userId .update
  | .resetExpiredLockout userId _, store => needsUser store userId .update
  | .insertToken token, store =>
      -- both index entries, and the row that `user_id` refers to
      if store.Admissible (.insertToken token) then
        [(.token token.id, .exclusive), (.tokenHash token.tokenHash, .exclusive),
          (.user token.userId, .share)]
      else []
  | .consumeToken id userId _, store => needsToken store id fun token => token.userId = userId
  | .revokeToken id _, store => needsToken store id fun _ => true
  | .revokeUnrevoked id userId _, store =>
      needsToken store id fun token => token.userId = userId
  | _, _ => []

/-- The rows that a write refers to. -/
def Write.refers : Write → List Key
  | .insertToken token => [.user token.userId]
  | _ => []

theorem needsUser_of_found {store : AuthStore} {id : UUID} {user : User}
    (found : store.user id = some user) (mode : Mode) :
    needsUser store id mode = [(.user id, mode)] := by
  simp [needsUser, found]

theorem locks_updateLogin
    {store : AuthStore}
    {userId : UUID}
    {condition : User → Bool}
    {columns : User → LoginColumns}
    {key : Key}
    (isLocked : key ∈ (updateLogin store userId condition columns).locks) :
    (key, .update) ∈ needsUser store userId .update := by
  unfold updateLogin at isLocked
  split at isLocked
  · simp [reads] at isLocked
  · rename_i user isFound
    obtain ⟨found, _⟩ := Option.filter_eq_some_iff.mp isFound
    obtain rfl := List.mem_singleton.mp isLocked
    simp [needsUser_of_found found]

theorem locks_revokeWhere
    {store : AuthStore}
    {id : UUID}
    {condition weaker : RefreshToken → Bool}
    {revokedAt : Nat}
    (implies : ∀ token, condition token = true → weaker token = true)
    {key : Key}
    (isLocked : key ∈ (revokeWhere store id condition revokedAt).locks) :
    (key, .update) ∈ needsToken store id weaker := by
  unfold revokeWhere at isLocked
  split at isLocked
  · simp [reads] at isLocked
  · rename_i token isFound
    obtain ⟨found, holds⟩ := Option.filter_eq_some_iff.mp isFound
    obtain rfl := List.mem_singleton.mp isLocked
    simp [needsToken, found, implies token holds]

/-- What a statement locks for writing is among what it may wait for. -/
theorem locks_needs
    (platform : Platform)
    (statement : Statement)
    (store : AuthStore)
    (key : Key)
    (isLocked : key ∈ (effect platform statement store).locks) :
    ∃ mode, mode ≠ .share ∧ (key, mode) ∈ needs statement store := by
  have ofUpdate : ∀ {needed : List (Key × Mode)}, (key, .update) ∈ needed →
      ∃ mode, mode ≠ .share ∧ (key, mode) ∈ needed :=
    fun isNeeded => ⟨.update, by simp, isNeeded⟩
  cases statement with
  | selectUserByEmail email => simp [effect, reads] at isLocked
  | selectUserById id => simp [effect, reads] at isLocked
  | lockUser id =>
      simp only [effect] at isLocked
      split at isLocked
      · simp [reads] at isLocked
      · rename_i user found
        obtain rfl := List.mem_singleton.mp isLocked
        exact ⟨.exclusive, by simp, by simp [needs, needsUser_of_found found]⟩
  | incrementFailedLogin userId =>
      simp only [effect] at isLocked
      split at isLocked
      · simp [reads] at isLocked
      · rename_i user found
        split_ifs at isLocked
        · obtain rfl := List.mem_singleton.mp isLocked
          exact ofUpdate (by simp [needs, needsUser_of_found found])
        · simp [raises] at isLocked
  | resetFailedLogin userId lastLoginAt => exact ofUpdate (locks_updateLogin isLocked)
  | setLockedUntil userId lockedUntil => exact ofUpdate (locks_updateLogin isLocked)
  | resetExpiredLockout userId now => exact ofUpdate (locks_updateLogin isLocked)
  | selectTokenByHash tokenHash => simp [effect, reads] at isLocked
  | selectTokenById id => simp [effect, reads] at isLocked
  | insertToken token =>
      simp only [effect] at isLocked
      simp only [needs]
      split_ifs at isLocked ⊢
      · have isKey : key ∈ [Key.token token.id, .tokenHash token.tokenHash] := isLocked
        refine ⟨.exclusive, by simp, ?_⟩
        simp only [List.mem_cons, List.not_mem_nil, or_false] at isKey
        rcases isKey with rfl | rfl <;> simp
      · simp [raises] at isLocked
  | consumeToken id userId now => exact ofUpdate (locks_revokeWhere (by simp +contextual) isLocked)
  | revokeToken id revokedAt => exact ofUpdate (locks_revokeWhere (by simp) isLocked)
  | unrevokedTokens userId => simp [effect, reads] at isLocked
  | revokeUnrevoked id userId revokedAt =>
      exact ofUpdate (locks_revokeWhere (by simp +contextual) isLocked)

/-- The locks of the tables. -/
def tableLocks (platform : Platform) : Locking (schema platform) where
  needs := needs
  refers := Write.refers
  locks := locks_needs platform

/-! ## The order in which transactions lock -/

/-- The token has the id and the hash that the request has drawn. -/
def AuthCall.Draws (platform : Platform) (call : AuthCall) (token : NewToken) : Prop :=
  ∃ draw ∈ call.draw, token.id = draw.tokenId ∧
    token.tokenHash = hashRefreshToken platform draw.rawToken

/-- How far a transaction has come. -/
inductive Phase
  | idle
  /-- The row of the user was not there. -/
  | absent (userId : UUID)
  | owns (userId : UUID)
  /-- Only `COMMIT` is left. -/
  | written

/-- What a statement does as far as the order of locks is concerned. -/
inductive Kind
  | query
  | lockUser (userId : UUID)
  /-- One row is locked, whatever it is. -/
  | oneRow
  | insert (token : NewToken)
  /-- A token of the user is locked. -/
  | tokenOf (userId : UUID)

/-- The kind of a statement. -/
def Statement.kind : Statement → Kind
  | .lockUser id => .lockUser id
  | .incrementFailedLogin _ => .oneRow
  | .resetFailedLogin _ _ => .oneRow
  | .setLockedUntil _ _ => .oneRow
  | .resetExpiredLockout _ _ => .oneRow
  | .revokeToken _ _ => .oneRow
  | .insertToken token => .insert token
  | .consumeToken _ userId _ => .tokenOf userId
  | .revokeUnrevoked _ userId _ => .tokenOf userId
  | _ => .query

/-- The statements of a phase. -/
def Phase.Allows (platform : Platform) (call : AuthCall) : Phase → Kind → Prop
  | _, .query => True
  | .idle, .lockUser _ => True
  | .idle, .oneRow => True
  | .idle, .insert token => call.Draws platform token
  | .absent userId, .tokenOf owner => owner = userId
  | .owns userId, .tokenOf owner => owner = userId
  | .owns userId, .insert token => call.Draws platform token ∧ token.userId = userId
  | _, _ => False

/-- The phase after a statement, except for the lock of a user. -/
def Phase.after : Phase → Kind → Phase
  | _, .oneRow => .written
  | _, .insert _ => .written
  | phase, _ => phase

/-- The phase after an operation. -/
def Phase.next (phase : Phase) :
    (op : SessionOp Statement) → Except AuthError (SessionAnswer Answer op) → Phase
  | .execute (.lockUser id), .ok found => if found.isSome then .owns id else .absent id
  | .execute statement, .ok _ => phase.after statement.kind
  | .execute _, .error _ => phase
  | .now, _ => phase
  | .commit, _ => .idle
  | .rollback, _ => .idle

/-- The order in which the transactions of a request lock. -/
def lockOrder (platform : Platform) (call : AuthCall) :
    Protocol AuthError (SessionAnswer Answer) Phase where
  allowed phase op :=
    match op with
    | .execute statement => phase.Allows platform call statement.kind
    | _ => True
  next := Phase.next

section Follows

variable
    {settings : Settings}
    {platform : Platform}
    {call : AuthCall}

/-- Whether it returns or raises, the program ends without an open transaction. -/
abbrev Returns (platform : Platform) (call : AuthCall) {α : Type} (phase : Phase)
    (program : Session α) : Prop :=
  Follows (lockOrder platform call) phase program
    (inPhase (fun phase _ => phase = .idle) (· = .idle))

theorem follows_query {statement : Statement} (isQuery : statement.kind = .query) :
    Returns platform call .idle (execute statement) := by
  apply Follows.perform
  · simp only [lockOrder, isQuery]
    trivial
  · intro answer
    cases statement <;> first | contradiction | rfl
  · exact fun _ => by cases statement <;> rfl

theorem follows_commit (phase : Phase) : Returns platform call phase commit :=
  Follows.perform trivial (fun _ => rfl) fun _ => rfl

theorem follows_rollback (phase : Phase) : Returns platform call phase rollback :=
  Follows.perform trivial (fun _ => rfl) fun _ => rfl

/-- A statement that raises opens no transaction. -/
theorem follows_execute
    (statement : Statement)
    (isAllowed : Phase.idle.Allows platform call statement.kind) :
    Follows (lockOrder platform call) .idle (execute statement)
      (inPhase (fun _ _ => True) (· = .idle)) :=
  Follows.perform isAllowed (fun _ => trivial) fun _ => by cases statement <;> rfl

theorem follows_executeAndCommit
    {statement : Statement}
    (isOne : statement.kind = .oneRow) :
    Returns platform call .idle (executeAndCommit statement) := by
  have isAllowed : Phase.idle.Allows platform call statement.kind := by
    rw [isOne]
    trivial
  apply (follows_execute statement isAllowed).bind
  · intro phase answer _
    exact (follows_commit phase).bind (fun _ _ isIdle => isIdle) fun _ _ isIdle => isIdle
  · exact fun _ _ isIdle => isIdle

theorem follows_ofOption {α : Type} (option : Option α) :
    Returns platform call .idle (Program.ofOption .database option) := by
  cases option <;> rfl

theorem follows_incrementFailedLogin (userId : UUID) :
    Returns platform call .idle (incrementFailedLogin userId) := by
  apply (follows_execute (.incrementFailedLogin userId) trivial).bind
  · intro phase count _
    apply (follows_commit phase).bind
    · rintro _ _ rfl
      exact follows_ofOption _
    · exact fun _ _ isIdle => isIdle
  · exact fun _ _ isIdle => isIdle

theorem follows_create {token : NewToken} (drawn : call.Draws platform token) :
    Returns platform call .idle (create token) := by
  apply (follows_execute (.insertToken token) drawn).bind
  · intro phase _ _
    apply (follows_commit phase).bind
    · rintro _ _ rfl
      apply (follows_query rfl).bind
      · rintro _ _ rfl
        exact follows_ofOption _
      · exact fun _ _ isIdle => isIdle
    · exact fun _ _ isIdle => isIdle
  · exact fun _ _ isIdle => isIdle

/-- A part of a transaction, after which nothing is open if it returns. -/
abbrev Closes (platform : Platform) (call : AuthCall) {α : Type} (phase : Phase)
    (program : Session α) : Prop :=
  Follows (lockOrder platform call) phase program
    (inPhase (fun phase _ => phase = .idle) fun _ => True)

theorem closes_of_returns
    {α : Type}
    {phase : Phase}
    {program : Session α}
    (returns : Returns platform call phase program) :
    Closes platform call phase program := by
  apply returns.mono
  intro phase result ends
  cases result with
  | ok value => exact ends
  | error error => trivial

theorem closes_commit {α : Type} (phase : Phase) (value : α) :
    Closes platform call phase (commit.bind fun _ => .ret value) :=
  (follows_commit phase).bind (fun _ _ isIdle => isIdle) fun _ _ _ => trivial

theorem closes_rollback {α : Type} (phase : Phase) (value : α) :
    Closes platform call phase (rollback.bind fun _ => .ret value) :=
  (follows_rollback phase).bind (fun _ _ isIdle => isIdle) fun _ _ _ => trivial

/-- A transaction is rolled back when something fails in it. -/
theorem follows_transaction
    {α : Type}
    {body : Session α}
    (closes : Closes platform call .idle body) :
    Returns platform call .idle (transaction body) := by
  apply closes.catchWith
  · exact fun _ _ isIdle => isIdle
  · intro phase error _
    exact (follows_rollback phase).bind (fun _ _ isIdle => isIdle) fun _ _ isIdle => isIdle

theorem follows_lockUser (userId : UUID) :
    Follows (lockOrder platform call) .idle (execute (.lockUser userId))
      (inPhase (fun phase found => phase = if found.isSome then .owns userId else .absent userId)
        fun _ => True) :=
  Follows.perform trivial (fun _ => rfl) fun _ => trivial

theorem follows_rotateIfActive
    (tokenId : UUID)
    (now : Nat)
    {replacement : NewToken}
    (drawn : call.Draws platform replacement) :
    Returns platform call .idle (rotateIfActive tokenId now replacement) := by
  apply follows_transaction
  apply (follows_lockUser replacement.userId).bind
  · rintro _ lockedUser rfl
    cases lockedUser with
    | none => exact closes_rollback _ false
    | some userId =>
        have consumes : Follows (lockOrder platform call) (.owns replacement.userId)
            (execute (.consumeToken tokenId replacement.userId now))
            (inPhase (fun phase _ => phase = .owns replacement.userId) fun _ => True) :=
          Follows.perform rfl (fun _ => rfl) fun _ => trivial
        apply consumes.bind
        · rintro _ consumed rfl
          cases consumed with
          | none => exact closes_rollback _ false
          | some id =>
              have inserts : Follows (lockOrder platform call) (.owns replacement.userId)
                  (execute (.insertToken replacement)) (inPhase (fun _ _ => True) fun _ => True) :=
                Follows.perform ⟨drawn, rfl⟩ (fun _ => trivial) fun _ => trivial
              exact inserts.bind (fun phase _ _ => closes_commit phase true)
                fun _ _ _ => trivial
        · exact fun _ _ _ => trivial
  · exact fun _ _ _ => trivial

theorem follows_clock (phase : Phase) :
    Follows (lockOrder platform call) phase clock
      (inPhase (fun phase' _ => phase' = phase) (· = phase)) :=
  Follows.perform trivial (fun _ => rfl) fun _ => rfl

theorem follows_revoke (tokenId : UUID) : Returns platform call .idle (revoke tokenId) := by
  apply (follows_clock .idle).bind
  · rintro _ revokedAt rfl
    exact follows_executeAndCommit rfl
  · exact fun _ _ isIdle => isIdle

theorem follows_revokeEach
    (userId : UUID)
    (revokedAt : Nat)
    (ids : List UUID)
    {phase : Phase}
    (sweeps : phase = .owns userId ∨ phase = .absent userId) :
    Follows (lockOrder platform call) phase (revokeEach userId revokedAt ids)
      (inPhase (fun phase' _ => phase' = phase) fun _ => True) := by
  induction ids with
  | nil => rfl
  | cons id ids inductionHypothesis =>
      have revokes : Follows (lockOrder platform call) phase
          (execute (.revokeUnrevoked id userId revokedAt))
          (inPhase (fun phase' _ => phase' = phase) fun _ => True) := by
        refine Follows.perform ?_ (fun _ => rfl) fun _ => trivial
        rcases sweeps with rfl | rfl <;> rfl
      apply revokes.bind
      · rintro _ _ rfl
        exact inductionHypothesis
      · exact fun _ _ _ => trivial

theorem follows_revokeAllForUser (userId : UUID) :
    Returns platform call .idle (revokeAllForUser userId) := by
  apply follows_transaction
  apply (follows_lockUser userId).bind
  · intro phase found isPhase
    have sweeps : phase = .owns userId ∨ phase = .absent userId := by
      cases found with
      | none => exact .inr isPhase
      | some id => exact .inl isPhase
    apply (follows_clock phase).bind
    · rintro phase revokedAt rfl
      have finds : Follows (lockOrder platform call) phase (execute (.unrevokedTokens userId))
          (inPhase (fun phase' _ => phase' = phase) fun _ => True) :=
        Follows.perform trivial (fun _ => rfl) fun _ => trivial
      apply finds.bind
      · rintro phase ids rfl
        apply (follows_revokeEach userId revokedAt ids sweeps).bind
        · exact fun phase _ _ => closes_of_returns (follows_commit phase)
        · exact fun _ _ _ => trivial
      · exact fun _ _ _ => trivial
    · exact fun _ _ _ => trivial
  · exact fun _ _ _ => trivial

/-- What is stored is what the request has drawn. -/
def AuthOp.IsDrawn (platform : Platform) (call : AuthCall) : AuthOp → Prop
  | .create token => call.Draws platform token
  | .rotateIfActive _ _ replacement => call.Draws platform replacement
  | _ => True

theorem follows_sqlAlchemy {op : AuthOp} (isDrawn : op.IsDrawn platform call) :
    Returns platform call .idle (sqlAlchemy platform op) := by
  cases op with
  | getByEmail email => exact follows_query rfl
  | getById userId => exact follows_query rfl
  | incrementFailedLogin userId => exact follows_incrementFailedLogin userId
  | resetFailedLogin userId lastLoginAt => exact follows_executeAndCommit rfl
  | setLockedUntil userId lockedUntil => exact follows_executeAndCommit rfl
  | resetExpiredLockout userId now => exact follows_executeAndCommit rfl
  | create token => exact follows_create isDrawn
  | getByHash tokenHash => exact follows_query rfl
  | rotateIfActive tokenId now replacement => exact follows_rotateIfActive tokenId now isDrawn
  | revoke tokenId => exact follows_revoke tokenId
  | revokeAllForUser userId => exact follows_revokeAllForUser userId
  | now => exact follows_clock .idle
  | verifyPassword password hash => rfl

section Service

variable (settings : Settings)

theorem drawn_createAccessToken (user : User) (jti : UUID) :
    (createAccessToken settings platform user jti).Only (AuthOp.IsDrawn platform call) :=
  Program.Only.bind (Program.Only.perform trivial) fun _ => trivial

theorem drawn_rejectReuse {α : Type} (userId : UUID) :
    (rejectReuse userId : Service α).Only (AuthOp.IsDrawn platform call) :=
  Program.Only.bind (Program.Only.perform trivial) fun _ => trivial

theorem drawn_refuse {α : Type} (password : Str) (error : AuthError) :
    (refuse password error : Service α).Only (AuthOp.IsDrawn platform call) :=
  Program.Only.bind (Program.Only.perform trivial) fun _ => trivial

theorem drawn_login
    {draw : Draw}
    (isDraw : call.draw = some draw)
    (request : LoginRequest) :
    (login settings platform request draw).Only (AuthOp.IsDrawn platform call) := by
  apply Program.Only.bind (Program.Only.perform trivial)
  intro found
  cases found with
  | none => exact drawn_refuse _ _
  | some user =>
      apply Program.Only.bind (Program.Only.perform trivial)
      intro now
      apply Program.Only.bind
      · unfold checkLockout
        split
        · trivial
        · split
          · exact drawn_refuse _ _
          · exact Program.Only.perform trivial
      · intro _
        unfold judgePassword
        split
        · apply Program.Only.bind (Program.Only.perform trivial)
          intro isRight
          split
          · apply Program.Only.bind (Program.Only.perform trivial)
            intro lastLoginAt
            apply Program.Only.bind (Program.Only.perform trivial)
            intro _
            apply (drawn_createAccessToken settings user draw.jti).bind
            intro accessToken
            apply Program.Only.bind (Program.Only.perform trivial)
            intro issuedAt
            exact Program.Only.bind (Program.Only.perform ⟨draw, isDraw, rfl, rfl⟩)
              fun _ => trivial
          · refine Program.Only.bind ?_ fun _ => trivial
            apply Program.Only.bind (Program.Only.perform trivial)
            intro newFailedCount
            split
            · apply Program.Only.bind (Program.Only.perform trivial)
              exact fun _ => Program.Only.perform trivial
            · trivial
        · exact drawn_refuse _ _

theorem drawn_refresh
    {draw : Draw}
    (isDraw : call.draw = some draw)
    (rawToken : Str) :
    (refresh settings platform rawToken draw).Only (AuthOp.IsDrawn platform call) := by
  apply Program.Only.bind (Program.Only.perform trivial)
  intro found
  apply (Program.Only.ofOption _ _).bind
  intro existing
  split
  · apply Program.Only.bind (Program.Only.perform trivial)
    intro now
    apply (Program.Only.ensure _ _).bind
    intro _
    apply Program.Only.bind (Program.Only.perform trivial)
    intro found
    apply (Program.Only.ofOption _ _).bind
    intro user
    apply Program.Only.bind (Program.Only.perform trivial)
    intro issuedAt
    apply Program.Only.bind (Program.Only.perform ⟨draw, isDraw, rfl, rfl⟩)
    intro rotated
    split
    · exact (drawn_createAccessToken settings user draw.jti).bind fun _ => trivial
    · exact drawn_rejectReuse _
  · exact drawn_rejectReuse _

theorem drawn_logout (rawToken : Str) :
    (logout platform rawToken).Only (AuthOp.IsDrawn platform call) := by
  apply Program.Only.bind (Program.Only.perform trivial)
  intro found
  split
  · trivial
  · exact Program.Only.perform trivial

/-- The program of a request stores only what the request has drawn. -/
theorem drawn_program (call : AuthCall) :
    (call.program settings platform).Only (AuthOp.IsDrawn platform call) := by
  cases call with
  | login request draw => exact (drawn_login settings rfl request).bind fun _ => trivial
  | refresh rawToken draw => exact (drawn_refresh settings rfl rawToken).bind fun _ => trivial
  | logout rawToken => exact (drawn_logout rawToken).bind fun _ => trivial
  | logoutAll userId => exact Program.Only.bind (Program.Only.perform trivial) fun _ => trivial

/-- Every request locks in this order. -/
theorem follows_serve (platform : Platform) (call : AuthCall) :
    Follows (lockOrder platform call) .idle (serve settings platform call) fun _ _ => True := by
  refine (Follows.interpret (fun op isDrawn => ?_) (drawn_program settings call)).mono
    fun _ _ _ => trivial
  apply (follows_sqlAlchemy isDrawn).mono
  intro phase result ends
  cases result <;> exact ends

end Service

end Follows

/-! ## What the phases mean -/

/-- The owner of the token with the given key. -/
def AuthStore.owner (store : AuthStore) (id : UUID) : Option UUID :=
  (store.token id).map fun token => token.userId

/-- A token does not change hands. -/
theorem owner_kept
    {store : AuthStore}
    {id userId : UUID}
    (write : Write)
    (isOwner : store.owner id = some userId) :
    (store.apply write).owner id = some userId := by
  obtain ⟨token, found, rfl⟩ := Option.map_eq_some_iff.mp isOwner
  obtain ⟨token', found', same, _⟩ := AuthStore.token_kept write found
  rw [AuthStore.owner, found', Option.map_some]
  exact congrArg (fun token : NewToken => some token.userId) same

/-- Revocations leave the owners alone. -/
theorem owner_foldl
    {writes : List Write}
    (revocations : ∀ write ∈ writes, ∃ id revokedAt, write = .revokeToken id revokedAt)
    (store : AuthStore)
    (id : UUID) :
    (writes.foldl AuthStore.apply store).owner id = store.owner id := by
  induction writes generalizing store with
  | nil => rfl
  | cons write writes inductionHypothesis =>
      rw [List.foldl_cons, inductionHypothesis
        fun other isOther => revocations other (List.mem_cons_of_mem _ isOther)]
      obtain ⟨revoked, revokedAt, rfl⟩ := revocations write List.mem_cons_self
      rw [AuthStore.owner, AuthStore.token_revokeToken, Option.map_map]
      apply congrArg (Option.map · (store.token id))
      funext token
      exact AuthTables.revokedToken_userId _ _ _

theorem mem_needsUser_iff
    {store : AuthStore}
    {id : UUID}
    {key : Key}
    {mode needed : Mode} :
    (key, mode) ∈ needsUser store id needed ↔
      (store.user id).isSome ∧ key = .user id ∧ mode = needed := by
  unfold needsUser
  split_ifs with isThere <;> simp [isThere]

theorem mem_needsToken_iff
    {store : AuthStore}
    {id : UUID}
    {condition : RefreshToken → Bool}
    {key : Key}
    {mode : Mode} :
    (key, mode) ∈ needsToken store id condition ↔
      ((store.token id).filter condition).isSome ∧ key = .token id ∧ mode = .update := by
  unfold needsToken
  split_ifs with isThere <;> simp [isThere]

theorem owner_of_needsToken
    {store : AuthStore}
    {id userId : UUID}
    (isThere : ((store.token id).filter fun token => token.userId = userId).isSome) :
    store.owner id = some userId := by
  obtain ⟨token, isFound⟩ := Option.isSome_iff_exists.mp isThere
  obtain ⟨found, isOwner⟩ := Option.filter_eq_some_iff.mp isFound
  rw [AuthStore.owner, found, Option.map_some, of_decide_eq_true isOwner]

section Means

variable (platform : Platform)

/-- A lock of the request: of a user, of a token that is stored, or of an index entry that
it has drawn. -/
def Explained (call : AuthCall) (store : AuthStore) : Key → Prop
  | .user _ => True
  | .token id => store.owner id ≠ none ∨ ∃ draw ∈ call.draw, id = draw.tokenId
  | .tokenHash tokenHash => ∃ draw ∈ call.draw,
      tokenHash = hashRefreshToken platform draw.rawToken

/-- The session holds the lock of the user, and else only locks of tokens of the user,
which it has revoked. -/
structure OwnsUser (pid : ProcId) (userId : UUID) (db : AuthDb) : Prop where
  user : db.holder (.user userId) = some pid
  tokens : ∀ key, db.holder key = some pid → key = .user userId ∨
    ∃ id, key = .token id ∧ (db.committed (schema platform)).owner id = some userId
  revocations : ∀ write ∈ db.pending pid, ∃ id revokedAt, write = .revokeToken id revokedAt

/-- What is true of a session in a phase. -/
def Phase.Means (pid : ProcId) (call : AuthCall) : Phase → AuthDb → Prop
  | .idle, db => Clear pid db
  | .absent userId, db => Clear pid db ∧ ¬HasUser userId (db.committed (schema platform))
  | .owns userId, db => OwnsUser platform pid userId db
  | .written, db => ∀ key, db.holder key = some pid →
      Explained platform call (db.committed (schema platform)) key

/-- What a statement needs: the row of a user or of a stored token, or what the `INSERT` of
a new token locks. -/
inductive Needs (store : AuthStore) : Kind → Key → Mode → Prop
  | lockUser (id : UUID) : Needs store (.lockUser id) (.user id) .exclusive
  | user (id : UUID) : Needs store .oneRow (.user id) .update
  | stored {id : UUID} : store.owner id ≠ none → Needs store .oneRow (.token id) .update
  | tokenOf {id userId : UUID} : store.owner id = some userId →
      Needs store (.tokenOf userId) (.token id) .update
  | newId {token : NewToken} : store.owner token.id = none →
      Needs store (.insert token) (.token token.id) .exclusive
  | newHash {token : NewToken} : store.owner token.id = none →
      Needs store (.insert token) (.tokenHash token.tokenHash) .exclusive
  | owner {token : NewToken} : store.owner token.id = none →
      Needs store (.insert token) (.user token.userId) .share

theorem needs_kind
    {statement : Statement}
    {store : AuthStore}
    {key : Key}
    {mode : Mode}
    (isNeeded : (key, mode) ∈ needs statement store) :
    Needs store statement.kind key mode := by
  have ofUser : ∀ {id}, (key, mode) ∈ needsUser store id .update →
      Needs store .oneRow key mode := by
    intro id isNeeded
    obtain ⟨_, rfl, rfl⟩ := mem_needsUser_iff.mp isNeeded
    exact .user id
  have ofToken : ∀ {id userId}, (key, mode) ∈
      (needsToken store id fun token => token.userId = userId) →
      Needs store (.tokenOf userId) key mode := by
    intro id userId isNeeded
    obtain ⟨isThere, rfl, rfl⟩ := mem_needsToken_iff.mp isNeeded
    exact .tokenOf (owner_of_needsToken isThere)
  cases statement with
  | lockUser id =>
      obtain ⟨_, rfl, rfl⟩ := mem_needsUser_iff.mp isNeeded
      exact .lockUser id
  | incrementFailedLogin userId => exact ofUser isNeeded
  | resetFailedLogin userId lastLoginAt => exact ofUser isNeeded
  | setLockedUntil userId lockedUntil => exact ofUser isNeeded
  | resetExpiredLockout userId now => exact ofUser isNeeded
  | insertToken token =>
      simp only [needs] at isNeeded
      split_ifs at isNeeded with admissible
      · have isNew : store.owner token.id = none := by
          rw [AuthStore.owner, (admissible_insertToken_iff.mp admissible).1]
          rfl
        simp only [List.mem_cons, Prod.mk.injEq, List.not_mem_nil, or_false] at isNeeded
        rcases isNeeded with ⟨rfl, rfl⟩ | ⟨rfl, rfl⟩ | ⟨rfl, rfl⟩
        · exact .newId isNew
        · exact .newHash isNew
        · exact .owner isNew
      · simp at isNeeded
  | revokeToken id revokedAt =>
      obtain ⟨isThere, rfl, rfl⟩ := mem_needsToken_iff.mp isNeeded
      refine .stored fun isAbsent => ?_
      rw [AuthStore.owner, Option.map_eq_none_iff] at isAbsent
      simp [isAbsent] at isThere
  | consumeToken id userId now => exact ofToken isNeeded
  | revokeUnrevoked id userId revokedAt => exact ofToken isNeeded
  | selectUserByEmail email => simp [needs] at isNeeded
  | selectUserById id => simp [needs] at isNeeded
  | selectTokenByHash tokenHash => simp [needs] at isNeeded
  | selectTokenById id => simp [needs] at isNeeded
  | unrevokedTokens userId => simp [needs] at isNeeded

/-- Only an `INSERT` needs more than one lock. -/
theorem needs_unique
    {statement : Statement}
    {store : AuthStore}
    {key key' : Key}
    {mode mode' : Mode}
    (noInsert : ∀ token, statement.kind ≠ .insert token)
    (isNeeded : (key, mode) ∈ needs statement store)
    (isNeeded' : (key', mode') ∈ needs statement store) :
    key' = key ∧ mode' = mode := by
  have ofUser : ∀ {id needed}, (key, mode) ∈ needsUser store id needed →
      (key', mode') ∈ needsUser store id needed → key' = key ∧ mode' = mode := by
    intro id needed isNeeded isNeeded'
    obtain ⟨_, rfl, rfl⟩ := mem_needsUser_iff.mp isNeeded
    exact (mem_needsUser_iff.mp isNeeded').2
  have ofToken : ∀ {id condition}, (key, mode) ∈ needsToken store id condition →
      (key', mode') ∈ needsToken store id condition → key' = key ∧ mode' = mode := by
    intro id condition isNeeded isNeeded'
    obtain ⟨_, rfl, rfl⟩ := mem_needsToken_iff.mp isNeeded
    exact (mem_needsToken_iff.mp isNeeded').2
  cases statement with
  | lockUser id => exact ofUser isNeeded isNeeded'
  | incrementFailedLogin userId => exact ofUser isNeeded isNeeded'
  | resetFailedLogin userId lastLoginAt => exact ofUser isNeeded isNeeded'
  | setLockedUntil userId lockedUntil => exact ofUser isNeeded isNeeded'
  | resetExpiredLockout userId now => exact ofUser isNeeded isNeeded'
  | insertToken token => exact absurd rfl (noInsert token)
  | revokeToken id revokedAt => exact ofToken isNeeded isNeeded'
  | consumeToken id userId now => exact ofToken isNeeded isNeeded'
  | revokeUnrevoked id userId revokedAt => exact ofToken isNeeded isNeeded'
  | selectUserByEmail email => simp [needs] at isNeeded
  | selectUserById id => simp [needs] at isNeeded
  | selectTokenByHash tokenHash => simp [needs] at isNeeded
  | selectTokenById id => simp [needs] at isNeeded
  | unrevokedTokens userId => simp [needs] at isNeeded

theorem Needs.of_owners
    {store store' : AuthStore}
    {kind : Kind}
    {key : Key}
    {mode : Mode}
    (isNeeded : Needs store kind key mode)
    (sameOwner : ∀ id, store.owner id = store'.owner id) :
    Needs store' kind key mode := by
  cases isNeeded with
  | lockUser id => exact .lockUser id
  | user id => exact .user id
  | stored isStored => exact .stored (sameOwner _ ▸ isStored)
  | tokenOf isOwner => exact .tokenOf (sameOwner _ ▸ isOwner)
  | newId isNew => exact .newId (sameOwner _ ▸ isNew)
  | newHash isNew => exact .newHash (sameOwner _ ▸ isNew)
  | owner isNew => exact .owner (sameOwner _ ▸ isNew)

variable
    {platform}
    {pid : ProcId}
    {call : AuthCall}
    {phase : Phase}
    {db : AuthDb}

/-- The owners that a session sees are the committed ones before it has inserted. -/
theorem Phase.Means.owner_view
    (isTrue : phase.Means platform pid call db)
    (notWritten : phase ≠ .written)
    (id : UUID) :
    (db.view (schema platform) pid).owner id = (db.committed (schema platform)).owner id := by
  cases phase with
  | idle => rw [view_of_idle isTrue.1]
  | absent userId => rw [view_of_idle isTrue.1.1]
  | owns userId => exact owner_foldl isTrue.revocations _ id
  | written => exact absurd rfl notWritten

/-- What a session needs in a phase, in terms of what is committed. -/
theorem needs_of_phase
    (isTrue : phase.Means platform pid call db)
    {statement : Statement}
    (isAllowed : phase.Allows platform call statement.kind)
    {key : Key}
    {mode : Mode}
    (isNeeded : (key, mode) ∈ needs statement (db.view (schema platform) pid)) :
    Needs (db.committed (schema platform)) statement.kind key mode ∧
      (phase = .idle ∨ ∃ userId, phase = .owns userId) := by
  have isKind := needs_kind isNeeded
  have notWritten : phase ≠ .written := by
    rintro rfl
    cases isKind' : statement.kind <;> rw [isKind'] at isKind isAllowed <;>
      first | exact isAllowed | cases isKind
  have isKind := isKind.of_owners (isTrue.owner_view notWritten)
  refine ⟨isKind, ?_⟩
  cases phase with
  | idle => exact .inl rfl
  | owns userId => exact .inr ⟨userId, rfl⟩
  | written => exact absurd rfl notWritten
  | absent userId =>
      -- a user that is not there has no tokens
      generalize statement.kind = kind at isAllowed isKind
      cases isKind with
      | @tokenOf id owner isOwner =>
          obtain rfl : owner = userId := isAllowed
          obtain ⟨token, found, rfl⟩ := Option.map_eq_some_iff.mp isOwner
          obtain ⟨user, isUser, sameId⟩ := (db.committed (schema platform)).consistent.owner token
            (AuthStore.mem_of_token found)
          exact absurd ⟨user, isUser, sameId⟩ isTrue.2
      | _ => exact isAllowed.elim

theorem Explained.of_kept
    {store store' : AuthStore}
    {key : Key}
    (explained : Explained platform call store key)
    (kept : ∀ id userId, store.owner id = some userId → store'.owner id = some userId) :
    Explained platform call store' key := by
  cases key with
  | user userId => trivial
  | token id =>
      refine explained.imp_left fun isStored => ?_
      obtain ⟨userId, isOwner⟩ := Option.ne_none_iff_exists'.mp isStored
      rw [kept id userId isOwner]
      exact Option.some_ne_none userId
  | tokenHash tokenHash => exact explained

/-- In every phase, the locks of a session are explained. -/
theorem Phase.Means.explained
    (isTrue : phase.Means platform pid call db)
    {key : Key}
    (isHeld : db.holder key = some pid) :
    Explained platform call (db.committed (schema platform)) key := by
  cases phase with
  | idle => exact absurd isHeld (isTrue.2 key)
  | absent userId => exact absurd isHeld (isTrue.1.2 key)
  | owns userId =>
      rcases isTrue.tokens key isHeld with rfl | ⟨id, rfl, isOwner⟩
      · trivial
      · exact .inl (isOwner ▸ Option.some_ne_none userId)
  | written => exact isTrue key isHeld

/-- What a statement of a phase needs is explained. -/
theorem explained_of_needs
    {store : AuthStore}
    {kind : Kind}
    {key : Key}
    {mode : Mode}
    (isAllowed : phase.Allows platform call kind)
    (isPhase : phase = .idle ∨ ∃ userId, phase = .owns userId)
    (isNeeded : Needs store kind key mode) :
    Explained platform call store key := by
  have drawn : ∀ {token}, kind = .insert token → call.Draws platform token := by
    rintro token rfl
    rcases isPhase with rfl | ⟨userId, rfl⟩
    · exact isAllowed
    · exact isAllowed.1
  cases isNeeded with
  | lockUser id => trivial
  | user id => trivial
  | owner _ => trivial
  | stored isStored => exact .inl isStored
  | tokenOf isOwner => exact .inl (isOwner ▸ Option.some_ne_none _)
  | newId _ =>
      obtain ⟨draw, isDraw, sameId, _⟩ := drawn rfl
      exact .inr ⟨draw, isDraw, sameId⟩
  | newHash _ =>
      obtain ⟨draw, isDraw, _, sameHash⟩ := drawn rfl
      exact ⟨draw, isDraw, sameHash⟩

theorem explained_of_locked
    (isTrue : phase.Means platform pid call db)
    {statement : Statement}
    (isAllowed : phase.Allows platform call statement.kind)
    {key : Key}
    (isLocked : key ∈ (effect platform statement (db.view (schema platform) pid)).locks) :
    Explained platform call (db.committed (schema platform)) key := by
  obtain ⟨mode, _, isLock⟩ := locks_needs platform statement _ key isLocked
  obtain ⟨isNeeded, isPhase⟩ := needs_of_phase isTrue isAllowed isLock
  exact explained_of_needs isAllowed isPhase isNeeded

/-- A query changes nothing. -/
theorem executed_query
    {statement : Statement}
    (isQuery : statement.kind = .query)
    (store : AuthStore) :
    db.executed pid (effect platform statement store) = db := by
  cases statement <;> first | contradiction | exact executed_silent rfl rfl db

/-- The tokens of a user are only revoked. -/
theorem revocations_of_tokenOf
    {statement : Statement}
    {userId : UUID}
    (isKind : statement.kind = .tokenOf userId)
    {store : AuthStore}
    {write : Write}
    (isWritten : write ∈ (effect platform statement store).writes) :
    ∃ id revokedAt, write = .revokeToken id revokedAt := by
  have ofRevoke : ∀ {id condition revokedAt},
      write ∈ (revokeWhere store id condition revokedAt).writes →
      ∃ id revokedAt, write = .revokeToken id revokedAt := by
    intro id condition revokedAt isWritten
    unfold revokeWhere at isWritten
    split at isWritten
    · simp [reads] at isWritten
    · exact ⟨_, _, List.mem_singleton.mp isWritten⟩
  cases statement with
  | consumeToken id owner now => exact ofRevoke isWritten
  | revokeUnrevoked id owner revokedAt => exact ofRevoke isWritten
  | _ => contradiction

/-- Where the user is not there, its tokens are not there to be locked. -/
theorem executed_absent
    {userId : UUID}
    (isTrue : (Phase.absent userId).Means platform pid call db)
    {statement : Statement}
    (isKind : statement.kind = .tokenOf userId) :
    db.executed pid (effect platform statement (db.view (schema platform) pid)) = db := by
  have isAllowed : (Phase.absent userId).Allows platform call statement.kind := by
    rw [isKind]
    rfl
  have noLock : ∀ key,
      key ∉ (effect platform statement (db.view (schema platform) pid)).locks := by
    intro key isLocked
    obtain ⟨mode, _, isLock⟩ := locks_needs platform statement _ key isLocked
    obtain ⟨_, isIdle | ⟨_, isOwner⟩⟩ := needs_of_phase isTrue isAllowed isLock
    · contradiction
    · contradiction
  apply executed_silent (List.eq_nil_iff_forall_not_mem.mpr noLock)
  refine List.eq_nil_iff_forall_not_mem.mpr fun write isWritten => ?_
  obtain ⟨id, revokedAt, rfl⟩ := revocations_of_tokenOf isKind isWritten
  exact noLock (.token id)
    (effect_locked platform statement _ _ isWritten (.token id) List.mem_cons_self)

/-- Whoever holds the lock of a user and locks its tokens still does. -/
theorem OwnsUser.executed
    (call : AuthCall)
    {userId : UUID}
    (owns : OwnsUser platform pid userId db)
    {statement : Statement}
    (isKind : statement.kind = .tokenOf userId) :
    OwnsUser platform pid userId
      (db.executed pid (effect platform statement (db.view (schema platform) pid))) := by
  have isTrue : (Phase.owns userId).Means platform pid call db := owns
  have isAllowed : (Phase.owns userId).Allows platform call statement.kind := by
    rw [isKind]
    rfl
  refine ⟨?_, ?_, ?_⟩
  · simp only [Db.executed]
    split_ifs
    · rfl
    · exact owns.user
  · intro key isHeld
    rw [committed_executed]
    rcases holder_executed isHeld with isLocked | isOld
    · obtain ⟨mode, _, isLock⟩ := locks_needs platform statement _ key isLocked
      obtain ⟨isNeeded, _⟩ := needs_of_phase isTrue isAllowed isLock
      rw [isKind] at isNeeded
      cases isNeeded with
      | tokenOf isOwner => exact .inr ⟨_, rfl, isOwner⟩
    · exact owns.tokens key isOld
  · intro write isPending
    simp only [Db.executed, Function.update_self, List.mem_append] at isPending
    rcases isPending with isOld | isNew
    · exact owns.revocations write isOld
    · exact revocations_of_tokenOf isKind isNew

/-- A statement leads to what its next phase means. -/
theorem means_after
    (isTrue : phase.Means platform pid call db)
    {statement : Statement}
    (notLock : ∀ id, statement.kind ≠ .lockUser id)
    (isAllowed : phase.Allows platform call statement.kind) :
    (phase.after statement.kind).Means platform pid call
      (db.executed pid (effect platform statement (db.view (schema platform) pid))) := by
  have written : Phase.written.Means platform pid call (db.executed pid
      (effect platform statement (db.view (schema platform) pid))) := by
    intro key isHeld
    rw [committed_executed]
    rcases holder_executed isHeld with isLocked | isOld
    · exact explained_of_locked isTrue isAllowed isLocked
    · exact isTrue.explained isOld
  cases isKind : statement.kind with
  | query =>
      rw [executed_query isKind]
      exact isTrue
  | lockUser id => exact absurd isKind (notLock id)
  | oneRow => exact written
  | insert token => exact written
  | tokenOf owner =>
      rw [isKind] at isAllowed
      cases phase with
      | idle => exact isAllowed.elim
      | written => exact isAllowed.elim
      | absent userId =>
          obtain rfl : owner = userId := isAllowed
          rw [executed_absent isTrue isKind]
          exact isTrue
      | owns userId =>
          obtain rfl : owner = userId := isAllowed
          exact OwnsUser.executed call isTrue isKind

/-- The lock of a user. -/
theorem means_lockUser
    (clear : Clear pid db)
    {id : UUID}
    {found : Option UUID}
    (isAnswer : (effect platform (.lockUser id) (db.view (schema platform) pid)).answer =
      some found) :
    (if found.isSome then Phase.owns id else .absent id).Means platform pid call
      (db.executed pid (effect platform (.lockUser id) (db.view (schema platform) pid))) := by
  rw [view_of_idle clear.1] at isAnswer ⊢
  cases isUser : (db.committed (schema platform)).user id with
  | none =>
      rw [effect_lockUser_of_none platform isUser] at isAnswer ⊢
      obtain rfl : none = found := Option.some.inj isAnswer
      rw [executed_silent rfl rfl]
      exact ⟨clear, not_hasUser isUser⟩
  | some user =>
      rw [effect_lockUser_of_some platform isUser] at isAnswer ⊢
      obtain rfl : some user.id = found := Option.some.inj isAnswer
      refine ⟨?_, ?_, ?_⟩
      · simp [Db.executed]
      · intro key isHeld
        rcases holder_executed isHeld with isLocked | isOld
        · exact .inl (List.mem_singleton.mp isLocked)
        · exact absurd isOld (clear.2 key)
      · intro write isPending
        simp [Db.executed, clear.1] at isPending

/-- The phases of the transactions, as they run. -/
theorem tracks_lockOrder (platform : Platform) :
    Tracks (schema platform) AuthError.database (lockOrder platform) .idle
      fun pid call phase => phase.Means platform pid call where
  opens pid call db clear := clear
  own pid call phase op answer db db' _ isTrue isAllowed performed := by
    cases op with
    | execute statement =>
        cases answer with
        | error error =>
            obtain ⟨_, rfl⟩ := performed
            cases statement <;> exact isTrue
        | ok answer =>
            obtain ⟨_, isAnswer, rfl⟩ := performed
            have isAllowed : phase.Allows platform call statement.kind := isAllowed
            by_cases isLock : ∃ id, statement.kind = .lockUser id
            · obtain ⟨id, isLock⟩ := isLock
              have isIdle : phase = .idle := by
                rw [isLock] at isAllowed
                cases phase <;> first | rfl | exact isAllowed.elim
              subst isIdle
              cases statement with
              | lockUser id => exact means_lockUser isTrue isAnswer
              | _ => contradiction
            · have notLock : ∀ id, statement.kind ≠ .lockUser id :=
                fun id isLock' => isLock ⟨id, isLock'⟩
              have isNext := means_after isTrue notLock isAllowed
              cases statement <;> first | exact isNext | exact absurd rfl (notLock _)
    | commit =>
        cases answer with
        | ok _ =>
            obtain rfl := performed
            exact clear_commit pid db
        | error error =>
            obtain ⟨_, rfl⟩ := performed
            exact clear_release pid db
    | rollback =>
        cases answer with
        | ok _ =>
            obtain rfl := performed
            exact clear_release pid db
        | error error =>
            obtain ⟨_, rfl⟩ := performed
            exact clear_release pid db
    | now =>
        cases answer with
        | ok time =>
            obtain ⟨_, rfl⟩ := performed
            exact isTrue
        | error error => exact performed.elim
  others pid call phase other db db' different _ moves isTrue := by
    have kept : ∀ id userId, (db.committed (schema platform)).owner id = some userId →
        (db'.committed (schema platform)).owner id = some userId := fun id userId =>
      moves.committed_kept (fun store => store.owner id = some userId)
        fun _ write isOwner => owner_kept write isOwner
    cases phase with
    | idle => exact isTrue.of_moves different moves
    | absent userId =>
        refine ⟨isTrue.1.of_moves different moves, ?_⟩
        exact moves.committed_kept (fun store => ¬HasUser userId store)
          (fun store write isAbsent => mt (hasUser_apply userId store write).mp isAbsent) isTrue.2
    | owns userId =>
        refine ⟨(moves.holder _ pid different.symm).mpr isTrue.user, ?_, ?_⟩
        · intro key isHeld
          refine (isTrue.tokens key ((moves.holder key pid different.symm).mp isHeld)).imp_right ?_
          rintro ⟨id, rfl, isOwner⟩
          exact ⟨id, rfl, kept id userId isOwner⟩
        · rw [moves.pending pid different.symm]
          exact isTrue.revocations
    | written =>
        intro key isHeld
        exact (isTrue key ((moves.holder key pid different.symm).mp isHeld)).of_kept kept
  timeless pid call phase db later _ isTrue := by
    cases phase with
    | idle => exact isTrue
    | absent userId => exact isTrue
    | owns userId => exact ⟨isTrue.user, isTrue.tokens, isTrue.revocations⟩
    | written => exact isTrue

end Means

/-! ## Who waits for whom -/

section Waits

variable
    {settings : Settings}
    {platform : Platform}
    {initial : AuthStore}
    {clock : Nat}
    {config : Config AuthError (SessionAnswer Answer) AuthCall AuthDb AuthResponse}

/-- No two requests draw the same token id or the same token. -/
def DistinctDraws
    (platform : Platform)
    (config : Config AuthError (SessionAnswer Answer) AuthCall AuthDb AuthResponse) : Prop :=
  ∀ pid other call call' status status' draw draw',
    config.process pid = some (call, status) → config.process other = some (call', status') →
    call.draw = some draw → call'.draw = some draw' → other ≠ pid →
    draw'.tokenId ≠ draw.tokenId ∧
      hashRefreshToken platform draw'.rawToken ≠ hashRefreshToken platform draw.rawToken

/-- What a running session is in. -/
theorem means_of_running
    (reachable : Reachable (sessionMachine platform) (serve settings platform)
      (Db.start initial clock) config)
    {pid : ProcId}
    {call : AuthCall}
    {program : Session AuthResponse}
    (isRunning : config.process pid = some (call, .running program)) :
    ∃ phase : Phase, phase.Means platform pid call config.shared ∧
      Follows (lockOrder platform call) phase program fun _ _ => True :=
  (tracks_lockOrder platform).phase_of_running (follows_serve settings platform) reachable
    isRunning

/-- A session that is about to execute a statement of the kind, and what it wants for
it. -/
structure Executing (platform : Platform)
    (config : Config AuthError (SessionAnswer Answer) AuthCall AuthDb AuthResponse)
    (pid : ProcId) (kind : Kind) (call : AuthCall) (phase : Phase) : Prop where
  started : ∃ status, config.process pid = some (call, status)
  isAllowed : phase.Allows platform call kind
  isTrue : phase.Means platform pid call config.shared
  isPhase : phase = .idle ∨ ∃ userId, phase = .owns userId
  needs : ∀ key mode, Wants (tableLocks platform) config pid key mode →
    Needs (config.shared.committed (schema platform)) kind key mode
  one : (∀ token, kind ≠ .insert token) → ∀ key mode key' mode',
    Wants (tableLocks platform) config pid key mode →
    Wants (tableLocks platform) config pid key' mode' → key' = key ∧ mode' = mode

/-- A session that wants a lock is about to execute a statement. -/
theorem executing_of_wants
    (reachable : Reachable (sessionMachine platform) (serve settings platform)
      (Db.start initial clock) config)
    {pid : ProcId}
    {key : Key}
    {mode : Mode}
    (wants : Wants (tableLocks platform) config pid key mode) :
    ∃ kind call phase, Executing platform config pid kind call phase := by
  obtain ⟨statement, ⟨call, next, isRunning⟩, isNeeded⟩ := wants
  obtain ⟨phase, isTrue, isAllowed, _⟩ := means_of_running reachable isRunning
  have isAllowed : phase.Allows platform call statement.kind := isAllowed
  have sameStatement : ∀ {key mode}, Wants (tableLocks platform) config pid key mode →
      (key, mode) ∈ Auth.needs statement (config.shared.view (schema platform) pid) := by
    rintro key mode ⟨statement', ⟨call', next', isRunning'⟩, isNeeded'⟩
    rw [isRunning] at isRunning'
    obtain ⟨⟩ := isRunning'
    exact isNeeded'
  exact ⟨statement.kind, call, phase, ⟨_, isRunning⟩, isAllowed, isTrue,
    (needs_of_phase isTrue isAllowed isNeeded).2,
    fun key mode wants => (needs_of_phase isTrue isAllowed (sameStatement wants)).1,
    fun noInsert key mode key' mode' wants wants' =>
      needs_unique noInsert (sameStatement wants) (sameStatement wants')⟩

/-- A lock of a session: of a user, or one that is explained. -/
def Known (platform : Platform)
    (config : Config AuthError (SessionAnswer Answer) AuthCall AuthDb AuthResponse)
    (pid : ProcId) (key : Key) : Prop :=
  (∃ userId, key = .user userId) ∨ ∃ call status, config.process pid = some (call, status) ∧
    Explained platform call (config.shared.committed (schema platform)) key

theorem known_of_wants
    (reachable : Reachable (sessionMachine platform) (serve settings platform)
      (Db.start initial clock) config)
    {pid : ProcId}
    {key : Key}
    {mode : Mode}
    (wants : Wants (tableLocks platform) config pid key mode) :
    Known platform config pid key := by
  obtain ⟨kind, call, phase, executing⟩ := executing_of_wants reachable wants
  obtain ⟨status, isStarted⟩ := executing.started
  exact .inr ⟨call, status, isStarted,
    explained_of_needs executing.isAllowed executing.isPhase (executing.needs key mode wants)⟩

theorem known_of_granted
    (reachable : Reachable (sessionMachine platform) (serve settings platform)
      (Db.start initial clock) config)
    {granted : ProcId → Key → Mode → Prop}
    (table : LockTable (tableLocks platform) config granted)
    {pid : ProcId}
    {key : Key}
    {mode : Mode}
    (isGranted : granted pid key mode) :
    Known platform config pid key := by
  have ofHolder : config.shared.holder key = some pid → Known platform config pid key := by
    intro isHeld
    obtain ⟨call, program, isRunning⟩ :=
      (settled_of_reachable reachable).running_of_holder isHeld
    obtain ⟨phase, isTrue, _⟩ := means_of_running reachable isRunning
    exact .inr ⟨call, _, isRunning, isTrue.explained isHeld⟩
  rcases table.justified pid key mode isGranted with has | wants
  · cases mode with
    | update => exact ofHolder has
    | exclusive => exact ofHolder has
    | share =>
        obtain ⟨write, _, refers⟩ := has
        cases write with
        | insertToken token => exact .inl ⟨_, List.mem_singleton.mp refers⟩
        | updateLogin userId columns => contradiction
        | revokeToken id revokedAt => contradiction
  · exact known_of_wants reachable wants

/-- What a session is about to insert, no other session knows. -/
theorem Executing.not_known
    (distinct : DistinctDraws platform config)
    {pid other : ProcId}
    {call : AuthCall}
    {phase : Phase}
    {token : NewToken}
    (executing : Executing platform config pid (.insert token) call phase)
    (isNew : (config.shared.committed (schema platform)).owner token.id = none)
    (different : other ≠ pid) :
    ¬Known platform config other (.token token.id) ∧
      ¬Known platform config other (.tokenHash token.tokenHash) := by
  have drawn : call.Draws platform token := by
    rcases executing.isPhase with isPhase | ⟨userId, isPhase⟩
    · exact (isPhase ▸ executing.isAllowed :)
    · have isAllowed : (Phase.owns userId).Allows platform call (.insert token) :=
        isPhase ▸ executing.isAllowed
      exact isAllowed.1
  obtain ⟨draw, isDraw, sameId, sameHash⟩ := drawn
  obtain ⟨status, isStarted⟩ := executing.started
  constructor
  · rintro (⟨_, isUser⟩ | ⟨call', status', isStarted', isStored | ⟨draw', isDraw', sameId'⟩⟩)
    · contradiction
    · exact isStored isNew
    · exact (distinct pid other _ _ _ _ _ _ isStarted isStarted' isDraw isDraw' different).1
        (sameId'.symm.trans sameId)
  · rintro (⟨_, isUser⟩ | ⟨call', status', isStarted', draw', isDraw', sameHash'⟩)
    · contradiction
    · exact (distinct pid other _ _ _ _ _ _ isStarted isStarted' isDraw isDraw' different).2
        (sameHash'.symm.trans sameHash)

/-- Whoever waits between two transactions keeps no lock from a session that waits. -/
theorem not_waits_of_idle
    (reachable : Reachable (sessionMachine platform) (serve settings platform)
      (Db.start initial clock) config)
    (distinct : DistinctDraws platform config)
    {granted : ProcId → Key → Mode → Prop}
    (table : LockTable (tableLocks platform) config granted)
    {pid other third : ProcId}
    {kind : Kind}
    {call : AuthCall}
    (executing : Executing platform config other kind call .idle)
    (waits : WaitsFor (tableLocks platform) config granted pid other)
    (waits' : WaitsFor (tableLocks platform) config granted other third) :
    False := by
  obtain ⟨different, key, mode, held, wants, isGranted, conflict⟩ := waits
  obtain ⟨different', key', mode', held', wants', isGranted', conflict'⟩ := waits'
  have alsoWants := table.wants_of_clear executing.isTrue isGranted
  have sameLock : key' = key → mode' = held → False := by
    rintro rfl rfl
    exact different' (table.conflicts other third _ _ _ isGranted isGranted' conflict')
  by_cases isInsert : ∃ token, kind = .insert token
  · obtain ⟨token, rfl⟩ := isInsert
    have isNeeded := executing.needs key held alsoWants
    have isNeeded' := executing.needs key' mode' wants'
    cases isNeeded with
    | newId isNew =>
        exact (executing.not_known distinct isNew different.symm).1
          (known_of_wants reachable wants)
    | newHash isNew =>
        exact (executing.not_known distinct isNew different.symm).2
          (known_of_wants reachable wants)
    | owner _ =>
        cases isNeeded' with
        | newId isNew =>
            exact (executing.not_known distinct isNew different').1
              (known_of_granted reachable table isGranted')
        | newHash isNew =>
            exact (executing.not_known distinct isNew different').2
              (known_of_granted reachable table isGranted')
        | owner _ => exact sameLock rfl rfl
  · obtain ⟨sameKey, sameMode⟩ := executing.one (fun token isToken => isInsert ⟨token, isToken⟩)
      key held key' mode' alsoWants wants'
    exact sameLock sameKey sameMode

/-- The locks of a session that holds the lock of a user: of the user, and of tokens of
the user. -/
theorem owner_of_granted
    {granted : ProcId → Key → Mode → Prop}
    (table : LockTable (tableLocks platform) config granted)
    {pid : ProcId}
    {kind : Kind}
    {call : AuthCall}
    {userId userId' id : UUID}
    (executing : Executing platform config pid kind call (.owns userId))
    {mode : Mode}
    (isGranted : granted pid (.token id) mode)
    (isOwner : (config.shared.committed (schema platform)).owner id = some userId') :
    userId' = userId := by
  have owns : OwnsUser platform pid userId config.shared := executing.isTrue
  have ofHolder : config.shared.holder (.token id) = some pid → userId' = userId := by
    intro isHeld
    rcases owns.tokens _ isHeld with isUser | ⟨other, sameKey, isOwner'⟩
    · contradiction
    · obtain rfl : id = other := Key.token.inj sameKey
      exact Option.some.inj (isOwner.symm.trans isOwner')
  rcases table.justified pid _ mode isGranted with has | wants
  · cases mode with
    | update => exact ofHolder has
    | exclusive => exact ofHolder has
    | share =>
        obtain ⟨write, isPending, refers⟩ := has
        obtain ⟨revoked, revokedAt, rfl⟩ := owns.revocations write isPending
        contradiction
  · have isNeeded := executing.needs _ mode wants
    have isAllowed := executing.isAllowed
    cases isNeeded with
    | stored _ => exact isAllowed.elim
    | tokenOf isOwner' =>
        obtain rfl := Option.some.inj (isOwner.symm.trans isOwner')
        exact isAllowed
    | newId isNew =>
        rw [isNew] at isOwner
        contradiction

/-- A session that waits for one that waits does not hold the lock of a user, and the one
that it waits for does. -/
theorem waits_of_waits
    (reachable : Reachable (sessionMachine platform) (serve settings platform)
      (Db.start initial clock) config)
    (distinct : DistinctDraws platform config)
    {granted : ProcId → Key → Mode → Prop}
    (table : LockTable (tableLocks platform) config granted)
    {pid other third : ProcId}
    (waits : WaitsFor (tableLocks platform) config granted pid other)
    (waits' : WaitsFor (tableLocks platform) config granted other third) :
    (∃ userId, config.shared.holder (.user userId) = some other) ∧
      ∀ userId, config.shared.holder (.user userId) ≠ some pid := by
  obtain ⟨_, _, _, _, wants', _⟩ := id waits'
  obtain ⟨kind', call', phase', executing'⟩ := executing_of_wants reachable wants'
  rcases executing'.isPhase with rfl | ⟨userId, rfl⟩
  · exact (not_waits_of_idle reachable distinct table executing' waits waits').elim
  have owns' : OwnsUser platform other userId config.shared := executing'.isTrue
  refine ⟨⟨userId, owns'.user⟩, fun user isHeld => ?_⟩
  obtain ⟨different, key, mode, held, wants, isGranted, conflict⟩ := waits
  obtain ⟨kind, call, phase, executing⟩ := executing_of_wants reachable wants
  have isNeeded := executing.needs key mode wants
  rcases executing.isPhase with rfl | ⟨owned, rfl⟩
  · exact executing.isTrue.2 _ isHeld
  have owns : OwnsUser platform pid owned config.shared := executing.isTrue
  have isAllowed := executing.isAllowed
  cases isNeeded with
  | lockUser id => exact isAllowed.elim
  | user id => exact isAllowed.elim
  | stored _ => exact isAllowed.elim
  | tokenOf isOwner =>
      -- both would hold the lock of the owner of the token
      obtain rfl := owner_of_granted table executing' isGranted isOwner
      have isUser := owns.user
      rw [show owned = _ from isAllowed.symm, owns'.user, Option.some.injEq] at isUser
      exact different isUser
  | newId isNew =>
      exact (executing.not_known distinct isNew different).1
        (known_of_granted reachable table isGranted)
  | newHash isNew =>
      exact (executing.not_known distinct isNew different).2
        (known_of_granted reachable table isGranted)
  | @owner token _ =>
      -- the row that a new token refers to is locked by the session itself
      have isOwn : token.userId = owned := isAllowed.2
      exact different (table.not_refers owns.user (isOwn ▸ isGranted) conflict)

/-- A chain of waiting sessions has at most two links. -/
theorem ranked_of_reachable
    (reachable : Reachable (sessionMachine platform) (serve settings platform)
      (Db.start initial clock) config)
    (distinct : DistinctDraws platform config) :
    Ranked (tableLocks platform) config 2 := by
  classical
  intro granted table
  let waits (pid : ProcId) : Prop :=
    ∃ other, WaitsFor (tableLocks platform) config granted pid other
  let owns (pid : ProcId) : Prop := ∃ userId, config.shared.holder (.user userId) = some pid
  refine ⟨fun pid => if waits pid then if owns pid then 1 else 2 else 0, ?_⟩
  intro pid other waiting
  have isWaiting : waits pid := ⟨other, waiting⟩
  by_cases alsoWaits : waits other
  · obtain ⟨third, waiting'⟩ := alsoWaits
    obtain ⟨otherOwns, notOwns⟩ := waits_of_waits reachable distinct table waiting waiting'
    have alsoWaits : waits other := ⟨third, waiting'⟩
    have notOwns : ¬owns pid := fun ⟨userId, isHeld⟩ => notOwns userId isHeld
    simp only [if_pos alsoWaits, if_pos isWaiting, if_neg notOwns,
      if_pos (show owns other from otherOwns)]
    omega
  · simp only [if_neg alsoWaits, if_pos isWaiting]
    split_ifs <;> omega

theorem DistinctDraws.of_proceeds
    {last : Config AuthError (SessionAnswer Answer) AuthCall AuthDb AuthResponse}
    (distinct : DistinctDraws platform config)
    (proceeds : Relation.ReflTransGen (Proceeds (schema platform) .database) config last) :
    DistinctDraws platform last := by
  intro pid other call call' status status' draw draw' isStarted isStarted'
  obtain ⟨_, wasStarted⟩ := started_of_proceeds proceeds isStarted
  obtain ⟨_, wasStarted'⟩ := started_of_proceeds proceeds isStarted'
  exact distinct pid other call call' _ _ draw draw' wasStarted wasStarted'

/-- The sessions of any number of users do not deadlock, however far their statements have
come with their locks: among any sessions there is one that waits for none of them, and
whoever is waited for through two others does not wait.  All sessions that have started
finish. -/
theorem sessions_finish
    (reachable : Reachable (sessionMachine platform) (serve settings platform)
      (Db.start initial clock) config)
    (distinct : DistinctDraws platform config) :
    (∀ granted, LockTable (tableLocks platform) config granted →
      (∀ members : Set ProcId, members.Nonempty → ∃ pid ∈ members, ∀ other ∈ members,
        ¬WaitsFor (tableLocks platform) config granted pid other) ∧
      ∀ first second third fourth,
        WaitsFor (tableLocks platform) config granted first second →
        WaitsFor (tableLocks platform) config granted second third →
        ¬WaitsFor (tableLocks platform) config granted third fourth) ∧
    AllFinish (schema platform) AuthError.database config := by
  have ranked := ranked_of_reachable reachable distinct
  refine ⟨fun granted table => ⟨fun members nonempty => ?_, ?_⟩, ?_⟩
  · exact ranked.exists_not_waiting table nonempty
  · intro first second third fourth waits waits' waits''
    obtain ⟨rank, lower⟩ := ranked granted table
    have first := lower _ _ waits
    have second := lower _ _ waits'
    have third := lower _ _ waits''
    omega
  · apply allFinish_of_ranked reachable
    intro last proceeds
    exact ranked_of_reachable (reachable.trans (steps_of_proceeds proceeds))
      (distinct.of_proceeds proceeds)

end Waits

/-- Two logins that have started both finish. -/
theorem sample_sessions_finish :
    ∃ config : Config AuthError (SessionAnswer Answer) AuthCall AuthDb AuthResponse,
      Reachable (sessionMachine .plain) (serve (Settings.sample 0) .plain)
        (Db.start AuthStore.sample 0) config ∧
      (∀ pid : ProcId, pid < 2 → config.process pid = some (.sample (lit "right") pid,
        .running (serve (Settings.sample 0) .plain (.sample (lit "right") pid)))) ∧
      AllFinish (schema .plain) AuthError.database config := by
  have first : Reachable (sessionMachine .plain) (serve (Settings.sample 0) .plain)
      (Db.start AuthStore.sample 0) _ := .single (.start 0 (.sample (lit "right") 0) rfl)
  have both := first.tail (.start 1 (.sample (lit "right") 1) rfl)
  refine ⟨_, both, ?_, (sessions_finish both ?_).2⟩
  · intro pid isStarted
    interval_cases pid <;> rfl
  · intro pid other call call' status status' draw draw' isStarted isStarted' isDraw isDraw'
      different
    have cases : ∀ {pid call status draw}, (Function.update (Function.update (fun _ => none) 0
        (some (AuthCall.sample (lit "right") 0, Status.running (serve (Settings.sample 0) .plain
          (.sample (lit "right") 0))))) 1 (some (AuthCall.sample (lit "right") 1, Status.running
            (serve (Settings.sample 0) .plain (.sample (lit "right") 1)))) : ProcId → _) pid =
          some (call, status) → call.draw = some draw →
        (pid = 0 ∧ draw = .sample 0) ∨ (pid = 1 ∧ draw = .sample 1) := by
      intro pid call status draw isStarted isDraw
      by_cases isSecond : pid = 1
      · subst isSecond
        rw [Function.update_self, Option.some.injEq, Prod.mk.injEq] at isStarted
        obtain ⟨rfl, _⟩ := isStarted
        exact .inr ⟨rfl, (Option.some.inj isDraw).symm⟩
      · rw [Function.update_of_ne isSecond] at isStarted
        by_cases isFirst : pid = 0
        · subst isFirst
          rw [Function.update_self, Option.some.injEq, Prod.mk.injEq] at isStarted
          obtain ⟨rfl, _⟩ := isStarted
          exact .inl ⟨rfl, (Option.some.inj isDraw).symm⟩
        · rw [Function.update_of_ne isFirst] at isStarted
          contradiction
    rcases cases isStarted isDraw with ⟨rfl, rfl⟩ | ⟨rfl, rfl⟩ <;>
      rcases cases isStarted' isDraw' with ⟨rfl, rfl⟩ | ⟨rfl, rfl⟩
    · contradiction
    · decide
    · decide
    · contradiction

end Auth
end SigmaForge
