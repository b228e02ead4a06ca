import SigmaForge.Foundation.Phases
import SigmaForge.Auth.Sessions

/-!
# What a request knows

What a session has read, and which tokens it has stored, as far as its own operations tell.
A token is inserted only with good reason: after a right password, or in exchange for the
token that was presented.
-/

namespace SigmaForge
namespace Auth

open Text ReadCommitted

/-! ## Knowledge -/

/-- What a session has learnt and done. -/
structure Knowledge where
  user : Option User
  token : Option RefreshToken
  times : List Nat
  /-- The token that has been committed. -/
  issued : Option NewToken
  /-- A transaction is open that may have written. -/
  isOpen : Bool
  /-- The token that the open transaction has consumed. -/
  consumed : Option UUID
  /-- The token that the open transaction has inserted. -/
  inserted : Option NewToken

namespace Knowledge

/-- What is known outside a transaction. -/
def known (user : Option User) (token : Option RefreshToken) (times : List Nat)
    (issued : Option NewToken) : Knowledge :=
  ⟨user, token, times, issued, false, none, none⟩

/-- A session that has just started knows nothing. -/
def start : Knowledge := known none none [] none

/-- After a transaction that has issued nothing. -/
def closed (knowledge : Knowledge) : Knowledge :=
  known knowledge.user knowledge.token knowledge.times knowledge.issued

/-- What is known after an operation. -/
def next (knowledge : Knowledge) :
    (op : SessionOp Statement) → Except AuthError (SessionAnswer Answer op) → Knowledge
  | .execute (.selectUserByEmail _), .ok found => { knowledge with user := found }
  | .execute (.selectUserById _), .ok found => { knowledge with user := found }
  | .execute (.selectTokenByHash _), .ok found => { knowledge with token := found }
  | .execute (.selectTokenById _), .ok _ => knowledge
  | .execute (.consumeToken id _ _), .ok consumed =>
      { knowledge with consumed := consumed.map fun _ => id, isOpen := true }
  | .execute (.insertToken token), .ok _ =>
      { knowledge with inserted := some token, isOpen := true }
  | .execute _, .ok _ => { knowledge with isOpen := true }
  | .execute _, .error _ => knowledge
  | .now, .ok time => { knowledge with times := time :: knowledge.times }
  | .now, .error _ => knowledge
  | .commit, .ok _ => { knowledge.closed with issued := knowledge.inserted <|> knowledge.issued }
  | .commit, .error _ => knowledge.closed
  | .rollback, _ => knowledge.closed

end Knowledge

/-- What a request has drawn. -/
def AuthCall.draw : AuthCall → Option Draw
  | .login _ draw => some draw
  | .refresh _ draw => some draw
  | .logout _ => none
  | .logoutAll _ => none

/-- The password of the request is the one of the account, which is active. -/
structure Passes (platform : Platform) (request : LoginRequest) (user : User) : Prop where
  isActive : user.isActive = true
  verified : platform.verify request.password user.hashedPassword = true

/-- What a request may do when it knows so much. -/
def Knowledge.Allows (platform : Platform) (call : AuthCall) (knowledge : Knowledge) :
    Statement → Prop
  | .selectUserByEmail email => knowledge.isOpen = false ∧ knowledge.token = none ∧
      ∀ request draw, call = .login request draw → email = request.email
  | .selectUserById id => knowledge.isOpen = false ∧
      (∀ request draw, call ≠ .login request draw) ∧
      ∃ token, knowledge.token = some token ∧ id = token.userId
  | .selectTokenByHash tokenHash => knowledge.isOpen = false ∧ knowledge.user = none ∧
      ∀ rawToken draw, call = .refresh rawToken draw →
        tokenHash = hashRefreshToken platform rawToken
  | .insertToken token =>
      match call with
      | .login request draw => ∃ user, knowledge.user = some user ∧ Passes platform request user ∧
          token.userId = user.id ∧ token.tokenHash = hashRefreshToken platform draw.rawToken
      | .refresh _ draw => ∃ existing, knowledge.token = some existing ∧
          knowledge.consumed = some existing.id ∧ token.userId = existing.userId ∧
          token.tokenHash = hashRefreshToken platform draw.rawToken
      | _ => False
  | _ => True

/-- How the knowledge of a request grows. -/
def recording (platform : Platform) (call : AuthCall) :
    Protocol AuthError (SessionAnswer Answer) Knowledge where
  allowed knowledge op :=
    match op with
    | .execute statement => knowledge.Allows platform call statement
    | _ => True
  next := Knowledge.next

/-! ## What it means -/

section Means

variable (platform : Platform)

/-- The row of the user as it has been committed at some moment. -/
def SeenUser (initial : AuthStore) (log : List (Event Key Write)) (user : User) : Prop :=
  ∃ seen, seen <+: log ∧ (replay (schema platform) initial seen).user user.id = some user

/-- The request has given the password of the user. -/
structure Proves (initial : AuthStore) (log : List (Event Key Write)) (request : LoginRequest)
    (user : User) : Prop where
  seen : SeenUser platform initial log user
  email : platform.citext user.email = platform.citext request.email
  passes : Passes platform request user

/-- Why a request inserts a token. -/
def Grounds (call : AuthCall) (initial : AuthStore) (log : List (Event Key Write))
    (writes : List Write) (token : NewToken) : Prop :=
  match call with
  | .login request draw => ∃ user, Proves platform initial log request user ∧
      token.userId = user.id ∧ token.tokenHash = hashRefreshToken platform draw.rawToken
  | .refresh rawToken draw => ∃ existing, Presented platform rawToken existing initial log ∧
      token.userId = existing.userId ∧
      token.tokenHash = hashRefreshToken platform draw.rawToken ∧
      ∃ revokedAt, .revokeToken existing.id revokedAt ∈ writes
  | _ => False

/-- The session has committed the token. -/
def Issued (pid : ProcId) (log : List (Event Key Write)) (token : NewToken) : Prop :=
  ∃ before writes after, log = before ++ .committed pid writes :: after ∧
    .insertToken token ∈ writes

/-- The knowledge of a session is true. -/
structure Knowledge.Means (pid : ProcId) (call : AuthCall) (knowledge : Knowledge)
    (initial : AuthStore) (log : List (Event Key Write)) (clock : Nat)
    (pending : List Write) : Prop where
  user : ∀ user, knowledge.user = some user → SeenUser platform initial log user ∧
    (∀ request draw, call = .login request draw →
      platform.citext user.email = platform.citext request.email) ∧
    ∀ token, knowledge.token = some token → user.id = token.userId
  token : ∀ token, knowledge.token = some token →
    Stored (replay (schema platform) initial log) token.toNewToken ∧
    ∀ rawToken draw, call = .refresh rawToken draw →
      token.tokenHash = hashRefreshToken platform rawToken
  times : ∀ time ∈ knowledge.times, time ≤ clock
  idle : knowledge.isOpen = false → pending = []
  consumed : ∀ id, knowledge.consumed = some id → ∃ revokedAt, .revokeToken id revokedAt ∈ pending
  inserted : ∀ token, knowledge.inserted = some token → .insertToken token ∈ pending
  grounds : ∀ token, .insertToken token ∈ pending →
    Grounds platform call initial log pending token
  issued : ∀ token, knowledge.issued = some token → Issued pid log token

variable
    {platform}
    {pid : ProcId}
    {call : AuthCall}
    {knowledge : Knowledge}
    {initial : AuthStore}
    {log : List (Event Key Write)}
    {clock : Nat}
    {pending writes : List Write}

theorem SeenUser.along
    {user : User}
    (seen : SeenUser platform initial log user)
    (events : List (Event Key Write)) :
    SeenUser platform initial (log ++ events) user := by
  obtain ⟨moment, isBefore, found⟩ := seen
  exact ⟨moment, isBefore.trans (List.prefix_append log events), found⟩

theorem Issued.along
    {token : NewToken}
    (issued : Issued pid log token)
    (events : List (Event Key Write)) :
    Issued pid (log ++ events) token := by
  obtain ⟨before, writes, after, rfl, isWritten⟩ := issued
  exact ⟨before, writes, after ++ events, by simp, isWritten⟩

/-- The grounds stay as a run and a transaction go on. -/
theorem Grounds.along
    {token : NewToken}
    (grounds : Grounds platform call initial log pending token)
    (events : List (Event Key Write))
    (writes : List Write) :
    Grounds platform call initial (log ++ events) (pending ++ writes) token := by
  cases call with
  | login request draw =>
      obtain ⟨user, proves, ofUser⟩ := grounds
      exact ⟨user, ⟨proves.seen.along events, proves.email, proves.passes⟩, ofUser⟩
  | refresh rawToken draw =>
      obtain ⟨existing, presented, sameUser, isHash, revokedAt, isRevoked⟩ := grounds
      exact ⟨existing, lasting_presented rawToken existing initial log events presented, sameUser,
        isHash, revokedAt, List.mem_append_left _ isRevoked⟩
  | logout rawToken => exact grounds
  | logoutAll userId => exact grounds

/-- Knowledge stays true as a run goes on, and when a transaction writes. -/
theorem Knowledge.Means.along
    (isTrue : knowledge.Means platform pid call initial log clock pending)
    (events : List (Event Key Write))
    {later : Nat}
    (isLater : clock ≤ later)
    (idle : knowledge.isOpen = false → writes = [])
    (inserts : ∀ token, .insertToken token ∈ writes →
      Grounds platform call initial (log ++ events) (pending ++ writes) token) :
    knowledge.Means platform pid call initial (log ++ events) later (pending ++ writes) where
  user user isUser := by
    obtain ⟨seen, rest⟩ := isTrue.user user isUser
    exact ⟨seen.along events, rest⟩
  token token isToken := by
    obtain ⟨isStored, rest⟩ := isTrue.token token isToken
    exact ⟨stored_along isStored events, rest⟩
  times time isTime := (isTrue.times time isTime).trans isLater
  idle isIdle := by rw [isTrue.idle isIdle, idle isIdle, List.nil_append]
  consumed id isConsumed := by
    obtain ⟨revokedAt, isRevoked⟩ := isTrue.consumed id isConsumed
    exact ⟨revokedAt, List.mem_append_left _ isRevoked⟩
  inserted token isInserted := List.mem_append_left _ (isTrue.inserted token isInserted)
  grounds token isInserted := by
    rcases List.mem_append.mp isInserted with isOld | isNew
    · exact (isTrue.grounds token isOld).along events writes
    · exact inserts token isNew
  issued token isIssued := (isTrue.issued token isIssued).along events

/-- Knowledge stays true as a run goes on. -/
theorem Knowledge.Means.later
    (isTrue : knowledge.Means platform pid call initial log clock pending)
    (events : List (Event Key Write))
    {later : Nat}
    (isLater : clock ≤ later) :
    knowledge.Means platform pid call initial (log ++ events) later pending := by
  have along := isTrue.along events isLater (fun _ => rfl) fun _ isNone => absurd isNone (by simp)
  rwa [List.append_nil] at along

/-- What is known at the end of a transaction that has issued nothing. -/
theorem Knowledge.Means.closed
    (isTrue : knowledge.Means platform pid call initial log clock pending) :
    knowledge.closed.Means platform pid call initial log clock [] where
  user := isTrue.user
  token := isTrue.token
  times := isTrue.times
  idle _ := rfl
  consumed := by simp [Knowledge.closed, Knowledge.known]
  inserted := by simp [Knowledge.closed, Knowledge.known]
  grounds := by simp
  issued := isTrue.issued

/-- A commit issues what has been inserted. -/
theorem Knowledge.Means.commit
    (isTrue : knowledge.Means platform pid call initial log clock pending) :
    (knowledge.next .commit (.ok ())).Means platform pid call initial
      (log ++ [.committed pid pending]) clock [] := by
  have isClosed := isTrue.closed.later [.committed pid pending] le_rfl
  refine ⟨isClosed.user, isClosed.token, isClosed.times, isClosed.idle, isClosed.consumed,
    isClosed.inserted, isClosed.grounds, ?_⟩
  intro token isIssued
  change (knowledge.inserted <|> knowledge.issued) = some token at isIssued
  cases isInserted : knowledge.inserted with
  | none =>
      rw [isInserted] at isIssued
      exact (isTrue.issued token isIssued).along _
  | some inserted =>
      rw [isInserted] at isIssued
      obtain rfl : inserted = token := Option.some.inj isIssued
      exact ⟨log, pending, [], rfl, isTrue.inserted inserted isInserted⟩

/-- A transaction may be open. -/
theorem Knowledge.Means.opened
    (isTrue : knowledge.Means platform pid call initial log clock pending) :
    { knowledge with isOpen := true }.Means platform pid call initial log clock pending :=
  ⟨isTrue.user, isTrue.token, isTrue.times, fun isIdle => absurd isIdle (by simp),
    isTrue.consumed, isTrue.inserted, isTrue.grounds, isTrue.issued⟩

theorem noInserts_revokeWhere
    (store : AuthStore)
    (id : UUID)
    (condition : RefreshToken → Bool)
    (revokedAt : Nat) :
    NoInserts (revokeWhere store id condition revokedAt).writes := by
  intro write isWritten token
  unfold revokeWhere at isWritten
  split at isWritten
  · simp [reads] at isWritten
  · rw [List.mem_singleton.mp isWritten]
    exact Write.noConfusion

/-- Only an `INSERT` inserts a token, and it inserts its own. -/
theorem inserts_of_effect
    {statement : Statement}
    {store : AuthStore}
    {token : NewToken}
    (isWritten : .insertToken token ∈ (effect platform statement store).writes) :
    statement = .insertToken token := by
  have ofNone : ∀ {written : List Write}, NoInserts written → .insertToken token ∈ written →
      statement = .insertToken token := fun noInserts isWritten =>
    absurd rfl (noInserts _ isWritten token)
  cases statement with
  | insertToken inserted =>
      simp only [effect] at isWritten
      split_ifs at isWritten
      · have isSame : Write.insertToken token = .insertToken inserted :=
          List.mem_singleton.mp isWritten
        rw [Write.insertToken.inj isSame]
      · simp [raises] at isWritten
  | incrementFailedLogin userId =>
      simp only [effect] at isWritten
      split at isWritten
      · simp [reads] at isWritten
      · split_ifs at isWritten
        · simp [Auth.writes] at isWritten
        · simp [raises] at isWritten
  | lockUser id =>
      simp only [effect] at isWritten
      split at isWritten <;> simp [reads] at isWritten
  | resetFailedLogin userId lastLoginAt =>
      exact ofNone (noInserts_updateLogin store userId _ _) isWritten
  | setLockedUntil userId lockedUntil =>
      exact ofNone (noInserts_updateLogin store userId _ _) isWritten
  | resetExpiredLockout userId now =>
      exact ofNone (noInserts_updateLogin store userId _ _) isWritten
  | consumeToken id userId now => exact ofNone (noInserts_revokeWhere store id _ _) isWritten
  | revokeToken id revokedAt => exact ofNone (noInserts_revokeWhere store id _ _) isWritten
  | revokeUnrevoked id userId revokedAt =>
      exact ofNone (noInserts_revokeWhere store id _ _) isWritten
  | selectUserByEmail email => simp [effect, reads] at isWritten
  | selectUserById id => simp [effect, reads] at isWritten
  | selectTokenByHash tokenHash => simp [effect, reads] at isWritten
  | selectTokenById id => simp [effect, reads] at isWritten
  | unrevokedTokens userId => simp [effect, reads] at isWritten

/-- A conditional `UPDATE` that answers with a row has revoked it. -/
theorem revokes_of_answer
    {store : AuthStore}
    {id other : UUID}
    {condition : RefreshToken → Bool}
    {revokedAt : Nat}
    (isAnswer : (revokeWhere store id condition revokedAt).answer = some (some other)) :
    .revokeToken id revokedAt ∈ (revokeWhere store id condition revokedAt).writes := by
  unfold revokeWhere at isAnswer ⊢
  split at isAnswer
  · simp [reads] at isAnswer
  · exact List.mem_singleton_self _

section Execute

variable
    {db : AuthDb}
    {statement : Statement}
    {answer : Answer statement}

/-- The knowledge of a session about a database. -/
abbrev Knowledge.True (platform : Platform) (pid : ProcId) (call : AuthCall)
    (knowledge : Knowledge) (db : AuthDb) : Prop :=
  knowledge.Means platform pid call db.initial db.log db.clock (db.pending pid)

/-- Outside a transaction, a session sees what is committed. -/
theorem Knowledge.Means.view
    (isTrue : knowledge.True platform pid call db)
    (isIdle : knowledge.isOpen = false) :
    db.view (schema platform) pid = replay (schema platform) db.initial db.log :=
  view_of_idle (isTrue.idle isIdle)

/-- The grounds for what a statement inserts. -/
theorem grounds_of_allowed
    (isTrue : knowledge.True platform pid call db)
    {token : NewToken}
    (isAllowed : knowledge.Allows platform call (.insertToken token))
    (events : List (Event Key Write))
    (writes : List Write) :
    Grounds platform call db.initial (db.log ++ events) (db.pending pid ++ writes) token := by
  cases call with
  | login request draw =>
      obtain ⟨user, isUser, passes, ofUser⟩ := isAllowed
      obtain ⟨seen, sameEmail, _⟩ := isTrue.user user isUser
      exact ⟨user, ⟨seen.along events, sameEmail request draw rfl, passes⟩, ofUser⟩
  | refresh rawToken draw =>
      obtain ⟨existing, isToken, isConsumed, sameUser, isHash⟩ := isAllowed
      obtain ⟨isStored, isPresented⟩ := isTrue.token existing isToken
      obtain ⟨revokedAt, isRevoked⟩ := isTrue.consumed _ isConsumed
      exact ⟨existing.toNewToken, ⟨isPresented rawToken draw rfl, stored_along isStored events⟩,
        sameUser, isHash, revokedAt, List.mem_append_left _ isRevoked⟩
  | logout rawToken => exact isAllowed.elim
  | logoutAll userId => exact isAllowed.elim

/-- A statement in an open transaction. -/
theorem Knowledge.Means.executed
    (isTrue : knowledge.True platform pid call db)
    (isAllowed : knowledge.Allows platform call statement) :
    { knowledge with isOpen := true }.True platform pid call
      (db.executed pid (effect platform statement (db.view (schema platform) pid))) := by
  simp only [Knowledge.True, Db.executed, Function.update_self]
  apply isTrue.opened.along _ le_rfl
  · exact fun isIdle => absurd isIdle (by simp)
  · intro token isInserted
    obtain rfl := inserts_of_effect isInserted
    exact grounds_of_allowed isTrue isAllowed _ _

/-- A statement leads to what is known then. -/
theorem Knowledge.Means.execute
    (isTrue : knowledge.True platform pid call db)
    (isAllowed : knowledge.Allows platform call statement)
    (isAnswer : (effect platform statement (db.view (schema platform) pid)).answer = some answer) :
    (knowledge.next (.execute statement) (.ok answer)).True platform pid call
      (db.executed pid (effect platform statement (db.view (schema platform) pid))) := by
  have isOpened := isTrue.executed isAllowed
  cases statement with
  | selectUserByEmail email =>
      obtain ⟨isIdle, noToken, sameEmail⟩ := isAllowed
      rw [isTrue.view isIdle] at isAnswer ⊢
      rw [executed_silent rfl rfl]
      have isFound := Option.some.inj isAnswer
      refine { isTrue with user := ?_ }
      rintro user rfl
      have isUser := AuthStore.user_of_mem (List.mem_of_find?_eq_some isFound)
      refine ⟨⟨db.log, List.prefix_rfl, isUser⟩, ?_, ?_⟩
      · intro request draw isLogin
        rw [← sameEmail request draw isLogin]
        simpa using List.find?_some isFound
      · intro token isToken
        exact absurd (noToken.symm.trans isToken) (Option.some_ne_none token).symm
  | selectUserById id =>
      obtain ⟨isIdle, notLogin, token, isToken, rfl⟩ := isAllowed
      rw [isTrue.view isIdle] at isAnswer ⊢
      rw [executed_silent rfl rfl]
      have isFound := Option.some.inj isAnswer
      refine { isTrue with user := ?_ }
      rintro user rfl
      have sameId := AuthStore.user_id isFound
      refine ⟨⟨db.log, List.prefix_rfl, sameId.symm ▸ isFound⟩, ?_, ?_⟩
      · exact fun request draw isLogin => absurd isLogin (notLogin request draw)
      · intro other isOther
        obtain rfl : token = other := Option.some.inj (isToken.symm.trans isOther)
        exact sameId
  | selectTokenByHash tokenHash =>
      obtain ⟨isIdle, noUser, sameHash⟩ := isAllowed
      rw [isTrue.view isIdle] at isAnswer ⊢
      rw [executed_silent rfl rfl]
      have isFound := Option.some.inj isAnswer
      refine { isTrue with user := ?_, token := ?_ }
      · intro user isUser
        exact absurd (noUser.symm.trans isUser) (Option.some_ne_none user).symm
      · rintro token rfl
        refine ⟨⟨token, AuthStore.token_of_mem (List.mem_of_find?_eq_some isFound), rfl⟩, ?_⟩
        intro rawToken draw isRefresh
        rw [← sameHash rawToken draw isRefresh]
        simpa using List.find?_some isFound
  | selectTokenById id =>
      rw [executed_silent rfl rfl]
      exact isTrue
  | consumeToken id userId now =>
      refine { isOpened with consumed := ?_ }
      intro other isConsumed
      obtain ⟨consumed, rfl, rfl⟩ := Option.map_eq_some_iff.mp isConsumed
      refine ⟨now, ?_⟩
      simp only [Db.executed, Function.update_self]
      exact List.mem_append_right _ (revokes_of_answer isAnswer)
  | insertToken token =>
      refine { isOpened with inserted := ?_ }
      rintro other ⟨⟩
      simp only [Db.executed, Function.update_self]
      refine List.mem_append_right _ ?_
      simp only [effect] at isAnswer ⊢
      split_ifs at isAnswer ⊢
      · exact List.mem_singleton_self _
      · simp [raises] at isAnswer
  | lockUser id => exact isOpened
  | incrementFailedLogin userId => exact isOpened
  | resetFailedLogin userId lastLoginAt => exact isOpened
  | setLockedUntil userId lockedUntil => exact isOpened
  | resetExpiredLockout userId now => exact isOpened
  | revokeToken id revokedAt => exact isOpened
  | unrevokedTokens userId => exact isOpened
  | revokeUnrevoked id userId revokedAt => exact isOpened

end Execute

/-- Knowledge stays true, as the sessions run. -/
theorem tracks_recording (platform : Platform) :
    Tracks (schema platform) AuthError.database (recording platform) .start
      fun pid call knowledge => knowledge.True platform pid call where
  opens pid call db clear := by
    unfold Knowledge.True
    rw [clear.1]
    constructor <;> simp [Knowledge.start, Knowledge.known]
  own pid call knowledge op answer db db' _ isTrue isAllowed performed := by
    cases op with
    | execute statement =>
        cases answer with
        | error error =>
            obtain ⟨_, rfl⟩ := performed
            cases statement <;> exact isTrue
        | ok answer =>
            obtain ⟨_, isAnswer, rfl⟩ := performed
            exact isTrue.execute isAllowed isAnswer
    | commit =>
        cases answer with
        | ok _ =>
            obtain rfl := performed
            simp only [Knowledge.True, Db.commit, Db.release, Function.update_self]
            exact isTrue.commit
        | error error =>
            obtain ⟨_, rfl⟩ := performed
            simp only [Knowledge.True, Db.release, Function.update_self]
            exact isTrue.closed
    | rollback =>
        have isClosed : knowledge.closed.True platform pid call (db.release pid) := by
          simp only [Knowledge.True, Db.release, Function.update_self]
          exact isTrue.closed
        cases answer with
        | ok _ =>
            obtain rfl := performed
            exact isClosed
        | error error =>
            obtain ⟨_, rfl⟩ := performed
            exact isClosed
    | now =>
        cases answer with
        | error error => exact performed.elim
        | ok time =>
            obtain ⟨rfl, rfl⟩ := performed
            refine { isTrue with times := ?_ }
            intro time isTime
            rcases List.mem_cons.mp isTime with rfl | isOld
            · exact le_rfl
            · exact isTrue.times time isOld
  others pid call knowledge other db db' different _ moves isTrue := by
    obtain ⟨keys, commits, isLog, _⟩ := moves.log
    unfold Knowledge.True
    rw [moves.pending pid different.symm, moves.initial, moves.clock, isLog]
    exact isTrue.later _ le_rfl
  timeless pid call knowledge db later isLater isTrue := by
    have isKept := isTrue.later [] isLater
    rwa [List.append_nil] at isKept

end Means

/-! ## How much the calls of the repositories tell -/

section Learns

variable
    {platform : Platform}
    {call : AuthCall}
    {user : Option User}
    {token : Option RefreshToken}
    {times : List Nat}
    {issued : Option NewToken}

/-- What is known when the program returns. -/
abbrev Learns (platform : Platform) (call : AuthCall) {α : Type} (knowledge : Knowledge)
    (program : Session α) (post : Knowledge → α → Prop) : Prop :=
  Follows (recording platform call) knowledge program (inPhase post fun _ => True)

theorem Learns.bind
    {α β : Type}
    {knowledge : Knowledge}
    {program : Session α}
    {rest : α → Session β}
    {post : Knowledge → α → Prop}
    {post' : Knowledge → β → Prop}
    (first : Learns platform call knowledge program post)
    (second : ∀ knowledge value, post knowledge value →
      Learns platform call knowledge (rest value) post') :
    Learns platform call knowledge (program.bind rest) post' :=
  Follows.bind first second fun _ _ _ => trivial

/-- One statement. -/
theorem learns_execute
    {knowledge : Knowledge}
    {statement : Statement}
    (isAllowed : knowledge.Allows platform call statement) :
    Learns platform call knowledge (execute statement) fun knowledge' answer =>
      knowledge' = knowledge.next (.execute statement) (.ok answer) :=
  Follows.perform isAllowed (fun _ => rfl) fun _ => trivial

theorem learns_commit (knowledge : Knowledge) :
    Learns platform call knowledge commit fun knowledge' _ =>
      knowledge' = knowledge.next .commit (.ok ()) :=
  Follows.perform trivial (fun _ => rfl) fun _ => trivial

theorem learns_rollback (knowledge : Knowledge) :
    Learns platform call knowledge rollback fun knowledge' _ => knowledge' = knowledge.closed :=
  Follows.perform trivial (fun _ => rfl) fun _ => trivial

theorem learns_clock (knowledge : Knowledge) :
    Learns platform call knowledge clock fun knowledge' time =>
      knowledge' = { knowledge with times := time :: knowledge.times } :=
  Follows.perform trivial (fun _ => rfl) fun _ => trivial

/-- A failed transaction is rolled back, and its error is raised. -/
theorem learns_transaction
    {α : Type}
    {knowledge : Knowledge}
    {body : Session α}
    {post : Knowledge → α → Prop}
    (learns : Learns platform call knowledge body post) :
    Learns platform call knowledge (transaction body) post := by
  apply Follows.catchWith learns
  · exact fun _ _ holds => holds
  · exact fun knowledge error _ => (learns_rollback knowledge).bind fun _ _ _ => trivial

/-- The statements that tell nothing. -/
def Statement.tells : Statement → Bool
  | .incrementFailedLogin _ => false
  | .resetFailedLogin _ _ => false
  | .setLockedUntil _ _ => false
  | .resetExpiredLockout _ _ => false
  | .lockUser _ => false
  | .revokeToken _ _ => false
  | .unrevokedTokens _ => false
  | .revokeUnrevoked _ _ _ => false
  | _ => true

theorem learns_silent
    (knowledge : Knowledge)
    {statement : Statement}
    (silent : statement.tells = false) :
    Learns platform call knowledge (execute statement) fun knowledge' _ =>
      knowledge' = { knowledge with isOpen := true } := by
  have isAllowed : knowledge.Allows platform call statement := by
    cases statement <;> first | contradiction | trivial
  apply (learns_execute isAllowed).mono
  intro knowledge' result ends
  cases result with
  | error error => trivial
  | ok answer =>
      obtain rfl := ends
      cases statement <;> first | contradiction | rfl

theorem learns_executeAndCommit {statement : Statement} (silent : statement.tells = false) :
    Learns platform call (.known user token times issued) (executeAndCommit statement)
      fun knowledge _ => knowledge = .known user token times issued := by
  apply (learns_silent _ silent).bind
  rintro _ answer rfl
  apply (learns_commit _).bind
  rintro _ _ rfl
  rfl

theorem learns_ofOption {α : Type} (knowledge : Knowledge) (error : AuthError)
    (option : Option α) :
    Learns platform call knowledge (Program.ofOption error option) fun knowledge' value =>
      knowledge' = knowledge ∧ option = some value := by
  cases option with
  | none => trivial
  | some value => exact ⟨rfl, rfl⟩

theorem learns_incrementFailedLogin (userId : UUID) :
    Learns platform call (.known user token times issued) (incrementFailedLogin userId)
      fun knowledge _ => knowledge = .known user token times issued := by
  apply (learns_silent _ rfl).bind
  rintro _ count rfl
  apply (learns_commit _).bind
  rintro _ _ rfl
  apply (learns_ofOption _ _ count).mono
  intro knowledge result ends
  cases result with
  | error error => trivial
  | ok value => exact ends.1

/-- The token that `create` inserts is issued. -/
theorem learns_create
    {inserted : NewToken}
    (isAllowed : (Knowledge.known user token times issued).Allows platform call
      (.insertToken inserted)) :
    Learns platform call (.known user token times issued) (create inserted)
      fun knowledge _ => knowledge = .known user token times (some inserted) := by
  apply (learns_execute isAllowed).bind
  rintro _ _ rfl
  apply (learns_commit _).bind
  rintro _ _ rfl
  have isQuery : (Knowledge.known user token times (some inserted)).Allows platform call
      (.selectTokenById inserted.id) := trivial
  apply (learns_execute isQuery).bind
  rintro _ stored rfl
  apply (learns_ofOption _ _ stored).mono
  intro knowledge result ends
  cases result with
  | error error => trivial
  | ok value => exact ends.1

/-- The replacement is issued if `rotate_if_active` has consumed the token. -/
theorem learns_rotateIfActive
    {existing : RefreshToken}
    {now : Nat}
    {replacement : NewToken}
    (isAllowed : { Knowledge.known user token times issued with
        isOpen := true, consumed := some existing.id }.Allows platform call
      (.insertToken replacement)) :
    Learns platform call (.known user token times issued)
      (rotateIfActive existing.id now replacement) fun knowledge rotated => rotated = true →
        knowledge = .known user token times (some replacement) := by
  apply learns_transaction
  apply (learns_silent _ rfl).bind
  rintro _ lockedUser rfl
  cases lockedUser with
  | none =>
      apply (learns_rollback _).bind
      rintro _ _ rfl notRotated
      contradiction
  | some userId =>
      have isConsume : { Knowledge.known user token times issued with isOpen := true }.Allows
          platform call (.consumeToken existing.id replacement.userId now) := trivial
      apply (learns_execute isConsume).bind
      rintro _ consumed rfl
      cases consumed with
      | none =>
          apply (learns_rollback _).bind
          rintro _ _ rfl notRotated
          contradiction
      | some id =>
          apply (learns_execute isAllowed).bind
          rintro _ _ rfl
          apply (learns_commit _).bind
          rintro _ _ rfl _
          rfl

theorem learns_revoke (tokenId : UUID) (knowledge : Knowledge) :
    Learns platform call knowledge (revoke tokenId) fun _ _ => True := by
  apply (learns_clock knowledge).bind
  intro knowledge revokedAt _
  apply (learns_silent knowledge rfl).bind
  intro knowledge _ _
  exact (learns_commit knowledge).bind fun _ _ _ => trivial

theorem learns_revokeEach
    (userId : UUID)
    (revokedAt : Nat)
    (ids : List UUID)
    (knowledge : Knowledge) :
    Learns platform call knowledge (revokeEach userId revokedAt ids) fun _ _ => True := by
  induction ids generalizing knowledge with
  | nil => trivial
  | cons id ids inductionHypothesis =>
      exact (learns_silent knowledge rfl).bind fun knowledge _ _ => inductionHypothesis knowledge

theorem learns_revokeAllForUser (userId : UUID) (knowledge : Knowledge) :
    Learns platform call knowledge (revokeAllForUser userId) fun _ _ => True := by
  apply learns_transaction
  apply (learns_silent knowledge rfl).bind
  intro knowledge _ _
  apply (learns_clock knowledge).bind
  intro knowledge revokedAt _
  apply (learns_silent knowledge rfl).bind
  intro knowledge ids _
  apply (learns_revokeEach userId revokedAt ids knowledge).bind
  intro knowledge _ _
  apply (learns_commit knowledge).mono
  intro _ result _
  cases result <;> trivial

/-! ## How much the requests tell -/

variable (settings : Settings)

/-- The pair of a request that has read the row of the user: it names the user, and its
refresh token is stored for the given owner, from a reading of the clock on. -/
def Yields (platform : Platform) (knowledge : Knowledge) (draw : Draw) (user : User)
    (ownerId : UUID) (pair : TokenPair) : Prop :=
  user.isActive = true ∧
    (∃ issuedAt ∈ knowledge.times, pair = tokenPair settings (platform.encode
      (accessClaims settings user.id user.roleName draw.jti issuedAt) settings.jwtPrivateKey)
      draw.rawToken) ∧
    ∃ token, knowledge.issued = some token ∧ token.userId = ownerId ∧
      token.tokenHash = hashRefreshToken platform draw.rawToken ∧
      ∃ storedAt ∈ knowledge.times,
        token.expiresAt = storedAt + seconds settings.jwtRefreshTokenTtlSeconds

/-- What is known at the end of a request. -/
def Concludes (platform : Platform) (call : AuthCall) (knowledge : Knowledge) :
    Except AuthError AuthResponse → Prop
  | .ok (.pair pair) =>
      match call with
      | .login request draw => ∃ user, knowledge.user = some user ∧
          Passes platform request user ∧ Yields settings platform knowledge draw user user.id pair
      | .refresh _ draw => ∃ existing user, knowledge.token = some existing ∧
          knowledge.user = some user ∧
          Yields settings platform knowledge draw user existing.userId pair
      | _ => False
  | _ => True

theorem learns_createAccessToken (row : User) (jti : UUID) :
    Learns platform call (.known user token times issued)
      ((createAccessToken settings platform row jti).interpret (sqlAlchemy platform))
      fun knowledge accessToken => ∃ issuedAt,
        knowledge = .known user token (issuedAt :: times) issued ∧
        accessToken = platform.encode
          (accessClaims settings row.id row.roleName jti issuedAt) settings.jwtPrivateKey := by
  unfold createAccessToken perform
  simp only [Program.bind_eq, Program.interpret_bind, Program.interpret_perform]
  apply (learns_clock _).bind
  rintro _ issuedAt rfl
  exact ⟨issuedAt, rfl, rfl⟩

theorem learns_rejectReuse {α : Type} (knowledge : Knowledge) (userId : UUID)
    (post : Knowledge → α → Prop) :
    Learns platform call knowledge
      ((rejectReuse userId : Service α).interpret (sqlAlchemy platform)) post := by
  unfold rejectReuse perform
  simp only [Program.bind_eq, Program.interpret_bind, Program.interpret_perform]
  exact (learns_revokeAllForUser userId knowledge).bind fun _ _ _ => trivial

theorem learns_issueTokenPair
    {request : LoginRequest}
    {draw : Draw}
    {row : User}
    (passes : Passes platform request row) :
    Learns platform (.login request draw) (.known (some row) token times issued)
      ((issueTokenPair settings platform row draw).interpret (sqlAlchemy platform))
      fun knowledge pair => knowledge.user = some row ∧
        Yields settings platform knowledge draw row row.id pair := by
  unfold issueTokenPair perform
  simp only [Program.bind_eq, Program.interpret_bind, Program.interpret_perform]
  apply (learns_createAccessToken settings row draw.jti).bind
  rintro _ accessToken ⟨accessAt, rfl, rfl⟩
  apply (learns_clock _).bind
  rintro _ issuedAt rfl
  have isAllowed : (Knowledge.known (some row) token (issuedAt :: accessAt :: times) issued).Allows
      platform (.login request draw)
      (.insertToken (newToken settings platform row.id draw issuedAt)) :=
    ⟨row, rfl, passes, rfl, rfl⟩
  apply Learns.bind (learns_create isAllowed)
  rintro _ _ rfl
  refine ⟨rfl, passes.isActive, ⟨accessAt, ?_, rfl⟩, _, rfl, rfl, rfl, issuedAt, ?_, rfl⟩
  · simp [Knowledge.known]
  · simp [Knowledge.known]

theorem learns_countFailure (row : User) :
    Learns platform call (.known user token times issued)
      ((countFailure settings row).interpret (sqlAlchemy platform)) fun _ _ => True := by
  unfold countFailure perform
  simp only [Program.bind_eq, Program.interpret_bind, Program.interpret_perform]
  apply Learns.bind (learns_incrementFailedLogin row.id)
  rintro _ newFailedCount rfl
  split_ifs
  · simp only [Program.interpret_bind, Program.interpret_perform]
    apply (learns_clock _).bind
    rintro _ now rfl
    apply Follows.mono (learns_executeAndCommit rfl)
    intro _ result _
    cases result <;> trivial
  · trivial

theorem learns_judgePassword
    {request : LoginRequest}
    {draw : Draw}
    (row : User) :
    Learns platform (.login request draw) (.known (some row) token times issued)
      ((judgePassword settings platform row request.password draw).interpret
        (sqlAlchemy platform))
      fun knowledge pair => knowledge.user = some row ∧ Passes platform request row ∧
        Yields settings platform knowledge draw row row.id pair := by
  unfold judgePassword
  split_ifs with isActive
  · unfold perform
    simp only [Program.bind_eq, Program.interpret_bind, Program.interpret_perform]
    by_cases isRight : platform.verify request.password row.hashedPassword = true
    · have isJudged : sqlAlchemy platform (.verifyPassword request.password (.ofUser row)) =
          .ret true := congrArg Program.ret isRight
      rw [isJudged]
      simp only [Program.ret_bind, if_true, Program.interpret_bind, Program.interpret_perform]
      apply (learns_clock _).bind
      rintro _ lastLoginAt rfl
      apply Learns.bind (learns_executeAndCommit rfl)
      rintro _ _ rfl
      have passes : Passes platform request row := ⟨isActive, isRight⟩
      apply (learns_issueTokenPair settings passes).mono
      intro knowledge result ends
      cases result with
      | error error => trivial
      | ok pair => exact ⟨ends.1, passes, ends.2⟩
    · have isJudged : sqlAlchemy platform (.verifyPassword request.password (.ofUser row)) =
          .ret false := congrArg Program.ret (Bool.not_eq_true _ ▸ isRight)
      rw [isJudged]
      simp only [Program.ret_bind, Bool.false_eq_true, if_false, Program.interpret_bind]
      exact (learns_countFailure settings row).bind fun _ _ _ => trivial
  · trivial

theorem learns_checkLockout (row : User) (now : Nat) (password : Str) :
    Learns platform call (.known user token times issued)
      ((checkLockout row now password).interpret (sqlAlchemy platform))
      fun knowledge _ => knowledge = .known user token times issued := by
  unfold checkLockout
  split
  · rfl
  · split_ifs
    · trivial
    · unfold perform
      rw [Program.interpret_perform]
      exact learns_executeAndCommit rfl

/-- `login` issues a pair only for the account whose password it has been given. -/
theorem learns_login (request : LoginRequest) (draw : Draw) :
    Learns platform (.login request draw) .start
      ((login settings platform request draw).interpret (sqlAlchemy platform))
      fun knowledge pair => ∃ user, knowledge.user = some user ∧ Passes platform request user ∧
        Yields settings platform knowledge draw user user.id pair := by
  unfold login perform
  simp only [Program.bind_eq, Program.interpret_bind, Program.interpret_perform]
  have isQuery : Knowledge.start.Allows platform (.login request draw)
      (.selectUserByEmail request.email) := by
    refine ⟨rfl, rfl, fun request' draw' isLogin => ?_⟩
    obtain ⟨rfl, rfl⟩ := AuthCall.login.inj isLogin
    rfl
  apply (learns_execute isQuery).bind
  rintro _ found rfl
  cases found with
  | none => trivial
  | some row =>
      simp only [Program.interpret_bind, Program.interpret_perform]
      apply (learns_clock _).bind
      rintro _ now rfl
      apply Learns.bind (learns_checkLockout row now request.password)
      rintro _ _ rfl
      apply (learns_judgePassword settings row).mono
      intro knowledge result ends
      cases result with
      | error error => trivial
      | ok pair => exact ⟨row, ends⟩

/-- `refresh` issues a pair only for the owner of the token that it has consumed. -/
theorem learns_refresh (rawToken : Str) (draw : Draw) :
    Learns platform (.refresh rawToken draw) .start
      ((refresh settings platform rawToken draw).interpret (sqlAlchemy platform))
      fun knowledge pair => ∃ existing user, knowledge.token = some existing ∧
        knowledge.user = some user ∧
        Yields settings platform knowledge draw user existing.userId pair := by
  unfold refresh perform
  simp only [Program.bind_eq, Program.interpret_bind, Program.interpret_perform,
    Program.interpret_ofOption]
  have isQuery : Knowledge.start.Allows platform (.refresh rawToken draw)
      (.selectTokenByHash (hashRefreshToken platform rawToken)) := by
    refine ⟨rfl, rfl, fun rawToken' draw' isRefresh => ?_⟩
    obtain ⟨rfl, rfl⟩ := AuthCall.refresh.inj isRefresh
    rfl
  apply (learns_execute isQuery).bind
  rintro _ found rfl
  apply (learns_ofOption _ _ found).bind
  rintro _ existing ⟨rfl, rfl⟩
  split_ifs with isActive
  · unfold rotate perform
    simp only [Program.bind_eq, Program.interpret_bind, Program.interpret_perform,
      Program.interpret_ensure, Program.interpret_ofOption]
    apply (learns_clock _).bind
    rintro _ now rfl
    apply Follows.bind (Follows.ensure _ _)
    · rintro _ _ ⟨rfl, _⟩
      have isQuery : (Knowledge.known none (some existing) [now] none).Allows platform
          (.refresh rawToken draw) (.selectUserById existing.userId) :=
        ⟨rfl, fun _ _ isLogin => AuthCall.noConfusion isLogin, existing, rfl, rfl⟩
      apply (learns_execute isQuery).bind
      rintro _ found rfl
      apply (learns_ofOption _ _ _).bind
      rintro _ user ⟨rfl, isFound⟩
      obtain ⟨rfl, isActiveUser⟩ := Option.filter_eq_some_iff.mp isFound
      apply (learns_clock _).bind
      rintro _ issuedAt rfl
      have isAllowed : { Knowledge.known (some user) (some existing) [issuedAt, now] none with
          isOpen := true, consumed := some existing.id }.Allows platform (.refresh rawToken draw)
            (.insertToken (newToken settings platform existing.userId draw issuedAt)) :=
        ⟨existing, rfl, rfl, rfl, rfl⟩
      apply Learns.bind (learns_rotateIfActive isAllowed)
      intro knowledge rotated isRotated
      cases rotated with
      | false =>
          simp only [Bool.false_eq_true, if_false]
          exact learns_rejectReuse _ existing.userId _
      | true =>
          obtain rfl := isRotated rfl
          simp only [if_true, Program.interpret_bind]
          apply (learns_createAccessToken settings user draw.jti).bind
          rintro _ accessToken ⟨accessAt, rfl, rfl⟩
          refine ⟨existing, user, rfl, rfl, isActiveUser, ⟨accessAt, ?_, rfl⟩, _, rfl, rfl, rfl,
            issuedAt, ?_, rfl⟩
          · simp [Knowledge.known]
          · simp [Knowledge.known]
    · exact fun _ _ _ => trivial
  · exact learns_rejectReuse _ existing.userId _

theorem learns_logout (rawToken : Str) :
    Learns platform (.logout rawToken) .start
      ((logout platform rawToken).interpret (sqlAlchemy platform)) fun _ _ => True := by
  unfold logout perform
  simp only [Program.bind_eq, Program.interpret_bind, Program.interpret_perform]
  have isQuery : Knowledge.start.Allows platform (.logout rawToken)
      (.selectTokenByHash (hashRefreshToken platform rawToken)) :=
    ⟨rfl, rfl, fun _ _ isRefresh => AuthCall.noConfusion isRefresh⟩
  apply (learns_execute isQuery).bind
  rintro _ found rfl
  split
  · trivial
  · rw [Program.interpret_perform]
    exact learns_revoke _ _

/-- What every request does, and what it knows at the end. -/
theorem follows_recording (platform : Platform) (call : AuthCall) :
    Follows (recording platform call) .start (serve settings platform call)
      (Concludes settings platform call) := by
  unfold serve AuthCall.program
  cases call with
  | login request draw =>
      simp only [Program.bind_eq, Program.interpret_bind]
      exact Follows.bind (learns_login settings request draw) (fun _ _ ends => ends)
        fun _ _ _ => trivial
  | refresh rawToken draw =>
      simp only [Program.bind_eq, Program.interpret_bind]
      exact Follows.bind (learns_refresh settings rawToken draw) (fun _ _ ends => ends)
        fun _ _ _ => trivial
  | logout rawToken =>
      simp only [Program.bind_eq, Program.interpret_bind]
      exact Follows.bind (learns_logout rawToken) (fun _ _ _ => trivial) fun _ _ _ => trivial
  | logoutAll userId =>
      simp only [Program.bind_eq, Program.interpret_bind]
      unfold logoutAll perform
      rw [Program.interpret_perform]
      exact Follows.bind (learns_revokeAllForUser userId .start) (fun _ _ _ => trivial)
        fun _ _ _ => trivial

end Learns

end Auth
end SigmaForge
