import SigmaForge.Auth.Transactions
import SigmaForge.Foundation.Serial

/-!
# Sessions of users

What holds of the refresh tokens in every run of any number of logins,
refreshes, logouts and revocations of all sessions.
-/

namespace SigmaForge
namespace Auth

open Text ReadCommitted

/-- The program of a request over a session of its own. -/
def serve (settings : Settings) (platform : Platform) (call : AuthCall) : Session AuthResponse :=
  (call.program settings platform).interpret (sqlAlchemy platform)

section Outlines

variable
    {settings : Settings}
    {platform : Platform}
    {pid : ProcId}
    {fact : AuthStore → List (Event Key Write) → Prop}

theorem noInserts_updateLogin
    (store : AuthStore)
    (userId : UUID)
    (condition : User → Bool)
    (columns : User → LoginColumns) :
    NoInserts (updateLogin store userId condition columns).writes := by
  intro write isWritten token
  unfold updateLogin at isWritten
  split at isWritten
  · simp [reads] at isWritten
  · rw [List.mem_singleton.mp isWritten]
    exact Write.noConfusion

theorem noInserts_revokeToken (store : AuthStore) (id : UUID) (revokedAt : Nat) :
    NoInserts (effect platform (.revokeToken id revokedAt) store).writes := by
  intro write isWritten token
  simp only [effect, revokeWhere] at isWritten
  split at isWritten
  · simp [reads] at isWritten
  · rw [List.mem_singleton.mp isWritten]
    exact Write.noConfusion

/-- The outline of `revoke`. -/
theorem outline_revoke (lasting : Lasting fact) (tokenId : UUID) :
    Outline (sessionMachine platform) (tokensOnly platform) pid (revoke tokenId) (Idle pid fact)
      (byOutcome (fun _ => Idle pid fact)
        fun error db => error = .database ∧ Idle pid fact db) := by
  apply Outline.bind (outline_now (stable_idle lasting))
  · exact fun revokedAt => outline_executeAndCommit lasting fun store =>
      noInserts_revokeToken store tokenId revokedAt
  · exact fun _ _ _ unreachable => unreachable.elim

/-- Every repository call leaves its session between two transactions. -/
theorem outline_sqlAlchemy (lasting : Lasting fact) (op : AuthOp) :
    Outline (sessionMachine platform) (tokensOnly platform) pid (sqlAlchemy platform op)
      (Idle pid fact) fun _ => Idle pid fact := by
  have weakened : ∀ {α : Type} {program : Session α} {after : α → AuthDb → Prop},
      (∀ value db, after value db → Idle pid fact db) →
      Outline (sessionMachine platform) (tokensOnly platform) pid program (Idle pid fact)
        (byOutcome after fun error db => error = .database ∧ Idle pid fact db) →
      Outline (sessionMachine platform) (tokensOnly platform) pid program (Idle pid fact)
        fun _ => Idle pid fact := by
    intro α program after implies outline
    apply outline.consequence
    intro result db _ holds
    cases result with
    | ok value => exact implies value db holds
    | error error => exact holds.2
  have same : ∀ {α : Type} (_ : α) db, Idle pid fact db → Idle pid fact db :=
    fun _ _ holds => holds
  cases op with
  | getByEmail email => exact weakened same (outline_query_idle lasting fun _ => ⟨_, rfl⟩)
  | getById userId => exact weakened same (outline_query_idle lasting fun _ => ⟨_, rfl⟩)
  | incrementFailedLogin userId =>
      exact weakened same (outline_incrementFailedLogin lasting userId)
  | resetFailedLogin userId lastLoginAt =>
      exact weakened same (outline_executeAndCommit lasting fun store =>
        noInserts_updateLogin store userId _ _)
  | setLockedUntil userId lockedUntil =>
      exact weakened same (outline_executeAndCommit lasting fun store =>
        noInserts_updateLogin store userId _ _)
  | resetExpiredLockout userId now =>
      exact weakened same (outline_executeAndCommit lasting fun store =>
        noInserts_updateLogin store userId _ _)
  | create token => exact weakened same (outline_create lasting token)
  | getByHash tokenHash => exact weakened same (outline_query_idle lasting fun _ => ⟨_, rfl⟩)
  | rotateIfActive tokenId now replacement =>
      exact weakened (fun _ _ holds => ⟨holds.1, holds.2.1⟩)
        (outline_rotateIfActive lasting tokenId now replacement)
  | revoke tokenId => exact weakened same (outline_revoke lasting tokenId)
  | revokeAllForUser userId =>
      exact weakened (fun _ _ holds => ⟨holds.1, holds.2.1⟩)
        (outline_revokeAllForUser lasting userId)
  | now =>
      apply (outline_now (stable_idle lasting)).consequence
      intro result db _ holds
      cases result with
      | ok time => exact holds
      | error error => exact holds.elim
  | verifyPassword password hash => exact fun db _ holds => holds

/-- So does every function of the service. -/
theorem outline_service {α : Type} (lasting : Lasting fact) (program : Service α) :
    Outline (sessionMachine platform) (tokensOnly platform) pid
      (program.interpret (sqlAlchemy platform)) (Idle pid fact) fun _ => Idle pid fact :=
  Outline.interpret (outline_sqlAlchemy lasting) program

/-! ## `refresh` -/

/-- The outline of the reaction to a reuse. -/
theorem outline_rejectReuse {α : Type} (lasting : Lasting fact) (userId : UUID) :
    Outline (sessionMachine platform) (tokensOnly platform) pid
      ((rejectReuse userId : Service α).interpret (sqlAlchemy platform)) (Idle pid fact)
      (byOutcome (fun _ _ => False) fun error db => error = reuseDetected →
        Swept platform pid userId fact db.initial db.log) := by
  have isProgram : (rejectReuse userId : Service α).interpret (sqlAlchemy platform) =
      (revokeAllForUser userId).bind fun _ => .raise reuseDetected := by
    unfold rejectReuse perform
    rw [Program.bind_eq, Program.interpret_bind, Program.interpret_perform]
    rfl
  rw [isProgram]
  apply Outline.bind (outline_revokeAllForUser lasting userId)
  · exact fun _ db _ holds _ => holds.2
  · rintro error db _ ⟨rfl, _⟩ isReuse
    contradiction

/-- The outline of `create_access_token`. -/
theorem outline_createAccessToken (lasting : Lasting fact) (user : User) (jti : UUID) :
    Outline (sessionMachine platform) (tokensOnly platform) pid
      ((createAccessToken settings platform user jti).interpret (sqlAlchemy platform))
      (Idle pid fact) (byOutcome (fun _ => Idle pid fact) fun _ _ => False) := by
  unfold createAccessToken perform
  simp only [Program.bind_eq, Program.interpret_bind, Program.interpret_perform]
  apply Outline.bind (outline_now (stable_idle lasting))
  · exact fun _ db _ holds => holds
  · exact fun _ _ _ unreachable => unreachable

/-- The session has consumed the token. -/
def HasConsumed (pid : ProcId) (tokenId : UUID) (initial : AuthStore)
    (log : List (Event Key Write)) : Prop :=
  ∃ replacement, HasRotated pid tokenId replacement initial log

/-- The outline of `refresh` after the token has been read. -/
theorem outline_rotate (lasting : Lasting fact) (existing : RefreshToken) (draw : Draw) :
    Outline (sessionMachine platform) (tokensOnly platform) pid
      ((rotate settings platform existing draw).interpret (sqlAlchemy platform)) (Idle pid fact)
      (byOutcome
        (fun _ db => fact db.initial db.log ∧ HasConsumed pid existing.id db.initial db.log)
        fun error db => error = reuseDetected →
          Swept platform pid existing.userId fact db.initial db.log) := by
  have fails : ∀ error (db : AuthDb), error = AuthError.database ∧ Idle pid fact db →
      error = reuseDetected → Swept platform pid existing.userId fact db.initial db.log := by
    rintro _ db ⟨rfl, _⟩ isReuse
    contradiction
  unfold rotate perform
  simp only [Program.bind_eq, Program.interpret_bind, Program.interpret_perform,
    Program.interpret_ensure, Program.interpret_ofOption]
  apply Outline.bind (outline_now (stable_idle lasting))
  · intro now
    apply Outline.ensure_bind
    · exact fun db _ _ isReuse => absurd isReuse (by decide)
    · intro _
      apply Outline.bind (outline_query_idle lasting fun _ => ⟨_, rfl⟩)
      · intro found
        apply Outline.ofOption_bind
        · exact fun db _ _ isReuse => absurd isReuse (by decide)
        · intro user _
          apply Outline.bind (outline_now (stable_idle lasting))
          · intro issuedAt
            apply Outline.bind (outline_rotateIfActive lasting existing.id now _)
            · intro rotated
              cases rotated with
              | true =>
                  simp only [if_true, Program.interpret_bind]
                  apply Outline.bind (outline_createAccessToken
                    (lasting_rotated lasting existing.id _ true) user draw.jti)
                  · exact fun _ db _ holds => ⟨holds.2.1, _, holds.2.2 rfl⟩
                  · exact fun _ _ _ unreachable => unreachable.elim
              | false =>
                  simp only [Bool.false_eq_true, if_false]
                  apply ((outline_rejectReuse lasting existing.userId).weaken
                    fun db _ holds => ⟨holds.1, holds.2.1⟩).consequence
                  intro result db _ holds
                  cases result with
                  | ok _ => exact holds.elim
                  | error error => exact holds
            · exact fun error db _ holds => fails error db holds
          · exact fun _ _ _ unreachable => unreachable.elim
      · exact fun error db _ holds => fails error db holds
  · exact fun _ _ _ unreachable => unreachable.elim

/-- The presented token has been stored. -/
def Presented (platform : Platform) (rawToken : Str) (token : NewToken) (initial : AuthStore)
    (log : List (Event Key Write)) : Prop :=
  token.tokenHash = hashRefreshToken platform rawToken ∧
    Stored (replay (schema platform) initial log) token

theorem lasting_presented (rawToken : Str) (token : NewToken) :
    Lasting (Presented platform rawToken token) :=
  fun _ _ events holds => ⟨holds.1, stored_along holds.2 events⟩

/-- What has happened when a request ends. -/
def Ending (platform : Platform) (pid : ProcId) (initial : AuthStore)
    (log : List (Event Key Write)) : AuthCall → Except AuthError AuthResponse → Prop
  | .refresh rawToken _, .ok _ => ∃ token,
      Presented platform rawToken token initial log ∧ HasConsumed pid token.id initial log
  | .refresh rawToken _, .error error => error = reuseDetected → ∃ token,
      Presented platform rawToken token initial log ∧
        (HasUser token.userId initial → HasSwept platform pid token.userId initial log)
  | .logoutAll userId, .ok _ =>
      HasUser userId initial → HasSwept platform pid userId initial log
  | _, _ => True

theorem lasting_ending (call : AuthCall) (result : Except AuthError AuthResponse) :
    Lasting fun initial log => Ending platform pid initial log call result := by
  intro initial log events ending
  cases call with
  | login request draw => trivial
  | logout rawToken => trivial
  | logoutAll userId =>
      cases result with
      | ok response =>
          exact fun hasUser => lasting_hasSwept userId initial log events (ending hasUser)
      | error error => trivial
  | refresh rawToken draw =>
      cases result with
      | ok response =>
          obtain ⟨token, presented, replacement, consumed⟩ := ending
          exact ⟨token, lasting_presented rawToken token initial log events presented,
            replacement, lasting_hasRotated token.id replacement initial log events consumed⟩
      | error error =>
          intro isReuse
          obtain ⟨token, presented, swept⟩ := ending isReuse
          exact ⟨token, lasting_presented rawToken token initial log events presented,
            fun hasUser => lasting_hasSwept token.userId initial log events (swept hasUser)⟩

/-- How a request ends. -/
abbrev Ended (platform : Platform) (pid : ProcId) (call : AuthCall)
    (result : Except AuthError AuthResponse) (db : AuthDb) : Prop :=
  Ending platform pid db.initial db.log call result

/-- The outline of `refresh`. -/
theorem outline_refresh (rawToken : Str) (draw : Draw) :
    Outline (sessionMachine platform) (tokensOnly platform) pid
      (serve settings platform (.refresh rawToken draw)) (fun db => db.pending pid = [])
      (Ended platform pid (.refresh rawToken draw)) := by
  let anything : AuthStore → List (Event Key Write) → Prop := fun _ _ => True
  have lastingAnything : Lasting anything := fun _ _ _ _ => trivial
  let gained : Option RefreshToken → AuthStore → List (Event Key Write) → Prop :=
    fun found initial log => ∀ existing, found = some existing →
      Presented platform rawToken existing.toNewToken initial log
  have gainedLasts : ∀ found, Lasting (gained found) :=
    fun found initial log events holds existing isFound =>
      lasting_presented rawToken _ initial log events (holds existing isFound)
  unfold serve AuthCall.program refresh perform
  simp only [Program.bind_eq, Program.bind_assoc, Program.interpret_bind,
    Program.interpret_perform, Program.interpret_ofOption, Program.pure_eq]
  have query : Outline (sessionMachine platform) (tokensOnly platform) pid
      (execute (.selectTokenByHash (hashRefreshToken platform rawToken))) (Idle pid anything)
      (byOutcome (fun found => Idle pid fun initial log =>
          anything initial log ∧ gained found initial log)
        fun error db => error = .database ∧ Idle pid anything db) := by
    apply outline_query lastingAnything gainedLasts fun _ => ⟨_, rfl⟩
    rintro initial log found isAnswer existing rfl
    have isFound := Option.some.inj isAnswer
    have isHash : existing.tokenHash = hashRefreshToken platform rawToken := by
      simpa using List.find?_some isFound
    exact ⟨isHash, existing, AuthStore.token_of_mem (List.mem_of_find?_eq_some isFound), rfl⟩
  apply Outline.weaken
  apply Outline.bind query
  · intro found
    apply Outline.ofOption_bind
    · exact fun db _ _ isReuse => absurd isReuse (by decide)
    · intro existing isFound
      have lasting := lastingAnything.and (gainedLasts found)
      split_ifs with isActive
      · apply Outline.bind (outline_rotate lasting existing draw)
        · exact fun pair db _ holds =>
            ⟨existing.toNewToken, holds.1.2 existing isFound, holds.2⟩
        · exact fun error db _ holds isReuse =>
            ⟨existing.toNewToken, (holds isReuse).1.2 existing isFound, (holds isReuse).2⟩
      · apply Outline.bind (outline_rejectReuse lasting existing.userId)
        · exact fun _ db _ unreachable => unreachable.elim
        · exact fun error db _ holds isReuse =>
            ⟨existing.toNewToken, (holds isReuse).1.2 existing isFound, (holds isReuse).2⟩
  · rintro _ db _ ⟨rfl, _⟩ isReuse
    contradiction
  · exact fun db _ nothing => ⟨nothing, trivial⟩

/-- The outlines of all requests. -/
theorem outlined_sessions (settings : Settings) (platform : Platform) :
    Outlined (sessionMachine platform) (tokensOnly platform) (serve settings platform) Untouched
      (Ended platform) := by
  have anything : Lasting fun _ _ => True := fun _ _ _ _ => trivial
  have unremarkable : ∀ {pid : ProcId} {call : AuthCall},
      (∀ result db, Ended platform pid call result db) →
      Outline (sessionMachine platform) (tokensOnly platform) pid (serve settings platform call)
        (Untouched pid) (Ended platform pid call) := by
    intro pid call ended
    apply ((outline_service anything _).weaken fun db _ untouched =>
      ⟨untouched.1, trivial⟩).consequence
    exact fun result db _ _ => ended result db
  apply outlined_of_outlines
  · exact fun pid call result => stable_log (lasting_ending call result)
  · exact fun pid call result db ended => ended
  · intro pid call
    cases call with
    | login request draw => exact unremarkable fun result db => trivial
    | logout rawToken => exact unremarkable fun result db => trivial
    | refresh rawToken draw =>
        exact (outline_refresh rawToken draw).weaken fun db _ untouched => untouched.1
    | logoutAll userId =>
        have isProgram : serve settings platform (.logoutAll userId) =
            (revokeAllForUser userId).bind fun _ => .ret .done := by
          simp only [serve, AuthCall.program, logoutAll, perform, Program.bind_eq,
            Program.interpret_bind, Program.interpret_perform]
          rfl
        rw [isProgram]
        apply Outline.bind ((outline_revokeAllForUser anything userId).weaken
          fun db _ untouched => ⟨untouched.1, trivial⟩)
        · exact fun _ db _ holds => holds.2.2
        · exact fun error db _ holds => trivial

end Outlines

/-! ## Runs -/

section Runs

variable
    {settings : Settings}
    {platform : Platform}
    {initial : AuthStore}
    {clock : Nat}
    {config config' : Config AuthError (SessionAnswer Answer) AuthCall AuthDb AuthResponse}

/-- The token with the hash is stored, and it is revoked. -/
def RevokedHash (tokenHash : Str) (store : AuthStore) : Prop :=
  ∃ token ∈ store.tokens, token.tokenHash = tokenHash ∧ token.revokedAt ≠ none

/-- A token whose hash belongs to a revoked token is that token. -/
theorem RevokedHash.revoked
    {store : AuthStore}
    {token : NewToken}
    (isRevoked : RevokedHash token.tokenHash store)
    {log : List (Event Key Write)}
    (isReplay : store = replay (schema platform) initial log)
    {log' : List (Event Key Write)}
    (isStored : Stored (replay (schema platform) initial (log ++ log')) token) :
    Revoked store token.id := by
  obtain ⟨row, isRow, sameHash, notActive⟩ := isRevoked
  have isStoredRow : Stored (replay (schema platform) initial log) row.toNewToken := by
    rw [← isReplay]
    exact ⟨row, AuthStore.token_of_mem isRow, rfl⟩
  obtain ⟨later, isLater, isSame⟩ := stored_along isStoredRow log'
  obtain ⟨found, isFound, isToken⟩ := isStored
  have sameRow : found = later := by
    apply List.inj_on_of_nodup_map
      (replay (schema platform) initial (log ++ log')).consistent.tokenHashes
      (AuthStore.mem_of_token isFound) (AuthStore.mem_of_token isLater)
    have hashOfFound : found.tokenHash = token.tokenHash := congrArg NewToken.tokenHash isToken
    have hashOfLater : later.tokenHash = row.tokenHash := congrArg NewToken.tokenHash isSame
    rw [hashOfFound, hashOfLater, sameHash]
  have isRowId : token.id = row.id := by
    rw [← isToken, sameRow, isSame]
  rw [isRowId]
  exact ⟨row, AuthStore.token_of_mem isRow, notActive⟩

/-- In every run from any tables, each token has at most one child, each lineage
has at most one active token, no revocation is taken back, and a refresh whose
token is revoked when it reads it returns no tokens. -/
theorem one_live_token
    (reachable : Reachable (sessionMachine platform) (serve settings platform)
      (Db.start initial clock) config)
    (steps : Steps (sessionMachine platform) (serve settings platform) config config') :
    (∀ parent child child', IsChild config.shared.log parent child →
      IsChild config.shared.log parent child' → child = child') ∧
    (∀ root id id', Lineage config.shared.log root id → Lineage config.shared.log root id' →
      Active (config.shared.committed (schema platform)) id →
      Active (config.shared.committed (schema platform)) id' → id = id') ∧
    (∀ id, Revoked (config.shared.committed (schema platform)) id →
      Revoked (config'.shared.committed (schema platform)) id) ∧
    ∀ pid rawToken draw,
      config.process pid = some (.refresh rawToken draw,
        .running (serve settings platform (.refresh rawToken draw))) →
      RevokedHash (hashRefreshToken platform rawToken)
        (config.shared.committed (schema platform)) →
      ∀ response,
        config'.process pid ≠ some (.refresh rawToken draw, .finished (.ok response)) := by
  have outlined := outlined_sessions settings platform
  obtain ⟨satisfied, _⟩ := sound_of_outlined outlined reachable
  obtain ⟨satisfied', ended⟩ := sound_of_outlined outlined (reachable.trans steps)
  obtain ⟨sameInitial, events, isLog⟩ := log_extends steps
  refine ⟨?_, ?_, ?_, ?_⟩
  · exact fun parent child child' first second => first.unique satisfied second
  · exact fun root id id' first second => active_unique satisfied first second
  · intro id isRevoked
    rw [Db.committed, sameInitial, isLog]
    exact revoked_along isRevoked events
  · intro pid rawToken draw isReading isRevoked response isFinished
    obtain ⟨token, ⟨isHash, isStored⟩, replacement, before, rotates⟩ :=
      ended pid _ _ isFinished
    have untouched : Untouched pid config.shared := by
      apply untouched_of_fresh reachable
      rw [isReading]
      rfl
    rw [← isHash] at isRevoked
    rw [sameInitial, isLog] at isStored satisfied'
    have isRevokedToken : Revoked (config.shared.committed (schema platform)) token.id :=
      isRevoked.revoked rfl isStored
    rw [isLog] at rotates
    obtain ⟨_, _, _, _, isActive, _⟩ := rotates.met satisfied'
    -- the session commits after it has read
    obtain ⟨now, after, isSplit⟩ := rotates
    rcases List.append_eq_append_iff.mp isSplit with
      ⟨middle, rfl, _⟩ | ⟨middle, isBefore, isRest⟩
    · exact (revoked_along isRevokedToken middle).not_active isActive
    · cases middle with
      | nil =>
          rw [List.append_nil] at isBefore
          rw [← isBefore] at isActive
          exact isRevokedToken.not_active isActive
      | cons event middle =>
          rw [List.cons_append, List.cons.injEq] at isRest
          apply untouched.2 [.revokeToken token.id now, .insertToken replacement]
          rw [isBefore, ← isRest.1]
          simp

/-- A revocation transaction of the session is a barrier: from its commit on, in
every run that goes on from here, no lineage with a root that was committed
before the transaction took the lock of the user, the last time before its
commit, has an active token. -/
def Barrier (settings : Settings) (platform : Platform) (pid : ProcId) (userId : UUID)
    (config : Config AuthError (SessionAnswer Answer) AuthCall AuthDb AuthResponse) : Prop :=
  ∃ opening middle writes after,
    config.shared.log = upToCommit pid userId opening middle writes ++ after ∧
    .acquired pid (.user userId) ∉ middle ∧ (∀ others, .committed pid others ∉ middle) ∧
    ∀ config', Steps (sessionMachine platform) (serve settings platform) config config' →
      ∀ later root id,
        upToCommit pid userId opening middle writes ++ later <+: config'.shared.log →
        Stored (replay (schema platform) config.shared.initial opening) root →
        root.userId = userId →
        Lineage (upToCommit pid userId opening middle writes ++ later) root.id id →
        ¬Active (replay (schema platform) config.shared.initial
          (upToCommit pid userId opening middle writes ++ later)) id

/-- A sweep is a barrier. -/
theorem barrier_of_hasSwept
    (reachable : Reachable (sessionMachine platform) (serve settings platform)
      (Db.start initial clock) config)
    {pid : ProcId}
    {userId : UUID}
    (swept : HasSwept platform pid userId config.shared.initial config.shared.log) :
    Barrier settings platform pid userId config := by
  obtain ⟨opening, middle, writes, after, isLog, sweeps⟩ := swept
  refine ⟨opening, middle, writes, after, isLog, sweeps.once, ?_, ?_⟩
  · obtain ⟨middle', isMiddle, _, uncommitted⟩ := sweeps.held
    obtain rfl := (List.cons.inj (List.append_cancel_left isMiddle)).2
    exact uncommitted
  · intro config' steps later root id isPrefix isStored isOwner descends
    obtain ⟨satisfied, _⟩ :=
      sound_of_outlined (outlined_sessions settings platform) (reachable.trans steps)
    obtain ⟨rest, isRest⟩ := isPrefix
    rw [(log_extends steps).1, ← isRest] at satisfied
    exact sweeps.not_active satisfied.of_append isStored isOwner descends

/-- The owner of a stored token has been there from the start. -/
theorem Stored.hasUser
    {token : NewToken}
    {log : List (Event Key Write)}
    (isStored : Stored (replay (schema platform) initial log) token) :
    HasUser token.userId initial := by
  obtain ⟨row, isRow, rfl⟩ := isStored
  have isOwned : HasUser row.userId (replay (schema platform) initial log) :=
    (replay (schema platform) initial log).consistent.owner row (AuthStore.mem_of_token isRow)
  by_contra absent
  have kept : ∀ store write, ¬HasUser row.userId store →
      ¬HasUser row.userId ((schema platform).apply store write) :=
    fun store write absent present => absent ((hasUser_apply row.userId store write).mp present)
  have absentAtFirst : ¬HasUser row.userId (replay (schema platform) initial []) := absent
  exact replay_kept kept absentAtFirst log isOwned

/-- In every run, a refresh that has detected a reuse and a `logout_all` of a
user that has returned have each raised a barrier. -/
theorem reuse_barrier
    (reachable : Reachable (sessionMachine platform) (serve settings platform)
      (Db.start initial clock) config)
    (pid : ProcId) :
    (∀ rawToken draw,
      config.process pid = some (.refresh rawToken draw, .finished (.error reuseDetected)) →
      ∃ token, token.tokenHash = hashRefreshToken platform rawToken ∧
        Stored (config.shared.committed (schema platform)) token ∧
        Barrier settings platform pid token.userId config) ∧
    ∀ userId response, HasUser userId initial →
      config.process pid = some (.logoutAll userId, .finished (.ok response)) →
      Barrier settings platform pid userId config := by
  obtain ⟨_, ended⟩ := sound_of_outlined (outlined_sessions settings platform) reachable
  have isInitial : config.shared.initial = initial := (log_extends reachable).1
  constructor
  · intro rawToken draw isFinished
    obtain ⟨token, ⟨isHash, isStored⟩, swept⟩ := ended pid _ _ isFinished rfl
    exact ⟨token, isHash, isStored, barrier_of_hasSwept reachable (swept isStored.hasUser)⟩
  · intro userId response hasUser isFinished
    rw [← isInitial] at hasUser
    exact barrier_of_hasSwept reachable (ended pid _ _ isFinished hasUser)

end Runs

/-! ## A small history -/

instance (tokenHash : Str) (store : AuthStore) : Decidable (RevokedHash tokenHash store) :=
  inferInstanceAs (Decidable (∃ token ∈ store.tokens, _ ∧ _))

/-- What a request that is served alone returns and leaves. -/
def servedAlone (call : AuthCall) (store : AuthStore) : Except AuthError AuthResponse × AuthStore :=
  alone (schema .plain) AuthError.database 0 (serve (Settings.sample 0) .plain call) store

/-- A refresh with the token of the first login. -/
def AuthCall.refreshSample (number : Nat) : AuthCall :=
  .refresh (Draw.sample 1).rawToken (.sample number)

/-- The tables after a login and a refresh with its token. -/
def AuthStore.rotated : AuthStore :=
  (servedAlone (.refreshSample 2) (servedAlone (.sample (lit "right") 1) .sample).2).2

/-- The requests so far have been served one after the other. -/
abbrev Served (next : ProcId)
    (config : Config AuthError (SessionAnswer Answer) AuthCall AuthDb AuthResponse) : Prop :=
  InTurn (schema .plain) AuthError.database (serve (Settings.sample 0) .plain) AuthStore.sample 0 0
    next config

/-- One more request. -/
theorem Served.request
    {store : AuthStore}
    {next : ProcId}
    {config : Config AuthError (SessionAnswer Answer) AuthCall AuthDb AuthResponse}
    (served : Served next config)
    (isCommitted : config.shared.committed (schema .plain) = store)
    (call : AuthCall) :
    ∃ config', Steps (sessionMachine .plain) (serve (Settings.sample 0) .plain) config config' ∧
      Served (next + 1) config' ∧
      config'.process next = some (call, .finished (servedAlone call store).1) ∧
      (∀ pid, pid ≠ next → config'.process pid = config.process pid) ∧
      config'.shared.committed (schema .plain) = (servedAlone call store).2 :=
  served.serve isCommitted (Prod.eta _).symm

/-- A run to these tables. -/
theorem served_rotated :
    ∃ config, Served 2 config ∧ config.shared.committed (schema .plain) = .rotated ∧
      config.process 0 = some (.sample (lit "right") 1,
        .finished (servedAlone (.sample (lit "right") 1) .sample).1) ∧
      config.process 1 = some (.refreshSample 2, .finished
        (servedAlone (.refreshSample 2) (servedAlone (.sample (lit "right") 1) .sample).2).1) := by
  have start : Served 0 (.initial (Db.start AuthStore.sample 0)) := inTurn_start _ _ _ _ _
  obtain ⟨first, _, served, isFirst, _, isCommitted⟩ :=
    start.request rfl (.sample (lit "right") 1)
  obtain ⟨second, _, served', isSecond, others, isCommitted'⟩ :=
    served.request isCommitted (.refreshSample 2)
  exact ⟨second, served', isCommitted', (others 0 (by decide)).trans isFirst, isSecond⟩

theorem sample_one_live_token :
    ∃ config : Config AuthError (SessionAnswer Answer) AuthCall AuthDb AuthResponse,
      Reachable (sessionMachine .plain) (serve (Settings.sample 0) .plain)
        (Db.start AuthStore.sample 0) config ∧
      config.process 2 =
        some (.refreshSample 3, .running (serve (Settings.sample 0) .plain (.refreshSample 3))) ∧
      ∀ config', Steps (sessionMachine .plain) (serve (Settings.sample 0) .plain) config config' →
        ∀ response, config'.process 2 ≠ some (.refreshSample 3, .finished (.ok response)) := by
  obtain ⟨config, served, isCommitted, _⟩ := served_rotated
  have started := served.reachable.tail (.start 2 (.refreshSample 3) (served.isIdle 2 le_rfl))
  have isReading : Function.update config.process 2 (some (.refreshSample 3,
      .running (serve (Settings.sample 0) .plain (.refreshSample 3)))) 2 =
        some (.refreshSample 3,
          .running (serve (Settings.sample 0) .plain (.refreshSample 3))) :=
    Function.update_self _ _ _
  refine ⟨_, started, isReading, fun config' steps response => ?_⟩
  refine (one_live_token started steps).2.2.2 2 _ _ isReading ?_ response
  have isRevoked : RevokedHash (hashRefreshToken .plain (Draw.sample 1).rawToken) .rotated := by
    decide +kernel
  rw [← isCommitted] at isRevoked
  exact isRevoked

theorem sample_reuse_barrier :
    ∃ config : Config AuthError (SessionAnswer Answer) AuthCall AuthDb AuthResponse,
      Reachable (sessionMachine .plain) (serve (Settings.sample 0) .plain)
        (Db.start AuthStore.sample 0) config ∧
      config.process 2 = some (.refreshSample 3, .finished (.error reuseDetected)) ∧
      ∃ token, token.tokenHash = hashRefreshToken .plain (Draw.sample 1).rawToken ∧
        Stored (config.shared.committed (schema .plain)) token ∧
        Barrier (Settings.sample 0) .plain 2 token.userId config := by
  obtain ⟨config, served, isCommitted, _⟩ := served_rotated
  obtain ⟨config', _, served', isProcess, _⟩ := served.request isCommitted (.refreshSample 3)
  have isFinished : config'.process 2 =
      some (.refreshSample 3, .finished (.error reuseDetected)) := by
    rw [isProcess]
    rfl
  exact ⟨config', served'.reachable, isFinished,
    (reuse_barrier served'.reachable 2).1 _ _ isFinished⟩

end Auth
end SigmaForge
