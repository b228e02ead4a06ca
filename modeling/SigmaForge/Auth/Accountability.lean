import SigmaForge.Auth.Knowledge

/-!
# Where tokens come from

Every refresh token descends from one that a login has issued, and the pair that a request
returns names the account whose password this login was given.
-/

namespace SigmaForge
namespace Auth

open Text ReadCommitted

section Stored

variable
    {platform : Platform}
    {store : AuthStore}
    {token : NewToken}

/-- A token is stored by its `INSERT`. -/
theorem stored_apply
    {write : Write}
    (isStored : Stored (store.apply write) token) :
    Stored store token ∨ write = .insertToken token := by
  obtain ⟨row, isRow, rfl⟩ := isStored
  by_cases admissible : store.Admissible write
  · cases write with
    | updateLogin userId columns =>
        refine .inl ⟨row, ?_, rfl⟩
        unfold AuthStore.token at isRow ⊢
        rwa [AuthStore.apply_toAuthTables admissible] at isRow
    | insertToken inserted =>
        rw [AuthStore.token_insertToken admissible, Option.or_eq_some_iff] at isRow
        rcases isRow with isOld | ⟨_, isNew⟩
        · exact .inl ⟨row, isOld, rfl⟩
        · split_ifs at isNew
          exact .inr (congrArg (fun row : RefreshToken => Write.insertToken row.toNewToken)
            (Option.some.inj isNew))
    | revokeToken revoked revokedAt =>
        rw [AuthStore.token_revokeToken, Option.map_eq_some_iff] at isRow
        obtain ⟨old, isOld, rfl⟩ := isRow
        refine .inl ⟨old, isOld, ?_⟩
        unfold AuthTables.revokedToken
        split_ifs <;> rfl
  · rw [AuthStore.apply, dif_neg admissible] at isRow
    exact .inl ⟨row, isRow, rfl⟩

theorem stored_foldl_cases
    {writes : List Write}
    (isStored : Stored (writes.foldl AuthStore.apply store) token) :
    Stored store token ∨ .insertToken token ∈ writes := by
  induction writes generalizing store with
  | nil => exact .inl isStored
  | cons write writes inductionHypothesis =>
      rcases inductionHypothesis isStored with isStored | isLater
      · rcases stored_apply isStored with isOld | rfl
        · exact .inl isOld
        · exact .inr List.mem_cons_self
      · exact .inr (List.mem_cons_of_mem _ isLater)

end Stored

section Runs

variable
    {settings : Settings}
    {platform : Platform}
    {initial : AuthStore}
    {clock : Nat}
    {config : Config AuthError (SessionAnswer Answer) AuthCall AuthDb AuthResponse}

/-- The token has been issued by a login that was given the password of its owner. -/
def LoggedIn (platform : Platform)
    (config : Config AuthError (SessionAnswer Answer) AuthCall AuthDb AuthResponse)
    (token : NewToken) : Prop :=
  ∃ pid request draw user before, Serves config pid (.login request draw) ∧
    before <+: config.shared.log ∧
    Proves platform config.shared.initial before request user ∧ token.userId = user.id ∧
    Issued pid config.shared.log token

/-- A stored token that replaces another one of the same user, which is stored as well. -/
structure Replaces (platform : Platform)
    (config : Config AuthError (SessionAnswer Answer) AuthCall AuthDb AuthResponse)
    (parent child : NewToken) : Prop where
  isChild : IsChild config.shared.log parent.id child.id
  sameUser : parent.userId = child.userId
  parentStored : Stored (config.shared.committed (schema platform)) parent
  childStored : Stored (config.shared.committed (schema platform)) child

/-- The token descends, through stored tokens of its user, from one that was there at first or
that a login has issued. -/
def Traced (platform : Platform)
    (config : Config AuthError (SessionAnswer Answer) AuthCall AuthDb AuthResponse)
    (token : NewToken) : Prop :=
  ∃ root, Relation.ReflTransGen (Replaces platform config) root token ∧
    (Stored config.shared.initial root ∨ LoggedIn platform config root)

/-- What a commit inserts has its grounds. -/
theorem commits_grounded
    (reachable : Reachable (sessionMachine platform) (serve settings platform)
      (Db.start initial clock) config) :
    CommitsSatisfy
      (fun initial before pid writes => ∃ call, Serves config pid call ∧ ∀ token,
        .insertToken token ∈ writes → Grounds platform call initial before writes token)
      config.shared.initial config.shared.log :=
  (tracks_recording platform).committed (follows_recording settings platform)
    (fun call initial before _ writes => ∀ token, .insertToken token ∈ writes →
      Grounds platform call initial before writes token)
    (fun _ _ _ _ isTrue _ => isTrue.grounds) reachable

/-- All commits are issues, rotations or updates. -/
theorem commits_of_sessions
    (reachable : Reachable (sessionMachine platform) (serve settings platform)
      (Db.start initial clock) config) :
    CommitsSatisfy (tokenCommits platform) config.shared.initial config.shared.log :=
  (sound_of_outlined (outlined_sessions settings platform) reachable).1

/-- In every run, every stored token can be traced to a login. -/
theorem traced_of_stored
    (reachable : Reachable (sessionMachine platform) (serve settings platform)
      (Db.start initial clock) config)
    {log : List (Event Key Write)}
    (isPrefix : log <+: config.shared.log)
    {token : NewToken}
    (isStored : Stored (replay (schema platform) config.shared.initial log) token) :
    Traced platform config token := by
  induction log using List.reverseRecOn generalizing token with
  | nil => exact ⟨token, .refl, .inl isStored⟩
  | append_singleton log event inductionHypothesis =>
      have earlier : ∀ {token}, Stored (replay (schema platform) config.shared.initial log) token →
          Traced platform config token :=
        inductionHypothesis ((List.prefix_append log [event]).trans isPrefix)
      obtain ⟨after, isLog⟩ := isPrefix
      have isKept : Stored (config.shared.committed (schema platform)) token := by
        rw [Db.committed, ← isLog]
        exact stored_along isStored after
      rw [List.append_assoc] at isLog
      rw [replay_append] at isStored
      cases event with
      | acquired pid key => exact earlier isStored
      | committed pid writes =>
          rcases stored_foldl_cases isStored with isOld | isInserted
          · exact earlier isOld
          · have isCommit := commits_of_sessions reachable log pid writes after isLog.symm
            obtain ⟨call, serves, grounded⟩ :=
              commits_grounded reachable log pid writes after isLog.symm
            have grounds := grounded token isInserted
            cases isCommit with
            | updates noInserts => exact absurd rfl (noInserts _ isInserted token)
            | @issues inserted admissible =>
                obtain rfl : token = inserted :=
                  Write.insertToken.inj (List.mem_singleton.mp isInserted)
                cases call with
                | login request draw =>
                    obtain ⟨user, proves, isOwner, _⟩ := grounds
                    exact ⟨token, .refl, .inr ⟨pid, request, draw, user, log, serves,
                      ⟨_, isLog⟩, proves, isOwner, log, _, after, isLog.symm, isInserted⟩⟩
                | refresh rawToken draw =>
                    obtain ⟨existing, _, _, _, revokedAt, isRevoked⟩ := grounds
                    simp at isRevoked
                | logout rawToken => exact grounds.elim
                | logoutAll userId => exact grounds.elim
            | @rotates parent child now opening isParent _ sameUser _ _ =>
                obtain rfl : token = child := by simpa using isInserted
                obtain ⟨root, lineage, origin⟩ := earlier isParent
                have isChild : IsChild config.shared.log parent.id token.id :=
                  ⟨log, pid, token, ⟨now, after, isLog.symm⟩, rfl⟩
                have parentStored : Stored (config.shared.committed (schema platform)) parent := by
                  rw [Db.committed, ← isLog]
                  exact stored_along isParent _
                exact ⟨root, lineage.tail ⟨isChild, sameUser, parentStored, isKept⟩, origin⟩

/-- What a session has issued is stored. -/
theorem Issued.stored
    (reachable : Reachable (sessionMachine platform) (serve settings platform)
      (Db.start initial clock) config)
    {pid : ProcId}
    {token : NewToken}
    (issued : Issued pid config.shared.log token) :
    Stored (config.shared.committed (schema platform)) token := by
  obtain ⟨before, writes, after, isLog, isInserted⟩ := issued
  unfold Db.committed
  cases commits_of_sessions reachable before pid writes after isLog with
  | updates noInserts => exact absurd rfl (noInserts _ isInserted token)
  | @issues inserted admissible =>
      obtain rfl : token = inserted := Write.insertToken.inj (List.mem_singleton.mp isInserted)
      rw [isLog, List.append_cons]
      apply stored_along
      rw [replay_append]
      exact stored_of_insert admissible
  | @rotates parent child now opening _ _ _ admissible _ =>
      obtain rfl : token = child := by simpa using isInserted
      rw [isLog]
      exact stored_after_rotation admissible now after

/-- What a session has issued carries the hash that its request has drawn. -/
theorem Issued.drawn
    (reachable : Reachable (sessionMachine platform) (serve settings platform)
      (Db.start initial clock) config)
    {pid : ProcId}
    {token : NewToken}
    (issued : Issued pid config.shared.log token) :
    ∃ call draw, Serves config pid call ∧ call.draw = some draw ∧
      token.tokenHash = hashRefreshToken platform draw.rawToken := by
  obtain ⟨before, writes, after, isLog, isInserted⟩ := issued
  obtain ⟨call, serves, grounded⟩ := commits_grounded reachable before pid writes after isLog
  have grounds := grounded token isInserted
  cases call with
  | login request draw =>
      obtain ⟨_, _, _, isHash⟩ := grounds
      exact ⟨_, draw, serves, rfl, isHash⟩
  | refresh rawToken draw =>
      obtain ⟨_, _, _, isHash, _⟩ := grounds
      exact ⟨_, draw, serves, rfl, isHash⟩
  | logout rawToken => exact grounds.elim
  | logoutAll userId => exact grounds.elim

/-- The pair of a request: its access token names a user that was active when the request
has read it, and its refresh token is stored for this user, with the lifetime of the settings
from a time on that the clock has said. -/
structure PairOf (settings : Settings) (platform : Platform) (pid : ProcId) (draw : Draw)
    (user : User) (pair : TokenPair) (initial : AuthStore) (log : List (Event Key Write))
    (clock : Nat) : Prop where
  seen : SeenUser platform initial log user
  isActive : user.isActive = true
  pair : ∃ issuedAt ≤ clock, pair = tokenPair settings (platform.encode
    (accessClaims settings user.id user.roleName draw.jti issuedAt) settings.jwtPrivateKey)
    draw.rawToken
  refreshToken : ∃ token, Issued pid log token ∧ token.userId = user.id ∧
    token.tokenHash = hashRefreshToken platform draw.rawToken ∧
    ∃ storedAt ≤ clock, token.expiresAt = storedAt + seconds settings.jwtRefreshTokenTtlSeconds

/-- What the result of a request says. -/
def Accounts (settings : Settings) (platform : Platform) (pid : ProcId) (call : AuthCall)
    (result : Except AuthError AuthResponse) (initial : AuthStore)
    (log : List (Event Key Write)) (clock : Nat) : Prop :=
  ∀ pair, result = .ok (.pair pair) → ∃ draw user, call.draw = some draw ∧
    PairOf settings platform pid draw user pair initial log clock

theorem endures_accounts
    (pid : ProcId)
    (call : AuthCall)
    (result : Except AuthError AuthResponse) :
    Endures (Accounts settings platform pid call result) := by
  intro initial log events clock later isLater accounts pair isPair
  obtain ⟨draw, user, isDraw, isPairOf⟩ := accounts pair isPair
  obtain ⟨issuedAt, isIssued, isTokens⟩ := isPairOf.pair
  obtain ⟨token, issued, isOwner, isHash, storedAt, isPast, isExpiry⟩ := isPairOf.refreshToken
  exact ⟨draw, user, isDraw, isPairOf.seen.along events, isPairOf.isActive,
    ⟨issuedAt, isIssued.trans isLater, isTokens⟩, token, issued.along events, isOwner, isHash,
    storedAt, isPast.trans isLater, isExpiry⟩

/-- What is known at the end of a request accounts for its result. -/
theorem accounts_of_concludes
    {pid : ProcId}
    {call : AuthCall}
    {knowledge : Knowledge}
    {result : Except AuthError AuthResponse}
    {db : AuthDb}
    (isTrue : knowledge.True platform pid call db)
    (concludes : Concludes settings platform call knowledge result) :
    Accounts settings platform pid call result db.initial db.log db.clock := by
  rintro pair rfl
  have ofYields : ∀ {draw user ownerId}, knowledge.user = some user →
      Yields settings platform knowledge draw user ownerId pair → user.id = ownerId →
      PairOf settings platform pid draw user pair db.initial db.log db.clock := by
    rintro draw user _ isUser ⟨isActive, ⟨issuedAt, isTime, isPair⟩, token, issued, isOwner,
      isHash, storedAt, isReading, isExpiry⟩ rfl
    exact ⟨(isTrue.user user isUser).1, isActive, ⟨issuedAt, isTrue.times issuedAt isTime, isPair⟩,
      token, isTrue.issued token issued, isOwner, isHash, storedAt,
      isTrue.times storedAt isReading, isExpiry⟩
  cases call with
  | login request draw =>
      obtain ⟨user, isUser, _, yields⟩ := concludes
      exact ⟨draw, user, rfl, ofYields isUser yields rfl⟩
  | refresh rawToken draw =>
      obtain ⟨existing, user, isToken, isUser, yields⟩ := concludes
      exact ⟨draw, user, rfl,
        ofYields isUser yields ((isTrue.user user isUser).2.2 existing isToken)⟩
  | logout rawToken => exact concludes.elim
  | logoutAll userId => exact concludes.elim

theorem pair_of_returned
    (reachable : Reachable (sessionMachine platform) (serve settings platform)
      (Db.start initial clock) config)
    {pid : ProcId}
    {call : AuthCall}
    {pair : TokenPair}
    (returned : HasReturned config pid call (.pair pair)) :
    ∃ draw user, call.draw = some draw ∧
      PairOf settings platform pid draw user pair config.shared.initial config.shared.log
        config.shared.clock := by
  obtain ⟨status, isStarted, isResult⟩ := returned
  have accounts : Accounts settings platform pid call (.ok (.pair pair)) config.shared.initial
      config.shared.log config.shared.clock :=
    (tracks_recording platform).ended (follows_recording settings platform)
      (Accounts settings platform) endures_accounts
      (fun _ _ _ _ _ isTrue concludes => accounts_of_concludes isTrue concludes) reachable
      isStarted isResult
  exact accounts pair rfl

end Runs

/-- The pair of a login. -/
def TokenPair.sample (number : Nat) : TokenPair :=
  tokenPair (Settings.sample 0) (UUID.str 1) (Draw.sample number).rawToken

end Auth
end SigmaForge
