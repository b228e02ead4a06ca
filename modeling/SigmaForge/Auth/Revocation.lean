import SigmaForge.Auth.Attempt

/-!
# Times of revocation

Three of the statements that revoke tokens leave a revoked token as it is.  The one of
`logout` does not: what the service has read before may be out of date.
-/

namespace SigmaForge
namespace Auth

open Text Atomic

/-- The time of revocation that is stored for a token. -/
def AuthStore.revokedAt (store : AuthStore) (id : UUID) : Option Nat :=
  (store.token id).bind fun token => token.revokedAt

section Calls

open ReadCommitted

variable
    {platform : Platform}
    {store : AuthStore}
    {time : Nat}
    {id : UUID}
    {revokedAt : Nat}

/-! ## Writes -/

/-- Only a write of this time changes it. -/
theorem revokedAt_apply
    {write : Write}
    (isRevoked : store.revokedAt id = some revokedAt)
    (isOther : ∀ other, write ≠ .revokeToken id other) :
    (store.apply write).revokedAt id = some revokedAt := by
  by_cases admissible : store.Admissible write
  · cases write with
    | updateLogin userId columns =>
        unfold AuthStore.revokedAt AuthStore.token at isRevoked ⊢
        rw [AuthStore.apply_toAuthTables admissible]
        exact isRevoked
    | insertToken token =>
        obtain ⟨stored, isStored, _⟩ := Option.bind_eq_some_iff.mp isRevoked
        have isKept : (store.apply (.insertToken token)).token id = store.token id := by
          rw [AuthStore.token_insertToken admissible, isStored]
          rfl
        rw [AuthStore.revokedAt, isKept]
        exact isRevoked
    | revokeToken revoked other =>
        have different : revoked ≠ id := by
          rintro rfl
          exact isOther other rfl
        obtain ⟨stored, isStored, hasTime⟩ := Option.bind_eq_some_iff.mp isRevoked
        have isId : stored.id = id := AuthStore.token_id isStored
        rw [AuthStore.revokedAt, AuthStore.token_revokeToken, isStored, Option.map_some,
          AuthTables.revokedToken, if_neg (isId ▸ different.symm)]
        exact hasTime
  · rwa [AuthStore.apply, dif_neg admissible]

theorem revokedAt_foldl
    {changes : List Write}
    (isRevoked : store.revokedAt id = some revokedAt)
    (areOthers : ∀ write ∈ changes, ∀ other, write ≠ .revokeToken id other) :
    (changes.foldl AuthStore.apply store).revokedAt id = some revokedAt := by
  induction changes generalizing store with
  | nil => exact isRevoked
  | cons write changes inductionHypothesis =>
      exact inductionHypothesis
        (revokedAt_apply isRevoked (areOthers write List.mem_cons_self))
        fun later isLater => areOthers later (List.mem_cons_of_mem _ isLater)

/-! ## Statements -/

/-- An `UPDATE` of tokens that are not revoked writes no other one. -/
theorem revokeWhere_other
    {target : UUID}
    {condition : RefreshToken → Bool}
    {newTime : Nat}
    (isRevoked : store.revokedAt id = some revokedAt)
    (isGuarded : ∀ token, condition token = true → token.revokedAt = none)
    {write : Write}
    (isWritten : write ∈ (revokeWhere store target condition newTime).writes)
    (other : Nat) :
    write ≠ .revokeToken id other := by
  unfold revokeWhere at isWritten
  split at isWritten
  · simp [reads] at isWritten
  · rename_i token found
    obtain ⟨isStored, holds⟩ := Option.filter_eq_some_iff.mp found
    rw [List.mem_singleton.mp isWritten]
    rintro isSame
    obtain ⟨rfl, _⟩ := Write.revokeToken.inj isSame
    rw [AuthStore.revokedAt, isStored, Option.bind_some, isGuarded token holds] at isRevoked
    contradiction

/-- The `UPDATE` of another token does not write this one. -/
theorem revokeToken_other
    {target : UUID}
    {newTime : Nat}
    (different : target ≠ id)
    {write : Write}
    (isWritten : write ∈ (effect platform (.revokeToken target newTime) store).writes)
    (other : Nat) :
    write ≠ .revokeToken id other := by
  simp only [effect, revokeWhere] at isWritten
  split at isWritten
  · simp [reads] at isWritten
  · rw [List.mem_singleton.mp isWritten]
    rintro isSame
    exact different (Write.revokeToken.inj isSame).1

theorem updateLogin_other
    {userId : UUID}
    {condition : User → Bool}
    {columns : User → LoginColumns}
    {write : Write}
    (isWritten : write ∈ (updateLogin store userId condition columns).writes)
    (other : Nat) :
    write ≠ .revokeToken id other := by
  unfold updateLogin at isWritten
  split at isWritten
  · simp [reads] at isWritten
  · rw [List.mem_singleton.mp isWritten]
    exact Write.noConfusion

/-- Every statement but one writes no revoked token. -/
theorem effect_other
    {statement : Statement}
    (notRevoke : ∀ newTime, statement ≠ .revokeToken id newTime)
    (isRevoked : store.revokedAt id = some revokedAt)
    {write : Write}
    (isWritten : write ∈ (effect platform statement store).writes)
    (other : Nat) :
    write ≠ .revokeToken id other := by
  cases statement with
  | selectUserByEmail email => simp [effect, reads] at isWritten
  | selectUserById userId => simp [effect, reads] at isWritten
  | lockUser userId =>
      simp only [effect] at isWritten
      split at isWritten <;> simp [reads] at isWritten
  | incrementFailedLogin userId =>
      simp only [effect] at isWritten
      split at isWritten
      · simp [reads] at isWritten
      · split_ifs at isWritten
        · rw [List.mem_singleton.mp isWritten]
          exact Write.noConfusion
        · simp [raises] at isWritten
  | resetFailedLogin userId lastLoginAt => exact updateLogin_other isWritten other
  | setLockedUntil userId lockedUntil => exact updateLogin_other isWritten other
  | resetExpiredLockout userId now => exact updateLogin_other isWritten other
  | selectTokenByHash tokenHash => simp [effect, reads] at isWritten
  | selectTokenById tokenId => simp [effect, reads] at isWritten
  | insertToken token =>
      simp only [effect] at isWritten
      split_ifs at isWritten
      · rw [List.mem_singleton.mp isWritten]
        exact Write.noConfusion
      · simp [raises] at isWritten
  | consumeToken tokenId userId now =>
      exact revokeWhere_other isRevoked (fun _ holds => (of_decide_eq_true holds).2.1)
        isWritten other
  | revokeToken tokenId newTime =>
      refine revokeToken_other (fun isSame => ?_) isWritten other
      exact notRevoke newTime (isSame ▸ rfl)
  | unrevokedTokens userId => simp [effect, reads] at isWritten
  | revokeUnrevoked tokenId userId newTime =>
      exact revokeWhere_other isRevoked (fun _ holds => (of_decide_eq_true holds).2)
        isWritten other

/-! ## Calls -/

/-- The call is not the unconditional revocation of this token. -/
theorem keeps_statement
    {statement : Statement}
    (notRevoke : ∀ newTime, statement ≠ .revokeToken id newTime) :
    Keeps (schema platform) (fun store => store.revokedAt id = some revokedAt)
      (.execute statement) :=
  fun _ isRevoked => revokedAt_foldl isRevoked fun _ isWritten other =>
    effect_other notRevoke isRevoked isWritten other

theorem allowsGuarded_keeps :
    AllowsGuarded (Keeps (schema platform) fun store => store.revokedAt id = some revokedAt) := by
  refine ⟨fun statement guarded => keeps_statement fun newTime isRevoke => ?_,
    trivial, trivial, trivial⟩
  rw [isRevoke] at guarded
  contradiction

/-- Every call but `revoke` keeps the time of a revocation. -/
theorem revokedAt_callEffect
    {op : AuthOp}
    (notRevoke : op ≠ .revoke id)
    (isRevoked : store.revokedAt id = some revokedAt) :
    (callEffect platform op time store).2.revokedAt id = some revokedAt := by
  have allows : AllowsGuarded
      (Keeps (schema platform) fun store => store.revokedAt id = some revokedAt) :=
    allowsGuarded_keeps
  suffices only : (sqlAlchemy platform op).Only
      (Keeps (schema platform) fun store => store.revokedAt id = some revokedAt) from
    alone_keeps AuthError.database time only isRevoked
  cases op with
  | getByEmail email => exact allows.only_execute rfl
  | getById userId => exact allows.only_execute rfl
  | incrementFailedLogin userId =>
      exact only_incrementFailedLogin allows (keeps_statement fun _ => Statement.noConfusion)
  | resetFailedLogin userId lastLoginAt =>
      exact only_executeAndCommit allows (keeps_statement fun _ => Statement.noConfusion)
  | setLockedUntil userId lockedUntil =>
      exact only_executeAndCommit allows (keeps_statement fun _ => Statement.noConfusion)
  | resetExpiredLockout userId now =>
      exact only_executeAndCommit allows (keeps_statement fun _ => Statement.noConfusion)
  | create token => exact only_create allows token
  | getByHash tokenHash => exact allows.only_execute rfl
  | rotateIfActive tokenId now replacement =>
      exact only_transaction allows (only_rotateTransaction allows tokenId now replacement)
  | revoke tokenId =>
      have different : tokenId ≠ id := fun isSame => notRevoke (isSame ▸ rfl)
      refine only_revoke allows fun newTime => keeps_statement fun _ isSame => different ?_
      exact (Statement.revokeToken.inj isSame).1
  | revokeAllForUser userId =>
      exact only_transaction allows (only_revokeTransaction allows userId)
  | now => exact allows.only_clock
  | verifyPassword password hash => trivial

/-- `revoke` stores the present time, whatever was there. -/
theorem revokedAt_revoke (isStored : (store.token id).isSome) :
    (callEffect platform (.revoke id) time store).2.revokedAt id = some time := by
  obtain ⟨token, found⟩ := Option.isSome_iff_exists.mp isStored
  have isEffect : (effect platform (.revokeToken id time) store).writes =
      [.revokeToken id time] := by
    simp only [effect, revokeWhere, found, Option.filter_some, if_true]
    rfl
  have isAnswer : (effect platform (.revokeToken id time) store).answer = some () := rfl
  have isCommitted : (callEffect platform (.revoke id) time store).2 =
      (effect platform (.revokeToken id time) store).writes.foldl AuthStore.apply store :=
    congrArg Prod.snd (alone_executeAndCommit isAnswer)
  have isId : token.id = id := AuthStore.token_id found
  rw [isCommitted, isEffect, List.foldl_cons, List.foldl_nil, AuthStore.revokedAt,
    AuthStore.token_revokeToken, found, Option.map_some, AuthTables.revokedToken, if_pos isId]
  rfl

end Calls

/-! ## Runs -/

/-- The time of revocation that is committed for a token. -/
def revokedAtOf (platform : Platform) (id : UUID) (state : AuthHistory) : Option Nat :=
  (state.store (callEffect platform)).revokedAt id

/-- On the way from the start to a configuration, no committed time of revocation changes. -/
def KeepsRevocations (settings : Settings) (platform : Platform) (start : AuthHistory)
    (config : Config AuthError AuthAnswer AuthCall AuthHistory AuthResponse) : Prop :=
  ∀ earlier later,
    Reachable (authMachine platform) (AuthCall.program settings platform) start earlier →
    Steps (authMachine platform) (AuthCall.program settings platform) earlier later →
    Steps (authMachine platform) (AuthCall.program settings platform) later config →
    ∀ id revokedAt, revokedAtOf platform id earlier.shared = some revokedAt →
      revokedAtOf platform id later.shared = some revokedAt

/-- `revoke` meets no token that is revoked, unless it was so at the present time. -/
def revokesUnrevoked (platform : Platform) :
    EventProperty AuthError AuthAnswer AuthCall AuthStore :=
  fun initial before event =>
    match event with
    | .called _ (.revoke id) (.ok _) time =>
        ∀ revokedAt ∈ (replay (callEffect platform) initial before).revokedAt id,
          revokedAt = time
    | _ => True

instance
    (platform : Platform)
    (initial : AuthStore)
    (before : List AuthEvent)
    (event : AuthEvent) :
    Decidable (revokesUnrevoked platform initial before event) := by
  unfold revokesUnrevoked
  split <;> infer_instance

section Runs

variable
    {settings : Settings}
    {platform : Platform}
    {initial : AuthStore}
    {clock : Nat}

/-- An event keeps the time of a revocation. -/
theorem revokedAt_kept
    {id : UUID}
    {revokedAt : Nat}
    (before : List AuthEvent)
    (event : AuthEvent)
    (unrevoked : revokesUnrevoked platform initial before event)
    (isRevoked : (replay (callEffect platform) initial before).revokedAt id = some revokedAt) :
    (replay (callEffect platform) initial (before ++ [event])).revokedAt id =
      some revokedAt := by
  rw [replay_append]
  match event, unrevoked with
  | .opened pid call time, _ => exact isRevoked
  | .called pid op (.error error) time, _ => exact isRevoked
  | .called pid op (.ok answer) time, unrevoked =>
      by_cases isRevoke : op = .revoke id
      · subst isRevoke
        obtain ⟨token, isStored, _⟩ := Option.bind_eq_some_iff.mp isRevoked
        have isNow : revokedAt = time := unrevoked revokedAt isRevoked
        rw [isNow]
        exact revokedAt_revoke (Option.isSome_of_mem isStored)
      · exact revokedAt_callEffect isRevoke isRevoked

/-- In a run, each time of revocation stays as it was committed first, exactly if `revoke` is
performed on no token that is revoked. -/
theorem revocation_times_kept_iff
    {config : Config AuthError AuthAnswer AuthCall AuthHistory AuthResponse}
    (reachable : Reachable (authMachine platform) (AuthCall.program settings platform)
      (Recorded.start initial clock) config) :
    KeepsRevocations settings platform (Recorded.start initial clock) config ↔
      EventsSatisfy (revokesUnrevoked platform) initial config.shared.log := by
  have sameInitial : ∀ {reached : Config AuthError AuthAnswer AuthCall AuthHistory AuthResponse},
      Reachable (authMachine platform) (AuthCall.program settings platform)
        (Recorded.start initial clock) reached →
      ∀ id, revokedAtOf platform id reached.shared =
        (replay (callEffect platform) initial reached.shared.log).revokedAt id := by
    intro reached isReached id
    have isInitial : reached.shared.initial = initial := (log_extends isReached).1
    rw [revokedAtOf, Recorded.store, isInitial]
  constructor
  · intro areKept before event after isSplit
    cases event with
    | opened pid call time => trivial
    | called pid op answer time =>
        cases answer with
        | error error => cases op <;> trivial
        | ok answer =>
            cases op with
            | revoke id =>
                intro revokedAt isRevoked
                -- the configurations on both sides of this event
                have isPrefix : before ++ [.called pid (.revoke id) (.ok answer) time] <+:
                    config.shared.log := ⟨after, by simp [isSplit]⟩
                obtain ⟨later, toLater, fromLater, isLater⟩ :=
                  exists_between reachable List.nil_prefix isPrefix
                obtain ⟨earlier, toEarlier, fromEarlier, isEarlier⟩ :=
                  exists_between toLater List.nil_prefix ⟨_, isLater.symm⟩
                have isKept := areKept earlier later toEarlier fromEarlier fromLater id revokedAt
                rw [sameInitial toEarlier, sameInitial toLater, isEarlier, isLater,
                  replay_append] at isKept
                obtain ⟨token, isStored, _⟩ := Option.bind_eq_some_iff.mp isRevoked
                exact Option.some.inj ((isKept isRevoked).symm.trans
                  (revokedAt_revoke (Option.isSome_of_mem isStored)))
            | _ => trivial
  · intro unrevoked earlier later toEarlier fromEarlier toConfig id revokedAt isRevoked
    obtain ⟨_, _, between, isLater, _⟩ := log_extends fromEarlier
    obtain ⟨_, _, rest, isConfig, _⟩ := log_extends toConfig
    rw [sameInitial toEarlier] at isRevoked
    rw [sameInitial (toEarlier.trans fromEarlier), isLater]
    rw [isConfig, isLater] at unrevoked
    exact unrevoked.of_append.kept (fun before event => revokedAt_kept before event) isRevoked

end Runs

/-- A login, and two logouts with its refresh token that have read it.  The first one
revokes it. -/
def racingLogouts : List (Action AuthCall) :=
  .start 0 (.sample (lit "right") 0) :: List.replicate 8 (.step 0) ++
    [.start 1 (.logout (Draw.sample 0).rawToken), .start 2 (.logout (Draw.sample 0).rawToken),
      .step 1, .step 2, .step 1]

/-- The second one overwrites the time of revocation: the `UPDATE` of `revoke` has no
condition. -/
theorem revocation_overwritten :
    ∃ earlier later, Reachable (authMachine .plain)
        (AuthCall.program (Settings.sample 0) .plain) (Recorded.start AuthStore.sample 0) earlier ∧
      Steps (authMachine .plain) (AuthCall.program (Settings.sample 0) .plain) earlier later ∧
      revokedAtOf .plain 0 earlier.shared = some 0 ∧
      revokedAtOf .plain 0 later.shared = some 1 :=
  ⟨runSample 0 racingLogouts,
    schedule (callEffect .plain) AuthError.database
      (AuthCall.program (Settings.sample 0) .plain) (runSample 0 racingLogouts)
      [.wait 1, .step 2],
    reachable_runSample 0 racingLogouts, steps_of_schedule _ _ _ _ _, by decide +kernel,
    by decide +kernel⟩

/-- Up to this step, the times are kept. -/
theorem racingLogouts_kept :
    KeepsRevocations (Settings.sample 0) .plain (Recorded.start AuthStore.sample 0)
      (runSample 0 racingLogouts) :=
  (revocation_times_kept_iff (reachable_runSample 0 racingLogouts)).mpr (by decide +kernel)

end Auth
end SigmaForge
