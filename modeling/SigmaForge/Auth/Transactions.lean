import SigmaForge.Auth.Lineage

/-!
# The transactions of the repositories

Proof outlines of the repository calls.  A session that rotates relies on the
lock of the user, on the row of the token that it has locked, and on the index
entries of the row that it has inserted.
-/

namespace SigmaForge
namespace Auth

open Text ReadCommitted

/-- The sessions of any number of requests, one statement at a time. -/
abbrev sessionMachine (platform : Platform) :=
  machine (schema platform) AuthError.database AuthCall

/-- All commits concern tokens as described. -/
abbrev tokensOnly (platform : Platform) : Discipline AuthDb :=
  discipline (schema platform) (tokenCommits platform)

/-- A fact about the history that stays true. -/
def Lasting (fact : AuthStore → List (Event Key Write) → Prop) : Prop :=
  ∀ initial log events, fact initial log → fact initial (log ++ events)

/-- Between two transactions: nothing is pending, and the fact is true. -/
def Idle (pid : ProcId) (fact : AuthStore → List (Event Key Write) → Prop) (db : AuthDb) : Prop :=
  db.pending pid = [] ∧ fact db.initial db.log

/-- The user is stored. -/
def HasUser (userId : UUID) (store : AuthStore) : Prop :=
  ∃ user ∈ store.users, user.id = userId

/-- The hash is taken. -/
def HashTaken (tokenHash : Str) (store : AuthStore) : Prop :=
  ∃ token ∈ store.tokens, token.tokenHash = tokenHash

section Rows

variable {store : AuthStore}

/-- No write adds or removes a user. -/
theorem hasUser_apply (userId : UUID) (store : AuthStore) (write : Write) :
    HasUser userId (store.apply write) ↔ HasUser userId store := by
  by_cases admissible : store.Admissible write
  · unfold HasUser
    rw [AuthStore.apply_toAuthTables admissible]
    cases write with
    | updateLogin id columns => simp [AuthTables.write]
    | insertToken token => rfl
    | revokeToken id revokedAt => rfl
  · rw [AuthStore.apply, dif_neg admissible]

theorem not_hasUser {id : UUID} (absent : store.user id = none) : ¬HasUser id store := by
  rintro ⟨user, isUser, rfl⟩
  rw [AuthStore.user_of_mem isUser] at absent
  contradiction

/-- A hash changes hands only under its index entry. -/
theorem dependsOn_tokenHash (platform : Platform) (tokenHash : Str) :
    DependsOn (schema platform) (HashTaken tokenHash) (.tokenHash tokenHash) := by
  intro store write notKey
  change HashTaken tokenHash (store.apply write) = HashTaken tokenHash store
  by_cases admissible : store.Admissible write
  · unfold HashTaken
    rw [AuthStore.apply_toAuthTables admissible]
    cases write with
    | updateLogin id columns => rfl
    | insertToken token =>
        have different : token.tokenHash ≠ tokenHash := by
          rintro rfl
          exact notKey (by simp [schema, Write.keys])
        simp [AuthTables.write, different]
    | revokeToken id revokedAt => simp [AuthTables.write]
  · rw [AuthStore.apply, dif_neg admissible]

/-- A token may be inserted when its keys are free and its owner is there. -/
theorem admissible_insertToken_iff {token : NewToken} :
    store.Admissible (.insertToken token) ↔
      store.token token.id = none ∧ ¬HashTaken token.tokenHash store ∧
        HasUser token.userId store := by
  simp [AuthTables.Admissible, AuthStore.token, HashTaken, HasUser]

/-- A revocation of a token does not matter to the keys. -/
theorem admissible_of_revokeToken
    {token : NewToken}
    {id : UUID}
    {revokedAt : Nat}
    (admissible : (store.apply (.revokeToken id revokedAt)).Admissible (.insertToken token)) :
    store.Admissible (.insertToken token) := by
  have isRevoked : (store.apply (.revokeToken id revokedAt)).toAuthTables =
      store.toAuthTables.write (.revokeToken id revokedAt) := AuthStore.apply_toAuthTables trivial
  rw [isRevoked] at admissible
  obtain ⟨idNew, hashNew, owned⟩ := admissible
  refine ⟨?_, ?_, owned⟩
  · intro other isOther
    have isNew := idNew _ (List.mem_map_of_mem isOther)
    rwa [AuthTables.revokedToken_id] at isNew
  · intro other isOther
    have isNew := hashNew _ (List.mem_map_of_mem isOther)
    rwa [AuthTables.revokedToken_tokenHash] at isNew

theorem effect_lockUser_of_none
    (platform : Platform)
    {id : UUID}
    (absent : store.user id = none) :
    effect platform (.lockUser id) store = reads none := by
  simp only [effect, absent]

theorem effect_lockUser_of_some
    (platform : Platform)
    {id : UUID}
    {user : User}
    (found : store.user id = some user) :
    effect platform (.lockUser id) store = ⟨[.user id], some (some user.id), []⟩ := by
  simp only [effect, found]

theorem revokeWhere_of_none
    {id : UUID}
    {condition : RefreshToken → Bool}
    (absent : (store.token id).filter condition = none)
    (revokedAt : Nat) :
    revokeWhere store id condition revokedAt = reads none := by
  simp only [revokeWhere, absent]

theorem revokeWhere_of_some
    {id : UUID}
    {condition : RefreshToken → Bool}
    {token : RefreshToken}
    (found : (store.token id).filter condition = some token)
    (revokedAt : Nat) :
    revokeWhere store id condition revokedAt =
      writes (.revokeToken id revokedAt) (some token.id) := by
  simp only [revokeWhere, found]

end Rows

section Outlines

variable
    {platform : Platform}
    {pid : ProcId}
    {fact : AuthStore → List (Event Key Write) → Prop}

theorem Lasting.and
    {fact' : AuthStore → List (Event Key Write) → Prop}
    (lasting : Lasting fact)
    (lasting' : Lasting fact') :
    Lasting fun initial log => fact initial log ∧ fact' initial log :=
  fun initial log events holds =>
    ⟨lasting initial log events holds.1, lasting' initial log events holds.2⟩

theorem stable_fact (lasting : Lasting fact) :
    Stable (sessionMachine platform) (tokensOnly platform) pid fun db => fact db.initial db.log :=
  stable_log lasting

theorem stable_idle (lasting : Lasting fact) :
    Stable (sessionMachine platform) (tokensOnly platform) pid (Idle pid fact) :=
  (stable_pending []).and (stable_fact lasting)

theorem stable_hasUser (userId : UUID) :
    Stable (sessionMachine platform) (tokensOnly platform) pid fun db =>
      HasUser userId (db.committed (schema platform)) := by
  apply stable_committed
  exact fun store write holds => (hasUser_apply userId store write).mpr holds

/-- A transaction that is over. -/
theorem idle_release {db : AuthDb} (holds : fact db.initial db.log) :
    Idle pid fact (db.release pid) :=
  ⟨Function.update_self _ _ _, holds⟩

theorem idle_commit
    (lasting : Lasting fact)
    {db : AuthDb}
    (holds : fact db.initial db.log) :
    Idle pid fact (db.commit pid) :=
  ⟨Function.update_self _ _ _, lasting _ _ _ holds⟩

theorem view_of_idle {db : AuthDb} (nothing : db.pending pid = []) :
    db.view (schema platform) pid = db.committed (schema platform) := by
  rw [Db.view, nothing]
  rfl

/-- The outline of a query. -/
theorem outline_query
    {statement : Statement}
    {gained : Answer statement → AuthStore → List (Event Key Write) → Prop}
    (lasting : Lasting fact)
    (gainedLasts : ∀ answer, Lasting (gained answer))
    (isQuery : ∀ store, ∃ answer, effect platform statement store = reads answer)
    (gains : ∀ initial log answer,
      (effect platform statement (replay (schema platform) initial log)).answer = some answer →
      gained answer initial log) :
    Outline (sessionMachine platform) (tokensOnly platform) pid (execute statement)
      (Idle pid fact)
      (byOutcome (fun answer => Idle pid fun initial log =>
          fact initial log ∧ gained answer initial log)
        fun error db => error = .database ∧ Idle pid fact db) := by
  apply outline_execute
  · exact fun answer => stable_idle (lasting.and (gainedLasts answer))
  · exact stable_idle lasting
  · intro answer db _ holds isAnswer
    obtain ⟨found, isEffect⟩ := isQuery (db.view (schema platform) pid)
    have isSilent : db.executed pid ((schema platform).effect statement
        (db.view (schema platform) pid)) = db := by
      apply executed_silent
      · exact congrArg Effect.locks isEffect
      · exact congrArg Effect.writes isEffect
    rw [isSilent]
    rw [view_of_idle holds.1] at isAnswer
    exact ⟨holds.1, holds.2, gains _ _ _ isAnswer⟩
  · exact fun db holds => holds

/-- The outline of a query whose answer does not matter. -/
theorem outline_query_idle
    {statement : Statement}
    (lasting : Lasting fact)
    (isQuery : ∀ store, ∃ answer, effect platform statement store = reads answer) :
    Outline (sessionMachine platform) (tokensOnly platform) pid (execute statement)
      (Idle pid fact)
      (byOutcome (fun _ => Idle pid fact)
        fun error db => error = .database ∧ Idle pid fact db) := by
  have gainedLasts : ∀ answer : Answer statement,
      Lasting ((fun _ _ _ => True : Answer statement → AuthStore → List (Event Key Write) → Prop)
        answer) := fun _ _ _ _ _ => trivial
  apply (outline_query lasting gainedLasts isQuery fun _ _ _ _ => trivial).consequence
  intro result db _ holds
  cases result with
  | ok answer => exact ⟨holds.1, holds.2.1⟩
  | error error => exact holds

/-- The session has written no token. -/
def NoInserts (writes : List Write) : Prop := ∀ write ∈ writes, ∀ token, write ≠ .insertToken token

theorem stable_noInserts :
    Stable (sessionMachine platform) (tokensOnly platform) pid fun db =>
      NoInserts (db.pending pid) := by
  apply stable_of_moves
  · intro other db db' different _ moves holds
    rwa [moves.pending pid different.symm]
  · exact fun db later holds => holds

/-- A transaction that has inserted no token. -/
def Quiet (pid : ProcId) (fact : AuthStore → List (Event Key Write) → Prop) (db : AuthDb) : Prop :=
  NoInserts (db.pending pid) ∧ fact db.initial db.log

theorem stable_quiet (lasting : Lasting fact) :
    Stable (sessionMachine platform) (tokensOnly platform) pid (Quiet pid fact) :=
  stable_noInserts.and (stable_fact lasting)

/-- The outline of a statement without insertions. -/
theorem outline_quiet
    {statement : Statement}
    {assertion : AuthDb → Prop}
    (lasting : Lasting fact)
    (noInserts : ∀ store, NoInserts (effect platform statement store).writes)
    (assertionStable :
      Stable (sessionMachine platform) (tokensOnly platform) pid assertion)
    (isQuiet : ∀ db, assertion db → Quiet pid fact db) :
    Outline (sessionMachine platform) (tokensOnly platform) pid (execute statement) assertion
      (byOutcome (fun _ => Quiet pid fact) fun error db => error = .database ∧ assertion db) := by
  apply outline_execute (fun _ => stable_quiet lasting) assertionStable
  · intro answer db _ holds _
    obtain ⟨isQuiet, holds⟩ := isQuiet db holds
    refine ⟨?_, lasting _ _ _ holds⟩
    simp only [Db.executed, Function.update_self]
    intro write isWrite
    rcases List.mem_append.mp isWrite with isOld | isNew
    · exact isQuiet write isOld
    · exact noInserts _ write isNew
  · exact fun db holds => holds

/-- The outline of the `COMMIT` of such a transaction. -/
theorem outline_commit_quiet (lasting : Lasting fact) :
    Outline (sessionMachine platform) (tokensOnly platform) pid commit (Quiet pid fact)
      (byOutcome (fun _ => Idle pid fact)
        fun error db => error = .database ∧ Idle pid fact db) := by
  apply outline_commit (stable_idle lasting) (stable_idle lasting)
  · exact fun db _ holds => ⟨.updates holds.1, idle_commit lasting holds.2⟩
  · exact fun db holds => idle_release holds.2

theorem Idle.quiet {db : AuthDb} (idle : Idle pid fact db) : Quiet pid fact db := by
  refine ⟨?_, idle.2⟩
  rw [idle.1]
  exact fun _ absent => nomatch absent

/-- The outline of a statement without insertions in a transaction of its
own. -/
theorem outline_executeAndCommit
    {statement : Statement}
    (lasting : Lasting fact)
    (noInserts : ∀ store, NoInserts (effect platform statement store).writes) :
    Outline (sessionMachine platform) (tokensOnly platform) pid (executeAndCommit statement)
      (Idle pid fact)
      (byOutcome (fun _ => Idle pid fact)
        fun error db => error = .database ∧ Idle pid fact db) := by
  unfold executeAndCommit
  simp only [Program.bind_eq, Program.pure_eq]
  apply Outline.bind
    (outline_quiet lasting noInserts (stable_idle lasting) fun _ holds => holds.quiet)
  · intro answer
    apply Outline.bind (outline_commit_quiet lasting)
    · exact fun _ db _ holds => holds
    · exact fun error db _ holds => holds
  · exact fun error db _ holds => holds

/-- The outline of `increment_failed_login`. -/
theorem outline_incrementFailedLogin (lasting : Lasting fact) (userId : UUID) :
    Outline (sessionMachine platform) (tokensOnly platform) pid (incrementFailedLogin userId)
      (Idle pid fact)
      (byOutcome (fun _ => Idle pid fact)
        fun error db => error = .database ∧ Idle pid fact db) := by
  have noInserts : ∀ store,
      NoInserts (effect platform (.incrementFailedLogin userId) store).writes := by
    intro store write isWritten token
    simp only [effect] at isWritten
    split at isWritten
    · simp [reads] at isWritten
    · split_ifs at isWritten
      · rw [List.mem_singleton.mp isWritten]
        exact Write.noConfusion
      · simp [raises] at isWritten
  have isBind : incrementFailedLogin userId =
      (executeAndCommit (.incrementFailedLogin userId)).bind (Program.ofOption .database) := by
    simp only [incrementFailedLogin, executeAndCommit, Program.bind_eq, Program.pure_eq,
      Program.bind_assoc, Program.ret_bind]
  rw [isBind]
  apply Outline.bind (outline_executeAndCommit lasting noInserts)
  · intro count
    cases count with
    | none => exact fun db _ holds => ⟨rfl, holds⟩
    | some count => exact fun db _ holds => holds
  · exact fun error db _ holds => holds

/-! ## Insertions -/

/-- The session has locked the keys of a token, and they are free. -/
def KeysFree (platform : Platform) (pid : ProcId) (token : NewToken) (db : AuthDb) : Prop :=
  Owns (schema platform) pid (.token token.id) (fun store => store.token token.id) (· = none) db ∧
    Owns (schema platform) pid (.tokenHash token.tokenHash) (HashTaken token.tokenHash) (¬·) db ∧
    HasUser token.userId (db.committed (schema platform))

theorem stable_keysFree (token : NewToken) :
    Stable (sessionMachine platform) (tokensOnly platform) pid (KeysFree platform pid token) :=
  (stable_owns (dependsOn_token platform token.id) _).and
    ((stable_owns (dependsOn_tokenHash platform token.tokenHash) _).and
      (stable_hasUser token.userId))

theorem KeysFree.admissible
    {token : NewToken}
    {db : AuthDb}
    (free : KeysFree platform pid token db) :
    (replay (schema platform) db.initial db.log).Admissible (.insertToken token) :=
  admissible_insertToken_iff.mpr ⟨free.1.2, free.2.1.2, free.2.2⟩

/-- An `INSERT` that succeeds, in a transaction whose writes make no room for
it. -/
theorem keysFree_of_insert
    {token : NewToken}
    {db : AuthDb}
    (isAnswer : (effect platform (.insertToken token) (db.view (schema platform) pid)).answer =
      some ())
    (noRoom : (db.view (schema platform) pid).Admissible (.insertToken token) →
      (db.committed (schema platform)).Admissible (.insertToken token)) :
    (effect platform (.insertToken token) (db.view (schema platform) pid)).writes =
        [.insertToken token] ∧
      KeysFree platform pid token
        (db.executed pid
          (effect platform (.insertToken token) (db.view (schema platform) pid))) := by
  by_cases admissible : (db.view (schema platform) pid).Admissible (.insertToken token)
  · have isEffect : effect platform (.insertToken token) (db.view (schema platform) pid) =
        writes (.insertToken token) () := if_pos admissible
    obtain ⟨idNew, hashNew, owned⟩ := admissible_insertToken_iff.mp (noRoom admissible)
    rw [isEffect]
    refine ⟨rfl, .of_locked ?_ idNew, .of_locked ?_ hashNew, ?_⟩
    · simp [writes, Write.keys]
    · simp [writes, Write.keys]
    · rwa [committed_executed]
  · have isEffect : effect platform (.insertToken token) (db.view (schema platform) pid) =
        raises := if_neg admissible
    rw [isEffect] at isAnswer
    contradiction

/-- The outline of `create`. -/
theorem outline_create (lasting : Lasting fact) (token : NewToken) :
    Outline (sessionMachine platform) (tokensOnly platform) pid (create token) (Idle pid fact)
      (byOutcome (fun _ => Idle pid fact)
        fun error db => error = .database ∧ Idle pid fact db) := by
  unfold create
  simp only [Program.bind_eq]
  apply Outline.bind
  · apply outline_execute
    · exact fun _ => ((stable_pending [.insertToken token]).and
        (stable_keysFree token)).and (stable_fact lasting)
    · exact stable_idle lasting
    · intro answer db _ holds isAnswer
      have noRoom : (db.view (schema platform) pid).Admissible (.insertToken token) →
          (db.committed (schema platform)).Admissible (.insertToken token) := by
        rw [view_of_idle holds.1]
        exact fun admissible => admissible
      obtain ⟨isWrites, free⟩ := keysFree_of_insert isAnswer noRoom
      refine ⟨⟨?_, free⟩, lasting _ _ _ holds.2⟩
      simp only [Db.executed, Function.update_self, holds.1, List.nil_append]
      exact isWrites
    · exact fun db holds => holds
  · intro _
    apply Outline.bind
    · apply outline_commit (stable_idle lasting) (stable_idle lasting)
      · intro db _ holds
        obtain ⟨⟨isPending, free⟩, holds⟩ := holds
        rw [isPending]
        exact ⟨.issues free.admissible, idle_commit lasting holds⟩
      · exact fun db holds => idle_release holds.2
    · intro _
      apply Outline.bind
      · exact outline_query_idle lasting fun store => ⟨_, rfl⟩
      · intro stored
        cases stored with
        | none => exact fun db _ holds => ⟨rfl, holds⟩
        | some row => exact fun db _ holds => holds
      · exact fun error db _ holds => holds
    · exact fun error db _ holds => holds
  · exact fun error db _ holds => holds

/-! ## Rotations -/

/-- The session holds the lock of the user, which it has taken after some
opening. -/
def HoldsUser (pid : ProcId) (userId : UUID) (db : AuthDb) : Prop :=
  ∃ opening, Holds pid (.user userId) opening db

theorem stable_holdsUser (userId : UUID) :
    Stable (sessionMachine platform) (tokensOnly platform) pid (HoldsUser pid userId) :=
  Stable.exists fun opening => stable_holds (.user userId) opening

/-- The session holds the lock of the user, which it has taken once since some opening. -/
def LocksUser (pid : ProcId) (userId : UUID) (db : AuthDb) : Prop :=
  ∃ opening, Holds pid (.user userId) opening db ∧ TakenOnce pid (.user userId) opening db.log

theorem stable_locksUser (userId : UUID) :
    Stable (sessionMachine platform) (tokensOnly platform) pid (LocksUser pid userId) :=
  Stable.exists fun opening =>
    (stable_holds (.user userId) opening).and (stable_takenOnce (.user userId) opening)

theorem LocksUser.holdsUser
    {userId : UUID}
    {db : AuthDb}
    (locks : LocksUser pid userId db) :
    HoldsUser pid userId db := by
  obtain ⟨opening, held, _⟩ := locks
  exact ⟨opening, held⟩

/-- The session has locked a token of the user that is active. -/
def OwnsActive (platform : Platform) (pid : ProcId) (tokenId userId : UUID) : AuthDb → Prop :=
  Owns (schema platform) pid (.token tokenId) (fun store => store.token tokenId) fun row =>
    ∃ token, row = some token ∧ token.userId = userId ∧ token.revokedAt = none

/-- The outline of the lock of a user. -/
theorem outline_lockUser (lasting : Lasting fact) (userId : UUID) :
    Outline (sessionMachine platform) (tokensOnly platform) pid (execute (.lockUser userId))
      (Idle pid fact)
      (byOutcome
        (fun answer db => Idle pid fact db ∧
          (answer = none → ¬HasUser userId (db.committed (schema platform))) ∧
          (answer ≠ none → LocksUser pid userId db))
        fun error db => error = .database ∧ fact db.initial db.log) := by
  apply outline_execute
  · intro answer
    refine (stable_idle lasting).and (Stable.and ?_ ?_)
    · apply Stable.forall
      intro _
      have kept : ∀ store write, ¬HasUser userId store →
          ¬HasUser userId ((schema platform).apply store write) :=
        fun store write absent present => absent ((hasUser_apply userId store write).mp present)
      exact stable_committed kept
    · exact Stable.forall fun _ => stable_locksUser userId
  · exact stable_fact lasting
  · intro answer db _ holds isAnswer
    rw [view_of_idle holds.1] at isAnswer ⊢
    cases found : (db.committed (schema platform)).user userId with
    | none =>
        have isEffect : (schema platform).effect (.lockUser userId)
            (db.committed (schema platform)) = reads none :=
          effect_lockUser_of_none platform found
        rw [isEffect] at isAnswer ⊢
        rw [executed_silent rfl rfl]
        obtain rfl := Option.some.inj isAnswer
        exact ⟨holds, fun _ => not_hasUser found, fun isSome => absurd rfl isSome⟩
    | some user =>
        have isEffect : (schema platform).effect (.lockUser userId)
            (db.committed (schema platform)) = ⟨[.user userId], some (some user.id), []⟩ :=
          effect_lockUser_of_some platform found
        rw [isEffect] at isAnswer ⊢
        obtain rfl := Option.some.inj isAnswer
        refine ⟨⟨?_, lasting _ _ _ holds.2⟩, fun isNone => ?_, fun _ => ⟨db.log, ?_⟩⟩
        · simp only [Db.executed, Function.update_self, List.append_nil]
          exact holds.1
        · contradiction
        · exact ⟨Holds.of_locked rfl db, TakenOnce.of_locked rfl db⟩
  · exact fun db holds => holds.2

/-- The outline of the conditional `UPDATE` of a token. -/
theorem outline_consumeToken (lasting : Lasting fact) (tokenId userId : UUID) (now : Nat) :
    Outline (sessionMachine platform) (tokensOnly platform) pid
      (execute (.consumeToken tokenId userId now))
      (fun db => Idle pid fact db ∧ HoldsUser pid userId db)
      (byOutcome
        (fun answer db => fact db.initial db.log ∧ (answer ≠ none →
          db.pending pid = [.revokeToken tokenId now] ∧ HoldsUser pid userId db ∧
            OwnsActive platform pid tokenId userId db))
        fun error db => error = .database ∧ fact db.initial db.log) := by
  apply outline_execute
  · intro answer
    refine (stable_fact lasting).and (Stable.forall fun _ => ?_)
    exact (stable_pending _).and ((stable_holdsUser userId).and
      (stable_owns (dependsOn_token platform tokenId) _))
  · exact stable_fact lasting
  · intro answer db _ holds isAnswer
    obtain ⟨⟨nothing, holds⟩, opening, held⟩ := holds
    rw [view_of_idle nothing] at isAnswer ⊢
    refine ⟨lasting _ _ _ holds, fun isSome => ?_⟩
    cases found : ((db.committed (schema platform)).token tokenId).filter fun token =>
        token.userId = userId ∧ token.revokedAt = none ∧ now < token.expiresAt with
    | none =>
        have isEffect : (schema platform).effect (.consumeToken tokenId userId now)
            (db.committed (schema platform)) = reads none := revokeWhere_of_none found now
        rw [isEffect] at isAnswer
        exact absurd (Option.some.inj isAnswer).symm isSome
    | some token =>
        obtain ⟨isToken, matching⟩ := Option.filter_eq_some_iff.mp found
        have isActive : token.userId = userId ∧ token.revokedAt = none ∧ now < token.expiresAt :=
          of_decide_eq_true matching
        have isEffect : (schema platform).effect (.consumeToken tokenId userId now)
            (db.committed (schema platform)) = writes (.revokeToken tokenId now) (some token.id) :=
          revokeWhere_of_some found now
        rw [isEffect]
        refine ⟨?_, ⟨opening, held.executed _⟩, .of_locked ?_ ?_⟩
        · simp only [Db.executed, Function.update_self, nothing, List.nil_append]
          rfl
        · simp [writes, Write.keys]
        · exact ⟨token, isToken, isActive.1, isActive.2.1⟩
  · exact fun db holds => holds.1.2

/-- The session has replaced the token. -/
def HasRotated (pid : ProcId) (tokenId : UUID) (replacement : NewToken) (_ : AuthStore)
    (log : List (Event Key Write)) : Prop :=
  ∃ before, Rotates log before pid tokenId replacement

theorem lasting_hasRotated (tokenId : UUID) (replacement : NewToken) :
    Lasting (HasRotated pid tokenId replacement) := by
  rintro initial _ events ⟨before, now, after, rfl⟩
  exact ⟨before, now, after ++ events, by simp⟩

/-- What is known after `rotate_if_active`. -/
abbrev Rotated (pid : ProcId) (tokenId : UUID) (replacement : NewToken)
    (fact : AuthStore → List (Event Key Write) → Prop) (rotated : Bool) :
    AuthStore → List (Event Key Write) → Prop := fun initial log =>
  fact initial log ∧ (rotated = true → HasRotated pid tokenId replacement initial log)

theorem lasting_rotated
    (lasting : Lasting fact)
    (tokenId : UUID)
    (replacement : NewToken)
    (rotated : Bool) :
    Lasting (Rotated pid tokenId replacement fact rotated) :=
  fun initial log events holds => ⟨lasting initial log events holds.1, fun isRotated =>
    lasting_hasRotated tokenId replacement initial log events (holds.2 isRotated)⟩

/-- The outline of a rotation that is given up. -/
theorem outline_giveUp
    (lasting : Lasting fact)
    (tokenId : UUID)
    (replacement : NewToken) :
    Outline (sessionMachine platform) (tokensOnly platform) pid
      (rollback.bind fun _ => .ret false) (fun db => fact db.initial db.log)
      (byOutcome (fun rotated => Idle pid (Rotated pid tokenId replacement fact rotated))
        fun error db => error = .database ∧ fact db.initial db.log) := by
  apply Outline.bind
  · apply outline_rollback (stable_idle lasting)
    exact fun db holds => idle_release holds
  · exact fun _ db _ holds => ⟨holds.1, holds.2, fun isRotated => nomatch isRotated⟩
  · exact fun error db _ holds => ⟨holds.1, holds.2.2⟩

/-- The outline of the `INSERT` and the `COMMIT` of a rotation. -/
theorem outline_insertReplacement
    (lasting : Lasting fact)
    (tokenId : UUID)
    (now : Nat)
    (replacement : NewToken) :
    Outline (sessionMachine platform) (tokensOnly platform) pid
      ((execute (.insertToken replacement)).bind fun _ => commit.bind fun _ => .ret true)
      (fun db => fact db.initial db.log ∧ db.pending pid = [.revokeToken tokenId now] ∧
        HoldsUser pid replacement.userId db ∧ OwnsActive platform pid tokenId replacement.userId db)
      (byOutcome (fun rotated => Idle pid (Rotated pid tokenId replacement fact rotated))
        fun error db => error = .database ∧ fact db.initial db.log) := by
  apply Outline.bind
  · apply outline_execute
    · intro _
      have stableWrites : Stable (sessionMachine platform) (tokensOnly platform) pid fun db =>
          db.pending pid = [.revokeToken tokenId now, .insertToken replacement] :=
        stable_pending _
      exact (stable_fact lasting).and (stableWrites.and ((stable_holdsUser replacement.userId).and
        ((stable_owns (dependsOn_token platform tokenId) fun row => ∃ token, row = some token ∧
            token.userId = replacement.userId ∧ token.revokedAt = none).and
          (stable_keysFree replacement))))
    · exact stable_fact lasting
    · intro _ db _ holds isAnswer
      obtain ⟨holds, isPending, ⟨opening, held⟩, owns⟩ := holds
      have noRoom : (db.view (schema platform) pid).Admissible (.insertToken replacement) →
          (db.committed (schema platform)).Admissible (.insertToken replacement) := by
        rw [Db.view, isPending]
        exact admissible_of_revokeToken
      obtain ⟨isWrites, free⟩ := keysFree_of_insert isAnswer noRoom
      refine ⟨lasting _ _ _ holds, ?_, ⟨opening, held.executed _⟩, owns.executed _, free⟩
      have isEffect : ((schema platform).effect (.insertToken replacement)
          (db.view (schema platform) pid)).writes = [.insertToken replacement] := isWrites
      simp only [Db.executed, Function.update_self, isPending, isEffect]
      rfl
    · exact fun db holds => holds.1
  · intro _
    apply Outline.bind
    · apply outline_commit (stable_idle (lasting_rotated lasting tokenId replacement true))
        (stable_fact lasting)
      · intro db _ holds
        obtain ⟨holds, isPending, ⟨opening, held⟩, owns, free⟩ := holds
        obtain ⟨row, isRow, isOwner, isActive⟩ := owns.2
        have sameId : row.id = tokenId := AuthStore.token_id isRow
        constructor
        · rw [isPending, ← sameId]
          apply TokenCommit.rotates
          · exact ⟨row, by rw [sameId]; exact isRow, rfl⟩
          · exact ⟨row, by rw [sameId]; exact isRow, isActive⟩
          · exact isOwner
          · exact free.admissible
          · exact held.2
        · refine ⟨Function.update_self _ _ _, lasting _ _ _ holds, fun _ => ?_⟩
          refine ⟨db.log, now, [], ?_⟩
          rw [← isPending]
          rfl
      · exact fun db holds => holds.1
    · exact fun _ db _ holds => holds
    · exact fun error db _ holds => holds
  · exact fun error db _ holds => holds

/-- The outline of `rotate_if_active`. -/
theorem outline_rotateIfActive
    (lasting : Lasting fact)
    (tokenId : UUID)
    (now : Nat)
    (replacement : NewToken) :
    Outline (sessionMachine platform) (tokensOnly platform) pid
      (rotateIfActive tokenId now replacement) (Idle pid fact)
      (byOutcome (fun rotated => Idle pid (Rotated pid tokenId replacement fact rotated))
        fun error db => error = .database ∧ Idle pid fact db) := by
  unfold rotateIfActive transaction
  simp only [Program.bind_eq, Program.tryCatch_eq, Program.throw_eq]
  apply outline_transaction (stable_idle lasting) fun db holds => idle_release holds
  unfold rotateTransaction
  simp only [Program.bind_eq, Program.pure_eq]
  apply Outline.bind (outline_lockUser lasting replacement.userId)
  · intro lockedUser
    cases lockedUser with
    | none => exact (outline_giveUp lasting tokenId replacement).weaken fun db _ holds => holds.1.2
    | some userId =>
        apply Outline.weaken
        apply Outline.bind (outline_consumeToken lasting tokenId replacement.userId now)
        · intro consumed
          cases consumed with
          | none =>
              exact (outline_giveUp lasting tokenId replacement).weaken fun db _ holds => holds.1
          | some id =>
              apply (outline_insertReplacement lasting tokenId now replacement).weaken
              exact fun db _ holds => ⟨holds.1, holds.2 (by simp)⟩
        · exact fun error db _ holds => holds
        · intro db _ holds
          exact ⟨holds.1, (holds.2.2 (by simp)).holdsUser⟩
  · exact fun error db _ holds => holds

/-! ## Revocations of all tokens -/

/-- The session has locked the user after the opening, and every token that the
user had then is revoked, about to be, or among the ones that remain. -/
structure Sweeping (platform : Platform) (pid : ProcId) (userId : UUID)
    (opening : List (Event Key Write)) (remaining : List UUID) (db : AuthDb) : Prop where
  held : Holds pid (.user userId) opening db
  once : TakenOnce pid (.user userId) opening db.log
  revokesOnly : ∀ write ∈ db.pending pid, ∃ id revokedAt, write = .revokeToken id revokedAt
  covers : ∀ token, Stored (replay (schema platform) db.initial opening) token →
    token.userId = userId →
    token.id ∈ remaining ∨ (∃ revokedAt, .revokeToken token.id revokedAt ∈ db.pending pid) ∨
      Revoked (db.committed (schema platform)) token.id

theorem stable_sweeping
    (userId : UUID)
    (opening : List (Event Key Write))
    (remaining : List UUID) :
    Stable (sessionMachine platform) (tokensOnly platform) pid
      (Sweeping platform pid userId opening remaining) := by
  intro db db' invariant invariant' sweeping change
  have held := stable_holds (.user userId) opening db db' invariant invariant' sweeping.held change
  have once := stable_takenOnce (.user userId) opening db db' invariant invariant' sweeping.once
    change
  rcases change with ⟨other, different, moves⟩ | ⟨later, _, rfl⟩
  · obtain ⟨keys, commits, isLog, _⟩ := moves.log
    refine ⟨held, once, ?_, ?_⟩
    · rw [moves.pending pid different.symm]
      exact sweeping.revokesOnly
    · intro token isStored isOwner
      rw [moves.initial] at isStored
      rw [moves.pending pid different.symm, Db.committed, moves.initial, isLog]
      exact (sweeping.covers token isStored isOwner).imp_right
        (Or.imp_right fun isRevoked => revoked_along isRevoked _)
  · exact ⟨held, once, sweeping.revokesOnly, sweeping.covers⟩

/-- A token that looks revoked to a session that only revokes. -/
theorem revoked_of_view
    {pending : List Write}
    (revokesOnly : ∀ write ∈ pending, ∃ id revokedAt, write = .revokeToken id revokedAt)
    {store : AuthStore}
    {id : UUID}
    (isRevoked : Revoked (pending.foldl AuthStore.apply store) id) :
    (∃ revokedAt, .revokeToken id revokedAt ∈ pending) ∨ Revoked store id := by
  induction pending generalizing store with
  | nil => exact .inr isRevoked
  | cons write pending inductionHypothesis =>
      rcases inductionHypothesis (fun other isOther => revokesOnly other (.tail _ isOther))
          isRevoked with ⟨revokedAt, isPending⟩ | isRevoked
      · exact .inl ⟨revokedAt, .tail _ isPending⟩
      · obtain ⟨revoked, revokedAt, rfl⟩ := revokesOnly write List.mem_cons_self
        by_cases isSame : revoked = id
        · subst isSame
          exact .inl ⟨revokedAt, List.mem_cons_self⟩
        · obtain ⟨row, isRow, notActive⟩ := isRevoked
          rw [AuthStore.token_revokeToken, Option.map_eq_some_iff] at isRow
          obtain ⟨row', isRow', rfl⟩ := isRow
          have different : row'.id ≠ revoked := by
            rw [AuthStore.token_id isRow']
            exact Ne.symm isSame
          rw [AuthTables.revokedToken, if_neg different] at notActive
          exact .inr ⟨row', isRow', notActive⟩

theorem revoked_foldl
    {store : AuthStore}
    {id : UUID}
    (pending : List Write)
    (isRevoked : Revoked store id) :
    Revoked (pending.foldl AuthStore.apply store) id := by
  induction pending generalizing store with
  | nil => exact isRevoked
  | cons write pending inductionHypothesis =>
      exact inductionHypothesis (revoked_kept id store write isRevoked)

theorem stored_foldl
    {store : AuthStore}
    {token : NewToken}
    (pending : List Write)
    (isStored : Stored store token) :
    Stored (pending.foldl AuthStore.apply store) token := by
  induction pending generalizing store with
  | nil => exact isStored
  | cons write pending inductionHypothesis =>
      exact inductionHypothesis (stored_kept token store write isStored)

/-- What is about to be revoked is revoked by the commit. -/
theorem revoked_of_pending
    {pending : List Write}
    {store : AuthStore}
    {token : NewToken}
    {revokedAt : Nat}
    (isPending : .revokeToken token.id revokedAt ∈ pending)
    (isStored : Stored store token) :
    Revoked (pending.foldl AuthStore.apply store) token.id := by
  induction pending generalizing store with
  | nil => simp at isPending
  | cons write pending inductionHypothesis =>
      rcases List.mem_cons.mp isPending with rfl | isLater
      · exact revoked_foldl pending (revoked_of_revoke isStored revokedAt)
      · exact inductionHypothesis isLater (stored_kept token store write isStored)

/-- The outline of the rows that the `UPDATE` finds. -/
theorem outline_unrevokedTokens (lasting : Lasting fact) (userId : UUID) :
    Outline (sessionMachine platform) (tokensOnly platform) pid (execute (.unrevokedTokens userId))
      (fun db => Idle pid fact db ∧ LocksUser pid userId db)
      (byOutcome
        (fun ids db => fact db.initial db.log ∧
          ∃ opening, Sweeping platform pid userId opening ids db)
        fun error db => error = .database ∧ fact db.initial db.log) := by
  apply outline_execute
  · exact fun ids => (stable_fact lasting).and (Stable.exists fun opening =>
      stable_sweeping userId opening ids)
  · exact stable_fact lasting
  · intro ids db _ holds isAnswer
    obtain ⟨⟨nothing, holds⟩, opening, held, once⟩ := holds
    rw [view_of_idle nothing] at isAnswer ⊢
    obtain rfl := Option.some.inj isAnswer
    rw [executed_silent rfl rfl]
    refine ⟨holds, opening, held, once, ?_, ?_⟩
    · simp [nothing]
    · intro token isStored isOwner
      have isStoredNow : Stored (db.committed (schema platform)) token := by
        obtain ⟨later, isLog, _⟩ := held.2
        rw [Db.committed, isLog]
        exact stored_along isStored _
      rcases isStoredNow.active_or_revoked with isActive | isRevoked
      · left
        obtain ⟨row, isRow, isActive⟩ := isActive
        obtain ⟨row', isRow', rfl⟩ := isStoredNow
        obtain rfl : row = row' := Option.some.inj (isRow.symm.trans isRow')
        apply List.mem_map_of_mem
        rw [List.mem_filter]
        exact ⟨AuthStore.mem_of_token isRow, by simp [isOwner, isActive]⟩
      · exact .inr (.inr isRevoked)
  · exact fun db holds => holds.1.2

theorem Sweeping.stored
    {userId : UUID}
    {opening : List (Event Key Write)}
    {remaining : List UUID}
    {db : AuthDb}
    (sweeping : Sweeping platform pid userId opening remaining db)
    {token : NewToken}
    (isStored : Stored (replay (schema platform) db.initial opening) token) :
    Stored (db.committed (schema platform)) token := by
  obtain ⟨later, isLog, _⟩ := sweeping.held.2
  rw [Db.committed, isLog]
  exact stored_along isStored _

/-- One row of the `UPDATE`: it is active and revoked now, or it is revoked
already. -/
theorem Sweeping.revoke
    {userId id : UUID}
    {opening : List (Event Key Write)}
    {remaining : List UUID}
    {db : AuthDb}
    (sweeping : Sweeping platform pid userId opening (id :: remaining) db)
    (revokedAt : Nat) :
    Sweeping platform pid userId opening remaining
      (db.executed pid ((schema platform).effect (.revokeUnrevoked id userId revokedAt)
        (db.view (schema platform) pid))) := by
  let condition : RefreshToken → Bool := fun token =>
    token.userId = userId ∧ token.revokedAt = none
  have isEffect : (schema platform).effect (.revokeUnrevoked id userId revokedAt)
      (db.view (schema platform) pid) =
        { revokeWhere (db.view (schema platform) pid) id condition revokedAt with
          answer := some () } := rfl
  have isCommitted : (db.executed pid ((schema platform).effect
      (.revokeUnrevoked id userId revokedAt) (db.view (schema platform) pid))).committed
        (schema platform) = db.committed (schema platform) := committed_executed _ _
  have isPending : (db.executed pid ((schema platform).effect
      (.revokeUnrevoked id userId revokedAt) (db.view (schema platform) pid))).pending pid =
        db.pending pid ++
          (revokeWhere (db.view (schema platform) pid) id condition revokedAt).writes := by
    simp only [Db.executed, Function.update_self, isEffect]
  have notLocked : .user userId ∉ ((schema platform).effect (.revokeUnrevoked id userId revokedAt)
      (db.view (schema platform) pid)).locks := by
    rw [isEffect]
    unfold revokeWhere
    split <;> simp [reads, writes, Write.keys]
  refine ⟨sweeping.held.executed _, sweeping.once.executed notLocked, ?_, ?_⟩
  · intro write isWrite
    rw [isPending, List.mem_append] at isWrite
    rcases isWrite with isOld | isNew
    · exact sweeping.revokesOnly write isOld
    · unfold revokeWhere at isNew
      split at isNew
      · simp [reads] at isNew
      · exact ⟨id, revokedAt, List.mem_singleton.mp isNew⟩
  · intro token isStored isOwner
    rw [isCommitted, isPending]
    rcases sweeping.covers token isStored isOwner with isRemaining | ⟨time, isOld⟩ | isRevoked
    · rcases List.mem_cons.mp isRemaining with rfl | isLater
      · cases found : ((db.view (schema platform) pid).token token.id).filter condition with
        | none =>
            -- the row is there, so it is revoked, by the session or by another one
            have isSeen : Stored (db.view (schema platform) pid) token :=
              stored_foldl _ (sweeping.stored isStored)
            have isRevoked : Revoked (db.view (schema platform) pid) token.id := by
              obtain ⟨row, isRow, isToken⟩ := isSeen
              refine ⟨row, isRow, fun isActive => ?_⟩
              rw [isRow, Option.filter_eq_none_iff] at found
              apply found row rfl
              simp [condition, isActive, isToken, isOwner]
            rcases revoked_of_view sweeping.revokesOnly isRevoked with
              ⟨time, isOld⟩ | isRevoked
            · exact .inr (.inl ⟨time, List.mem_append_left _ isOld⟩)
            · exact .inr (.inr isRevoked)
        | some row =>
            rw [revokeWhere_of_some found]
            exact .inr (.inl ⟨revokedAt, by simp [writes]⟩)
      · exact .inl isLater
    · exact .inr (.inl ⟨time, List.mem_append_left _ isOld⟩)
    · exact .inr (.inr isRevoked)

/-- The outline of the rows of an `UPDATE`, one after the other. -/
theorem outline_revokeEach
    (lasting : Lasting fact)
    (userId : UUID)
    (opening : List (Event Key Write))
    (revokedAt : Nat)
    (ids : List UUID) :
    Outline (sessionMachine platform) (tokensOnly platform) pid (revokeEach userId revokedAt ids)
      (fun db => fact db.initial db.log ∧ Sweeping platform pid userId opening ids db)
      (byOutcome
        (fun _ db => fact db.initial db.log ∧ Sweeping platform pid userId opening [] db)
        fun error db => error = .database ∧ fact db.initial db.log) := by
  induction ids with
  | nil => exact fun db _ holds => holds
  | cons id ids inductionHypothesis =>
      apply Outline.bind
      · apply outline_execute
        · exact fun _ => (stable_fact lasting).and (stable_sweeping userId opening ids)
        · exact stable_fact lasting
        · intro _ db _ holds _
          obtain ⟨holds, sweeping⟩ := holds
          exact ⟨lasting _ _ _ holds, sweeping.revoke revokedAt⟩
        · exact fun db holds => holds.1
      · exact fun _ => inductionHypothesis
      · exact fun error db _ holds => holds

/-- The session has revoked all tokens of the user. -/
def HasSwept (platform : Platform) (pid : ProcId) (userId : UUID) (initial : AuthStore)
    (log : List (Event Key Write)) : Prop :=
  ∃ opening middle writes after,
    log = upToCommit pid userId opening middle writes ++ after ∧
      Sweeps platform initial pid userId opening middle writes

theorem lasting_hasSwept (userId : UUID) : Lasting (HasSwept platform pid userId) := by
  rintro initial _ events ⟨opening, middle, writes, after, rfl, sweeps⟩
  exact ⟨opening, middle, writes, after ++ events, by simp, sweeps⟩

/-- The commit of a sweep. -/
theorem Sweeping.commit
    {userId : UUID}
    {opening : List (Event Key Write)}
    {db : AuthDb}
    (sweeping : Sweeping platform pid userId opening [] db) :
    HasSwept platform pid userId (db.commit pid).initial (db.commit pid).log := by
  obtain ⟨later, isLog, quiet, uncommitted⟩ := sweeping.held.2
  have isCommit : (db.commit pid).log =
      upToCommit pid userId opening later (db.pending pid) := by
    simp [Db.commit, isLog, upToCommit]
  have once : .acquired pid (.user userId) ∉ later := by
    obtain ⟨later', isLog', once⟩ := sweeping.once
    obtain rfl := (List.cons.inj (List.append_cancel_left (isLog.symm.trans isLog'))).2
    exact once
  refine ⟨opening, later, db.pending pid, [], ?_, ⟨later, rfl, quiet, uncommitted⟩, once, ?_, ?_⟩
  · rw [isCommit, List.append_nil]
  · intro write isWrite token
    obtain ⟨id, revokedAt, rfl⟩ := sweeping.revokesOnly write isWrite
    exact Write.noConfusion
  · intro token isStored isOwner
    have isReplay : replay (schema platform) (db.commit pid).initial
        (upToCommit pid userId opening later (db.pending pid)) =
          (db.pending pid).foldl AuthStore.apply (db.committed (schema platform)) := by
      rw [← isCommit]
      exact replay_append (schema platform) _ _ _
    rw [isReplay]
    rcases sweeping.covers token isStored isOwner with isRemaining | ⟨time, isPending⟩ | isRevoked
    · simp at isRemaining
    · exact revoked_of_pending isPending (sweeping.stored isStored)
    · exact revoked_foldl _ isRevoked

/-- What is known after `revoke_all_for_user`. -/
abbrev Swept (platform : Platform) (pid : ProcId) (userId : UUID)
    (fact : AuthStore → List (Event Key Write) → Prop) :
    AuthStore → List (Event Key Write) → Prop := fun initial log =>
  fact initial log ∧ (HasUser userId initial → HasSwept platform pid userId initial log)

theorem lasting_swept (lasting : Lasting fact) (userId : UUID) :
    Lasting (Swept platform pid userId fact) :=
  fun initial log events holds => ⟨lasting initial log events holds.1, fun hasUser =>
    lasting_hasSwept userId initial log events (holds.2 hasUser)⟩

/-- The outline of a transaction after the lock of the user. -/
theorem outline_revokeLocked (lasting : Lasting fact) (userId : UUID) :
    Outline (sessionMachine platform) (tokensOnly platform) pid
      (clock.bind fun revokedAt => (execute (.unrevokedTokens userId)).bind fun ids =>
        (revokeEach userId revokedAt ids).bind fun _ => commit)
      (fun db => Idle pid fact db ∧ LocksUser pid userId db)
      (byOutcome (fun _ => Idle pid (Swept platform pid userId fact))
        fun error db => error = .database ∧ fact db.initial db.log) := by
  apply Outline.bind (outline_now ((stable_idle lasting).and (stable_locksUser userId)))
  · intro revokedAt
    apply Outline.bind (outline_unrevokedTokens lasting userId)
    · intro ids
      have eachOpening : ∀ opening,
          Outline (sessionMachine platform) (tokensOnly platform) pid
            ((revokeEach userId revokedAt ids).bind fun _ => commit)
            (fun db => fact db.initial db.log ∧ Sweeping platform pid userId opening ids db)
            (byOutcome (fun _ => Idle pid (Swept platform pid userId fact))
              fun error db => error = .database ∧ fact db.initial db.log) := by
        intro opening
        apply Outline.bind (outline_revokeEach lasting userId opening revokedAt ids)
        · intro _
          apply outline_commit (stable_idle (lasting_swept lasting userId)) (stable_fact lasting)
          · intro db _ holds
            obtain ⟨holds, sweeping⟩ := holds
            refine ⟨.updates ?_, Function.update_self _ _ _, lasting _ _ _ holds,
              fun _ => sweeping.commit⟩
            intro write isWrite token
            obtain ⟨id, time, rfl⟩ := sweeping.revokesOnly write isWrite
            exact Write.noConfusion
          · exact fun db holds => holds.1
        · exact fun error db _ holds => holds
      apply (Outline.exists eachOpening).weaken
      exact fun db _ holds => ⟨holds.2.choose, holds.1, holds.2.choose_spec⟩
    · exact fun error db _ holds => holds
  · exact fun error db _ unreachable => unreachable.elim

/-- An `UPDATE` of `revoked_at` inserts nothing. -/
theorem noInserts_revokeUnrevoked (id userId : UUID) (revokedAt : Nat) (store : AuthStore) :
    NoInserts (effect platform (.revokeUnrevoked id userId revokedAt) store).writes :=
  fun _ isWritten token isInsert => by
    simp only [effect, revokeWhere] at isWritten
    split at isWritten
    · simp [reads] at isWritten
    · rw [List.mem_singleton.mp isWritten] at isInsert
      contradiction

/-- The outline of the rows of an `UPDATE`, without a lock of the user. -/
theorem outline_revokeEach_quiet
    (lasting : Lasting fact)
    (userId : UUID)
    (revokedAt : Nat)
    (ids : List UUID) :
    Outline (sessionMachine platform) (tokensOnly platform) pid (revokeEach userId revokedAt ids)
      (Quiet pid fact)
      (byOutcome (fun _ => Quiet pid fact)
        fun error db => error = .database ∧ Quiet pid fact db) := by
  induction ids with
  | nil => exact fun db _ holds => holds
  | cons id ids inductionHypothesis =>
      apply Outline.bind
      · exact outline_quiet lasting (noInserts_revokeUnrevoked id userId revokedAt)
          (stable_quiet lasting) fun _ holds => holds
      · exact fun _ => inductionHypothesis
      · exact fun error db _ holds => holds

/-- The outline of a transaction that has found no user to lock. -/
theorem outline_revokeUnlocked (lasting : Lasting fact) (userId : UUID) :
    Outline (sessionMachine platform) (tokensOnly platform) pid
      (clock.bind fun revokedAt => (execute (.unrevokedTokens userId)).bind fun ids =>
        (revokeEach userId revokedAt ids).bind fun _ => commit)
      (fun db => Idle pid fact db ∧ ¬HasUser userId db.initial)
      (byOutcome (fun _ => Idle pid (Swept platform pid userId fact))
        fun error db => error = .database ∧ fact db.initial db.log) := by
  let absent : AuthStore → List (Event Key Write) → Prop := fun initial log =>
    fact initial log ∧ ¬HasUser userId initial
  have lastingAbsent : Lasting absent := fun initial log events holds =>
    ⟨lasting initial log events holds.1, holds.2⟩
  have quiet : Outline (sessionMachine platform) (tokensOnly platform) pid
      (clock.bind fun revokedAt => (execute (.unrevokedTokens userId)).bind fun ids =>
        (revokeEach userId revokedAt ids).bind fun _ => commit)
      (Idle pid absent)
      (byOutcome (fun _ => Idle pid absent)
        fun error db => error = .database ∧ absent db.initial db.log) := by
    apply Outline.bind (outline_now (stable_idle lastingAbsent))
    · intro revokedAt
      apply Outline.bind (outline_query_idle lastingAbsent fun store => ⟨_, rfl⟩)
      · intro ids
        apply Outline.bind
          ((outline_revokeEach_quiet lastingAbsent userId revokedAt ids).weaken
            fun _ _ holds => holds.quiet)
        · intro _
          apply (outline_commit_quiet lastingAbsent).consequence
          intro result db _ holds
          cases result with
          | ok _ => exact holds
          | error error => exact ⟨holds.1, holds.2.2⟩
        · exact fun error db _ holds => ⟨holds.1, holds.2.2⟩
      · exact fun error db _ holds => ⟨holds.1, holds.2.2⟩
    · exact fun error db _ unreachable => unreachable.elim
  apply (quiet.consequence ?_).weaken
  · exact fun db _ holds => ⟨holds.1.1, holds.1.2, holds.2⟩
  · intro result db _ holds
    cases result with
    | ok _ => exact ⟨holds.1, holds.2.1, fun hasUser => absurd hasUser holds.2.2⟩
    | error error => exact ⟨holds.1, holds.2.1⟩

/-- The outline of `revoke_all_for_user`. -/
theorem outline_revokeAllForUser (lasting : Lasting fact) (userId : UUID) :
    Outline (sessionMachine platform) (tokensOnly platform) pid (revokeAllForUser userId)
      (Idle pid fact)
      (byOutcome (fun _ => Idle pid (Swept platform pid userId fact))
        fun error db => error = .database ∧ Idle pid fact db) := by
  unfold revokeAllForUser transaction
  simp only [Program.bind_eq, Program.tryCatch_eq, Program.throw_eq]
  apply outline_transaction (stable_idle lasting) fun db holds => idle_release holds
  unfold revokeTransaction
  simp only [Program.bind_eq]
  apply Outline.bind (outline_lockUser lasting userId)
  · intro lockedUser
    cases lockedUser with
    | none =>
        apply (outline_revokeUnlocked lasting userId).weaken
        intro db _ holds
        refine ⟨holds.1, fun hasUser => holds.2.1 rfl ?_⟩
        have kept : ∀ store write, HasUser userId store →
            HasUser userId ((schema platform).apply store write) :=
          fun store write => (hasUser_apply userId store write).mpr
        have hasUserAtFirst : HasUser userId (replay (schema platform) db.initial []) := hasUser
        exact replay_kept kept hasUserAtFirst db.log
    | some locked =>
        apply (outline_revokeLocked lasting userId).weaken
        exact fun db _ holds => ⟨holds.1, holds.2.2 (by simp)⟩
  · exact fun error db _ holds => holds

end Outlines

end Auth
end SigmaForge
