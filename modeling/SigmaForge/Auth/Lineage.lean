import SigmaForge.Auth.Service

/-!
# Lineages of refresh tokens

A successful rotation consumes a token and stores its replacement, which is a
child of it.  What the commits of the repositories do to lineages, and what a
revocation of all tokens of a user leaves of them.
-/

namespace SigmaForge
namespace Auth

open Text ReadCommitted

/-- A database of users and refresh tokens. -/
abbrev AuthDb := Db AuthStore Key Write

section Rows

variable {store : AuthStore}

/-- The token is stored, and `revoked_at` is null. -/
def Active (store : AuthStore) (id : UUID) : Prop :=
  ∃ row, store.token id = some row ∧ row.revokedAt = none

/-- The token is stored, and `revoked_at` is not null. -/
def Revoked (store : AuthStore) (id : UUID) : Prop :=
  ∃ row, store.token id = some row ∧ row.revokedAt ≠ none

/-- The token is stored. -/
def Stored (store : AuthStore) (token : NewToken) : Prop :=
  ∃ row, store.token token.id = some row ∧ row.toNewToken = token

theorem Revoked.not_active
    {id : UUID}
    (isRevoked : Revoked store id) :
    ¬Active store id := by
  rintro ⟨row, isRow, isActive⟩
  obtain ⟨row', isRow', notActive⟩ := isRevoked
  obtain rfl : row = row' := Option.some.inj (isRow.symm.trans isRow')
  exact notActive isActive

/-- A stored token is active or revoked. -/
theorem Stored.active_or_revoked
    {token : NewToken}
    (isStored : Stored store token) :
    Active store token.id ∨ Revoked store token.id := by
  obtain ⟨row, isRow, _⟩ := isStored
  by_cases isActive : row.revokedAt = none
  · exact .inl ⟨row, isRow, isActive⟩
  · exact .inr ⟨row, isRow, isActive⟩

theorem Stored.unique
    {token token' : NewToken}
    (first : Stored store token)
    (second : Stored store token')
    (sameId : token.id = token'.id) :
    token = token' := by
  obtain ⟨row, isRow, rfl⟩ := first
  obtain ⟨row', isRow', rfl⟩ := second
  rw [sameId, isRow', Option.some.injEq] at isRow
  rw [isRow]

/-- No write takes a revocation back. -/
theorem revoked_kept (id : UUID) (store : AuthStore) (write : Write)
    (isRevoked : Revoked store id) : Revoked (store.apply write) id := by
  obtain ⟨row, isRow, notActive⟩ := isRevoked
  obtain ⟨row', isRow', _, kept⟩ := AuthStore.token_kept write isRow
  exact ⟨row', isRow', kept notActive⟩

/-- No write removes or changes a token. -/
theorem stored_kept (token : NewToken) (store : AuthStore) (write : Write)
    (isStored : Stored store token) : Stored (store.apply write) token := by
  obtain ⟨row, isRow, isToken⟩ := isStored
  obtain ⟨row', isRow', same, _⟩ := AuthStore.token_kept write isRow
  exact ⟨row', isRow', same.trans isToken⟩

/-- A revoked token. -/
theorem revoked_of_revoke
    {token : NewToken}
    (isStored : Stored store token)
    (revokedAt : Nat) :
    Revoked (store.apply (.revokeToken token.id revokedAt)) token.id := by
  obtain ⟨row, isRow, _⟩ := isStored
  refine ⟨{ row with revokedAt := some revokedAt }, ?_, Option.some_ne_none revokedAt⟩
  rw [AuthStore.token_revokeToken, isRow, Option.map_some, AuthTables.revokedToken,
    if_pos (AuthStore.token_id isRow)]

/-- A token that is inserted. -/
theorem stored_of_insert
    {token : NewToken}
    (admissible : store.Admissible (.insertToken token)) :
    Stored (store.apply (.insertToken token)) token := by
  have isNew : store.token token.id = none := by
    apply List.find?_eq_none.mpr
    intro other isOther
    simpa using admissible.1 other isOther
  refine ⟨⟨token, none⟩, ?_, rfl⟩
  rw [AuthStore.token_insertToken admissible, isNew, if_pos rfl]
  rfl

/-- A revocation makes no room for a token, and takes none. -/
theorem admissible_revokeToken
    {token : NewToken}
    {id : UUID}
    {revokedAt : Nat}
    (admissible : store.Admissible (.insertToken token)) :
    (store.apply (.revokeToken id revokedAt)).Admissible (.insertToken token) := by
  have isRevoked : (store.apply (.revokeToken id revokedAt)).toAuthTables =
      store.toAuthTables.write (.revokeToken id revokedAt) := AuthStore.apply_toAuthTables trivial
  obtain ⟨idNew, hashNew, owned⟩ := admissible
  rw [isRevoked]
  refine ⟨?_, ?_, owned⟩
  · intro other isOther
    obtain ⟨old, isOld, rfl⟩ := List.mem_map.mp isOther
    rw [AuthTables.revokedToken_id]
    exact idNew old isOld
  · intro other isOther
    obtain ⟨old, isOld, rfl⟩ := List.mem_map.mp isOther
    rw [AuthTables.revokedToken_tokenHash]
    exact hashNew old isOld

end Rows

/-! ## Commits -/

/-- What the sessions commit: updates of rows, a token that a login issues, or a
rotation.  A rotation holds the lock of the user. -/
inductive TokenCommit (platform : Platform) (initial : AuthStore) (before : List (Event Key Write))
    (pid : ProcId) : List Write → Prop
  | updates {writes : List Write} :
      (∀ write ∈ writes, ∀ token, write ≠ .insertToken token) →
      TokenCommit platform initial before pid writes
  | issues {token : NewToken} :
      (replay (schema platform) initial before).Admissible (.insertToken token) →
      TokenCommit platform initial before pid [.insertToken token]
  | rotates {parent child : NewToken} {now : Nat} {opening : List (Event Key Write)} :
      Stored (replay (schema platform) initial before) parent →
      Active (replay (schema platform) initial before) parent.id →
      parent.userId = child.userId →
      (replay (schema platform) initial before).Admissible (.insertToken child) →
      HeldSince pid (.user child.userId) opening before →
      TokenCommit platform initial before pid [.revokeToken parent.id now, .insertToken child]

/-- The commits of the sessions. -/
def tokenCommits (platform : Platform) : CommitProperty AuthStore Key Write :=
  TokenCommit platform

/-- The session has replaced the parent by the child. -/
def Rotates (log before : List (Event Key Write)) (pid : ProcId) (parent : UUID)
    (child : NewToken) : Prop :=
  ∃ now after,
    log = before ++ .committed pid [.revokeToken parent now, .insertToken child] :: after

/-- The second token is a child of the first one. -/
def IsChild (log : List (Event Key Write)) (parent child : UUID) : Prop :=
  ∃ before pid token, Rotates log before pid parent token ∧ token.id = child

/-- The tokens that descend from a token. -/
abbrev Lineage (log : List (Event Key Write)) : UUID → UUID → Prop :=
  Relation.ReflTransGen (IsChild log)

section Rotations

variable
    {platform : Platform}
    {initial : AuthStore}
    {log before : List (Event Key Write)}
    {pid : ProcId}
    {parent : UUID}
    {child : NewToken}

/-- What a rotation has met. -/
theorem Rotates.met
    (satisfied : CommitsSatisfy (tokenCommits platform) initial log)
    (rotates : Rotates log before pid parent child) :
    ∃ token opening, token.id = parent ∧
      Stored (replay (schema platform) initial before) token ∧
      Active (replay (schema platform) initial before) parent ∧
      token.userId = child.userId ∧
      (replay (schema platform) initial before).Admissible (.insertToken child) ∧
      HeldSince pid (.user child.userId) opening before := by
  obtain ⟨now, after, rfl⟩ := rotates
  have isCommit := satisfied before pid _ after rfl
  generalize isWrites : [Write.revokeToken parent now, .insertToken child] = writes at isCommit
  cases isCommit with
  | updates notInserts =>
      exact absurd rfl (notInserts (.insertToken child) (by simp [← isWrites]) child)
  | issues _ => simp at isWrites
  | rotates isStored isActive sameUser admissible held =>
      simp only [List.cons.injEq, Write.revokeToken.injEq, Write.insertToken.injEq] at isWrites
      obtain ⟨⟨rfl, _⟩, rfl, _⟩ := isWrites
      exact ⟨_, _, rfl, isStored, isActive, sameUser, admissible, held⟩

theorem revoked_along
    {id : UUID}
    (isRevoked : Revoked (replay (schema platform) initial log) id)
    (log' : List (Event Key Write)) :
    Revoked (replay (schema platform) initial (log ++ log')) id :=
  @replay_kept _ _ _ _ _ (schema platform) (Revoked · id) (revoked_kept id) _ _ isRevoked log'

theorem stored_along
    {token : NewToken}
    (isStored : Stored (replay (schema platform) initial log) token)
    (log' : List (Event Key Write)) :
    Stored (replay (schema platform) initial (log ++ log')) token :=
  @replay_kept _ _ _ _ _ (schema platform) (Stored · token) (stored_kept token) _ _ isStored log'

/-- A rotation revokes the parent, for ever. -/
theorem revoked_after_rotation
    {token : NewToken}
    (isStored : Stored (replay (schema platform) initial before) token)
    (now : Nat)
    (after : List (Event Key Write)) :
    Revoked (replay (schema platform) initial
      (before ++ .committed pid [.revokeToken token.id now, .insertToken child] :: after))
      token.id := by
  rw [List.append_cons]
  apply revoked_along
  rw [replay_append]
  exact revoked_kept token.id _ _ (revoked_of_revoke isStored now)

/-- A rotation stores the child, for ever. -/
theorem stored_after_rotation
    (admissible : (replay (schema platform) initial before).Admissible (.insertToken child))
    (now : Nat)
    (after : List (Event Key Write)) :
    Stored (replay (schema platform) initial
      (before ++ .committed pid [.revokeToken parent now, .insertToken child] :: after))
      child := by
  rw [List.append_cons]
  apply stored_along
  rw [replay_append]
  exact stored_of_insert (admissible_revokeToken admissible)

/-- A token has at most one child. -/
theorem IsChild.unique
    (satisfied : CommitsSatisfy (tokenCommits platform) initial log)
    {child child' : UUID}
    (first : IsChild log parent child)
    (second : IsChild log parent child') :
    child = child' := by
  -- the later rotation would have met a revoked parent
  have once : ∀ {before before' : List (Event Key Write)} {pid pid' : ProcId}
      {token token' : NewToken} {now : Nat} {middle : List (Event Key Write)},
      Rotates log before pid parent token → Rotates log before' pid' parent token' →
      before' ≠ before ++ .committed pid [.revokeToken parent now, .insertToken token] ::
        middle := by
    rintro before _ pid pid' token token' now middle rotates rotates' rfl
    obtain ⟨met, _, rfl, isStored, _⟩ := rotates.met satisfied
    obtain ⟨_, _, _, _, isActive, _⟩ := rotates'.met satisfied
    exact (revoked_after_rotation isStored now middle).not_active isActive
  obtain ⟨before, pid, token, rotates, rfl⟩ := first
  obtain ⟨before', pid', token', rotates', rfl⟩ := second
  obtain ⟨now, after, isLog⟩ := id rotates
  obtain ⟨now', after', isLog'⟩ := id rotates'
  rcases split_cases (isLog.symm.trans isLog') with
    ⟨_, sameEvent⟩ | ⟨middle, isLater⟩ | ⟨middle, isLater⟩
  · simp only [Event.committed.injEq, List.cons.injEq, Write.insertToken.injEq] at sameEvent
    rw [sameEvent.2.2.1]
  · exact absurd isLater (once rotates rotates')
  · exact absurd isLater (once rotates' rotates)

/-- A token that has a child is revoked. -/
theorem IsChild.revoked
    (satisfied : CommitsSatisfy (tokenCommits platform) initial log)
    {child : UUID}
    (isChild : IsChild log parent child) :
    Revoked (replay (schema platform) initial log) parent := by
  obtain ⟨before, pid, token, rotates, rfl⟩ := isChild
  obtain ⟨_, _, rfl, isStored, _⟩ := rotates.met satisfied
  obtain ⟨now, after, rfl⟩ := rotates
  exact revoked_after_rotation isStored now after

/-- A lineage has at most one active token. -/
theorem active_unique
    (satisfied : CommitsSatisfy (tokenCommits platform) initial log)
    {root id id' : UUID}
    (descends : Lineage log root id)
    (descends' : Lineage log root id')
    (isActive : Active (replay (schema platform) initial log) id)
    (isActive' : Active (replay (schema platform) initial log) id') :
    id = id' := by
  have childless : ∀ {id id' : UUID}, Lineage log id id' →
      Active (replay (schema platform) initial log) id → id = id' := by
    intro id id' descends isActive
    cases descends using Relation.ReflTransGen.head_induction_on with
    | refl => rfl
    | head isChild _ => exact absurd isActive (isChild.revoked satisfied).not_active
  have rightUnique : Relator.RightUnique (IsChild log) :=
    fun _ _ _ first second => first.unique satisfied second
  rcases Relation.ReflTransGen.total_of_right_unique rightUnique descends descends' with
    isFirst | isSecond
  · exact childless isFirst isActive
  · exact (childless isSecond isActive').symm

/-! ## Revocations of all tokens of a user -/

/-- The history up to the commit of a transaction that has taken the lock of the
user. -/
abbrev upToCommit (pid : ProcId) (userId : UUID) (opening middle : List (Event Key Write))
    (writes : List Write) : List (Event Key Write) :=
  opening ++ .acquired pid (.user userId) :: (middle ++ [.committed pid writes])

/-- The transaction has locked the user after the opening, for the last time, and its commit
has revoked all tokens that the user had then. -/
structure Sweeps (platform : Platform) (initial : AuthStore) (pid : ProcId) (userId : UUID)
    (opening middle : List (Event Key Write)) (writes : List Write) : Prop where
  held : HeldSince pid (.user userId) opening (opening ++ .acquired pid (.user userId) :: middle)
  once : .acquired pid (.user userId) ∉ middle
  notInserts : ∀ write ∈ writes, ∀ token, write ≠ .insertToken token
  revokes : ∀ token, Stored (replay (schema platform) initial opening) token →
    token.userId = userId →
    Revoked (replay (schema platform) initial (upToCommit pid userId opening middle writes))
      token.id

/-- All that descends from the tokens of the opening was there in the
opening. -/
theorem Sweeps.stored
    {userId : UUID}
    {opening middle after : List (Event Key Write)}
    {writes : List Write}
    (sweeps : Sweeps platform initial pid userId opening middle writes)
    (satisfied : CommitsSatisfy (tokenCommits platform) initial
      (upToCommit pid userId opening middle writes ++ after))
    {root : NewToken}
    (isStored : Stored (replay (schema platform) initial opening) root)
    (isOwner : root.userId = userId)
    {id : UUID}
    (descends : Lineage (upToCommit pid userId opening middle writes ++ after) root.id id) :
    ∃ token, token.id = id ∧ Stored (replay (schema platform) initial opening) token ∧
      token.userId = userId := by
  induction descends with
  | refl => exact ⟨root, rfl, isStored, isOwner⟩
  | @tail parent _ _ isChild inductionHypothesis =>
      obtain ⟨token, rfl, isStored, isOwner⟩ := inductionHypothesis
      obtain ⟨before, other, child, rotates, rfl⟩ := isChild
      obtain ⟨met, opening', sameId, isMet, isActive, sameUser, admissible, held⟩ :=
        rotates.met satisfied
      obtain ⟨now, rest, isLog⟩ := rotates
      have isSplit : opening ++ .acquired pid (.user userId) ::
            (middle ++ .committed pid writes :: after) =
          before ++ .committed other [.revokeToken token.id now, .insertToken child] ::
            rest := by
        rw [← isLog]
        simp [upToCommit]
      rcases split_cases isSplit with ⟨_, sameEvent⟩ | ⟨between, rfl⟩ | ⟨between, rfl⟩
      · contradiction
      · have sameToken : met = token := by
          apply isMet.unique _ sameId
          exact stored_along isStored _
        rw [sameToken, isOwner] at sameUser
        rw [List.append_assoc, List.cons_append] at isSplit
        have isInner := (List.cons.inj (List.append_cancel_left isSplit)).2
        rcases split_cases isInner with ⟨_, sameEvent⟩ | ⟨later, rfl⟩ | ⟨later, rfl⟩
        · obtain ⟨_, rfl⟩ := Event.committed.inj sameEvent
          exact absurd rfl (sweeps.notInserts (.insertToken child) (by simp) child)
        · -- the rotation is after the sweep: its parent is revoked
          have isRevoked := revoked_along (sweeps.revokes token isStored isOwner) later
          have isBefore : upToCommit pid userId opening middle writes ++ later =
              opening ++ .acquired pid (.user userId) ::
                (middle ++ .committed pid writes :: later) := by
            simp [upToCommit]
          rw [isBefore] at isRevoked
          exact absurd isActive isRevoked.not_active
        · -- the rotation is in between: both transactions hold the lock of the user
          rw [← sameUser] at held
          exact (sweeps.held.exclusive held).elim
      · refine ⟨child, rfl, stored_after_rotation admissible now between, ?_⟩
        have sameToken : met = token := (stored_along isMet _).unique isStored sameId
        rw [← sameUser, sameToken, isOwner]

/-- After the sweep, no lineage of the opening has an active token. -/
theorem Sweeps.not_active
    {userId : UUID}
    {opening middle after : List (Event Key Write)}
    {writes : List Write}
    (sweeps : Sweeps platform initial pid userId opening middle writes)
    (satisfied : CommitsSatisfy (tokenCommits platform) initial
      (upToCommit pid userId opening middle writes ++ after))
    {root : NewToken}
    (isStored : Stored (replay (schema platform) initial opening) root)
    (isOwner : root.userId = userId)
    {id : UUID}
    (descends : Lineage (upToCommit pid userId opening middle writes ++ after) root.id id) :
    ¬Active (replay (schema platform) initial
      (upToCommit pid userId opening middle writes ++ after)) id := by
  obtain ⟨token, rfl, isStored', isOwner'⟩ :=
    sweeps.stored satisfied isStored isOwner descends
  exact (revoked_along (sweeps.revokes token isStored' isOwner') after).not_active

end Rotations

end Auth
end SigmaForge
