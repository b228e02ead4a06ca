import SigmaForge.Foundation.Simulation
import SigmaForge.Auth.Effects
import SigmaForge.Auth.Knowledge
import Mathlib.Data.List.Find

/-!
# The repositories in memory

The fakes of the test suite implement the protocols of the repositories over dictionaries.
Whatever the service does over them, one request after the other, it does over SQLAlchemy.
-/

namespace SigmaForge
namespace Auth

open Text ReadCommitted Simulation

/-! ## The fakes -/

/-- The dictionaries of `FakeUserRepository` and `FakeRefreshTokenRepository`: their values,
each under its own id, in the order of insertion. -/
structure Fakes where
  users : List User
  tokens : List RefreshToken

namespace Fakes

/-- `self.users.get(user_id)`. -/
def user (fakes : Fakes) (userId : UUID) : Option User :=
  fakes.users.find? fun user => user.id = userId

/-- `self.tokens.get(token_id)`. -/
def token (fakes : Fakes) (tokenId : UUID) : Option RefreshToken :=
  fakes.tokens.find? fun token => token.id = tokenId

/-- `token.revoked_at = …` for the tokens that the condition selects. -/
def revokeTokens (fakes : Fakes) (condition : RefreshToken → Bool) (revokedAt : UUID → Nat) :
    Fakes :=
  { fakes with tokens := fakes.tokens.map fun token =>
      if condition token then { token with revokedAt := some (revokedAt token.id) } else token }

/-- `self.tokens[token.id] = token`. -/
def putToken (fakes : Fakes) (token : RefreshToken) : Fakes :=
  if (fakes.token token.id).isSome then
    { fakes with tokens := fakes.tokens.map fun other =>
        if other.id = token.id then token else other }
  else { fakes with tokens := fakes.tokens ++ [token] }

end Fakes

/-- A row and the object that stands for it: only the moment of the revocation may differ. -/
structure SameToken (stored kept : RefreshToken) : Prop where
  same : kept.toNewToken = stored.toNewToken
  revoked : kept.revokedAt = none ↔ stored.revokedAt = none

/-- The fakes hold what the tables hold. -/
structure Mirrors (store : AuthStore) (fakes : Fakes) : Prop where
  users : fakes.users = store.users
  tokens : List.Forall₂ SameToken store.tokens fakes.tokens

/-- The draws of two requests have no key in common. -/
def Apart (platform : Platform) (call call' : AuthCall) : Prop :=
  ∀ draw draw', call.draw = some draw → call'.draw = some draw' → draw.tokenId ≠ draw'.tokenId ∧
    hashRefreshToken platform draw.rawToken ≠ hashRefreshToken platform draw'.rawToken

/-- The fakes mirror the tables, and the requests to come draw what is new and compare emails
in a way in which `CITEXT` and `str.lower` agree. -/
structure Ready (platform : Platform) (lower : Str → Str) (counted : User → Prop)
    (calls : List AuthCall) (store : AuthStore) (fakes : Fakes) : Prop where
  mirrors : Mirrors store fakes
  counts : ∀ user ∈ store.users, counted user
  emails : ∀ request draw, AuthCall.login request draw ∈ calls → ∀ user ∈ store.users,
    (platform.citext user.email = platform.citext request.email ↔
      lower user.email = lower request.email)
  isNew : ∀ call ∈ calls, ∀ draw, call.draw = some draw → draw.IsNew platform store
  apart : calls.Pairwise (Apart platform)

namespace Mirrors

variable
    {store : AuthStore}
    {fakes : Fakes}

theorem user (mirrors : Mirrors store fakes) (userId : UUID) :
    fakes.user userId = store.user userId := by
  rw [Fakes.user, mirrors.users]
  rfl

/-- What is found by a key is found on both sides. -/
theorem find
    (mirrors : Mirrors store fakes)
    (key : NewToken → Bool) :
    Option.Rel SameToken (store.tokens.find? fun token => key token.toNewToken)
      (fakes.tokens.find? fun token => key token.toNewToken) := by
  have isMirrored := mirrors.tokens
  generalize store.tokens = stored at isMirrored ⊢
  generalize fakes.tokens = kept at isMirrored ⊢
  induction isMirrored with
  | nil => exact .none
  | @cons row object rows objects same _ inductionHypothesis =>
      rw [List.find?_cons, List.find?_cons, same.same]
      cases key row.toNewToken with
      | true => exact .some same
      | false => exact inductionHypothesis

theorem token (mirrors : Mirrors store fakes) (tokenId : UUID) :
    Option.Rel SameToken (store.token tokenId) (fakes.token tokenId) :=
  mirrors.find fun token => token.id = tokenId

end Mirrors

namespace Ready

variable
    {settings : Settings}
    {platform : Platform}
    {lower : Str → Str}
    {counted counted' : User → Prop}
    {calls : List AuthCall}
    {store store' : AuthStore}
    {fakes : Fakes}

/-- The requests after the first. -/
theorem tail
    {call : AuthCall}
    (ready : Ready platform lower counted (call :: calls) store fakes) :
    Ready platform lower counted calls store fakes where
  mirrors := ready.mirrors
  counts := ready.counts
  emails request draw isCall := ready.emails request draw (List.mem_cons_of_mem _ isCall)
  isNew other isCall := ready.isNew other (List.mem_cons_of_mem _ isCall)
  apart := ready.apart.of_cons

/-- After a change of the login columns. -/
theorem updated
    (ready : Ready platform lower counted calls store fakes)
    {change : User → User}
    (sameEmail : ∀ user, (change user).email = user.email)
    (counts : ∀ user ∈ store.users, counted' (change user))
    (isUsers : store'.users = store.users.map change)
    (isTokens : store'.tokens = store.tokens) :
    Ready platform lower counted' calls store' { fakes with users := fakes.users.map change } where
  mirrors := ⟨by rw [isUsers, ready.mirrors.users], isTokens ▸ ready.mirrors.tokens⟩
  counts := by
    rw [isUsers]
    intro user isUser
    cases List.mem_map.mp isUser with
    | intro row found => exact found.2 ▸ counts row found.1
  emails request draw isCall := by
    rw [isUsers]
    intro user isUser
    cases List.mem_map.mp isUser with
    | intro row found =>
        rw [← found.2, sameEmail]
        exact ready.emails request draw isCall row found.1
  isNew call isCall draw isDraw := (isNew_congr isTokens).mpr (ready.isNew call isCall draw isDraw)
  apart := ready.apart

/-- After revocations. -/
theorem revoked
    (ready : Ready platform lower counted calls store fakes)
    (change : RefreshToken → RefreshToken)
    {condition : RefreshToken → Bool}
    {revokedAt : UUID → Nat}
    (sameToken : ∀ token, (change token).toNewToken = token.toNewToken)
    (same : ∀ stored kept, SameToken stored kept → SameToken (change stored)
      (if condition kept then { kept with revokedAt := some (revokedAt kept.id) } else kept))
    (isUsers : store'.users = store.users)
    (isTokens : store'.tokens = store.tokens.map change) :
    Ready platform lower counted calls store' (fakes.revokeTokens condition revokedAt) where
  mirrors := by
    refine ⟨isUsers ▸ ready.mirrors.users, ?_⟩
    rw [isTokens]
    exact List.rel_map (fun stored kept isSame => same stored kept isSame) ready.mirrors.tokens
  counts := isUsers ▸ ready.counts
  emails := isUsers ▸ ready.emails
  isNew call isCall draw isDraw := by
    have wasNew := ready.isNew call isCall draw isDraw
    rw [Draw.IsNew, isTokens]
    constructor
    · intro token isToken
      cases List.mem_map.mp isToken with
      | intro row found =>
          rw [← found.2, sameToken]
          exact wasNew.1 row found.1
    · intro token isToken
      cases List.mem_map.mp isToken with
      | intro row found =>
          rw [← found.2, sameToken]
          exact wasNew.2 row found.1
  apart := ready.apart

/-- After the token of the first request has been stored. -/
theorem stored
    {call : AuthCall}
    {draw : Draw}
    {userId : UUID}
    {now : Nat}
    (ready : Ready platform lower counted (call :: calls) store fakes)
    (isDraw : call.draw = some draw)
    (isUsers : store'.users = store.users)
    (isTokens : store'.tokens =
      store.tokens ++ [⟨newToken settings platform userId draw now, none⟩]) :
    Ready platform lower counted calls store'
      (fakes.putToken ⟨newToken settings platform userId draw now, none⟩) where
  mirrors := by
    have isAbsent : (fakes.token draw.tokenId).isSome = false := by
      have wasNew := (ready.isNew call List.mem_cons_self draw isDraw).1
      have isMirrored := ready.mirrors.token draw.tokenId
      have notStored : store.token draw.tokenId = none := by
        rw [AuthStore.token, List.find?_eq_none]
        exact fun token isToken => by simpa using wasNew token isToken
      rw [notStored] at isMirrored
      generalize fakes.token draw.tokenId = found at isMirrored ⊢
      cases isMirrored
      rfl
    have isPut : fakes.putToken ⟨newToken settings platform userId draw now, none⟩ =
        { fakes with tokens := fakes.tokens ++
            [⟨newToken settings platform userId draw now, none⟩] } :=
      if_neg fun isSome => Bool.false_ne_true (isAbsent.symm.trans isSome)
    rw [isPut]
    refine ⟨isUsers ▸ ready.mirrors.users, ?_⟩
    rw [isTokens]
    exact List.rel_append ready.mirrors.tokens (.cons ⟨rfl, Iff.rfl⟩ .nil)
  counts := isUsers ▸ ready.counts
  emails request other isCall := isUsers ▸ ready.tail.emails request other isCall
  isNew other isCall draw' isDraw' := by
    have isApart := List.rel_of_pairwise_cons ready.apart isCall draw draw' isDraw isDraw'
    have wasNew := ready.tail.isNew other isCall draw' isDraw'
    rw [Draw.IsNew, isTokens]
    constructor
    · intro token isToken
      rcases List.mem_append.mp isToken with isOld | isLast
      · exact wasNew.1 token isOld
      · rw [List.mem_singleton.mp isLast]
        exact isApart.1
    · intro token isToken
      rcases List.mem_append.mp isToken with isOld | isLast
      · exact wasNew.2 token isOld
      · rw [List.mem_singleton.mp isLast]
        exact isApart.2
  apart := ready.apart.of_cons

end Ready

/-! ## The calls, side by side -/

section Service

variable
    {settings : Settings}
    {platform : Platform}
    {lower : Str → Str}
    {revocation : Nat → UUID → Nat}
    {times : Nat → Nat}
    {call : AuthCall}
    {calls : List AuthCall}
    {counted counted' : User → Prop}
    {raised : AuthStore → Fakes → Prop}

/-- Requests that are served one after the other, on repositories with the given answers. -/
abbrev served {σ : Type} (settings : Settings) (platform : Platform)
    (effect : (op : AuthOp) → Nat → σ → Except AuthError (AuthAnswer op) × σ) (times : Nat → Nat)
    (calls : List AuthCall) (state : σ) :
    List (Except AuthError AuthResponse) × Timeline AuthOp σ :=
  runAll effect times (calls.map fun call => call.program settings platform) ⟨state, []⟩

end Service

/-- The account alone, in memory. -/
def Fakes.sample : Fakes := ⟨[.sample 1], []⟩

end Auth
end SigmaForge
