import Mathlib.Data.List.Basic

/-!
# Noninterference of users

Users issue requests one after the other to a system that they share.  If the
requests of one user lead from indistinguishable states to the same results and
to indistinguishable states, and the requests of the others cannot be
distinguished from nothing, then deleting the latter changes no result.
-/

namespace SigmaForge
namespace Noninterference

variable
    {User Request Result State : Type}
    (run : User → Request → State → Result × State)

/-- The state after some requests. -/
def after : List (User × Request) → State → State
  | [], state => state
  | (user, request) :: requests, state => after requests (run user request state).2

variable [DecidableEq User]

/-- The results of a user's own requests. -/
def results (user : User) : List (User × Request) → State → List Result
  | [], _ => []
  | (other, request) :: requests, state =>
      let (result, state') := run other request state
      if other = user then result :: results user requests state'
      else results user requests state'

/-- The requests without those of the other users. -/
def purge (user : User) (requests : List (User × Request)) : List (User × Request) :=
  requests.filter fun request => request.1 = user

omit [DecidableEq User] in
/-- Every request is permitted in the state in which it is served. -/
def Permitted (permits : State → Request → Prop) : List (User × Request) → State → Prop
  | [], _ => True
  | (user, request) :: requests, state =>
      permits state request ∧ Permitted permits requests (run user request state).2

/-- The conditions on single requests. -/
structure Unwinding (permits : State → Request → Prop) (user : User)
    (indistinguishable : State → State → Prop) : Prop where
  permitted : ∀ {state state' request}, indistinguishable state state' →
    permits state request → permits state' request
  own : ∀ {state state' request}, indistinguishable state state' →
    permits state request → permits state' request →
    (run user request state).1 = (run user request state').1 ∧
      indistinguishable (run user request state).2 (run user request state').2
  other : ∀ {state state' request other}, indistinguishable state state' → other ≠ user →
    permits state request → indistinguishable (run other request state).2 state'

variable
    {run : User → Request → State → Result × State}
    {permits : State → Request → Prop}
    {user : User}
    {indistinguishable : State → State → Prop}

/-- Deleting the requests of the other users changes no result, and the state
remains indistinguishable. -/
theorem Unwinding.purge
    (unwinding : Unwinding run permits user indistinguishable)
    {requests : List (User × Request)}
    {state state' : State}
    (related : indistinguishable state state')
    (permitted : Permitted run permits requests state) :
    results run user requests state =
        results run user (Noninterference.purge user requests) state' ∧
      indistinguishable (after run requests state)
        (after run (Noninterference.purge user requests) state') := by
  induction requests generalizing state state' with
  | nil => exact ⟨rfl, related⟩
  | cons head requests inductionHypothesis =>
      obtain ⟨other, request⟩ := head
      obtain ⟨isPermitted, permitted⟩ := permitted
      by_cases isOwn : other = user
      · subst isOwn
        have isKept : Noninterference.purge other ((other, request) :: requests) =
            (other, request) :: Noninterference.purge other requests :=
          List.filter_cons_of_pos (by simp)
        obtain ⟨sameResult, related'⟩ :=
          unwinding.own related isPermitted (unwinding.permitted related isPermitted)
        obtain ⟨sameResults, related'⟩ := inductionHypothesis related' permitted
        rw [isKept]
        refine ⟨?_, related'⟩
        simp only [results, if_true, sameResult, sameResults]
      · have isDeleted : Noninterference.purge user ((other, request) :: requests) =
            Noninterference.purge user requests :=
          List.filter_cons_of_neg (by simpa using isOwn)
        obtain ⟨sameResults, related'⟩ :=
          inductionHypothesis (unwinding.other related isOwn isPermitted) permitted
        rw [isDeleted]
        refine ⟨?_, related'⟩
        simp only [results, if_neg isOwn, sameResults]

end Noninterference
end SigmaForge
