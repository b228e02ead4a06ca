import Mathlib.Algebra.Order.Monoid.Unbundled.Basic
import Mathlib.Data.List.Pairwise

/-!
# Limited attempts

An automaton counts the wrong guesses.  At the limit it is locked for a fixed duration,
and every guess is refused until then.
-/

namespace SigmaForge

/-- How many wrong guesses lock, and for how long. -/
structure AttemptLimit (Time : Type) where
  limit : Nat
  duration : Time
  limit_pos : 0 < limit

namespace AttemptLimit

/-- A guess: when the lock is checked, when the guess is compared, and what the clock says
once it has been judged. -/
structure Guess (Time : Type) where
  checkedAt : Time
  comparedAt : Time
  judgedAt : Time
  isRight : Bool

/-- What becomes of a guess. -/
inductive Verdict
  | refused
  | wrong
  | right
  deriving DecidableEq

/-- The states of the automaton. -/
inductive State {Time : Type} (policy : AttemptLimit Time)
  /-- So many guesses have been wrong. -/
  | counting (wrong : Nat) (below : wrong < policy.limit)
  | locked (deadline : Time)

section Automaton

variable
    {Time : Type}
    [Add Time]
    [LinearOrder Time]
    {policy : AttemptLimit Time}

/-- No guess has been wrong. -/
def State.fresh : State policy := .counting 0 policy.limit_pos

/-- A lock is gone at its deadline. -/
def State.expire (time : Time) : State policy → State policy
  | .counting wrong below => .counting wrong below
  | .locked deadline => if deadline ≤ time then .fresh else .locked deadline

/-- One more wrong guess. -/
def State.countWrong (wrong : Nat) (below : wrong < policy.limit) (judgedAt : Time) :
    State policy :=
  if isLast : wrong + 1 = policy.limit then .locked (judgedAt + policy.duration)
  else .counting (wrong + 1) (Nat.lt_of_le_of_ne below isLast)

/-- A step of the automaton. -/
def State.guess (state : State policy) (guess : Guess Time) : Verdict × State policy :=
  match state.expire guess.checkedAt with
  | .locked deadline => (.refused, .locked deadline)
  | .counting wrong below =>
      if guess.isRight then (.right, .fresh)
      else (.wrong, .countWrong wrong below guess.judgedAt)

omit [Add Time] in
/-- A lock that has not expired. -/
theorem State.expire_eq_locked
    {state : State policy}
    {time deadline : Time}
    (isLocked : state.expire time = .locked deadline) :
    state = .locked deadline ∧ time < deadline := by
  cases state with
  | counting wrong below => exact absurd isLocked (by simp [State.expire])
  | locked deadline' =>
      simp only [State.expire] at isLocked
      split_ifs at isLocked with isOver
      · exact absurd isLocked (by simp [State.fresh])
      · obtain rfl := State.locked.inj isLocked
        exact ⟨rfl, not_le.mp isOver⟩

theorem State.guess_of_locked
    {state : State policy}
    {guess : Guess Time}
    {deadline : Time}
    (isLocked : state.expire guess.checkedAt = .locked deadline) :
    state.guess guess = (.refused, .locked deadline) := by
  rw [State.guess, isLocked]

theorem State.guess_of_wrong
    {state : State policy}
    {guess : Guess Time}
    {wrong : Nat}
    {below : wrong < policy.limit}
    (isOpen : state.expire guess.checkedAt = .counting wrong below)
    (isWrong : guess.isRight = false) :
    state.guess guess = (.wrong, .countWrong wrong below guess.judgedAt) := by
  simp only [State.guess, isOpen, isWrong, Bool.false_eq_true, if_false]

theorem State.guess_of_right
    {state : State policy}
    {guess : Guess Time}
    {wrong : Nat}
    {below : wrong < policy.limit}
    (isOpen : state.expire guess.checkedAt = .counting wrong below)
    (isRight : guess.isRight = true) :
    state.guess guess = (.right, .fresh) := by
  simp only [State.guess, isOpen, isRight, if_true]

/-- The verdicts on guesses, one after the other. -/
def State.play : State policy → List (Guess Time) → List (Guess Time × Verdict)
  | _, [] => []
  | state, guess :: guesses =>
      (guess, (state.guess guess).1) :: (state.guess guess).2.play guesses

/-- The times of a guess are in order. -/
structure Guess.InOrder (guess : Guess Time) : Prop where
  compared : guess.checkedAt ≤ guess.comparedAt
  judged : guess.comparedAt ≤ guess.judgedAt

/-- The guess is compared in the interval that starts at the given time and lasts as long
as a lock. -/
def Within (policy : AttemptLimit Time) (start : Time) (guess : Guess Time) : Prop :=
  start ≤ guess.comparedAt ∧ guess.comparedAt < start + policy.duration

instance (start : Time) (guess : Guess Time) : Decidable (policy.Within start guess) :=
  inferInstanceAs (Decidable (_ ∧ _))

/-- The wrong guesses in the interval. -/
def wrongsWithin (policy : AttemptLimit Time) (start : Time)
    (verdicts : List (Guess Time × Verdict)) : Nat :=
  verdicts.countP fun (guess, verdict) => verdict = .wrong ∧ policy.Within start guess

@[simp] theorem wrongsWithin_nil (start : Time) : policy.wrongsWithin start [] = 0 := rfl

theorem wrongsWithin_cons
    (start : Time)
    (guess : Guess Time)
    (verdict : Verdict)
    (verdicts : List (Guess Time × Verdict)) :
    policy.wrongsWithin start ((guess, verdict) :: verdicts) =
      policy.wrongsWithin start verdicts +
        if verdict = .wrong ∧ policy.Within start guess then 1 else 0 := by
  simp only [wrongsWithin, List.countP_cons, decide_eq_true_eq]

/-! ## The guesses of an interval -/

/-- Guesses that are compared after the interval do not count. -/
theorem wrongsWithin_of_late
    {start : Time}
    {guesses : List (Guess Time)}
    (areLate : ∀ guess ∈ guesses, start + policy.duration ≤ guess.comparedAt)
    (state : State policy) :
    policy.wrongsWithin start (state.play guesses) = 0 := by
  induction guesses generalizing state with
  | nil => rfl
  | cons guess guesses inductionHypothesis =>
      have notWithin : ¬policy.Within start guess :=
        fun within => within.2.not_ge (areLate guess List.mem_cons_self)
      rw [State.play, wrongsWithin_cons, if_neg fun both => notWithin both.2,
        inductionHypothesis fun other isOther => areLate other (List.mem_cons_of_mem _ isOther)]

/-- How many wrong guesses an interval may still have that has begun. -/
def State.budget (start : Time) : State policy → Nat
  | .counting wrong _ => policy.limit - wrong
  | .locked deadline => if start + policy.duration ≤ deadline then 0 else policy.limit

theorem State.budget_le (start : Time) (state : State policy) :
    state.budget start ≤ policy.limit := by
  cases state with
  | counting wrong below => exact Nat.sub_le _ _
  | locked deadline =>
      simp only [State.budget]
      split_ifs
      · exact Nat.zero_le _
      · exact Nat.le_refl _

/-- A lock that ends within the interval was not taken in it. -/
theorem State.budget_expire
    {start time : Time}
    (isEarly : time < start + policy.duration)
    (state : State policy) :
    (state.expire time).budget start ≤ state.budget start := by
  cases state with
  | counting wrong below => exact Nat.le_refl _
  | locked deadline =>
      simp only [State.expire]
      split_ifs with isOver
      · have endsEarly : ¬start + policy.duration ≤ deadline :=
          fun isLong => (isLong.trans isOver).not_gt isEarly
        rw [State.budget.eq_2, if_neg endsEarly]
        exact State.budget_le start _
      · exact Nat.le_refl _

variable [AddRightMono Time]

/-- A wrong guess in the interval uses up one of its guesses. -/
theorem State.budget_countWrong
    {start judgedAt : Time}
    {wrong : Nat}
    (below : wrong < policy.limit)
    (isLater : start ≤ judgedAt) :
    (State.countWrong wrong below judgedAt).budget start + 1 ≤ policy.limit - wrong := by
  unfold State.countWrong
  split_ifs with isLast
  · have isLong : start + policy.duration ≤ judgedAt + policy.duration :=
      add_le_add_left isLater _
    simp only [State.budget, if_pos isLong]
    omega
  · simp only [State.budget]
    omega

/-- The interval has begun before the first guess. -/
theorem State.wrongsWithin_le_budget
    {start : Time}
    {guesses : List (Guess Time)}
    (inOrder : ∀ guess ∈ guesses, guess.InOrder)
    (oneByOne : guesses.Pairwise fun earlier later => earlier.judgedAt ≤ later.checkedAt)
    (haveBegun : ∀ guess ∈ guesses, start ≤ guess.comparedAt)
    {state : State policy}
    (noneRight : ∀ played ∈ state.play guesses, played.2 = .right →
      ¬policy.Within start played.1) :
    policy.wrongsWithin start (state.play guesses) ≤ state.budget start := by
  induction guesses generalizing state with
  | nil => exact Nat.zero_le _
  | cons guess guesses inductionHypothesis =>
      obtain ⟨isEarlier, oneByOne⟩ := List.pairwise_cons.mp oneByOne
      have hasOrder := inOrder guess List.mem_cons_self
      by_cases isEarly : guess.comparedAt < start + policy.duration
      · have within : policy.Within start guess :=
          ⟨haveBegun guess List.mem_cons_self, isEarly⟩
        have isBounded := inductionHypothesis
          (fun other isOther => inOrder other (List.mem_cons_of_mem _ isOther)) oneByOne
          (fun other isOther => haveBegun other (List.mem_cons_of_mem _ isOther))
          (fun played isPlayed => noneRight played (List.mem_cons_of_mem _ isPlayed))
        have isSmaller := state.budget_expire (hasOrder.compared.trans_lt isEarly)
        have notRight : (state.guess guess).1 ≠ .right :=
          fun isRight => noneRight _ List.mem_cons_self isRight within
        rw [State.play, wrongsWithin_cons]
        revert isBounded notRight
        unfold State.guess
        cases isState : state.expire guess.checkedAt with
        | locked deadline =>
            intro isBounded _
            rw [isState] at isSmaller
            rw [if_neg (by simp)]
            exact isBounded.trans isSmaller
        | counting wrong below =>
            intro isBounded notRight
            rw [isState] at isSmaller
            by_cases isRight : guess.isRight = true
            · simp [isRight] at notRight
            · simp only [if_neg isRight] at isBounded ⊢
              have isSpent := State.budget_countWrong below
                ((haveBegun guess List.mem_cons_self).trans hasOrder.judged)
              rw [if_pos ⟨trivial, within⟩]
              exact (Nat.add_le_add_right isBounded 1).trans (isSpent.trans isSmaller)
      · have areLate : ∀ other ∈ guess :: guesses,
            start + policy.duration ≤ other.comparedAt := by
          intro other isOther
          rcases List.mem_cons.mp isOther with rfl | isLater
          · exact not_lt.mp isEarly
          · exact (not_lt.mp isEarly).trans ((hasOrder.judged.trans
              (isEarlier other isLater)).trans (inOrder other isOther).compared)
        rw [wrongsWithin_of_late areLate]
        exact Nat.zero_le _

/-- In an interval as long as a lock, at most so many guesses are wrong as lock, unless one
of them is right. -/
theorem State.wrongsWithin_le
    {start : Time}
    {guesses : List (Guess Time)}
    (inOrder : ∀ guess ∈ guesses, guess.InOrder)
    (oneByOne : guesses.Pairwise fun earlier later => earlier.judgedAt ≤ later.checkedAt)
    {state : State policy}
    (noneRight : ∀ played ∈ state.play guesses, played.2 = .right →
      ¬policy.Within start played.1) :
    policy.wrongsWithin start (state.play guesses) ≤ policy.limit := by
  induction guesses generalizing state with
  | nil => exact Nat.zero_le _
  | cons guess guesses inductionHypothesis =>
      by_cases hasBegun : start ≤ guess.comparedAt
      · apply (State.wrongsWithin_le_budget inOrder oneByOne ?_ noneRight).trans
          (state.budget_le start)
        intro other isOther
        obtain ⟨isEarlier, _⟩ := List.pairwise_cons.mp oneByOne
        rcases List.mem_cons.mp isOther with rfl | isLater
        · exact hasBegun
        · exact hasBegun.trans (((inOrder guess List.mem_cons_self).judged.trans
            (isEarlier other isLater)).trans (inOrder other isOther).compared)
      · rw [State.play, wrongsWithin_cons, if_neg fun both => hasBegun both.2.1]
        exact inductionHypothesis
          (fun other isOther => inOrder other (List.mem_cons_of_mem _ isOther))
          (List.pairwise_cons.mp oneByOne).2
          (fun played isPlayed => noneRight played (List.mem_cons_of_mem _ isPlayed))

/-! ## What is seen of the guesses -/

/-- What is seen of one guess. -/
def Guess.outcome (guess : Guess Time) : Verdict → List (Time × Bool)
  | .refused => []
  | .wrong => [(guess.comparedAt, false)]
  | .right => [(guess.comparedAt, true)]

/-- The comparisons that are made, and their outcomes. -/
def outcomes (verdicts : List (Guess Time × Verdict)) : List (Time × Bool) :=
  verdicts.flatMap fun (guess, verdict) => guess.outcome verdict

omit [Add Time] [LinearOrder Time] [AddRightMono Time] in
theorem outcomes_cons
    (guess : Guess Time)
    (verdict : Verdict)
    (verdicts : List (Guess Time × Verdict)) :
    outcomes ((guess, verdict) :: verdicts) = guess.outcome verdict ++ outcomes verdicts := rfl

omit [Add Time] [LinearOrder Time] [AddRightMono Time] in
theorem mem_outcomes_right
    {verdicts : List (Guess Time × Verdict)}
    {played : Guess Time × Verdict}
    (isPlayed : played ∈ verdicts)
    (isRight : played.2 = .right) :
    (played.1.comparedAt, true) ∈ outcomes verdicts := by
  obtain ⟨guess, verdict⟩ := played
  obtain rfl : verdict = .right := isRight
  exact List.mem_flatMap.mpr ⟨_, isPlayed, List.mem_singleton.mpr rfl⟩

omit [AddRightMono Time] in
/-- The wrong guesses are the wrong outcomes. -/
theorem countP_outcomes (start : Time) (verdicts : List (Guess Time × Verdict)) :
    (outcomes verdicts).countP (fun (time, isRight) =>
        isRight = false ∧ start ≤ time ∧ time < start + policy.duration) =
      policy.wrongsWithin start verdicts := by
  induction verdicts with
  | nil => rfl
  | cons played verdicts inductionHypothesis =>
      obtain ⟨guess, verdict⟩ := played
      rw [wrongsWithin_cons, ← inductionHypothesis, outcomes_cons, List.countP_append, Nat.add_comm]
      cases verdict with
      | refused => simp [Guess.outcome]
      | wrong => simp [Guess.outcome, List.countP_cons, Within]
      | right => simp [Guess.outcome]

/-- The bound, for what is seen. -/
theorem State.countP_outcomes_le
    {start : Time}
    {guesses : List (Guess Time)}
    (inOrder : ∀ guess ∈ guesses, guess.InOrder)
    (oneByOne : guesses.Pairwise fun earlier later => earlier.judgedAt ≤ later.checkedAt)
    {state : State policy}
    (noneRight : ∀ time, (time, true) ∈ outcomes (state.play guesses) →
      ¬(start ≤ time ∧ time < start + policy.duration)) :
    (outcomes (state.play guesses)).countP (fun (time, isRight) =>
      isRight = false ∧ start ≤ time ∧ time < start + policy.duration) ≤ policy.limit := by
  rw [countP_outcomes]
  exact State.wrongsWithin_le inOrder oneByOne
    fun played isPlayed isRight => noneRight _ (mem_outcomes_right isPlayed isRight)

end Automaton

end AttemptLimit

end SigmaForge
