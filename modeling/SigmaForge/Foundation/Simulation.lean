import SigmaForge.Foundation.Timeline

/-!
# Two implementations side by side

Rules for a program over one implementation of its operations and a program over another.
Both read the same clock.  The programs may differ, as what they go on with may be related
answers only.
-/

namespace SigmaForge
namespace Simulation

section Rules

variable
    {ε Op σ τ α β α' β' : Type}
    {Answer : Op → Type}
    (left : (op : Op) → Nat → σ → Except ε (Answer op) × σ)
    (right : (op : Op) → Nat → τ → Except ε (Answer op) × τ)
    (clock : Nat → Nat)

/-- Both have returned, or both have raised the same error. -/
inductive Matches (returned : α → α' → σ → τ → Prop) (raised : σ → τ → Prop) :
    Except ε α → σ → Except ε α' → τ → Prop
  | ok {value : α} {value' : α'} {state : σ} {state' : τ} :
      returned value value' state state' →
      Matches returned raised (.ok value) state (.ok value') state'
  | error {error : ε} {state : σ} {state' : τ} :
      raised state state' → Matches returned raised (.error error) state (.error error) state'

/-- Two answers to one operation, at the same time. -/
def Answers (before : σ → τ → Prop) (op : Op)
    (returned : Answer op → Answer op → σ → τ → Prop) (raised : σ → τ → Prop) : Prop :=
  ∀ time state state', before state state' →
    Matches returned raised (left op time state).1 (left op time state).2
      (right op time state').1 (right op time state').2

/-- From related states the two programs end at the same reading of the clock, with results
that match. -/
def Simulates (before : σ → τ → Prop) (program : Program ε Answer α)
    (program' : Program ε Answer α') (returned : α → α' → σ → τ → Prop) (raised : σ → τ → Prop) :
    Prop :=
  ∀ (line : Timeline Op σ) (line' : Timeline Op τ),
    line.performed.length = line'.performed.length → before line.state line'.state →
    let outcome := Timeline.run left clock program line
    let outcome' := Timeline.run right clock program' line'
    outcome.2.performed.length = outcome'.2.performed.length ∧
      Matches returned raised outcome.1 outcome.2.state outcome'.1 outcome'.2.state

variable
    {left}
    {right}
    {clock}
    {before before' : σ → τ → Prop}
    {raised raised' : σ → τ → Prop}

theorem Matches.mono
    {returned returned' : α → α' → σ → τ → Prop}
    {result : Except ε α}
    {result' : Except ε α'}
    {state : σ}
    {state' : τ}
    (isMatch : Matches returned raised result state result' state')
    (ok : ∀ value value' state state', returned value value' state state' →
      returned' value value' state state')
    (error : ∀ state state', raised state state' → raised' state state') :
    Matches returned' raised' result state result' state' := by
  cases isMatch with
  | ok holds => exact .ok (ok _ _ _ _ holds)
  | error holds => exact .error (error _ _ holds)

theorem Simulates.mono
    {program : Program ε Answer α}
    {program' : Program ε Answer α'}
    {returned returned' : α → α' → σ → τ → Prop}
    (simulates : Simulates left right clock before program program' returned raised)
    (start : ∀ state state', before' state state' → before state state')
    (ok : ∀ value value' state state', returned value value' state state' →
      returned' value value' state state')
    (error : ∀ state state', raised state state' → raised' state state') :
    Simulates left right clock before' program program' returned' raised' := by
  intro line line' sameTime holds
  have outcome := simulates line line' sameTime (start _ _ holds)
  exact ⟨outcome.1, outcome.2.mono ok error⟩

/-- A fact that the states have in common is at hand from then on. -/
theorem Simulates.of_fact
    {fact : Prop}
    {program : Program ε Answer α}
    {program' : Program ε Answer α'}
    {returned : α → α' → σ → τ → Prop}
    (known : ∀ state state', before state state' → fact)
    (simulates : fact → Simulates left right clock before program program' returned raised) :
    Simulates left right clock before program program' returned raised :=
  fun line line' sameTime holds => simulates (known _ _ holds) line line' sameTime holds

theorem Simulates.ret
    {value : α}
    {value' : α'}
    {returned : α → α' → σ → τ → Prop}
    (holds : ∀ state state', before state state' → returned value value' state state') :
    Simulates left right clock before (.ret value) (.ret value') returned raised :=
  fun _ _ sameTime isBefore => ⟨sameTime, .ok (holds _ _ isBefore)⟩

theorem Simulates.raise
    {error : ε}
    {returned : α → α' → σ → τ → Prop}
    (holds : ∀ state state', before state state' → raised state state') :
    Simulates left right clock before (.raise error) (.raise error) returned raised :=
  fun _ _ sameTime isBefore => ⟨sameTime, .error (holds _ _ isBefore)⟩

theorem Simulates.perform
    {op : Op}
    {returned : Answer op → Answer op → σ → τ → Prop}
    (answers : Answers left right before op returned raised) :
    Simulates left right clock before (.perform op) (.perform op) returned raised := by
  intro line line' sameTime isBefore
  have sameClock : line.time clock = line'.time clock := congrArg clock sameTime
  simp only [Timeline.run_perform, Timeline.after_performed, Timeline.after_state,
    List.length_append, List.length_singleton, sameTime, sameClock, true_and]
  exact answers (line'.time clock) line.state line'.state isBefore

theorem Simulates.bind
    {program : Program ε Answer α}
    {program' : Program ε Answer α'}
    {rest : α → Program ε Answer β}
    {rest' : α' → Program ε Answer β'}
    {between : α → α' → σ → τ → Prop}
    {returned : β → β' → σ → τ → Prop}
    (first : Simulates left right clock before program program' between raised)
    (second : ∀ value value', Simulates left right clock (between value value') (rest value)
      (rest' value') returned raised) :
    Simulates left right clock before (program.bind rest) (program'.bind rest') returned
      raised := by
  intro line line' sameTime isBefore
  have outcome := first line line' sameTime isBefore
  rw [Timeline.run_bind, Timeline.run_bind]
  generalize Timeline.run left clock program line = leftEnd at outcome ⊢
  generalize Timeline.run right clock program' line' = rightEnd at outcome ⊢
  obtain ⟨result, middle⟩ := leftEnd
  obtain ⟨result', middle'⟩ := rightEnd
  obtain ⟨sameTime', isMatch⟩ := outcome
  cases isMatch with
  | ok holds => exact second _ _ middle middle' sameTime' holds
  | error holds => exact ⟨sameTime', .error holds⟩

theorem Simulates.ensure
    {condition : Prop}
    [Decidable condition]
    {error : ε}
    {returned : Unit → Unit → σ → τ → Prop}
    (ok : ∀ state state', before state state' → condition → returned () () state state')
    (refused : ∀ state state', before state state' → ¬condition → raised state state') :
    Simulates left right clock before (.ensure condition error) (.ensure condition error) returned
      raised := by
  unfold Program.ensure
  by_cases holds : condition
  · rw [if_pos holds]
    exact .ret fun state state' isBefore => ok state state' isBefore holds
  · rw [if_neg holds]
    exact .raise fun state state' isBefore => refused state state' isBefore holds

/-! ## Requests one after the other -/

/-- The results of some programs, and where they end. -/
def runAll (effect : (op : Op) → Nat → σ → Except ε (Answer op) × σ) (clock : Nat → Nat) :
    List (Program ε Answer α) → Timeline Op σ → List (Except ε α) × Timeline Op σ
  | [], line => ([], line)
  | program :: programs, line =>
      let (result, line) := Timeline.run effect clock program line
      let (results, line) := runAll effect clock programs line
      (result :: results, line)

end Rules

end Simulation
end SigmaForge
