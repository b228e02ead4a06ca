import SigmaForge.Foundation.Program

/-!
# Runs at given times

A program runs alone while a clock goes on from one operation to the next.  What it
performs is kept.
-/

namespace SigmaForge

/-- An operation that was performed: when, and in which state. -/
structure Performed (Op σ : Type) where
  op : Op
  time : Nat
  state : σ

/-- A state, and what was performed up to it. -/
structure Timeline (Op σ : Type) where
  state : σ
  performed : List (Performed Op σ)

namespace Timeline

variable
    {ε Op σ α β : Type}
    {Answer : Op → Type}
    (effect : (op : Op) → Nat → σ → Except ε (Answer op) × σ)
    (clock : Nat → Nat)

/-- What the clock says at the next operation. -/
def time (line : Timeline Op σ) : Nat := clock line.performed.length

/-- The timeline after one more operation. -/
def after (line : Timeline Op σ) (op : Op) : Timeline Op σ where
  state := (effect op (line.time clock) line.state).2
  performed := line.performed ++ [⟨op, line.time clock, line.state⟩]

/-- How an operation is performed. -/
def perform (op : Op) (line : Timeline Op σ) : Except ε (Answer op) × Timeline Op σ :=
  ((effect op (line.time clock) line.state).1, line.after effect clock op)

/-- The run of a program. -/
def run (program : Program ε Answer α) (line : Timeline Op σ) : Except ε α × Timeline Op σ :=
  program.solo (perform effect clock) line

variable
    {effect}
    {clock}

@[simp] theorem run_ret (value : α) (line : Timeline Op σ) :
    run effect clock (.ret value : Program ε Answer α) line = (.ok value, line) := rfl

@[simp] theorem run_raise (error : ε) (line : Timeline Op σ) :
    run effect clock (.raise error : Program ε Answer α) line = (.error error, line) := rfl

/-- A sequence runs its parts one after the other. -/
theorem run_bind
    (program : Program ε Answer α)
    (rest : α → Program ε Answer β)
    (line : Timeline Op σ) :
    run effect clock (program.bind rest) line =
      match run effect clock program line with
      | (.ok value, line') => run effect clock (rest value) line'
      | (.error error, line') => (.error error, line') := by
  unfold run
  rw [Program.solo_bind]
  generalize program.solo (perform effect clock) line = result
  obtain ⟨reply, line'⟩ := result
  cases reply <;> rfl

theorem run_bind_of_ok
    {program : Program ε Answer α}
    {line line' : Timeline Op σ}
    {value : α}
    (isDone : run effect clock program line = (.ok value, line'))
    (rest : α → Program ε Answer β) :
    run effect clock (program.bind rest) line = run effect clock (rest value) line' := by
  rw [run_bind, isDone]

theorem run_bind_of_error
    {program : Program ε Answer α}
    {line line' : Timeline Op σ}
    {error : ε}
    (isDone : run effect clock program line = (.error error, line'))
    (rest : α → Program ε Answer β) :
    run effect clock (program.bind rest) line = (.error error, line') := by
  rw [run_bind, isDone]

/-- A single operation. -/
theorem run_perform (op : Op) (line : Timeline Op σ) :
    run effect clock (Program.perform op : Program ε Answer (Answer op)) line =
      ((effect op (line.time clock) line.state).1, line.after effect clock op) :=
  Program.solo_perform op line

theorem run_perform_of_ok
    {op : Op}
    {line : Timeline Op σ}
    {answer : Answer op}
    (isAnswer : (effect op (line.time clock) line.state).1 = .ok answer) :
    run effect clock (Program.perform op : Program ε Answer (Answer op)) line =
      (.ok answer, line.after effect clock op) := by
  rw [run_perform, isAnswer]

theorem run_perform_of_error
    {op : Op}
    {line : Timeline Op σ}
    {error : ε}
    (isError : (effect op (line.time clock) line.state).1 = .error error) :
    run effect clock (Program.perform op : Program ε Answer (Answer op)) line =
      (.error error, line.after effect clock op) := by
  rw [run_perform, isError]

/-- An operation that returns, and what follows it. -/
theorem run_perform_bind
    {op : Op}
    {line : Timeline Op σ}
    {answer : Answer op}
    (isAnswer : (effect op (line.time clock) line.state).1 = .ok answer)
    (rest : Answer op → Program ε Answer β) :
    run effect clock ((Program.perform op).bind rest) line =
      run effect clock (rest answer) (line.after effect clock op) :=
  run_bind_of_ok (run_perform_of_ok isAnswer) rest

@[simp] theorem after_performed (line : Timeline Op σ) (op : Op) :
    (line.after effect clock op).performed =
      line.performed ++ [⟨op, line.time clock, line.state⟩] := rfl

@[simp] theorem after_state (line : Timeline Op σ) (op : Op) :
    (line.after effect clock op).state = (effect op (line.time clock) line.state).2 := rfl

/-- The clock goes on by one reading. -/
@[simp] theorem after_time (line : Timeline Op σ) (op : Op) :
    (line.after effect clock op).time clock = clock (line.performed.length + 1) := by
  rw [time, after_performed, List.length_append, List.length_singleton]

/-! ## Several operations -/

/-- The timeline after some operations. -/
def afterAll (effect : (op : Op) → Nat → σ → Except ε (Answer op) × σ) (clock : Nat → Nat)
    (line : Timeline Op σ) (ops : List Op) : Timeline Op σ :=
  ops.foldl (after effect clock) line

/-- What they add to it. -/
def performing (effect : (op : Op) → Nat → σ → Except ε (Answer op) × σ) (clock : Nat → Nat) :
    Timeline Op σ → List Op → List (Performed Op σ)
  | _, [] => []
  | line, op :: ops =>
      ⟨op, line.time clock, line.state⟩ :: performing effect clock (line.after effect clock op) ops

theorem afterAll_cons (line : Timeline Op σ) (op : Op) (ops : List Op) :
    line.afterAll effect clock (op :: ops) =
      (line.after effect clock op).afterAll effect clock ops :=
  rfl

theorem afterAll_append (line : Timeline Op σ) (first second : List Op) :
    line.afterAll effect clock (first ++ second) =
      (line.afterAll effect clock first).afterAll effect clock second :=
  List.foldl_append

theorem afterAll_performed (line : Timeline Op σ) (ops : List Op) :
    (line.afterAll effect clock ops).performed =
      line.performed ++ line.performing effect clock ops := by
  induction ops generalizing line with
  | nil => exact (List.append_nil _).symm
  | cons op ops inductionHypothesis =>
      calc ((line.after effect clock op).afterAll effect clock ops).performed
          = (line.performed ++ [⟨op, line.time clock, line.state⟩]) ++
              (line.after effect clock op).performing effect clock ops :=
            inductionHypothesis (line.after effect clock op)
        _ = line.performed ++ line.performing effect clock (op :: ops) := by
            rw [List.append_assoc]
            rfl

theorem performing_append (line : Timeline Op σ) (first second : List Op) :
    line.performing effect clock (first ++ second) =
      line.performing effect clock first ++
        (line.afterAll effect clock first).performing effect clock second := by
  induction first generalizing line with
  | nil => rfl
  | cons op ops inductionHypothesis =>
      exact congrArg (_ :: ·) (inductionHypothesis (line.after effect clock op))

@[simp] theorem length_performing (line : Timeline Op σ) (ops : List Op) :
    (line.performing effect clock ops).length = ops.length := by
  induction ops generalizing line with
  | nil => rfl
  | cons op ops inductionHypothesis =>
      exact congrArg (· + 1) (inductionHypothesis (line.after effect clock op))

/-- Exactly these operations are added. -/
@[simp] theorem map_op_performing (line : Timeline Op σ) (ops : List Op) :
    (line.performing effect clock ops).map (fun entry => entry.op) = ops := by
  induction ops generalizing line with
  | nil => rfl
  | cons op ops inductionHypothesis =>
      exact congrArg (op :: ·) (inductionHypothesis (line.after effect clock op))

theorem length_afterAll (line : Timeline Op σ) (ops : List Op) :
    (line.afterAll effect clock ops).performed.length = line.performed.length + ops.length := by
  rw [afterAll_performed, List.length_append, length_performing]

/-- What no operation changes, no program changes. -/
theorem run_keeps
    {β : Type}
    (seen : σ → β)
    (keeps : ∀ op time state, seen (effect op time state).2 = seen state)
    (program : Program ε Answer α)
    (line : Timeline Op σ) :
    seen (run effect clock program line).2.state = seen line.state := by
  induction program generalizing line with
  | ret value => rfl
  | raise error => rfl
  | call op next inductionHypothesis =>
      exact (inductionHypothesis _ (line.after effect clock op)).trans
        (keeps op (line.time clock) line.state)

/-- A program only adds to what was performed. -/
theorem length_run_le
    (program : Program ε Answer α)
    (line : Timeline Op σ) :
    line.performed.length ≤ (run effect clock program line).2.performed.length := by
  induction program generalizing line with
  | ret value => exact Nat.le_refl _
  | raise error => exact Nat.le_refl _
  | call op next inductionHypothesis =>
      have isLonger := inductionHypothesis (effect op (line.time clock) line.state).1
        (line.after effect clock op)
      rw [after_performed, List.length_append] at isLonger
      exact Nat.le_trans (Nat.le_add_right _ _) isLonger

end Timeline

end SigmaForge
