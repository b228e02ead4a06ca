import Mathlib.Logic.Function.Basic

/-!
# Programs as trees of operations

A program issues operations and goes on with their answers.  An operation may
raise, and a program may raise and catch.  What an operation does is left to
the machine that runs the program.
-/

namespace SigmaForge

/-- A program that issues operations `op` with answers in `Answer op`, raises
errors in `ε` and returns values in `α`. -/
inductive Program (ε : Type) {Op : Type} (Answer : Op → Type) (α : Type)
  | ret (value : α)
  | raise (error : ε)
  | call (op : Op) (next : Except ε (Answer op) → Program ε Answer α)

namespace Program

variable
    {ε Op : Type}
    {Answer : Op → Type}
    {α β : Type}

/-- Sequential composition. -/
def bind (program : Program ε Answer α) (rest : α → Program ε Answer β) :
    Program ε Answer β :=
  match program with
  | .ret value => rest value
  | .raise error => .raise error
  | .call op next => .call op fun answer => (next answer).bind rest

/-- `try … except`. -/
def catchWith (program : Program ε Answer α) (handler : ε → Program ε Answer α) :
    Program ε Answer α :=
  match program with
  | .ret value => .ret value
  | .raise error => handler error
  | .call op next => .call op fun answer => (next answer).catchWith handler

/-- A single operation, whose errors are raised. -/
def perform (op : Op) : Program ε Answer (Answer op) :=
  .call op fun
    | .ok value => .ret value
    | .error error => .raise error

/-- The value of an option; without one, the error is raised. -/
def ofOption (error : ε) : Option α → Program ε Answer α
  | some value => .ret value
  | none => .raise error

/-- Raises the error unless the condition holds. -/
def ensure (condition : Prop) [Decidable condition] (error : ε) : Program ε Answer Unit :=
  if condition then .ret () else .raise error

instance : Monad (Program ε Answer) where
  pure := .ret
  bind := bind

instance : MonadExcept ε (Program ε Answer) where
  throw := .raise
  tryCatch := catchWith

@[simp] theorem pure_eq (value : α) : (pure value : Program ε Answer α) = .ret value := rfl

@[simp] theorem throw_eq (error : ε) : (throw error : Program ε Answer α) = .raise error := rfl

@[simp] theorem tryCatch_eq
    (program : Program ε Answer α)
    (handler : ε → Program ε Answer α) :
    tryCatch program handler = program.catchWith handler := rfl

@[simp] theorem bind_eq
    (program : Program ε Answer α)
    (rest : α → Program ε Answer β) :
    program >>= rest = program.bind rest := rfl

@[simp] theorem ret_bind (value : α) (rest : α → Program ε Answer β) :
    (Program.ret value).bind rest = rest value := rfl

@[simp] theorem raise_bind (error : ε) (rest : α → Program ε Answer β) :
    (Program.raise error : Program ε Answer α).bind rest = .raise error := rfl

theorem bind_assoc {γ : Type}
    (program : Program ε Answer α)
    (first : α → Program ε Answer β)
    (second : β → Program ε Answer γ) :
    (program.bind first).bind second = program.bind fun value => (first value).bind second := by
  induction program with
  | ret value => rfl
  | raise error => rfl
  | call op next inductionHypothesis =>
      apply congrArg (Program.call op)
      funext answer
      exact inductionHypothesis answer

theorem bind_ret (program : Program ε Answer α) : program.bind .ret = program := by
  induction program with
  | ret value => rfl
  | raise error => rfl
  | call op next inductionHypothesis =>
      apply congrArg (Program.call op)
      funext answer
      exact inductionHypothesis answer

/-- All operations of the program are allowed ones. -/
def Only (allowed : Op → Prop) : Program ε Answer α → Prop
  | .ret _ => True
  | .raise _ => True
  | .call op next => allowed op ∧ ∀ answer, (next answer).Only allowed

section Only

variable {allowed : Op → Prop}

theorem Only.mono
    {allowed' : Op → Prop}
    {program : Program ε Answer α}
    (only : program.Only allowed)
    (implies : ∀ op, allowed op → allowed' op) :
    program.Only allowed' := by
  induction program with
  | ret value => trivial
  | raise error => trivial
  | call op next inductionHypothesis =>
      exact ⟨implies op only.1, fun answer => inductionHypothesis answer (only.2 answer)⟩

theorem Only.bind
    {program : Program ε Answer α}
    {rest : α → Program ε Answer β}
    (first : program.Only allowed)
    (second : ∀ value, (rest value).Only allowed) :
    (program.bind rest).Only allowed := by
  induction program with
  | ret value => exact second value
  | raise error => trivial
  | call op next inductionHypothesis =>
      exact ⟨first.1, fun answer => inductionHypothesis answer (first.2 answer)⟩

theorem Only.catchWith
    {program : Program ε Answer α}
    {handler : ε → Program ε Answer α}
    (body : program.Only allowed)
    (handled : ∀ error, (handler error).Only allowed) :
    (program.catchWith handler).Only allowed := by
  induction program with
  | ret value => trivial
  | raise error => exact handled error
  | call op next inductionHypothesis =>
      exact ⟨body.1, fun answer => inductionHypothesis answer (body.2 answer)⟩

theorem Only.perform {op : Op} (isAllowed : allowed op) :
    (perform op : Program ε Answer (Answer op)).Only allowed := by
  refine ⟨isAllowed, fun answer => ?_⟩
  cases answer <;> trivial

theorem Only.ofOption (error : ε) (option : Option α) :
    (ofOption error option : Program ε Answer α).Only allowed := by
  cases option <;> trivial

theorem Only.ensure (condition : Prop) [Decidable condition] (error : ε) :
    (ensure condition error : Program ε Answer Unit).Only allowed := by
  unfold Program.ensure
  split <;> trivial

end Only

/-! ## Implementations -/

/-- The result of the program as a value: nothing is raised. -/
def attempt : Program ε Answer α → Program ε Answer (Except ε α)
  | .ret value => .ret (.ok value)
  | .raise error => .ret (.error error)
  | .call op next => .call op fun answer => (next answer).attempt

section Interpret

variable
    {Op' : Type}
    {Answer' : Op' → Type}
    (implementation : (op : Op) → Program ε Answer' (Answer op))

/-- The program with every operation replaced by its implementation. -/
def interpret : Program ε Answer α → Program ε Answer' α
  | .ret value => .ret value
  | .raise error => .raise error
  | .call op next => (implementation op).attempt.bind fun answer => (next answer).interpret

@[simp] theorem interpret_ret (value : α) :
    (Program.ret value : Program ε Answer α).interpret implementation = .ret value := rfl

@[simp] theorem interpret_raise (error : ε) :
    (Program.raise error : Program ε Answer α).interpret implementation = .raise error := rfl

@[simp] theorem interpret_bind
    (program : Program ε Answer α)
    (rest : α → Program ε Answer β) :
    (program.bind rest).interpret implementation =
      (program.interpret implementation).bind fun value =>
        (rest value).interpret implementation := by
  induction program with
  | ret value => rfl
  | raise error => rfl
  | call op next inductionHypothesis =>
      simp only [bind, interpret, bind_assoc]
      apply congrArg
      funext answer
      exact inductionHypothesis answer

/-- A single operation is its implementation. -/
@[simp] theorem interpret_perform (op : Op) :
    (perform op : Program ε Answer (Answer op)).interpret implementation =
      implementation op := by
  unfold perform interpret
  generalize implementation op = program
  induction program with
  | ret value => rfl
  | raise error => rfl
  | call op next inductionHypothesis =>
      apply congrArg (Program.call op)
      funext answer
      exact inductionHypothesis answer

@[simp] theorem interpret_ofOption (error : ε) (option : Option α) :
    (ofOption error option : Program ε Answer α).interpret implementation =
      ofOption error option := by
  cases option <;> rfl

@[simp] theorem interpret_ensure (condition : Prop) [Decidable condition] (error : ε) :
    (ensure condition error : Program ε Answer Unit).interpret implementation =
      ensure condition error := by
  unfold ensure
  split <;> rfl

end Interpret

/-- What is left of a program after some of its operations. -/
inductive Rest : Program ε Answer α → Program ε Answer α → Prop
  | next {op : Op} {next : Except ε (Answer op) → Program ε Answer α}
      (answer : Except ε (Answer op)) : Rest (next answer) (.call op next)
  | later {op : Op} {next : Except ε (Answer op) → Program ε Answer α}
      {rest : Program ε Answer α} (answer : Except ε (Answer op)) :
      Rest rest (next answer) → Rest rest (.call op next)

theorem Rest.trans
    {program middle rest : Program ε Answer α}
    (first : Rest middle program)
    (second : Rest rest middle) :
    Rest rest program := by
  induction first with
  | next answer => exact .later answer second
  | later answer _ inductionHypothesis => exact .later answer (inductionHypothesis second)

theorem Rest.wellFounded : @WellFounded (Program ε Answer α) Rest := by
  constructor
  intro program
  induction program with
  | ret value => exact ⟨_, fun rest isRest => by cases isRest⟩
  | raise error => exact ⟨_, fun rest isRest => by cases isRest⟩
  | call op next inductionHypothesis =>
      refine ⟨_, fun rest isRest => ?_⟩
      cases isRest with
      | next answer => exact inductionHypothesis answer
      | later answer isLater => exact (inductionHypothesis answer).inv isLater

/-- A program does not come back to where it was. -/
theorem Rest.irrefl (program : Program ε Answer α) : ¬Rest program program := by
  induction program using Rest.wellFounded.induction with
  | h program inductionHypothesis =>
      exact fun isRest => inductionHypothesis program isRest isRest

/-- The result of a program that has no operation left. -/
def outcome : Program ε Answer α → Option (Except ε α)
  | .ret value => some (.ok value)
  | .raise error => some (.error error)
  | .call _ _ => none

/-- A run of a program on its own, when the machine answers each operation in
a definite way. -/
def solo {σ : Type} (answer : (op : Op) → σ → Except ε (Answer op) × σ) :
    Program ε Answer α → σ → Except ε α × σ
  | .ret value, state => (.ok value, state)
  | .raise error, state => (.error error, state)
  | .call op next, state =>
      let (reply, state') := answer op state
      (next reply).solo answer state'

section Solo

variable
    {σ : Type}
    {answer : (op : Op) → σ → Except ε (Answer op) × σ}

@[simp] theorem solo_ret (value : α) (state : σ) :
    (Program.ret value : Program ε Answer α).solo answer state = (.ok value, state) := rfl

@[simp] theorem solo_raise (error : ε) (state : σ) :
    (Program.raise error : Program ε Answer α).solo answer state = (.error error, state) := rfl

/-- A sequence runs its parts one after the other. -/
theorem solo_bind
    (program : Program ε Answer α)
    (rest : α → Program ε Answer β)
    (state : σ) :
    (program.bind rest).solo answer state =
      match program.solo answer state with
      | (.ok value, state') => (rest value).solo answer state'
      | (.error error, state') => (.error error, state') := by
  induction program generalizing state with
  | ret value => rfl
  | raise error => rfl
  | call op next inductionHypothesis => exact inductionHypothesis _ _

/-- A handler runs where its program has raised. -/
theorem solo_catchWith
    (program : Program ε Answer α)
    (handler : ε → Program ε Answer α)
    (state : σ) :
    (program.catchWith handler).solo answer state =
      match program.solo answer state with
      | (.ok value, state') => (.ok value, state')
      | (.error error, state') => (handler error).solo answer state' := by
  induction program generalizing state with
  | ret value => rfl
  | raise error => rfl
  | call op next inductionHypothesis => exact inductionHypothesis _ _

/-- A single operation runs to its answer. -/
theorem solo_perform (op : Op) (state : σ) :
    (perform op : Program ε Answer (Answer op)).solo answer state = answer op state := by
  unfold perform solo
  generalize answer op state = replied
  obtain ⟨reply, state'⟩ := replied
  cases reply <;> rfl

end Solo

end Program

end SigmaForge
