import SigmaForge.Foundation.Interleaving

/-!
# A process that nobody interrupts

Some runs of a machine are easy to give: one process goes through its program, and the others
wait.
-/

namespace SigmaForge

variable
    {ε Op : Type}
    {Answer : Op → Type}
    {Call σ α : Type}
    {machine : Machine ε Answer Call σ}
    {pid : ProcId}

/-- A process that nobody interrupts can end as described. -/
inductive CanEnd (machine : Machine ε Answer Call σ) (pid : ProcId)
    (ending : Except ε α → σ → Prop) : Program ε Answer α → σ → Prop
  | ret {value : α} {state : σ} :
      ending (.ok value) state → CanEnd machine pid ending (.ret value) state
  | raise {error : ε} {state : σ} :
      ending (.error error) state → CanEnd machine pid ending (.raise error) state
  | call {op : Op} {next : Except ε (Answer op) → Program ε Answer α}
      (answer : Except ε (Answer op)) {state state' : σ} :
      machine.perform pid op state answer state' →
      CanEnd machine pid ending (next answer) state' →
      CanEnd machine pid ending (.call op next) state

variable
    {ending : Except ε α → σ → Prop}
    {body : Call → Program ε Answer α}
    {call : Call}

/-- So there is a run in which it does. -/
theorem CanEnd.steps
    {program : Program ε Answer α}
    {state : σ}
    (canEnd : CanEnd machine pid ending program state)
    {process : ProcId → Option (Call × Status ε Answer α)}
    (isRunning : process pid = some (call, .running program)) :
    ∃ result shared, ending result shared ∧ Steps machine body ⟨state, process⟩
      ⟨machine.closing pid shared,
        Function.update process pid (some (call, .finished result))⟩ := by
  induction canEnd generalizing process with
  | ret ends => exact ⟨_, _, ends, .single (.finish isRunning rfl)⟩
  | raise ends => exact ⟨_, _, ends, .single (.finish isRunning rfl)⟩
  | call answer performs _ inductionHypothesis =>
      obtain ⟨result, shared, ends, rest⟩ :=
        inductionHypothesis (Function.update_self pid _ process)
      rw [Function.update_idem] at rest
      exact ⟨result, shared, ends, .head (.perform isRunning performs) rest⟩

/-- A call that is served alone, after others. -/
theorem CanEnd.serve
    {state : σ}
    (canEnd : CanEnd machine pid ending (body call) (machine.opening pid call state))
    (process : ProcId → Option (Call × Status ε Answer α))
    (isIdle : process pid = none) :
    ∃ result shared, ending result shared ∧ Steps machine body ⟨state, process⟩
      ⟨machine.closing pid shared,
        Function.update process pid (some (call, .finished result))⟩ := by
  obtain ⟨result, shared, ends, rest⟩ := canEnd.steps (Function.update_self pid _ process)
  rw [Function.update_idem] at rest
  exact ⟨result, shared, ends, .head (.start pid call isIdle) rest⟩

end SigmaForge
