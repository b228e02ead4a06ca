import SigmaForge.Foundation.Program

/-!
# Protocols of operations

A protocol says in which phase which operation may be issued, and which phase its answer
leads to.  A program follows a protocol if it never issues an operation that its phase
does not allow, whatever it is answered.
-/

namespace SigmaForge

/-- Which operations a phase allows, and the phase after an answer. -/
structure Protocol (ε : Type) {Op : Type} (Answer : Op → Type) (Phase : Type) where
  allowed : Phase → Op → Prop
  next : Phase → (op : Op) → Except ε (Answer op) → Phase

section Follows

variable
    {ε Op Phase α β : Type}
    {Answer : Op → Type}
    (protocol : Protocol ε Answer Phase)

/-- From the phase on, the program issues only what is allowed, and it ends in a phase
and with a result that are related as described. -/
def Follows : Phase → Program ε Answer α → (Phase → Except ε α → Prop) → Prop
  | phase, .ret value, post => post phase (.ok value)
  | phase, .raise error, post => post phase (.error error)
  | phase, .call op next, post =>
      protocol.allowed phase op ∧
        ∀ answer, Follows (protocol.next phase op answer) (next answer) post

/-- An end, given separately for programs that return and that raise. -/
def inPhase (returned : Phase → α → Prop) (raised : Phase → Prop) : Phase → Except ε α → Prop
  | phase, .ok value => returned phase value
  | phase, .error _ => raised phase

variable
    {protocol}
    {phase : Phase}

theorem Follows.mono
    {program : Program ε Answer α}
    {post post' : Phase → Except ε α → Prop}
    (follows : Follows protocol phase program post)
    (implies : ∀ phase result, post phase result → post' phase result) :
    Follows protocol phase program post' := by
  induction program generalizing phase with
  | ret value => exact implies phase _ follows
  | raise error => exact implies phase _ follows
  | call op next inductionHypothesis =>
      exact ⟨follows.1, fun answer => inductionHypothesis answer (follows.2 answer)⟩

/-- The rule for sequences. -/
theorem Follows.bind
    {program : Program ε Answer α}
    {rest : α → Program ε Answer β}
    {returned : Phase → α → Prop}
    {raised : Phase → Prop}
    {post : Phase → Except ε β → Prop}
    (first : Follows protocol phase program (inPhase returned raised))
    (second : ∀ phase value, returned phase value → Follows protocol phase (rest value) post)
    (failed : ∀ phase error, raised phase → post phase (.error error)) :
    Follows protocol phase (program.bind rest) post := by
  induction program generalizing phase with
  | ret value => exact second phase value first
  | raise error => exact failed phase error first
  | call op next inductionHypothesis =>
      exact ⟨first.1, fun answer => inductionHypothesis answer (first.2 answer)⟩

/-- The rule for handlers. -/
theorem Follows.catchWith
    {program : Program ε Answer α}
    {handler : ε → Program ε Answer α}
    {returned : Phase → α → Prop}
    {raised : Phase → Prop}
    {post : Phase → Except ε α → Prop}
    (body : Follows protocol phase program (inPhase returned raised))
    (succeeded : ∀ phase value, returned phase value → post phase (.ok value))
    (handled : ∀ phase error, raised phase → Follows protocol phase (handler error) post) :
    Follows protocol phase (program.catchWith handler) post := by
  induction program generalizing phase with
  | ret value => exact succeeded phase value body
  | raise error => exact handled phase error body
  | call op next inductionHypothesis =>
      exact ⟨body.1, fun answer => inductionHypothesis answer (body.2 answer)⟩

/-- The rule for one operation. -/
theorem Follows.perform
    {op : Op}
    {returned : Phase → Answer op → Prop}
    {raised : Phase → Prop}
    (isAllowed : protocol.allowed phase op)
    (succeeds : ∀ value, returned (protocol.next phase op (.ok value)) value)
    (fails : ∀ error, raised (protocol.next phase op (.error error))) :
    Follows protocol phase (Program.perform op) (inPhase returned raised) := by
  refine ⟨isAllowed, fun answer => ?_⟩
  cases answer with
  | ok value => exact succeeds value
  | error error => exact fails error

theorem Follows.ofOption (error : ε) (option : Option α) :
    Follows protocol phase (Program.ofOption error option)
      (inPhase (fun phase' value => phase' = phase ∧ option = some value) (· = phase)) := by
  cases option with
  | none => rfl
  | some value => exact ⟨rfl, rfl⟩

theorem Follows.ensure (condition : Prop) [Decidable condition] (error : ε) :
    Follows protocol phase (Program.ensure condition error)
      (inPhase (fun phase' _ => phase' = phase ∧ condition) (· = phase)) := by
  unfold Program.ensure
  split
  · exact ⟨rfl, ‹_›⟩
  · rfl

theorem Follows.attempt
    {program : Program ε Answer α}
    {post : Phase → Except ε α → Prop}
    (follows : Follows protocol phase program post) :
    Follows protocol phase program.attempt (inPhase post fun _ => False) := by
  induction program generalizing phase with
  | ret value => exact follows
  | raise error => exact follows
  | call op next inductionHypothesis =>
      exact ⟨follows.1, fun answer => inductionHypothesis answer (follows.2 answer)⟩

/-- The rule for implementations that all lead back to the phase that they start in. -/
theorem Follows.interpret
    {Op' : Type}
    {Answer' : Op' → Type}
    {implementation : (op : Op') → Program ε Answer (Answer' op)}
    {allowed : Op' → Prop}
    (returns : ∀ op, allowed op →
      Follows protocol phase (implementation op) fun phase' _ => phase' = phase)
    {program : Program ε Answer' α}
    (only : program.Only allowed) :
    Follows protocol phase (program.interpret implementation) fun phase' _ => phase' = phase := by
  induction program with
  | ret value => rfl
  | raise error => rfl
  | call op next inductionHypothesis =>
      apply (returns op only.1).attempt.bind
      · rintro _ answer rfl
        exact inductionHypothesis answer (only.2 answer)
      · exact fun _ _ unreachable => unreachable.elim

/-- The rule for programs of operations that leave the phase as it is. -/
theorem Follows.of_only
    {neutral : Op → Prop}
    (isAllowed : ∀ op, neutral op → protocol.allowed phase op)
    (stays : ∀ op answer, neutral op → protocol.next phase op answer = phase)
    {program : Program ε Answer α}
    (only : program.Only neutral) :
    Follows protocol phase program (inPhase (fun phase' _ => phase' = phase) (· = phase)) := by
  induction program with
  | ret value => rfl
  | raise error => rfl
  | call op next inductionHypothesis =>
      refine ⟨isAllowed op only.1, fun answer => ?_⟩
      rw [stays op answer only.1]
      exact inductionHypothesis answer (only.2 answer)

end Follows

end SigmaForge
