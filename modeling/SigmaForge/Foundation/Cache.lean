import SigmaForge.Foundation.Queries

/-!
# Programs with a cache

An operation whose answer is in the cache is not performed.  What the cache holds is
handed from one part of a program to the next.
-/

namespace SigmaForge

/-- What a cache answers, and what it keeps of the answers that it could not give. -/
structure Cache (ε : Type) {Op : Type} (Answer : Op → Type) (Memory : Type) where
  known : Memory → (op : Op) → Option (Answer op)
  record : Memory → (op : Op) → Except ε (Answer op) → Memory

namespace Program

section Cached

variable
    {ε Op Memory : Type}
    {Answer : Op → Type}
    {α β : Type}
    {allowed : Op → Prop}

/-- The program with the cache in front of its operations.  It also returns what the
cache holds then. -/
def cached (cache : Cache ε Answer Memory) :
    Program ε Answer α → Memory → Program ε Answer (α × Memory)
  | .ret value, memory => .ret (value, memory)
  | .raise error, _ => .raise error
  | .call op next, memory =>
      match cache.known memory op with
      | some answer => (next (.ok answer)).cached cache memory
      | none => .call op fun answer => (next answer).cached cache (cache.record memory op answer)

variable
    {cache : Cache ε Answer Memory}
    {memory : Memory}

@[simp] theorem cached_ret (value : α) :
    (Program.ret value : Program ε Answer α).cached cache memory = .ret (value, memory) := rfl

@[simp] theorem cached_raise (error : ε) :
    (Program.raise error : Program ε Answer α).cached cache memory = .raise error := rfl

theorem cached_call_of_some
    {op : Op}
    {answer : Answer op}
    (recalls : cache.known memory op = some answer)
    (next : Except ε (Answer op) → Program ε Answer α) :
    (Program.call op next).cached cache memory = (next (.ok answer)).cached cache memory := by
  rw [cached, recalls]

theorem cached_call_of_none
    {op : Op}
    (unknown : cache.known memory op = none)
    (next : Except ε (Answer op) → Program ε Answer α) :
    (Program.call op next).cached cache memory =
      .call op fun answer => (next answer).cached cache (cache.record memory op answer) := by
  rw [cached, unknown]

/-- A sequence hands the cache on. -/
theorem cached_bind
    (program : Program ε Answer α)
    (rest : α → Program ε Answer β) :
    (program.bind rest).cached cache memory =
      (program.cached cache memory).bind fun result =>
        (rest result.1).cached cache result.2 := by
  induction program generalizing memory with
  | ret value => rfl
  | raise error => rfl
  | call op next inductionHypothesis =>
      rw [bind]
      cases recalls : cache.known memory op with
      | some answer =>
          rw [cached_call_of_some recalls, cached_call_of_some recalls]
          exact inductionHypothesis (.ok answer)
      | none =>
          rw [cached_call_of_none recalls, cached_call_of_none recalls, bind]
          apply congrArg (Program.call op)
          funext answer
          exact inductionHypothesis answer

/-- A cache adds no operation. -/
theorem Only.cached
    {program : Program ε Answer α}
    (only : program.Only allowed) :
    (program.cached cache memory).Only allowed := by
  induction program generalizing memory with
  | ret value => trivial
  | raise error => trivial
  | call op next inductionHypothesis =>
      cases recalls : cache.known memory op with
      | some answer =>
          rw [cached_call_of_some recalls]
          exact inductionHypothesis _ (only.2 _)
      | none =>
          rw [cached_call_of_none recalls]
          exact ⟨only.1, fun answer => inductionHypothesis answer (only.2 answer)⟩

/-- A cache that neither knows nor keeps any answer changes nothing. -/
theorem cached_of_only
    (ignores : ∀ memory op, allowed op →
      cache.known memory op = none ∧ ∀ answer, cache.record memory op answer = memory)
    {program : Program ε Answer α}
    (only : program.Only allowed) :
    program.cached cache memory = program.bind fun value => .ret (value, memory) := by
  induction program with
  | ret value => rfl
  | raise error => rfl
  | call op next inductionHypothesis =>
      obtain ⟨unknown, forgets⟩ := ignores memory op only.1
      rw [cached_call_of_none unknown, bind]
      apply congrArg (Program.call op)
      funext answer
      rw [forgets]
      exact inductionHypothesis answer (only.2 answer)

end Cached

end Program

namespace ReadCommitted

section Sees

variable
    {ε Store Key Write Statement Memory α β : Type}
    {Answer : Statement → Type}
    {schema : Schema Store Key Write Answer}
    {failure : ε}
    {cache : Cache ε (SessionAnswer Answer) Memory}
    {memory : Memory}
    {moments : List Store}

/-- A query whose answer is in the cache sees nothing. -/
theorem sees_recalled_bind
    {statement : Statement}
    {answer : Answer statement}
    {rest : Answer statement → Program ε (SessionAnswer Answer) β}
    {result : Except ε (β × Memory)}
    (recalls : cache.known memory (.execute statement) = some answer)
    (sees : Sees schema failure
      (((Program.perform (.execute statement)).bind rest).cached cache memory) moments result) :
    Sees schema failure ((rest answer).cached cache memory) moments result := by
  rw [Program.perform, Program.bind, Program.cached_call_of_some recalls] at sees
  exact sees

/-- Another query sees the tables. -/
theorem sees_unknown_bind
    {statement : Statement}
    {rest : Answer statement → Program ε (SessionAnswer Answer) β}
    {result : Except ε (β × Memory)}
    (unknown : cache.known memory (.execute statement) = none)
    (sees : Sees schema failure
      (((Program.perform (.execute statement)).bind rest).cached cache memory) moments result) :
    ∃ store moments', moments = store :: moments' ∧
      ((∃ answer, (schema.effect statement store).answer = some answer ∧
        Sees schema failure
          ((rest answer).cached cache (cache.record memory (.execute statement) (.ok answer)))
          moments' result) ∨
      moments' = [] ∧ result = .error failure) := by
  rw [Program.perform, Program.bind, Program.cached_call_of_none unknown] at sees
  obtain ⟨store, moments', rfl, seen⟩ := sees
  exact ⟨store, moments', rfl, seen⟩

/-- A program without operations sees nothing. -/
theorem sees_of_silent
    {program : Program ε (SessionAnswer Answer) α}
    {result : Except ε (α × Memory)}
    (answers : (op : SessionOp Statement) → Except ε (SessionAnswer Answer op))
    (silent : program.Only fun _ => False)
    (sees : Sees schema failure (program.cached cache memory) moments result) :
    moments = [] ∧ result = (program.evaluate answers).map (·, memory) := by
  cases program with
  | ret value => exact sees
  | raise error => exact sees
  | call op next => exact silent.1.elim

end Sees

end ReadCommitted
end SigmaForge
