import SigmaForge.Foundation.Program
import Mathlib.Logic.Relation

/-!
# Interleavings of programs

Any number of processes serve calls.  Each runs the program of its call, one
operation at a time, on a state that all of them share.  A proof outline
annotates a program with assertions that the other processes cannot disturb;
outlines of all programs give an invariant of every run and a postcondition of
every call.
-/

namespace SigmaForge

/-- A process. -/
abbrev ProcId := Nat

/-- What processes do to the state they share. -/
structure Machine (ε : Type) {Op : Type} (Answer : Op → Type) (Call σ : Type) where
  /-- A process starts to serve a call. -/
  opening : ProcId → Call → σ → σ
  /-- An operation of a process gets an answer.  An operation that has to wait
  cannot be performed. -/
  perform : ProcId → (op : Op) → σ → Except ε (Answer op) → σ → Prop
  /-- A process has finished. -/
  closing : ProcId → σ → σ
  /-- A change that no process makes. -/
  environment : σ → σ → Prop

/-- How far a process has come. -/
inductive Status (ε : Type) {Op : Type} (Answer : Op → Type) (α : Type)
  | running (program : Program ε Answer α)
  | finished (result : Except ε α)

/-- The result of a process that has no operation left. -/
def Status.result {ε Op α : Type} {Answer : Op → Type} :
    Status ε Answer α → Option (Except ε α)
  | .running program => program.outcome
  | .finished result => some result

/-- The shared state, and every process that has started with its call. -/
structure Config (ε : Type) {Op : Type} (Answer : Op → Type) (Call σ α : Type) where
  shared : σ
  process : ProcId → Option (Call × Status ε Answer α)

section Steps

variable
    {ε Op : Type}
    {Answer : Op → Type}
    {Call σ α : Type}
    (machine : Machine ε Answer Call σ)
    (body : Call → Program ε Answer α)

/-- One step of some process, or of none. -/
inductive Step : Config ε Answer Call σ α → Config ε Answer Call σ α → Prop
  | start {config : Config ε Answer Call σ α} (pid : ProcId) (call : Call) :
      config.process pid = none →
      Step config
        ⟨machine.opening pid call config.shared,
          Function.update config.process pid (some (call, .running (body call)))⟩
  | perform {config : Config ε Answer Call σ α} {pid : ProcId} {call : Call} {op : Op}
      {next : Except ε (Answer op) → Program ε Answer α} {answer : Except ε (Answer op)}
      {shared : σ} :
      config.process pid = some (call, .running (.call op next)) →
      machine.perform pid op config.shared answer shared →
      Step config
        ⟨shared, Function.update config.process pid (some (call, .running (next answer)))⟩
  | finish {config : Config ε Answer Call σ α} {pid : ProcId} {call : Call}
      {program : Program ε Answer α} {result : Except ε α} :
      config.process pid = some (call, .running program) →
      program.outcome = some result →
      Step config
        ⟨machine.closing pid config.shared,
          Function.update config.process pid (some (call, .finished result))⟩
  | environment {config : Config ε Answer Call σ α} {shared : σ} :
      machine.environment config.shared shared →
      Step config ⟨shared, config.process⟩

/-- Any number of steps. -/
abbrev Steps : Config ε Answer Call σ α → Config ε Answer Call σ α → Prop :=
  Relation.ReflTransGen (Step machine body)

/-- No process has started. -/
def Config.initial (shared : σ) : Config ε Answer Call σ α := ⟨shared, fun _ => none⟩

/-- What a run from the given shared state reaches. -/
def Reachable (initial : σ) (config : Config ε Answer Call σ α) : Prop :=
  Steps machine body (.initial initial) config

/-- A process has not performed any operation. -/
def Fresh (body : Call → Program ε Answer α) : Option (Call × Status ε Answer α) → Prop
  | none => True
  | some (call, status) => status = .running (body call)

/-- A running process is at the start of its program, or later in it. -/
theorem running_cases
    {initial : σ}
    {config : Config ε Answer Call σ α}
    (reachable : Reachable machine body initial config)
    {pid : ProcId}
    {call : Call}
    {program : Program ε Answer α}
    (isRunning : config.process pid = some (call, .running program)) :
    program = body call ∨ program.Rest (body call) := by
  induction reachable generalizing program with
  | refl => simp [Config.initial] at isRunning
  | tail _ step inductionHypothesis =>
      cases step with
      | start other otherCall _ =>
          by_cases isOwn : pid = other
          · subst isOwn
            simp only [Function.update_self, Option.some.injEq, Prod.mk.injEq,
              Status.running.injEq] at isRunning
            obtain ⟨rfl, rfl⟩ := isRunning
            exact .inl rfl
          · simp only [Function.update_of_ne isOwn] at isRunning
            exact inductionHypothesis isRunning
      | @perform other otherCall op next answer shared wasRunning _ =>
          by_cases isOwn : pid = other
          · subst isOwn
            simp only [Function.update_self, Option.some.injEq, Prod.mk.injEq,
              Status.running.injEq] at isRunning
            obtain ⟨rfl, rfl⟩ := isRunning
            rcases inductionHypothesis wasRunning with isBody | isRest
            · rw [← isBody]
              exact .inr (.next answer)
            · exact .inr (isRest.trans (.next answer))
          · simp only [Function.update_of_ne isOwn] at isRunning
            exact inductionHypothesis isRunning
      | finish _ _ =>
          rename_i other _ _ _ _ _
          by_cases isOwn : pid = other
          · subst isOwn
            simp at isRunning
          · simp only [Function.update_of_ne isOwn] at isRunning
            exact inductionHypothesis isRunning
      | environment _ => exact inductionHypothesis isRunning

/-- What the steps of the other processes keep is true of a process until it
performs its first operation. -/
theorem fact_of_fresh
    {fact : ProcId → σ → Prop}
    {initial : σ}
    (initially : ∀ pid, fact pid initial)
    (opens : ∀ pid other call state, fact other state →
      fact other (machine.opening pid call state))
    (performs : ∀ pid other op answer state state', other ≠ pid →
      machine.perform pid op state answer state' → fact other state → fact other state')
    (closes : ∀ pid other state, other ≠ pid → fact other state →
      fact other (machine.closing pid state))
    (passes : ∀ pid state state', machine.environment state state' → fact pid state →
      fact pid state')
    {config : Config ε Answer Call σ α}
    (reachable : Reachable machine body initial config)
    (pid : ProcId)
    (isFresh : Fresh body (config.process pid)) :
    fact pid config.shared := by
  induction reachable with
  | refl => exact initially pid
  | tail reachable step inductionHypothesis =>
      cases step with
      | start other call isIdle =>
          apply opens
          apply inductionHypothesis
          by_cases isOwn : pid = other
          · subst isOwn
            rw [isIdle]
            trivial
          · simpa only [Function.update_of_ne isOwn] using isFresh
      | @perform other call op next answer shared wasRunning performed =>
          by_cases isOwn : pid = other
          · subst isOwn
            -- the program has moved on, and does not come back
            simp only [Function.update_self] at isFresh
            have isBody : next answer = body call := Status.running.inj isFresh
            have isRest : (next answer).Rest (.call op next) := .next answer
            rcases running_cases machine body reachable wasRunning with wasBody | wasRest
            · rw [wasBody, isBody] at isRest
              exact absurd isRest (Program.Rest.irrefl _)
            · rw [isBody] at isRest
              exact absurd (wasRest.trans isRest) (Program.Rest.irrefl _)
          · simp only [Function.update_of_ne isOwn] at isFresh
            exact performs other pid op answer _ _ isOwn performed (inductionHypothesis isFresh)
      | @finish other call program result wasRunning _ =>
          by_cases isOwn : pid = other
          · subst isOwn
            simp only [Function.update_self] at isFresh
            exact absurd isFresh (by simp [Fresh])
          · simp only [Function.update_of_ne isOwn] at isFresh
            exact closes other pid _ isOwn (inductionHypothesis isFresh)
      | environment change => exact passes pid _ _ change (inductionHypothesis isFresh)

end Steps

/-! ## Proof outlines -/

section Outlines

variable
    {ε Op : Type}
    {Answer : Op → Type}
    {Call σ α β : Type}

/-- What every step keeps, and what the steps of a process may do. -/
structure Discipline (σ : Type) where
  invariant : σ → Prop
  guarantee : ProcId → σ → σ → Prop

/-- A postcondition, given separately for programs that return and that raise. -/
def byOutcome (returned : α → σ → Prop) (raised : ε → σ → Prop) : Except ε α → σ → Prop
  | .ok value => returned value
  | .error error => raised error

variable
    (machine : Machine ε Answer Call σ)
    (discipline : Discipline σ)

/-- No step of another process, nor of the environment, falsifies the
assertion. -/
def Stable (pid : ProcId) (assertion : σ → Prop) : Prop :=
  ∀ state state', discipline.invariant state → discipline.invariant state' →
    assertion state →
    (∃ other, other ≠ pid ∧ discipline.guarantee other state state') ∨
      machine.environment state state' →
    assertion state'

/-- The program can be annotated: from a state in which the assertion holds,
each of its operations keeps the invariant and the guarantee and leads to a
stable assertion, and its result satisfies the postcondition. -/
def Outline (pid : ProcId) :
    Program ε Answer α → (σ → Prop) → (Except ε α → σ → Prop) → Prop
  | .ret value, assertion, post =>
      ∀ state, discipline.invariant state → assertion state → post (.ok value) state
  | .raise error, assertion, post =>
      ∀ state, discipline.invariant state → assertion state → post (.error error) state
  | .call op next, assertion, post =>
      ∀ answer, ∃ after : σ → Prop,
        Stable machine discipline pid after ∧
        (∀ state state', discipline.invariant state → assertion state →
          machine.perform pid op state answer state' →
          discipline.invariant state' ∧ discipline.guarantee pid state state' ∧
            after state') ∧
        Outline pid (next answer) after post

variable
    {machine : Machine ε Answer Call σ}
    {discipline : Discipline σ}
    {pid : ProcId}

theorem Stable.and
    {left right : σ → Prop}
    (leftStable : Stable machine discipline pid left)
    (rightStable : Stable machine discipline pid right) :
    Stable machine discipline pid fun state => left state ∧ right state := by
  intro state state' invariant invariant' holds change
  exact ⟨leftStable state state' invariant invariant' holds.1 change,
    rightStable state state' invariant invariant' holds.2 change⟩

theorem Stable.const (fact : Prop) : Stable machine discipline pid fun _ => fact :=
  fun _ _ _ _ holds _ => holds

theorem Stable.exists
    {ι : Type}
    {assertion : ι → σ → Prop}
    (stable : ∀ index, Stable machine discipline pid (assertion index)) :
    Stable machine discipline pid fun state => ∃ index, assertion index state := by
  intro state state' invariant invariant' holds change
  obtain ⟨index, holds⟩ := holds
  exact ⟨index, stable index state state' invariant invariant' holds change⟩

theorem Stable.forall
    {ι : Sort*}
    {assertion : ι → σ → Prop}
    (stable : ∀ index, Stable machine discipline pid (assertion index)) :
    Stable machine discipline pid fun state => ∀ index, assertion index state := by
  intro state state' invariant invariant' holds change index
  exact stable index state state' invariant invariant' (holds index) change

/-- An outline holds from every stronger assertion. -/
theorem Outline.weaken
    {program : Program ε Answer α}
    {assertion assertion' : σ → Prop}
    {post : Except ε α → σ → Prop}
    (outline : Outline machine discipline pid program assertion post)
    (implies : ∀ state, discipline.invariant state → assertion' state → assertion state) :
    Outline machine discipline pid program assertion' post := by
  cases program with
  | ret value =>
      intro state invariant holds
      exact outline state invariant (implies state invariant holds)
  | raise error =>
      intro state invariant holds
      exact outline state invariant (implies state invariant holds)
  | call op next =>
      intro answer
      obtain ⟨after, stable, step, rest⟩ := outline answer
      refine ⟨after, stable, ?_, rest⟩
      intro state state' invariant holds performs
      exact step state state' invariant (implies state invariant holds) performs

/-- Nothing has to be shown of a program that is never reached. -/
theorem Outline.of_unreachable
    {program : Program ε Answer α}
    {post : Except ε α → σ → Prop} :
    Outline machine discipline pid program (fun _ => False) post := by
  induction program with
  | ret value => exact fun _ _ unreachable => unreachable.elim
  | raise error => exact fun _ _ unreachable => unreachable.elim
  | call op next inductionHypothesis =>
      intro answer
      exact ⟨fun _ => False, Stable.const False, fun _ _ _ unreachable => unreachable.elim,
        inductionHypothesis answer⟩

/-- What does not depend on the state may be assumed. -/
theorem Outline.of_fact
    {program : Program ε Answer α}
    {fact : Prop}
    {assertion : σ → Prop}
    {post : Except ε α → σ → Prop}
    (outline : fact → Outline machine discipline pid program assertion post) :
    Outline machine discipline pid program (fun state => fact ∧ assertion state) post := by
  by_cases isFact : fact
  · exact (outline isFact).weaken fun _ _ holds => holds.2
  · exact Outline.of_unreachable.weaken fun _ _ holds => isFact holds.1

/-- What holds from some assertion of a family. -/
theorem Outline.exists
    {ι : Type}
    {program : Program ε Answer α}
    {assertion : ι → σ → Prop}
    {post : Except ε α → σ → Prop}
    (outline : ∀ index, Outline machine discipline pid program (assertion index) post) :
    Outline machine discipline pid program (fun state => ∃ index, assertion index state) post := by
  induction program generalizing assertion with
  | ret value =>
      rintro state invariant ⟨index, holds⟩
      exact outline index state invariant holds
  | raise error =>
      rintro state invariant ⟨index, holds⟩
      exact outline index state invariant holds
  | call op next inductionHypothesis =>
      intro answer
      obtain ⟨after, annotated⟩ := Classical.axiomOfChoice fun index => outline index answer
      refine ⟨fun state => ∃ index, after index state,
        Stable.exists fun index => (annotated index).1, ?_,
        inductionHypothesis answer fun index => (annotated index).2.2⟩
      rintro state state' invariant ⟨index, holds⟩ performs
      obtain ⟨invariant', guarantee, afterHolds⟩ :=
        (annotated index).2.1 state state' invariant holds performs
      exact ⟨invariant', guarantee, index, afterHolds⟩

/-- The rule for sequences. -/
theorem Outline.bind
    {program : Program ε Answer α}
    {rest : α → Program ε Answer β}
    {assertion : σ → Prop}
    {between : α → σ → Prop}
    {raised : ε → σ → Prop}
    {post : Except ε β → σ → Prop}
    (first : Outline machine discipline pid program assertion (byOutcome between raised))
    (second : ∀ value, Outline machine discipline pid (rest value) (between value) post)
    (failed : ∀ error state, discipline.invariant state → raised error state →
      post (.error error) state) :
    Outline machine discipline pid (program.bind rest) assertion post := by
  induction program generalizing assertion with
  | ret value => exact (second value).weaken first
  | raise error =>
      intro state invariant holds
      exact failed error state invariant (first state invariant holds)
  | call op next inductionHypothesis =>
      intro answer
      obtain ⟨after, stable, step, remaining⟩ := first answer
      exact ⟨after, stable, step, inductionHypothesis answer remaining⟩

/-- The rule for handlers. -/
theorem Outline.catchWith
    {program : Program ε Answer α}
    {handler : ε → Program ε Answer α}
    {assertion : σ → Prop}
    {returned : α → σ → Prop}
    {raised : ε → σ → Prop}
    {post : Except ε α → σ → Prop}
    (body : Outline machine discipline pid program assertion (byOutcome returned raised))
    (succeeded : ∀ value state, discipline.invariant state → returned value state →
      post (.ok value) state)
    (handled : ∀ error, Outline machine discipline pid (handler error) (raised error) post) :
    Outline machine discipline pid (program.catchWith handler) assertion post := by
  induction program generalizing assertion with
  | ret value =>
      intro state invariant holds
      exact succeeded value state invariant (body state invariant holds)
  | raise error => exact (handled error).weaken body
  | call op next inductionHypothesis =>
      intro answer
      obtain ⟨after, stable, step, remaining⟩ := body answer
      exact ⟨after, stable, step, inductionHypothesis answer remaining⟩

/-- The rule for one operation. -/
theorem Outline.perform
    {op : Op}
    {assertion : σ → Prop}
    {returned : Answer op → σ → Prop}
    {raised : ε → σ → Prop}
    (returnedStable : ∀ value, Stable machine discipline pid (returned value))
    (raisedStable : ∀ error, Stable machine discipline pid (raised error))
    (succeeds : ∀ value state state', discipline.invariant state → assertion state →
      machine.perform pid op state (.ok value) state' →
      discipline.invariant state' ∧ discipline.guarantee pid state state' ∧
        returned value state')
    (fails : ∀ error state state', discipline.invariant state → assertion state →
      machine.perform pid op state (.error error) state' →
      discipline.invariant state' ∧ discipline.guarantee pid state state' ∧
        raised error state') :
    Outline machine discipline pid (Program.perform op) assertion
      (byOutcome returned raised) := by
  intro answer
  cases answer with
  | ok value =>
      exact ⟨returned value, returnedStable value, succeeds value, fun _ _ holds => holds⟩
  | error error =>
      exact ⟨raised error, raisedStable error, fails error, fun _ _ holds => holds⟩

/-- The rule for a value that may be missing, and what is done with it. -/
theorem Outline.ofOption_bind
    {error : ε}
    {option : Option α}
    {rest : α → Program ε Answer β}
    {assertion : σ → Prop}
    {post : Except ε β → σ → Prop}
    (missing : ∀ state, discipline.invariant state → assertion state →
      post (.error error) state)
    (found : ∀ value, option = some value →
      Outline machine discipline pid (rest value) assertion post) :
    Outline machine discipline pid ((Program.ofOption error option).bind rest) assertion
      post := by
  cases option with
  | none => exact missing
  | some value => exact found value rfl

/-- The rule for a check, and what is done after it. -/
theorem Outline.ensure_bind
    {condition : Prop}
    [Decidable condition]
    {error : ε}
    {rest : Unit → Program ε Answer β}
    {assertion : σ → Prop}
    {post : Except ε β → σ → Prop}
    (fails : ∀ state, discipline.invariant state → assertion state →
      post (.error error) state)
    (passes : condition → Outline machine discipline pid (rest ()) assertion post) :
    Outline machine discipline pid ((Program.ensure condition error).bind rest) assertion
      post := by
  unfold Program.ensure
  by_cases isTrue : condition
  · rw [if_pos isTrue]
    exact passes isTrue
  · rw [if_neg isTrue]
    exact fails

/-- The rule for programs whose operations all keep one assertion. -/
theorem Outline.of_only
    {allowed : Op → Prop}
    {program : Program ε Answer α}
    {assertion : σ → Prop}
    (only : program.Only allowed)
    (stable : Stable machine discipline pid assertion)
    (kept : ∀ op answer state state', allowed op → discipline.invariant state →
      assertion state → machine.perform pid op state answer state' →
      discipline.invariant state' ∧ discipline.guarantee pid state state' ∧
        assertion state') :
    Outline machine discipline pid program assertion fun _ => assertion := by
  induction program with
  | ret value => exact fun _ _ holds => holds
  | raise error => exact fun _ _ holds => holds
  | call op next inductionHypothesis =>
      intro answer
      exact ⟨assertion, stable, fun state state' => kept op answer state state' only.1,
        inductionHypothesis answer (only.2 answer)⟩

/-- An outline has every weaker postcondition. -/
theorem Outline.consequence
    {program : Program ε Answer α}
    {assertion : σ → Prop}
    {post post' : Except ε α → σ → Prop}
    (outline : Outline machine discipline pid program assertion post)
    (implies : ∀ result state, discipline.invariant state → post result state →
      post' result state) :
    Outline machine discipline pid program assertion post' := by
  induction program generalizing assertion with
  | ret value =>
      intro state invariant holds
      exact implies _ state invariant (outline state invariant holds)
  | raise error =>
      intro state invariant holds
      exact implies _ state invariant (outline state invariant holds)
  | call op next inductionHypothesis =>
      intro answer
      obtain ⟨after, stable, step, rest⟩ := outline answer
      exact ⟨after, stable, step, inductionHypothesis answer rest⟩

/-- The rule for a result as a value. -/
theorem Outline.attempt
    {program : Program ε Answer α}
    {assertion : σ → Prop}
    {post : Except ε α → σ → Prop}
    (outline : Outline machine discipline pid program assertion post) :
    Outline machine discipline pid program.attempt assertion
      (byOutcome post fun _ _ => False) := by
  induction program generalizing assertion with
  | ret value => exact outline
  | raise error => exact outline
  | call op next inductionHypothesis =>
      intro answer
      obtain ⟨after, stable, step, rest⟩ := outline answer
      exact ⟨after, stable, step, inductionHypothesis answer rest⟩

/-- The rule for implementations that all keep one assertion. -/
theorem Outline.interpret
    {Op' : Type}
    {Answer' : Op' → Type}
    {implementation : (op : Op') → Program ε Answer (Answer' op)}
    {assertion : σ → Prop}
    (outlines : ∀ op,
      Outline machine discipline pid (implementation op) assertion fun _ => assertion)
    (program : Program ε Answer' α) :
    Outline machine discipline pid (program.interpret implementation) assertion
      fun _ => assertion := by
  induction program with
  | ret value => exact fun _ _ holds => holds
  | raise error => exact fun _ _ holds => holds
  | call op next inductionHypothesis =>
      apply Outline.bind (outlines op).attempt
      · exact fun answer => inductionHypothesis answer
      · exact fun _ _ _ unreachable => unreachable.elim

variable
    {body : Call → Program ε Answer α}
    {idle : ProcId → σ → Prop}
    {post : ProcId → Call → Except ε α → σ → Prop}

/-- What has to be shown of the programs of all calls. -/
structure Outlined
    (machine : Machine ε Answer Call σ)
    (discipline : Discipline σ)
    (body : Call → Program ε Answer α)
    (idle : ProcId → σ → Prop)
    (post : ProcId → Call → Except ε α → σ → Prop) : Prop where
  idle_stable : ∀ pid, Stable machine discipline pid (idle pid)
  post_stable : ∀ pid call result, Stable machine discipline pid (post pid call result)
  environment : ∀ state state', discipline.invariant state →
    machine.environment state state' → discipline.invariant state'
  outline : ∀ pid call, ∃ assertion,
    Stable machine discipline pid assertion ∧
    (∀ state, discipline.invariant state → idle pid state →
      discipline.invariant (machine.opening pid call state) ∧
      discipline.guarantee pid state (machine.opening pid call state) ∧
      assertion (machine.opening pid call state)) ∧
    Outline machine discipline pid (body call) assertion fun result state =>
      discipline.invariant (machine.closing pid state) ∧
      discipline.guarantee pid state (machine.closing pid state) ∧
      post pid call result (machine.closing pid state)

/-- The process is where its outline says. -/
def Accounted
    (machine : Machine ε Answer Call σ)
    (discipline : Discipline σ)
    (idle : ProcId → σ → Prop)
    (post : ProcId → Call → Except ε α → σ → Prop)
    (pid : ProcId)
    (shared : σ) :
    Option (Call × Status ε Answer α) → Prop
  | none => idle pid shared
  | some (call, .finished result) => post pid call result shared
  | some (call, .running program) =>
      ∃ assertion, Stable machine discipline pid assertion ∧ assertion shared ∧
        Outline machine discipline pid program assertion fun result state =>
          discipline.invariant (machine.closing pid state) ∧
          discipline.guarantee pid state (machine.closing pid state) ∧
          post pid call result (machine.closing pid state)

/-- The steps of others leave a process where its outline says. -/
theorem Outlined.accounted_of_change
    (outlined : Outlined machine discipline body idle post)
    {shared shared' : σ}
    {process : Option (Call × Status ε Answer α)}
    (invariant : discipline.invariant shared)
    (invariant' : discipline.invariant shared')
    (accounted : Accounted machine discipline idle post pid shared process)
    (change : (∃ other, other ≠ pid ∧ discipline.guarantee other shared shared') ∨
      machine.environment shared shared') :
    Accounted machine discipline idle post pid shared' process := by
  match process with
  | none => exact outlined.idle_stable pid _ _ invariant invariant' accounted change
  | some (call, .finished result) =>
      exact outlined.post_stable pid call result _ _ invariant invariant' accounted change
  | some (call, .running program) =>
      obtain ⟨assertion, stable, holds, outline⟩ := accounted
      exact ⟨assertion, stable, stable _ _ invariant invariant' holds change, outline⟩

/-- One step keeps the invariant, and every process where its outline says. -/
theorem Outlined.step
    (outlined : Outlined machine discipline body idle post)
    {config config' : Config ε Answer Call σ α}
    (step : Step machine body config config')
    (invariant : discipline.invariant config.shared)
    (accounted : ∀ pid,
      Accounted machine discipline idle post pid config.shared (config.process pid)) :
    discipline.invariant config'.shared ∧
      ∀ pid, Accounted machine discipline idle post pid config'.shared
        (config'.process pid) := by
  -- the process that moves is accounted for; the change is its guarantee to the others
  have others : ∀ {shared' : σ} {pid : ProcId} {moved : Call × Status ε Answer α},
      discipline.invariant shared' →
      discipline.guarantee pid config.shared shared' →
      Accounted machine discipline idle post pid shared' (some moved) →
      ∀ other, Accounted machine discipline idle post other shared'
        (Function.update config.process pid (some moved) other) := by
    intro shared' pid moved invariant' guarantee accountedMoved other
    by_cases isMoved : other = pid
    · subst isMoved
      rw [Function.update_self]
      exact accountedMoved
    · rw [Function.update_of_ne isMoved]
      exact outlined.accounted_of_change invariant invariant' (accounted other)
        (.inl ⟨pid, fun equal => isMoved equal.symm, guarantee⟩)
  cases step with
  | start pid call isIdle =>
      have idleHolds := accounted pid
      rw [isIdle] at idleHolds
      obtain ⟨assertion, stable, opens, outline⟩ := outlined.outline pid call
      obtain ⟨invariant', guarantee, holds⟩ := opens _ invariant idleHolds
      exact ⟨invariant', others invariant' guarantee ⟨assertion, stable, holds, outline⟩⟩
  | @perform pid call op next answer shared isRunning performs =>
      have runs := accounted pid
      rw [isRunning] at runs
      obtain ⟨assertion, stable, holds, outline⟩ := runs
      obtain ⟨after, afterStable, steps, rest⟩ := outline answer
      obtain ⟨invariant', guarantee, afterHolds⟩ := steps _ _ invariant holds performs
      exact ⟨invariant', others invariant' guarantee ⟨after, afterStable, afterHolds, rest⟩⟩
  | @finish pid call program result isRunning isDone =>
      have runs := accounted pid
      rw [isRunning] at runs
      obtain ⟨assertion, stable, holds, outline⟩ := runs
      have ends : discipline.invariant (machine.closing pid config.shared) ∧
          discipline.guarantee pid config.shared (machine.closing pid config.shared) ∧
          post pid call result (machine.closing pid config.shared) := by
        cases program with
        | ret value =>
            obtain rfl : Except.ok value = result := by simpa [Program.outcome] using isDone
            exact outline _ invariant holds
        | raise error =>
            obtain rfl : Except.error error = result := by
              simpa [Program.outcome] using isDone
            exact outline _ invariant holds
        | call op next => simp [Program.outcome] at isDone
      exact ⟨ends.1, others ends.1 ends.2.1 ends.2.2⟩
  | environment change =>
      have invariant' := outlined.environment _ _ invariant change
      exact ⟨invariant', fun pid => outlined.accounted_of_change invariant invariant'
        (accounted pid) (.inr change)⟩

/-- Every run keeps the invariant, and every call that has finished satisfies
its postcondition. -/
theorem Outlined.sound
    (outlined : Outlined machine discipline body idle post)
    {initial : σ}
    (invariant : discipline.invariant initial)
    (isIdle : ∀ pid, idle pid initial)
    {config : Config ε Answer Call σ α}
    (reachable : Reachable machine body initial config) :
    discipline.invariant config.shared ∧
      ∀ pid call result, config.process pid = some (call, .finished result) →
        post pid call result config.shared := by
  have accounted : discipline.invariant config.shared ∧
      ∀ pid, Accounted machine discipline idle post pid config.shared
        (config.process pid) := by
    induction reachable with
    | refl => exact ⟨invariant, isIdle⟩
    | tail _ step inductionHypothesis =>
        exact outlined.step step inductionHypothesis.1 inductionHypothesis.2
  refine ⟨accounted.1, fun pid call result isFinished => ?_⟩
  have ended := accounted.2 pid
  rw [isFinished] at ended
  exact ended

end Outlines

end SigmaForge
