import SigmaForge.Foundation.Atomic

/-!
# Attributes of objects that are loaded and expire

A program calls operations and reads attributes of the objects that these return.
Which attributes are loaded depends on the calls so far.  A read of an attribute
that is not loaded ends the program.
-/

namespace SigmaForge
namespace Attributes

/-- Calls, and reads of attributes. -/
inductive AttributeOp (Op Attribute : Type)
  | call (op : Op)
  | get (name : Attribute)

/-- A read has no answer of its own: the value is in the object. -/
abbrev AttributeAnswer {Op : Type} (Answer : Op → Type) (Attribute : Type) :
    AttributeOp Op Attribute → Type
  | .call op => Answer op
  | .get _ => Unit

/-- The attributes that are loaded. -/
abbrev Loaded (Attribute : Type) := Attribute → Bool

/-- A program that reads attributes. -/
abbrev Reading (ε : Type) {Op : Type} (Answer : Op → Type) (Attribute α : Type) :=
  Program ε (AttributeAnswer Answer Attribute) α

variable
    {ε Op Attribute Ghost α β : Type}
    {Answer : Op → Type}

/-- A single call. -/
def call (op : Op) : Reading ε Answer Attribute (Answer op) :=
  Program.perform (AttributeOp.call op)

/-- A single read, of a value that the object holds. -/
def get (name : Attribute) (value : α) : Reading ε Answer Attribute α :=
  (Program.perform (AttributeOp.get name) : Reading ε Answer Attribute Unit).bind
    fun _ => .ret value

/-! ## Programs without reads -/

/-- The program without its reads. -/
def erase : Reading ε Answer Attribute α → Program ε Answer α
  | .ret value => .ret value
  | .raise error => .raise error
  | .call (.call op) next => .call op fun answer => erase (next answer)
  | .call (.get _) next => erase (next (.ok ()))

@[simp] theorem erase_ret (value : α) :
    erase (.ret value : Reading ε Answer Attribute α) = .ret value := rfl

@[simp] theorem erase_raise (error : ε) :
    erase (.raise error : Reading ε Answer Attribute α) = .raise error := rfl

@[simp] theorem erase_bind
    (program : Reading ε Answer Attribute α)
    (rest : α → Reading ε Answer Attribute β) :
    erase (program.bind rest) = (erase program).bind fun value => erase (rest value) := by
  induction program with
  | ret value => rfl
  | raise error => rfl
  | call op next inductionHypothesis =>
      cases op with
      | call op =>
          apply congrArg (Program.call op)
          funext answer
          exact inductionHypothesis answer
      | get name => exact inductionHypothesis (.ok ())

@[simp] theorem erase_call (op : Op) :
    erase (call op : Reading ε Answer Attribute (Answer op)) = Program.perform op := by
  apply congrArg (Program.call op)
  funext answer
  cases answer <;> rfl

@[simp] theorem erase_get (name : Attribute) (value : α) :
    erase (get name value : Reading ε Answer Attribute α) = .ret value := rfl

@[simp] theorem erase_ofOption (error : ε) (option : Option α) :
    erase (Program.ofOption error option : Reading ε Answer Attribute α) =
      Program.ofOption error option := by
  cases option <;> rfl

@[simp] theorem erase_ensure (condition : Prop) [Decidable condition] (error : ε) :
    erase (Program.ensure condition error : Reading ε Answer Attribute Unit) =
      Program.ensure condition error := by
  unfold Program.ensure
  split <;> rfl

/-! ## Programs as they run -/

section Track

variable (after : (op : Op) → Except ε (Answer op) → Loaded Attribute → Loaded Attribute)

/-- The program as it runs: it returns the attribute whose read has ended it, or
its own value. -/
def track : Reading ε Answer Attribute α → Loaded Attribute →
    Program ε Answer (Except Attribute α)
  | .ret value, _ => .ret (.ok value)
  | .raise error, _ => .raise error
  | .call (.call op) next, loaded => .call op fun answer =>
      track (next answer) (after op answer loaded)
  | .call (.get name) next, loaded =>
      if loaded name then track (next (.ok ())) loaded else .ret (.error name)

variable
    (note : (op : Op) → Except ε (Answer op) → Ghost → Ghost)
    (calling : Ghost → Prop)

/-- Wherever the program ends as it runs, the postcondition holds of its result
and of what was noted about the answers; wherever it calls, what was noted allows
it. -/
def Leads (post : Except ε (Except Attribute α) → Loaded Attribute → Ghost → Prop) :
    Reading ε Answer Attribute α → Loaded Attribute → Ghost → Prop
  | .ret value, loaded, ghost => post (.ok (.ok value)) loaded ghost
  | .raise error, loaded, ghost => post (.error error) loaded ghost
  | .call (.call op) next, loaded, ghost =>
      calling ghost ∧
        ∀ answer, Leads post (next answer) (after op answer loaded) (note op answer ghost)
  | .call (.get name) next, loaded, ghost =>
      if loaded name then Leads post (next (.ok ())) loaded ghost
      else post (.ok (.error name)) loaded ghost

/-- What a sequence has to establish after its first part. -/
def andThen (rest : α → Loaded Attribute → Ghost → Prop)
    (post : Except ε (Except Attribute β) → Loaded Attribute → Ghost → Prop) :
    Except ε (Except Attribute α) → Loaded Attribute → Ghost → Prop
  | .ok (.ok value) => rest value
  | .ok (.error name) => post (.ok (.error name))
  | .error error => post (.error error)

variable
    {after}
    {note}
    {calling}
    {post : Except ε (Except Attribute α) → Loaded Attribute → Ghost → Prop}
    {loaded : Loaded Attribute}
    {ghost : Ghost}

@[simp] theorem leads_ret (value : α) :
    Leads after note calling post (.ret value) loaded ghost ↔ post (.ok (.ok value)) loaded ghost :=
  Iff.rfl

@[simp] theorem leads_raise (error : ε) :
    Leads after note calling post (.raise error) loaded ghost ↔ post (.error error) loaded ghost :=
  Iff.rfl

/-- The rule for sequences. -/
@[simp] theorem leads_bind
    {post : Except ε (Except Attribute β) → Loaded Attribute → Ghost → Prop}
    (program : Reading ε Answer Attribute α)
    (rest : α → Reading ε Answer Attribute β) :
    Leads after note calling post (program.bind rest) loaded ghost ↔
      Leads after note calling
        (andThen (fun value => Leads after note calling post (rest value)) post)
        program loaded ghost := by
  induction program generalizing loaded ghost with
  | ret value => exact Iff.rfl
  | raise error => exact Iff.rfl
  | call op next inductionHypothesis =>
      cases op with
      | call op =>
          exact and_congr_right fun _ => forall_congr' fun answer => inductionHypothesis answer
      | get name =>
          simp only [Program.bind, Leads]
          split_ifs
          · exact inductionHypothesis (.ok ())
          · exact Iff.rfl

/-- The rule for calls. -/
@[simp] theorem leads_call {op : Op}
    {post : Except ε (Except Attribute (Answer op)) → Loaded Attribute → Ghost → Prop} :
    Leads after note calling post (call op) loaded ghost ↔
      calling ghost ∧
      (∀ value, post (.ok (.ok value)) (after op (.ok value) loaded)
        (note op (.ok value) ghost)) ∧
      ∀ error, post (.error error) (after op (.error error) loaded)
        (note op (.error error) ghost) := by
  constructor
  · rintro ⟨mayCall, leads⟩
    exact ⟨mayCall, fun value => leads (.ok value), fun error => leads (.error error)⟩
  · rintro ⟨mayCall, returns, raises⟩
    refine ⟨mayCall, fun answer => ?_⟩
    cases answer with
    | ok value => exact returns value
    | error error => exact raises error

/-- The rule for reads. -/
@[simp] theorem leads_get (name : Attribute) (value : α) :
    Leads after note calling post (get name value) loaded ghost ↔
      post (.ok (if loaded name then .ok value else .error name)) loaded ghost := by
  simp only [get, Program.perform, Program.bind, Leads]
  split_ifs <;> exact Iff.rfl

@[simp] theorem leads_ofOption (error : ε) (option : Option α) :
    Leads after note calling post (Program.ofOption error option) loaded ghost ↔
      post (option.elim (.error error) fun value => .ok (.ok value)) loaded ghost := by
  cases option <;> exact Iff.rfl

@[simp] theorem leads_ensure
    {post : Except ε (Except Attribute Unit) → Loaded Attribute → Ghost → Prop}
    (condition : Prop)
    [Decidable condition]
    (error : ε) :
    Leads after note calling post (Program.ensure condition error) loaded ghost ↔
      post (if condition then .ok (.ok ()) else .error error) loaded ghost := by
  unfold Program.ensure
  split_ifs <;> exact Iff.rfl

/-- A program leads to every weaker postcondition. -/
theorem Leads.mono
    {post' : Except ε (Except Attribute α) → Loaded Attribute → Ghost → Prop}
    {program : Reading ε Answer Attribute α}
    (leads : Leads after note calling post program loaded ghost)
    (implies : ∀ result loaded ghost, post result loaded ghost → post' result loaded ghost) :
    Leads after note calling post' program loaded ghost := by
  induction program generalizing loaded ghost with
  | ret value => exact implies _ _ _ leads
  | raise error => exact implies _ _ _ leads
  | call op next inductionHypothesis =>
      cases op with
      | call op => exact ⟨leads.1, fun answer => inductionHypothesis answer (leads.2 answer)⟩
      | get name =>
          unfold Leads at leads ⊢
          split_ifs with isLoaded
          · rw [if_pos isLoaded] at leads
            exact inductionHypothesis (.ok ()) leads
          · rw [if_neg isLoaded] at leads
            exact implies _ _ _ leads

/-- The rule for a sequence whose first part ends in an intermediate assertion. -/
theorem Leads.bind
    {between : α → Loaded Attribute → Ghost → Prop}
    {post : Except ε (Except Attribute β) → Loaded Attribute → Ghost → Prop}
    {program : Reading ε Answer Attribute α}
    {rest : α → Reading ε Answer Attribute β}
    (first : Leads after note calling (andThen between post) program loaded ghost)
    (second : ∀ value loaded ghost, between value loaded ghost →
      Leads after note calling post (rest value) loaded ghost) :
    Leads after note calling post (program.bind rest) loaded ghost := by
  rw [leads_bind]
  apply first.mono
  intro result loaded ghost holds
  match result with
  | .ok (.ok value) => exact second value loaded ghost holds
  | .ok (.error name) => exact holds
  | .error error => exact holds

end Track

/-! ## Runs -/

section Runs

open Atomic

variable
    {Call Store : Type}

/-- A call with its answer. -/
abbrev Reply (ε : Type) {Op : Type} (Answer : Op → Type) := (op : Op) × Except ε (Answer op)

/-- The answers that a process has got. -/
def replies (pid : ProcId) (log : List (Event ε Answer Call)) : List (Reply ε Answer) :=
  log.filterMap fun
    | .called other op answer _ => if other = pid then some ⟨op, answer⟩ else none
    | .opened _ _ _ => none

/-- What a process serves, and the answers that it has got. -/
def serving : Option Call × List (Reply ε Answer) → Event ε Answer Call →
    Option Call × List (Reply ε Answer)
  | (_, replies), .opened _ call _ => (some call, replies)
  | (call, replies), .called _ op answer _ => (call, replies ++ [⟨op, answer⟩])

theorem progress_serving (pid : ProcId) (log : List (Event ε Answer Call)) :
    (progress serving (none, []) pid log).2 = replies pid log := by
  induction log using List.reverseRecOn with
  | nil => rfl
  | append_singleton log event inductionHypothesis =>
      by_cases isOwn : event.pid = pid
      · subst isOwn
        rw [progress_concat_self]
        cases event <;> simp_all [serving, replies, Event.pid]
      · rw [progress_concat_of_ne _ _ isOwn, inductionHypothesis]
        cases event <;> simp_all [replies, Event.pid]

/-- The history says which call a process serves. -/
theorem serving_of_reachable
    {effects : Effects ε Answer Store}
    {failure : ε}
    {body : Call → Program ε Answer α}
    {initial : Store}
    {clock : Nat}
    {config : Config ε Answer Call (Recorded ε Answer Call Store) α}
    (reachable : Reachable (machine effects failure Call) body (Recorded.start initial clock)
      config)
    {pid : ProcId}
    {call : Call}
    {status : Status ε Answer α}
    (isServing : config.process pid = some (call, status)) :
    (progress serving (none, []) pid config.shared.log).1 = some call := by
  -- an event of another process, or a call, leaves it as it is
  have kept : ∀ (log : List (Event ε Answer Call)) (other : ProcId) (op : Op)
      (answer : Except ε (Answer op)) (time : Nat),
      (progress serving (none, []) pid (log ++ [.called other op answer time])).1 =
        (progress serving (none, []) pid log).1 := by
    intro log other op answer time
    by_cases isOwn : other = pid
    · subst isOwn
      have moved := progress_concat_self serving (none, []) log (.called other op answer time)
      exact (congrArg Prod.fst moved).trans rfl
    · have different : (Event.called other op answer time : Event ε Answer Call).pid ≠ pid := isOwn
      rw [progress_concat_of_ne _ _ different]
  induction reachable generalizing status with
  | refl => simp [Config.initial] at isServing
  | @tail config _ _ step inductionHypothesis =>
      cases step with
      | start other otherCall isIdle =>
          by_cases isOwn : pid = other
          · subst isOwn
            simp only [Function.update_self, Option.some.injEq, Prod.mk.injEq] at isServing
            obtain ⟨rfl, _⟩ := isServing
            have moved := progress_concat_self serving (none, []) config.shared.log
              (.opened pid otherCall config.shared.clock)
            exact congrArg Prod.fst moved
          · simp only [Function.update_of_ne isOwn] at isServing
            have stays : progress serving (none, []) pid
                (config.shared.log ++ [.opened other otherCall config.shared.clock]) =
                progress serving (none, []) pid config.shared.log :=
              progress_concat_of_ne _ _ (fun equal => isOwn equal.symm) _
            exact (congrArg Prod.fst stays).trans (inductionHypothesis isServing)
      | @perform other otherCall op next answer shared wasRunning performed =>
          obtain ⟨_, rfl⟩ := performed
          rw [kept]
          by_cases isOwn : pid = other
          · subst isOwn
            simp only [Function.update_self, Option.some.injEq, Prod.mk.injEq] at isServing
            obtain ⟨rfl, _⟩ := isServing
            exact inductionHypothesis wasRunning
          · simp only [Function.update_of_ne isOwn] at isServing
            exact inductionHypothesis isServing
      | @finish other otherCall program result wasRunning _ =>
          by_cases isOwn : pid = other
          · subst isOwn
            simp only [Function.update_self, Option.some.injEq, Prod.mk.injEq] at isServing
            obtain ⟨rfl, _⟩ := isServing
            exact inductionHypothesis wasRunning
          · simp only [Function.update_of_ne isOwn] at isServing
            exact inductionHypothesis isServing
      | environment passes =>
          obtain ⟨_, _, rfl⟩ := passes
          exact inductionHypothesis isServing

variable
    (noteCall : Call → (op : Op) → Except ε (Answer op) → Ghost → Ghost)
    (start : Ghost)

/-- What is noted about the answers. -/
def noted (call : Call) (replies : List (Reply ε Answer)) : Ghost :=
  replies.foldl (fun ghost reply => noteCall call reply.1 reply.2 ghost) start

variable (calling : Ghost → Prop)

/-- A process only calls when what was noted allows it. -/
def Allowed : EventProperty ε Answer Call Store := fun _ before event =>
  match event with
  | .opened _ _ _ => True
  | .called pid _ _ _ => ∀ call, (progress serving (none, []) pid before).1 = some call →
      calling (noted noteCall start call (replies pid before))

/-- A process has ended with the postcondition of its call. -/
def Ended (post : Call → Except ε (Except Attribute α) → Ghost → Prop) (call : Call)
    (result : Except ε (Except Attribute α))
    (reached : Option Call × List (Reply ε Answer)) : Prop :=
  reached.1 = some call ∧ post call result (noted noteCall start call reached.2)

variable
    {effects : Effects ε Answer Store}
    {failure : ε}
    {after : (op : Op) → Except ε (Answer op) → Loaded Attribute → Loaded Attribute}
    {noteCall}
    {start}
    {calling}

/-- A program that leads to its postcondition has an outline. -/
theorem outline_of_leads
    {post : Call → Except ε (Except Attribute α) → Ghost → Prop}
    {pid : ProcId}
    {call : Call}
    {program : Reading ε Answer Attribute α}
    {loaded : Loaded Attribute}
    {answers : List (Reply ε Answer)}
    (leads : Leads after (noteCall call) calling (fun result _ => post call result) program loaded
      (noted noteCall start call answers)) :
    Outline (machine effects failure Call)
      (discipline effects failure (Allowed noteCall start calling)) pid (track after program loaded)
      (fun state => progress serving (none, []) pid state.log = (some call, answers))
      fun result state =>
        Ended noteCall start post call result (progress serving (none, []) pid state.log) := by
  have ends : ∀ (log : List (Event ε Answer Call)) (answers : List (Reply ε Answer))
      (result : Except ε (Except Attribute α)),
      progress serving (none, []) pid log = (some call, answers) →
      post call result (noted noteCall start call answers) →
      Ended noteCall start post call result (progress serving (none, []) pid log) := by
    intro log answers result isServing holds
    rw [isServing]
    exact ⟨rfl, holds⟩
  induction program generalizing loaded answers with
  | ret value => exact fun state _ isServing => ends state.log answers _ isServing leads
  | raise error => exact fun state _ isServing => ends state.log answers _ isServing leads
  | call op next inductionHypothesis =>
      cases op with
      | call op =>
          intro answer
          have leadsOn : Leads after (noteCall call) calling (fun result _ => post call result)
              (next answer) (after op answer loaded)
              (noted noteCall start call (answers ++ [⟨op, answer⟩])) := by
            simpa [noted] using leads.2 answer
          refine ⟨_, stable_progress (· = (some call, answers ++ [⟨op, answer⟩])), ?_,
            inductionHypothesis answer leadsOn⟩
          intro state state' invariant isServing performed
          have allowed : ∀ (initial : Store) before answer time,
              progress serving (none, []) pid before = (some call, answers) →
              Allowed noteCall start calling initial before (.called pid op answer time) := by
            intro initial before answer time isServing other isOther
            rw [isServing] at isOther
            obtain rfl := Option.some.inj isOther
            rw [← progress_serving, isServing]
            exact leads.1
          obtain ⟨invariant', guarantee, time, isServing'⟩ :=
            perform_progress allowed invariant isServing performed
          exact ⟨invariant', guarantee, isServing'⟩
      | get name =>
          unfold track
          unfold Leads at leads
          split_ifs with isLoaded
          · rw [if_pos isLoaded] at leads
            exact inductionHypothesis (.ok ()) leads
          · rw [if_neg isLoaded] at leads
            exact fun state _ isServing => ends state.log answers _ isServing leads

variable
    {post : Call → Except ε (Except Attribute α) → Ghost → Prop}
    {body : Call → Reading ε Answer Attribute α}
    {loaded : Loaded Attribute}
    {initial : Store}
    {clock : Nat}
    {config : Config ε Answer Call (Recorded ε Answer Call Store) (Except Attribute α)}
    {pid : ProcId}
    {call : Call}

/-- What the invariant says of processes that have finished, and of the history. -/
theorem sound_of_leads
    (leads : ∀ call, Leads after (noteCall call) calling (fun result _ => post call result)
      (body call) loaded start)
    (reachable : Reachable (machine effects failure Call)
      (fun call => track after (body call) loaded) (Recorded.start initial clock) config) :
    EventsSatisfy (Allowed noteCall start calling) config.shared.initial config.shared.log ∧
      ∀ pid call result, config.process pid = some (call, .finished result) →
        (progress serving (none, []) pid config.shared.log).1 = some call ∧
          post call result (noted noteCall start call (replies pid config.shared.log)) := by
  have opens : ∀ (initial : Store) (before : List (Event ε Answer Call)) pid call time,
      progress serving (none, []) pid before = (none, []) →
      Allowed noteCall start calling initial before (.opened pid call time) :=
    fun _ _ _ _ _ _ => trivial
  have outlines : ∀ pid call (time : Nat),
      Outline (machine effects failure Call)
        (discipline effects failure (Allowed noteCall start calling)) pid
        (track after (body call) loaded)
        (fun state => progress serving (none, []) pid state.log =
          serving (none, []) (.opened pid call time))
        fun result state =>
          Ended noteCall start post call result (progress serving (none, []) pid state.log) := by
    intro pid call time
    have leadsOn : Leads after (noteCall call) calling (fun result _ => post call result)
        (body call) loaded (noted noteCall start call ([] : List (Reply ε Answer))) := leads call
    exact outline_of_leads leadsOn
  obtain ⟨invariant, ended⟩ := sound_of_outlines opens outlines reachable
  refine ⟨invariant.1.imp fun _ _ holds => holds.2, fun pid call result isFinished => ?_⟩
  obtain ⟨isServing, holds⟩ := ended pid call result isFinished
  rw [progress_serving] at holds
  exact ⟨isServing, holds⟩

/-- A process that has come to its end satisfies the postcondition of its call. -/
theorem post_of_leads
    (leads : ∀ call, Leads after (noteCall call) calling (fun result _ => post call result)
      (body call) loaded start)
    (reachable : Reachable (machine effects failure Call)
      (fun call => track after (body call) loaded) (Recorded.start initial clock) config)
    {status : Status ε Answer (Except Attribute α)}
    (isServing : config.process pid = some (call, status))
    {result : Except ε (Except Attribute α)}
    (isResult : status.result = some result) :
    post call result (noted noteCall start call (replies pid config.shared.log)) := by
  cases status with
  | finished ended =>
      obtain rfl : ended = result := Option.some.inj isResult
      exact ((sound_of_leads leads reachable).2 pid call ended isServing).2
  | running program =>
      -- the process can finish, and its history stays
      have ended := (sound_of_leads leads (reachable.tail (.finish isServing isResult))).2 pid call
        result (Function.update_self _ _ _)
      exact ended.2

/-- A process that has not come to its end may call. -/
theorem calling_of_leads
    (leads : ∀ call, Leads after (noteCall call) calling (fun result _ => post call result)
      (body call) loaded start)
    (reachable : Reachable (machine effects failure Call)
      (fun call => track after (body call) loaded) (Recorded.start initial clock) config)
    {op : Op}
    {next : Except ε (Answer op) → Program ε Answer (Except Attribute α)}
    (isServing : config.process pid = some (call, .running (.call op next))) :
    calling (noted noteCall start call (replies pid config.shared.log)) := by
  -- its next call may fail, and the history says that it was allowed
  have performed : (machine effects failure Call).perform pid op config.shared (.error failure)
      { config.shared with
        log := config.shared.log ++ [.called pid op (.error failure) config.shared.clock] } :=
    ⟨.inr rfl, rfl⟩
  have allowed := (sound_of_leads leads (reachable.tail (.perform isServing performed))).1
  exact allowed.last call (serving_of_reachable reachable isServing)

end Runs

end Attributes
end SigmaForge
