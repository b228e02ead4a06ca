import SigmaForge.Foundation.Interleaving
import Mathlib.Data.List.Induction

/-!
# Atomic operations with a history

Every operation is one step on a store, or it fails and does nothing.  The
history records the calls that start and the operations with their answers and
times; the store is what the history makes of the first one.
-/

namespace SigmaForge
namespace Atomic

/-- What the history records. -/
inductive Event (ε : Type) {Op : Type} (Answer : Op → Type) (Call : Type)
  | opened (pid : ProcId) (call : Call) (time : Nat)
  | called (pid : ProcId) (op : Op) (answer : Except ε (Answer op)) (time : Nat)

/-- A store with its history. -/
structure Recorded (ε : Type) {Op : Type} (Answer : Op → Type) (Call Store : Type) where
  initial : Store
  log : List (Event ε Answer Call)
  clock : Nat

/-- What an operation does to a store at a time. -/
abbrev Effects (ε : Type) {Op : Type} (Answer : Op → Type) (Store : Type) :=
  (op : Op) → Nat → Store → Except ε (Answer op) × Store

variable
    {ε Op Call Store : Type}
    {Answer : Op → Type}

/-- The process that an event belongs to. -/
def Event.pid : Event ε Answer Call → ProcId
  | .opened pid _ _ => pid
  | .called pid _ _ _ => pid

/-- The time of an event. -/
def Event.time : Event ε Answer Call → Nat
  | .opened _ _ time => time
  | .called _ _ _ time => time

section Semantics

variable (effects : Effects ε Answer Store)

/-- The store after an event. -/
def applyEvent (store : Store) : Event ε Answer Call → Store
  | .called _ op (.ok _) time => (effects op time store).2
  | .called _ _ (.error _) _ => store
  | .opened _ _ _ => store

/-- The store after a history. -/
def replay (initial : Store) (log : List (Event ε Answer Call)) : Store :=
  log.foldl (applyEvent effects) initial

/-- The store. -/
def Recorded.store (state : Recorded ε Answer Call Store) : Store :=
  replay effects state.initial state.log

@[simp] theorem replay_append
    (initial : Store)
    (log log' : List (Event ε Answer Call)) :
    replay effects initial (log ++ log') = replay effects (replay effects initial log) log' := by
  simp [replay, List.foldl_append]

/-- How an operation is performed. -/
def performs (failure : ε) (pid : ProcId) (op : Op) (state : Recorded ε Answer Call Store)
    (answer : Except ε (Answer op)) (state' : Recorded ε Answer Call Store) : Prop :=
  ((∃ value, answer = .ok value ∧
      (effects op state.clock (state.store effects)).1 = .ok value) ∨ answer = .error failure) ∧
    state' = { state with log := state.log ++ [.called pid op answer state.clock] }

/-- The machine: operations, and time that passes. -/
def machine (failure : ε) (Call : Type) :
    Machine ε Answer Call (Recorded ε Answer Call Store) where
  opening pid call state := { state with log := state.log ++ [.opened pid call state.clock] }
  perform := performs effects failure
  closing _ state := state
  environment state state' := ∃ later, state.clock ≤ later ∧ state' = { state with clock := later }

/-- A store without history. -/
def Recorded.start (initial : Store) (clock : Nat) : Recorded ε Answer Call Store where
  initial := initial
  log := []
  clock := clock

end Semantics

/-! ## Histories -/

/-- A property of an event: the first store, the history in front of the event,
and the event. -/
abbrev EventProperty (ε : Type) {Op : Type} (Answer : Op → Type) (Call Store : Type) :=
  Store → List (Event ε Answer Call) → Event ε Answer Call → Prop

/-- Every event of the history has the property. -/
def EventsSatisfy (property : EventProperty ε Answer Call Store) (initial : Store)
    (log : List (Event ε Answer Call)) : Prop :=
  ∀ before event after, log = before ++ event :: after → property initial before event

section Events

variable
    {property : EventProperty ε Answer Call Store}
    {initial : Store}
    {log log' : List (Event ε Answer Call)}
    {event : Event ε Answer Call}

theorem eventsSatisfy_nil : EventsSatisfy property initial [] := by
  intro before event after isNil
  simp at isNil

/-- A history may be extended by an event that has the property. -/
theorem EventsSatisfy.concat
    (satisfied : EventsSatisfy property initial log)
    (last : property initial log event) :
    EventsSatisfy property initial (log ++ [event]) := by
  intro before other after isSplit
  rcases List.eq_nil_or_concat after with rfl | ⟨init, final, rfl⟩
  · obtain ⟨rfl, rest⟩ := List.append_inj' isSplit rfl
    obtain ⟨rfl, _⟩ := List.cons.inj rest
    exact last
  · have isInit : log ++ [event] = (before ++ other :: init) ++ [final] := by
      simpa using isSplit
    exact satisfied before other init (List.append_inj_left' isInit rfl)

theorem EventsSatisfy.of_append (satisfied : EventsSatisfy property initial (log ++ log')) :
    EventsSatisfy property initial log := by
  intro before event after isSplit
  apply satisfied before event (after ++ log')
  rw [isSplit]
  simp

theorem EventsSatisfy.last (satisfied : EventsSatisfy property initial (log ++ [event])) :
    property initial log event :=
  satisfied log event [] rfl

theorem EventsSatisfy.imp
    {property' : EventProperty ε Answer Call Store}
    (satisfied : EventsSatisfy property initial log)
    (implies : ∀ before event, property initial before event →
      property' initial before event) :
    EventsSatisfy property' initial log :=
  fun before event after isSplit => implies before event (satisfied before event after isSplit)

theorem eventsSatisfy_iff : EventsSatisfy property initial log ↔
    ∀ position (isPosition : position < log.length),
      property initial (log.take position) log[position] := by
  constructor
  · intro satisfied position isPosition
    apply satisfied _ _ (log.drop (position + 1))
    rw [List.getElem_cons_drop, List.take_append_drop]
  · rintro each before event after rfl
    have atEvent := each before.length (by simp)
    simpa using atEvent

instance [∀ before event, Decidable (property initial before event)] :
    Decidable (EventsSatisfy property initial log) :=
  decidable_of_iff _ eventsSatisfy_iff.symm

/-- What every event with the property keeps holds along a history. -/
theorem EventsSatisfy.kept
    {fact : List (Event ε Answer Call) → Prop}
    (kept : ∀ before event, property initial before event → fact before →
      fact (before ++ [event]))
    (satisfied : EventsSatisfy property initial (log ++ log'))
    (holds : fact log) :
    fact (log ++ log') := by
  induction log' using List.reverseRecOn with
  | nil => rwa [List.append_nil]
  | append_singleton log' event inductionHypothesis =>
      rw [← List.append_assoc] at satisfied ⊢
      exact kept _ event satisfied.last (inductionHypothesis satisfied.of_append)

end Events

/-! ## What a process has done -/

section Progress

variable
    {Progress : Type}
    (next : Progress → Event ε Answer Call → Progress)
    (start : Progress)

/-- How far a process has come, by its own events. -/
def progress (pid : ProcId) (log : List (Event ε Answer Call)) : Progress :=
  (log.filter fun event => event.pid = pid).foldl next start

/-- An event moves its process on. -/
@[simp] theorem progress_concat_self (log : List (Event ε Answer Call))
    (event : Event ε Answer Call) :
    progress next start event.pid (log ++ [event]) =
      next (progress next start event.pid log) event := by
  simp [progress]

/-- An event leaves the other processes where they are. -/
theorem progress_concat_of_ne
    {pid : ProcId}
    {event : Event ε Answer Call}
    (different : event.pid ≠ pid)
    (log : List (Event ε Answer Call)) :
    progress next start pid (log ++ [event]) = progress next start pid log := by
  simp [progress, different]

end Progress

/-! ## Proof rules -/

section Rules

variable
    (effects : Effects ε Answer Store)
    (failure : ε)

/-- An event as the machine performs it. -/
inductive Genuine (initial : Store) (before : List (Event ε Answer Call)) :
    Event ε Answer Call → Prop
  | opened {pid : ProcId} {call : Call} {time : Nat} :
      (∀ event ∈ before, event.time ≤ time) →
      Genuine initial before (.opened pid call time)
  | ok {pid : ProcId} {op : Op} {value : Answer op} {time : Nat} :
      (∀ event ∈ before, event.time ≤ time) →
      (effects op time (replay effects initial before)).1 = .ok value →
      Genuine initial before (.called pid op (.ok value) time)
  | failed {pid : ProcId} {op : Op} {time : Nat} :
      (∀ event ∈ before, event.time ≤ time) →
      Genuine initial before (.called pid op (.error failure) time)

/-- Processes whose events all have the property. -/
def discipline (property : EventProperty ε Answer Call Store) :
    Discipline (Recorded ε Answer Call Store) where
  invariant state :=
    EventsSatisfy (fun initial before event =>
        Genuine effects failure initial before event ∧ property initial before event)
      state.initial state.log ∧
    ∀ event ∈ state.log, event.time ≤ state.clock
  guarantee pid state state' :=
    state'.initial = state.initial ∧ state'.clock = state.clock ∧
      (state'.log = state.log ∨ ∃ event : Event ε Answer Call, event.pid = pid ∧
        state'.log = state.log ++ [event])

variable
    {effects}
    {failure}
    {property : EventProperty ε Answer Call Store}
    {pid : ProcId}
    {Progress : Type}
    {next : Progress → Event ε Answer Call → Progress}
    {start : Progress}

/-- A process can rely on how far it has come. -/
theorem stable_progress (fact : Progress → Prop) :
    Stable (machine effects failure Call) (discipline effects failure property) pid fun state =>
      fact (progress next start pid state.log) := by
  intro state state' _ _ holds change
  rcases change with ⟨other, different, _, _, same | ⟨event, isOther, isLog⟩⟩ | ⟨_, _, rfl⟩
  · rwa [same]
  · rw [isLog, progress_concat_of_ne]
    · exact holds
    · rwa [isOther]
  · exact holds

/-- An operation with the property keeps the invariant, and moves its process
on. -/
theorem perform_progress
    {op : Op}
    {reached : Progress}
    (allowed : ∀ (initial : Store) before answer time,
      progress next start pid before = reached →
      property initial before (.called pid op answer time))
    {answer : Except ε (Answer op)}
    {state state' : Recorded ε Answer Call Store}
    (invariant : (discipline effects failure property).invariant state)
    (holds : progress next start pid state.log = reached)
    (performed : performs effects failure pid op state answer state') :
    (discipline effects failure property).invariant state' ∧
      (discipline effects failure property).guarantee pid state state' ∧
      ∃ time, progress next start pid state'.log =
        next reached (.called pid op answer time) := by
  obtain ⟨isAnswer, rfl⟩ := performed
  refine ⟨⟨?_, ?_⟩, ⟨rfl, rfl, .inr ⟨_, rfl, rfl⟩⟩, state.clock, ?_⟩
  · apply invariant.1.concat
    refine ⟨?_, allowed _ _ _ _ holds⟩
    rcases isAnswer with ⟨value, rfl, isValue⟩ | rfl
    · exact .ok invariant.2 isValue
    · exact .failed invariant.2
  · intro event isEvent
    rcases List.mem_append.mp isEvent with isOld | isNew
    · exact invariant.2 event isOld
    · rw [List.mem_singleton.mp isNew]
      exact Nat.le_refl _
  · exact (progress_concat_self next start state.log (.called pid op answer state.clock)).trans
      (congrArg (next · _) holds)

/-- The rule for an operation. -/
theorem outline_perform
    {op : Op}
    {reached : Progress}
    (allowed : ∀ (initial : Store) before answer time,
      progress next start pid before = reached →
      property initial before (.called pid op answer time)) :
    Outline (machine effects failure Call) (discipline effects failure property) pid
      (Program.perform op)
      (fun state => progress next start pid state.log = reached)
      (byOutcome
        (fun value state => ∃ time, progress next start pid state.log =
          next reached (.called pid op (.ok value) time))
        fun error state => ∃ time, progress next start pid state.log =
          next reached (.called pid op (.error error) time)) := by
  apply Outline.perform
  · exact fun value => stable_progress fun reached' =>
      ∃ time, reached' = next reached (.called pid op (.ok value) time)
  · exact fun error => stable_progress fun reached' =>
      ∃ time, reached' = next reached (.called pid op (.error error) time)
  · exact fun value state state' => perform_progress allowed
  · exact fun error state state' => perform_progress allowed

variable
    {α : Type}
    {body : Call → Program ε Answer α}
    {post : Call → Except ε α → Progress → Prop}

/-- What every run from a store without history keeps, when all programs have
outlines. -/
theorem sound_of_outlines
    (opens : ∀ (initial : Store) before pid call time, progress next start pid before = start →
      property initial before (.opened pid call time))
    (outlines : ∀ pid call time,
      Outline (machine effects failure Call) (discipline effects failure property) pid (body call)
        (fun state => progress next start pid state.log = next start (.opened pid call time))
        fun result state => post call result (progress next start pid state.log))
    {initial : Store}
    {clock : Nat}
    {config : Config ε Answer Call (Recorded ε Answer Call Store) α}
    (reachable : Reachable (machine effects failure Call) body (Recorded.start initial clock)
      config) :
    (discipline effects failure property).invariant config.shared ∧
      ∀ pid call result, config.process pid = some (call, .finished result) →
        post call result (progress next start pid config.shared.log) := by
  have outlined : Outlined (machine effects failure Call) (discipline effects failure property)
      body (fun pid state => progress next start pid state.log = start)
      fun pid call result state => post call result (progress next start pid state.log) := by
    refine ⟨fun pid => stable_progress (· = start),
      fun pid call result => stable_progress (post call result), ?_, ?_⟩
    · intro state state' invariant passes
      obtain ⟨later, isLater, rfl⟩ := passes
      exact ⟨invariant.1, fun event isEvent => Nat.le_trans (invariant.2 event isEvent) isLater⟩
    · intro pid call
      refine ⟨fun state => ∃ time, progress next start pid state.log =
        next start (.opened pid call time), ?_, ?_, ?_⟩
      · exact stable_progress fun reached => ∃ time, reached = next start (.opened pid call time)
      · intro state invariant isIdle
        refine ⟨⟨?_, ?_⟩, ⟨rfl, rfl, .inr ⟨_, rfl, rfl⟩⟩, state.clock, ?_⟩
        · exact invariant.1.concat ⟨.opened invariant.2, opens _ _ _ _ _ isIdle⟩
        · intro event isEvent
          rcases List.mem_append.mp isEvent with isOld | isNew
          · exact invariant.2 event isOld
          · rw [List.mem_singleton.mp isNew]
            exact Nat.le_refl _
        · exact (progress_concat_self next start state.log
            (.opened pid call state.clock)).trans (congrArg (next · _) isIdle)
      · apply Outline.exists
        intro time
        apply (outlines pid call time).consequence
        intro result state invariant holds
        exact ⟨invariant, ⟨rfl, rfl, .inl rfl⟩, holds⟩
  have started : (discipline effects failure property).invariant
      (Recorded.start initial clock : Recorded ε Answer Call Store) :=
    ⟨eventsSatisfy_nil, by simp [Recorded.start]⟩
  exact outlined.sound started (fun pid => rfl) reachable

/-- A run extends the history, and time passes. -/
theorem log_extends
    {config config' : Config ε Answer Call (Recorded ε Answer Call Store) α}
    (steps : Steps (machine effects failure Call) body config config') :
    config'.shared.initial = config.shared.initial ∧
      config.shared.clock ≤ config'.shared.clock ∧
      ∃ events, config'.shared.log = config.shared.log ++ events ∧
        ∀ event ∈ events, config.shared.clock ≤ event.time := by
  induction steps with
  | refl => exact ⟨rfl, Nat.le_refl _, [], by simp⟩
  | @tail middle _ _ step inductionHypothesis =>
      obtain ⟨sameInitial, isLater, events, isLog, times⟩ := inductionHypothesis
      have timely : ∀ last : Event ε Answer Call, last.time = middle.shared.clock →
          ∀ event ∈ events ++ [last], config.shared.clock ≤ event.time := by
        intro last isNow event isEvent
        rcases List.mem_append.mp isEvent with isOld | isNew
        · exact times event isOld
        · rw [List.mem_singleton.mp isNew, isNow]
          exact isLater
      cases step with
      | start pid call _ =>
          refine ⟨sameInitial, isLater, events ++ [.opened pid call middle.shared.clock], ?_, ?_⟩
          · simp [machine, isLog]
          · exact timely (.opened pid call middle.shared.clock) rfl
      | @perform pid call op _ answer _ _ performed =>
          obtain ⟨_, rfl⟩ := performed
          refine ⟨sameInitial, isLater,
            events ++ [.called pid op answer middle.shared.clock], ?_, ?_⟩
          · simp only [isLog, List.append_assoc]
          · exact timely (.called pid op answer middle.shared.clock) rfl
      | finish _ _ => exact ⟨sameInitial, isLater, events, isLog, times⟩
      | environment passes =>
          obtain ⟨later, isLater', rfl⟩ := passes
          exact ⟨sameInitial, Nat.le_trans isLater isLater', events, isLog, times⟩

/-- A step adds at most one event to the history. -/
theorem log_step
    {config config' : Config ε Answer Call (Recorded ε Answer Call Store) α}
    (step : Step (machine effects failure Call) body config config') :
    config'.shared.log = config.shared.log ∨
      ∃ event, config'.shared.log = config.shared.log ++ [event] := by
  cases step with
  | start pid call _ => exact .inr ⟨_, rfl⟩
  | perform _ performed =>
      obtain ⟨_, rfl⟩ := performed
      exact .inr ⟨_, rfl⟩
  | finish _ _ => exact .inl rfl
  | environment passes =>
      obtain ⟨later, _, rfl⟩ := passes
      exact .inl rfl

/-- A run passes through every part of its history. -/
theorem exists_between
    {config config' : Config ε Answer Call (Recorded ε Answer Call Store) α}
    (steps : Steps (machine effects failure Call) body config config')
    {log : List (Event ε Answer Call)}
    (isLater : config.shared.log <+: log)
    (isEarlier : log <+: config'.shared.log) :
    ∃ between, Steps (machine effects failure Call) body config between ∧
      Steps (machine effects failure Call) body between config' ∧ between.shared.log = log := by
  induction steps with
  | refl => exact ⟨config, .refl, .refl, isLater.eq_of_length_le isEarlier.length_le⟩
  | @tail middle last steps step inductionHypothesis =>
      have ofMiddle : log <+: middle.shared.log →
          ∃ between, Steps (machine effects failure Call) body config between ∧
            Steps (machine effects failure Call) body between last ∧ between.shared.log = log := by
        intro isBefore
        obtain ⟨between, first, second, isLog⟩ := inductionHypothesis isBefore
        exact ⟨between, first, second.tail step, isLog⟩
      rcases log_step step with sameLog | ⟨event, isLonger⟩
      · exact ofMiddle (sameLog ▸ isEarlier)
      · rw [isLonger, List.prefix_concat_iff] at isEarlier
        rcases isEarlier with isWhole | isBefore
        · exact ⟨last, steps.tail step, .refl, isLonger.trans isWhole.symm⟩
        · exact ofMiddle isBefore

end Rules

/-! ## Schedules -/

section Schedules

variable
    {α : Type}
    (effects : Effects ε Answer Store)
    (failure : ε)
    (body : Call → Program ε Answer α)

/-- What a scheduler lets happen next. -/
inductive Action (Call : Type)
  | start (pid : ProcId) (call : Call)
  /-- The process performs its next operation, or finishes. -/
  | step (pid : ProcId)
  | wait (duration : Nat)

/-- The answer of an operation that does not fail by chance. -/
def answered (op : Op) (state : Recorded ε Answer Call Store) : Except ε (Answer op) :=
  match (effects op state.clock (state.store effects)).1 with
  | .ok value => .ok value
  | .error _ => .error failure

/-- The configuration after an action. -/
def advance (config : Config ε Answer Call (Recorded ε Answer Call Store) α) :
    Action Call → Config ε Answer Call (Recorded ε Answer Call Store) α
  | .start pid call =>
      match config.process pid with
      | some _ => config
      | none =>
          ⟨(machine effects failure Call).opening pid call config.shared,
            Function.update config.process pid (some (call, .running (body call)))⟩
  | .step pid =>
      match config.process pid with
      | some (call, .running (.call op next)) =>
          let answer := answered effects failure op config.shared
          ⟨{ config.shared with
              log := config.shared.log ++ [.called pid op answer config.shared.clock] },
            Function.update config.process pid (some (call, .running (next answer)))⟩
      | some (call, .running (.ret value)) =>
          ⟨config.shared,
            Function.update config.process pid (some (call, .finished (.ok value)))⟩
      | some (call, .running (.raise error)) =>
          ⟨config.shared,
            Function.update config.process pid (some (call, .finished (.error error)))⟩
      | _ => config
  | .wait duration =>
      ⟨{ config.shared with clock := config.shared.clock + duration }, config.process⟩

/-- An action is a step, or nothing happens. -/
theorem steps_of_action
    (config : Config ε Answer Call (Recorded ε Answer Call Store) α)
    (action : Action Call) :
    Steps (machine effects failure Call) body config
      (advance effects failure body config action) := by
  cases action with
  | start pid call =>
      unfold advance
      dsimp only
      split
      · exact .refl
      · rename_i isIdle
        exact .single (.start pid call isIdle)
  | step pid =>
      unfold advance
      dsimp only
      split
      · rename_i call op next isRunning
        refine .single (.perform isRunning ⟨?_, rfl⟩)
        unfold answered
        cases (effects op config.shared.clock (config.shared.store effects)).1 with
        | ok value => exact .inl ⟨value, rfl, rfl⟩
        | error error => exact .inr rfl
      · rename_i call value isRunning
        exact .single (.finish isRunning rfl)
      · rename_i call error isRunning
        exact .single (.finish isRunning rfl)
      · exact .refl
  | wait duration => exact .single (.environment ⟨_, Nat.le_add_right _ _, rfl⟩)

/-- The configuration after a schedule. -/
def schedule (config : Config ε Answer Call (Recorded ε Answer Call Store) α)
    (actions : List (Action Call)) : Config ε Answer Call (Recorded ε Answer Call Store) α :=
  actions.foldl (advance effects failure body) config

/-- A schedule is a run. -/
theorem steps_of_schedule
    (config : Config ε Answer Call (Recorded ε Answer Call Store) α)
    (actions : List (Action Call)) :
    Steps (machine effects failure Call) body config
      (schedule effects failure body config actions) := by
  induction actions generalizing config with
  | nil => exact .refl
  | cons action actions inductionHypothesis =>
      exact (steps_of_action effects failure body config action).trans (inductionHypothesis _)

end Schedules

end Atomic
end SigmaForge
