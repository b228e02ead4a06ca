import SigmaForge.Foundation.Phases
import SigmaForge.Foundation.Serial

/-!
# Where the rows come from

If the programs of a call issue only writes with a property, then everything that is committed
is there from the start or comes from the writes of some call.
-/

namespace SigmaForge
namespace ReadCommitted

section Provenance

variable
    {Store Key Write Statement : Type}
    {Answer : Statement → Type}
    {ε Call α : Type}
    {schema : Schema Store Key Write Answer}
    {failure : ε}

/-- What is closed under the writes of a history is true after it. -/
theorem replay_induction
    {holds : Store → Prop}
    {written : Write → Prop}
    (keeps : ∀ store write, written write → holds store → holds (schema.apply store write))
    {initial : Store}
    (isInitial : holds initial)
    {log : List (Event Key Write)}
    (isWritten : ∀ pid writes, .committed pid writes ∈ log → ∀ write ∈ writes, written write) :
    holds (replay schema initial log) := by
  have applied : ∀ (writes : List Write) store, (∀ write ∈ writes, written write) →
      holds store → holds (writes.foldl schema.apply store) := by
    intro writes
    induction writes with
    | nil => exact fun _ _ isTrue => isTrue
    | cons write writes inductionHypothesis =>
        intro store areWritten isTrue
        apply inductionHypothesis
        · exact fun other isIn => areWritten other (List.mem_cons_of_mem _ isIn)
        · exact keeps store write (areWritten write List.mem_cons_self) isTrue
  induction log generalizing initial with
  | nil => exact isInitial
  | cons event log inductionHypothesis =>
      refine inductionHypothesis ?_ fun pid writes isIn =>
        isWritten pid writes (List.mem_cons_of_mem _ isIn)
      cases event with
      | acquired pid key => exact isInitial
      | committed pid writes =>
          exact applied writes initial (isWritten pid writes List.mem_cons_self) isInitial

variable
    [DecidableEq Key]
    {body : Call → Program ε (SessionAnswer Answer) α}

/-- An operation leaves only writes behind that it may issue. -/
theorem pending_of_performs
    {property : Write → Prop}
    {pid : ProcId}
    {op : SessionOp Statement}
    {db db' : Db Store Key Write}
    {answer : Except ε (SessionAnswer Answer op)}
    (isAllowed : Writes schema property op)
    (performed : performs schema failure pid op db answer db')
    (isPending : ∀ write ∈ db.pending pid, property write) :
    ∀ write ∈ db'.pending pid, property write := by
  have released : ∀ write ∈ (db.release pid).pending pid, property write := by
    intro write isIn
    rw [(clear_release pid db).1] at isIn
    cases isIn
  match op, answer, performed with
  | .execute statement, .ok answer, ⟨_, _, isAfter⟩ =>
      subst isAfter
      simp only [Db.executed, Function.update_self, List.mem_append]
      rintro write (isOld | isNew)
      · exact isPending write isOld
      · exact isAllowed _ write isNew
  | .execute _, .error _, ⟨_, isAfter⟩ => exact isAfter ▸ isPending
  | .commit, .ok _, isAfter => exact isAfter ▸ released
  | .commit, .error _, ⟨_, isAfter⟩ => exact isAfter ▸ released
  | .rollback, .ok _, isAfter => exact isAfter ▸ released
  | .rollback, .error _, ⟨_, isAfter⟩ => exact isAfter ▸ released
  | .now, .ok _, ⟨_, isAfter⟩ => exact isAfter ▸ isPending

/-- What the sessions have written, and will write, comes from their calls. -/
structure Comes (schema : Schema Store Key Write Answer) (property : Call → Write → Prop)
    (config : Config ε (SessionAnswer Answer) Call (Db Store Key Write) α) : Prop where
  running : ∀ pid call program, config.process pid = some (call, .running program) →
    program.Only (Writes schema (property call)) ∧
      ∀ write ∈ config.shared.pending pid, property call write
  committed : ∀ pid writes, .committed pid writes ∈ config.shared.log →
    ∃ call, Serves config pid call ∧ ∀ write ∈ writes, property call write

/-- One session has moved. -/
theorem Comes.of_moved
    {property : Call → Write → Prop}
    {config config' : Config ε (SessionAnswer Answer) Call (Db Store Key Write) α}
    (comes : Comes schema property config)
    (step : Step (machine schema failure Call) body config config')
    {pid : ProcId}
    {call : Call}
    {program : Program ε (SessionAnswer Answer) α}
    (wasRunning : config.process pid = some (call, .running program))
    (moves : Moves pid config.shared config'.shared)
    (elsewhere : ∀ other, other ≠ pid → config'.process other = config.process other)
    (here : ∀ call' program', config'.process pid = some (call', .running program') →
      program'.Only (Writes schema (property call')) ∧
        ∀ write ∈ config'.shared.pending pid, property call' write) :
    Comes schema property config' := by
  constructor
  case running =>
    intro other call' program' isRunning
    by_cases isOwn : other = pid
    · subst isOwn
      exact here call' program' isRunning
    · rw [elsewhere other isOwn] at isRunning
      rw [moves.pending other isOwn]
      exact comes.running other call' program' isRunning
  case committed =>
    intro other writes isIn
    obtain ⟨keys, commits, isLog, isCommit⟩ := moves.log
    rw [isLog, List.mem_append, List.mem_append] at isIn
    rcases isIn with isOld | isAcquired | isNew
    · obtain ⟨call', serves, isWritten⟩ := comes.committed other writes isOld
      exact ⟨call', serves.step step, isWritten⟩
    · obtain ⟨_, _, isEvent⟩ := List.mem_map.mp isAcquired
      cases isEvent
    · rcases isCommit with rfl | rfl
      · cases isNew
      · cases List.mem_singleton.mp isNew
        have serves : Serves config pid call := ⟨_, wasRunning⟩
        exact ⟨call, serves.step step, (comes.running pid call program wasRunning).2⟩

/-- In every run, what is committed comes from the calls. -/
theorem comes_of_reachable
    {property : Call → Write → Prop}
    (only : ∀ call, (body call).Only (Writes schema (property call)))
    {initial : Store}
    {clock : Nat}
    {config : Config ε (SessionAnswer Answer) Call (Db Store Key Write) α}
    (reachable : Reachable (machine schema failure Call) body (Db.start initial clock) config) :
    Comes schema property config := by
  induction reachable with
  | refl =>
      constructor
      case running => exact fun _ _ _ isRunning => nomatch isRunning
      case committed => exact fun _ _ isIn => nomatch isIn
  | @tail config config' reachable step comes =>
      have settled := settled_of_reachable reachable
      have stepped := step
      cases step with
      | start pid call isIdle =>
          have clear : Clear pid config.shared := settled.clear_of_idle isIdle
          constructor
          case running =>
            intro other call' program isRunning
            by_cases isOwn : other = pid
            · subst isOwn
              simp only [Function.update_self] at isRunning
              cases isRunning
              refine ⟨only call, fun write isIn => ?_⟩
              change write ∈ config.shared.pending other at isIn
              rw [clear.1] at isIn
              cases isIn
            · simp only [Function.update_of_ne isOwn] at isRunning
              exact comes.running other call' program isRunning
          case committed =>
            intro other writes isIn
            obtain ⟨call', serves, isWritten⟩ := comes.committed other writes isIn
            exact ⟨call', serves.step stepped, isWritten⟩
      | @perform pid call op next answer shared wasRunning performed =>
          obtain ⟨⟨isAllowed, isNext⟩, isPending⟩ := comes.running pid call _ wasRunning
          refine comes.of_moved stepped wasRunning
            (performs_moves schema performed)
            (fun other isOther => Function.update_of_ne isOther _ _) ?_
          intro call' program' isRunning
          simp only [Function.update_self] at isRunning
          cases isRunning
          exact ⟨isNext answer, pending_of_performs isAllowed performed isPending⟩
      | @finish pid call program result wasRunning isDone =>
          refine comes.of_moved stepped wasRunning
            (release_moves pid config.shared)
            (fun other isOther => Function.update_of_ne isOther _ _) ?_
          intro call' program' isRunning
          simp only [Function.update_self] at isRunning
          cases isRunning
      | environment passes =>
          obtain ⟨later, _, rfl⟩ := passes
          refine ⟨comes.running, fun pid writes isIn => ?_⟩
          obtain ⟨call, serves, isWritten⟩ := comes.committed pid writes isIn
          exact ⟨call, serves.step stepped, isWritten⟩

/-- What holds at the start, and is kept by every write of a call, holds of what is committed. -/
theorem holds_of_reachable
    {property : Call → Write → Prop}
    (only : ∀ call, (body call).Only (Writes schema (property call)))
    {initial : Store}
    {clock : Nat}
    {config : Config ε (SessionAnswer Answer) Call (Db Store Key Write) α}
    (reachable : Reachable (machine schema failure Call) body (Db.start initial clock) config)
    {holds : Store → Prop}
    (keeps : ∀ pid call store write, Serves config pid call → property call write →
      holds store → holds (schema.apply store write))
    (isInitial : holds initial) :
    holds (config.shared.committed schema) := by
  have comes : Comes schema property config := comes_of_reachable only reachable
  have sameInitial : config.shared.initial = initial := (log_extends reachable).1
  have kept : ∀ store write, (∃ pid call, Serves config pid call ∧ property call write) →
      holds store → holds (schema.apply store write) := by
    rintro store write ⟨pid, call, serves, isOwn⟩ isTrue
    exact keeps pid call store write serves isOwn isTrue
  refine replay_induction kept (sameInitial ▸ isInitial) fun pid writes isIn write isWrite => ?_
  obtain ⟨call, serves, areOwn⟩ := comes.committed pid writes isIn
  exact ⟨pid, call, serves, areOwn write isWrite⟩

end Provenance

end ReadCommitted
end SigmaForge
