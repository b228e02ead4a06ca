import SigmaForge.Foundation.ReadCommitted
import SigmaForge.Foundation.Typestate

/-!
# Phases of sessions

A session whose program follows a protocol is in a phase of it at every moment of a run,
and what the phase means is true of the database.  So what the phases say before a commit
is true of all commits, and what they say at the end is true of all results.
-/

namespace SigmaForge
namespace ReadCommitted

section Running

variable
    {ε Call α Store Key Write Statement : Type}
    {Answer : Statement → Type}
    (config : Config ε (SessionAnswer Answer) Call (Db Store Key Write) α)

/-- The session has started and not ended. -/
def Running (pid : ProcId) : Prop :=
  ∃ call program, config.process pid = some (call, .running program)

end Running

section Phases

variable
    {ε Call α Store Key Write Statement Phase : Type}
    {Answer : Statement → Type}
    [DecidableEq Key]
    {schema : Schema Store Key Write Answer}
    {failure : ε}
    {body : Call → Program ε (SessionAnswer Answer) α}

/-- The session has no transaction: nothing is pending, and it holds no lock. -/
def Clear (pid : ProcId) (db : Db Store Key Write) : Prop :=
  db.pending pid = [] ∧ ∀ key, db.holder key ≠ some pid

omit [DecidableEq Key] in
theorem clear_release (pid : ProcId) (db : Db Store Key Write) : Clear pid (db.release pid) := by
  refine ⟨Function.update_self _ _ _, fun key => ?_⟩
  simp only [Db.release]
  split_ifs with isHeld
  · simp
  · exact isHeld

omit [DecidableEq Key] in
theorem clear_commit (pid : ProcId) (db : Db Store Key Write) : Clear pid (db.commit pid) :=
  clear_release pid db

omit [DecidableEq Key] in
theorem Clear.of_moves
    {pid other : ProcId}
    {db db' : Db Store Key Write}
    (clear : Clear pid db)
    (different : other ≠ pid)
    (moves : Moves other db db') :
    Clear pid db' := by
  refine ⟨(moves.pending pid different.symm).trans clear.1, fun key isHeld => ?_⟩
  exact clear.2 key ((moves.holder key pid different.symm).mp isHeld)

omit [DecidableEq Key] in
/-- What no write changes is still true of what is committed. -/
theorem Moves.committed_kept
    (fact : Store → Prop)
    (kept : ∀ store write, fact store → fact (schema.apply store write))
    {pid : ProcId}
    {db db' : Db Store Key Write}
    (moves : Moves pid db db')
    (holds : fact (db.committed schema)) :
    fact (db'.committed schema) := by
  obtain ⟨keys, commits, isLog, _⟩ := moves.log
  rw [Db.committed, moves.initial, isLog]
  exact replay_kept kept holds _

/-- The locks of a session after one of its statements. -/
theorem holder_executed
    {β : Type}
    {pid : ProcId}
    {effect : Effect Key Write β}
    {db : Db Store Key Write}
    {key : Key}
    (isHeld : (db.executed pid effect).holder key = some pid) :
    key ∈ effect.locks ∨ db.holder key = some pid := by
  simp only [Db.executed] at isHeld
  split_ifs at isHeld with isLocked
  · exact .inl isLocked
  · exact .inr isHeld

/-- What a session has pending is locked by it, and a session that does not run has no
transaction. -/
structure Settled
    (schema : Schema Store Key Write Answer)
    (config : Config ε (SessionAnswer Answer) Call (Db Store Key Write) α) : Prop where
  locked : Locked schema config.shared
  clear : ∀ pid, Running config pid ∨ Clear pid config.shared

omit [DecidableEq Key] in
/-- A session that has not started has no transaction. -/
theorem Settled.clear_of_idle
    {config : Config ε (SessionAnswer Answer) Call (Db Store Key Write) α}
    (settled : Settled schema config)
    {pid : ProcId}
    (isIdle : config.process pid = none) :
    Clear pid config.shared := by
  refine (settled.clear pid).resolve_left ?_
  rintro ⟨_, _, wasRunning⟩
  rw [isIdle] at wasRunning
  contradiction

omit [DecidableEq Key] in
/-- A session that moves leaves the others settled. -/
theorem Settled.update
    {config : Config ε (SessionAnswer Answer) Call (Db Store Key Write) α}
    (settled : Settled schema config)
    {pid : ProcId}
    {moved : Call × Status ε (SessionAnswer Answer) α}
    {shared : Db Store Key Write}
    (locked : Locked schema shared)
    (moves : Moves pid config.shared shared)
    (own : (∃ call program, moved = (call, .running program)) ∨ Clear pid shared) :
    Settled schema ⟨shared, Function.update config.process pid (some moved)⟩ := by
  refine ⟨locked, fun other => ?_⟩
  by_cases isOwn : other = pid
  · subst isOwn
    refine own.imp_left fun isRunning => ?_
    obtain ⟨call, program, rfl⟩ := isRunning
    exact ⟨call, program, Function.update_self _ _ _⟩
  · refine (settled.clear other).imp ?_ fun clear => clear.of_moves (Ne.symm isOwn) moves
    rintro ⟨call, program, isRunning⟩
    exact ⟨call, program, (Function.update_of_ne isOwn _ _).trans isRunning⟩

theorem Settled.step
    {config config' : Config ε (SessionAnswer Answer) Call (Db Store Key Write) α}
    (settled : Settled schema config)
    (step : Step (machine schema failure Call) body config config') :
    Settled schema config' := by
  cases step with
  | start pid call _ =>
      exact settled.update settled.locked (moves_refl pid config.shared) (.inl ⟨_, _, rfl⟩)
  | perform _ performed =>
      obtain ⟨moves, locked⟩ := perform_moves_locked schema performed settled.locked
      exact settled.update locked moves (.inl ⟨_, _, rfl⟩)
  | @finish pid call program result _ _ =>
      exact settled.update (release_locked schema pid settled.locked)
        (release_moves pid config.shared) (.inr (clear_release pid config.shared))
  | environment passes =>
      obtain ⟨later, _, rfl⟩ := passes
      exact ⟨settled.locked, settled.clear⟩

theorem settled_of_reachable
    {initial : Store}
    {clock : Nat}
    {config : Config ε (SessionAnswer Answer) Call (Db Store Key Write) α}
    (reachable : Reachable (machine schema failure Call) body (Db.start initial clock) config) :
    Settled schema config := by
  induction reachable with
  | refl =>
      refine ⟨?_, fun pid => .inr ⟨rfl, by simp [Config.initial, Db.start]⟩⟩
      intro pid write isPending
      simp [Config.initial, Db.start] at isPending
  | tail _ step inductionHypothesis => exact inductionHypothesis.step step

omit [DecidableEq Key] in
/-- A transaction that holds a lock is one of a session that runs. -/
theorem Settled.running_of_holder
    {config : Config ε (SessionAnswer Answer) Call (Db Store Key Write) α}
    (settled : Settled schema config)
    {pid : ProcId}
    {key : Key}
    (isHeld : config.shared.holder key = some pid) :
    Running config pid :=
  (settled.clear pid).resolve_right fun clear => clear.2 key isHeld

/-! ## What phases mean -/

/-- What a phase means: it is true of a session without a transaction at
the start, the operations of the session lead from phase to phase, and the other sessions
keep it. -/
structure Tracks
    (schema : Schema Store Key Write Answer)
    (failure : ε)
    (protocol : Call → Protocol ε (SessionAnswer Answer) Phase)
    (start : Phase)
    (means : ProcId → Call → Phase → Db Store Key Write → Prop) : Prop where
  opens : ∀ pid call db, Clear pid db → means pid call start db
  own : ∀ pid call phase op answer db db', Locked schema db → means pid call phase db →
    (protocol call).allowed phase op → performs schema failure pid op db answer db' →
    means pid call ((protocol call).next phase op answer) db'
  others : ∀ pid call phase other db db', other ≠ pid → Locked schema db →
    Moves other db db' → means pid call phase db → means pid call phase db'
  timeless : ∀ pid call phase db later, db.clock ≤ later → means pid call phase db →
    means pid call phase { db with clock := later }

/-- In every run, a session whose program follows a protocol is in a phase of it, and
what the phase means is true. -/
theorem Tracks.phase_of_running
    {protocol : Call → Protocol ε (SessionAnswer Answer) Phase}
    {start : Phase}
    {means : ProcId → Call → Phase → Db Store Key Write → Prop}
    (tracks : Tracks schema failure protocol start means)
    {post : Call → Phase → Except ε α → Prop}
    (follows : ∀ call, Follows (protocol call) start (body call) (post call))
    {initial : Store}
    {clock : Nat}
    {config : Config ε (SessionAnswer Answer) Call (Db Store Key Write) α}
    (reachable : Reachable (machine schema failure Call) body (Db.start initial clock) config)
    {pid : ProcId}
    {call : Call}
    {program : Program ε (SessionAnswer Answer) α}
    (isRunning : config.process pid = some (call, .running program)) :
    ∃ phase, means pid call phase config.shared ∧
      Follows (protocol call) phase program (post call) := by
  induction reachable generalizing pid call program with
  | refl => simp [Config.initial] at isRunning
  | @tail config config' reachable step inductionHypothesis =>
      have settled := settled_of_reachable reachable
      cases step with
      | start mover call' isIdle =>
          by_cases isOwn : pid = mover
          · subst isOwn
            simp only [Function.update_self, Option.some.injEq, Prod.mk.injEq,
              Status.running.injEq] at isRunning
            obtain ⟨rfl, rfl⟩ := isRunning
            exact ⟨start, tracks.opens pid _ _ (settled.clear_of_idle isIdle), follows _⟩
          · simp only [Function.update_of_ne isOwn] at isRunning
            exact inductionHypothesis isRunning
      | @perform mover call' op next answer shared wasRunning performed =>
          by_cases isOwn : pid = mover
          · subst isOwn
            simp only [Function.update_self, Option.some.injEq, Prod.mk.injEq,
              Status.running.injEq] at isRunning
            obtain ⟨rfl, rfl⟩ := isRunning
            obtain ⟨phase, isTrue, isAllowed, rest⟩ := inductionHypothesis wasRunning
            have isNext := tracks.own pid _ phase op answer _ _ settled.locked isTrue isAllowed
              performed
            exact ⟨_, isNext, rest answer⟩
          · simp only [Function.update_of_ne isOwn] at isRunning
            obtain ⟨phase, isTrue, rest⟩ := inductionHypothesis isRunning
            exact ⟨phase, tracks.others pid _ phase mover _ _ (Ne.symm isOwn) settled.locked
              (performs_moves schema performed) isTrue, rest⟩
      | @finish mover call' ended result wasRunning _ =>
          by_cases isOwn : pid = mover
          · subst isOwn
            simp at isRunning
          · simp only [Function.update_of_ne isOwn] at isRunning
            obtain ⟨phase, isTrue, rest⟩ := inductionHypothesis isRunning
            exact ⟨phase, tracks.others pid _ phase mover _ _ (Ne.symm isOwn) settled.locked
              (release_moves mover _) isTrue, rest⟩
      | environment passes =>
          obtain ⟨later, isLater, rfl⟩ := passes
          obtain ⟨phase, isTrue, rest⟩ := inductionHypothesis isRunning
          exact ⟨phase, tracks.timeless pid _ phase _ later isLater isTrue, rest⟩

/-! ## Commits and results -/

/-- The session has the call. -/
def Serves (config : Config ε (SessionAnswer Answer) Call (Db Store Key Write) α) (pid : ProcId)
    (call : Call) : Prop :=
  ∃ status, config.process pid = some (call, status)

omit [DecidableEq Key] in
/-- A session has one call. -/
theorem Serves.unique
    {config : Config ε (SessionAnswer Answer) Call (Db Store Key Write) α}
    {pid : ProcId}
    {call call' : Call}
    (serves : Serves config pid call)
    (serves' : Serves config pid call') :
    call = call' := by
  obtain ⟨status, isProcess⟩ := serves
  obtain ⟨status', isProcess'⟩ := serves'
  exact congrArg Prod.fst (Option.some.inj (isProcess.symm.trans isProcess'))

/-- A session keeps its call. -/
theorem Serves.step
    {config config' : Config ε (SessionAnswer Answer) Call (Db Store Key Write) α}
    {pid : ProcId}
    {call : Call}
    (serves : Serves config pid call)
    (step : Step (machine schema failure Call) body config config') :
    Serves config' pid call := by
  obtain ⟨status, isStarted⟩ := serves
  have moved : ∀ {mover : ProcId} {call' : Call} {before after : Status ε (SessionAnswer Answer) α}
      {shared : Db Store Key Write}, config.process mover = some (call', before) →
      Serves ⟨shared, Function.update config.process mover (some (call', after))⟩ pid call := by
    intro mover call' before after shared wasStarted
    by_cases isOwn : pid = mover
    · subst isOwn
      rw [isStarted, Option.some.injEq, Prod.mk.injEq] at wasStarted
      obtain ⟨rfl, _⟩ := wasStarted
      exact ⟨after, Function.update_self _ _ _⟩
    · exact ⟨status, (Function.update_of_ne isOwn _ _).trans isStarted⟩
  cases step with
  | start mover call' isIdle =>
      have isOther : pid ≠ mover := by
        rintro rfl
        rw [isStarted] at isIdle
        contradiction
      exact ⟨status, (Function.update_of_ne isOther _ _).trans isStarted⟩
  | perform wasRunning _ => exact moved wasRunning
  | finish wasRunning _ => exact moved wasRunning
  | environment _ => exact ⟨status, isStarted⟩

/-- The session has returned the value, or has only its end left. -/
def HasReturned
    (config : Config ε (SessionAnswer Answer) Call (Db Store Key Write) α)
    (pid : ProcId)
    (call : Call)
    (value : α) : Prop :=
  ∃ status, config.process pid = some (call, status) ∧ status.result = some (.ok value)

omit [DecidableEq Key] in
theorem HasReturned.unique
    {config : Config ε (SessionAnswer Answer) Call (Db Store Key Write) α}
    {pid : ProcId}
    {call call' : Call}
    {value value' : α}
    (returned : HasReturned config pid call value)
    (returned' : HasReturned config pid call' value') :
    call = call' ∧ value = value' := by
  obtain ⟨status, isProcess, isResult⟩ := returned
  obtain ⟨status', isProcess', isResult'⟩ := returned'
  rw [isProcess, Option.some.injEq, Prod.mk.injEq] at isProcess'
  obtain ⟨rfl, rfl⟩ := isProcess'
  rw [isResult, Option.some.injEq, Except.ok.injEq] at isResult'
  exact ⟨rfl, isResult'⟩

/-- A session that has returned stays so. -/
theorem HasReturned.step
    {config config' : Config ε (SessionAnswer Answer) Call (Db Store Key Write) α}
    {pid : ProcId}
    {call : Call}
    {value : α}
    (returned : HasReturned config pid call value)
    (step : Step (machine schema failure Call) body config config') :
    HasReturned config' pid call value := by
  obtain ⟨status, isProcess, isResult⟩ := returned
  cases step with
  | start other call' isIdle =>
      have isOther : pid ≠ other := by
        rintro rfl
        rw [isIdle] at isProcess
        contradiction
      exact ⟨status, (Function.update_of_ne isOther _ _).trans isProcess, isResult⟩
  | @perform other call' op next answer shared isRunning _ =>
      have isOther : pid ≠ other := by
        rintro rfl
        rw [isRunning, Option.some.injEq, Prod.mk.injEq] at isProcess
        rw [← isProcess.2] at isResult
        contradiction
      exact ⟨status, (Function.update_of_ne isOther _ _).trans isProcess, isResult⟩
  | @finish other call' program result isRunning isDone =>
      by_cases isOwn : pid = other
      · subst isOwn
        rw [isRunning, Option.some.injEq, Prod.mk.injEq] at isProcess
        obtain ⟨rfl, rfl⟩ := isProcess
        obtain rfl : result = .ok value :=
          Option.some.inj (isDone.symm.trans isResult)
        exact ⟨_, Function.update_self _ _ _, rfl⟩
      · exact ⟨status, (Function.update_of_ne isOwn _ _).trans isProcess, isResult⟩
  | environment _ => exact ⟨status, isProcess, isResult⟩

theorem HasReturned.steps
    {config config' : Config ε (SessionAnswer Answer) Call (Db Store Key Write) α}
    {pid : ProcId}
    {call : Call}
    {value : α}
    (returned : HasReturned config pid call value)
    (steps : Steps (machine schema failure Call) body config config') :
    HasReturned config' pid call value := by
  induction steps with
  | refl => exact returned
  | tail _ step inductionHypothesis => exact inductionHypothesis.step step

/-- The clock of a run does not go back. -/
theorem clock_along
    {config config' : Config ε (SessionAnswer Answer) Call (Db Store Key Write) α}
    (steps : Steps (machine schema failure Call) body config config') :
    config.shared.clock ≤ config'.shared.clock := by
  induction steps with
  | refl => exact Nat.le_refl _
  | tail _ step inductionHypothesis =>
      cases step with
      | start pid call _ => exact inductionHypothesis
      | perform _ performed =>
          exact Nat.le_trans inductionHypothesis
            (Nat.le_of_eq (performs_moves schema performed).clock.symm)
      | finish _ _ => exact inductionHypothesis
      | environment passes =>
          cases passes with
          | intro later found =>
              rw [found.2]
              exact Nat.le_trans inductionHypothesis found.1

/-- Every commit of a run is one of a session, and what the phases say before a commit is
true of it. -/
theorem Tracks.committed
    {protocol : Call → Protocol ε (SessionAnswer Answer) Phase}
    {start : Phase}
    {means : ProcId → Call → Phase → Db Store Key Write → Prop}
    (tracks : Tracks schema failure protocol start means)
    {post : Call → Phase → Except ε α → Prop}
    (follows : ∀ call, Follows (protocol call) start (body call) (post call))
    (justified : Call → CommitProperty Store Key Write)
    (justifies : ∀ pid call phase db, means pid call phase db →
      (protocol call).allowed phase .commit →
      justified call db.initial db.log pid (db.pending pid))
    {initial : Store}
    {clock : Nat}
    {config : Config ε (SessionAnswer Answer) Call (Db Store Key Write) α}
    (reachable : Reachable (machine schema failure Call) body (Db.start initial clock) config) :
    CommitsSatisfy
      (fun initial before pid writes =>
        ∃ call, Serves config pid call ∧ justified call initial before pid writes)
      config.shared.initial config.shared.log := by
  induction reachable with
  | refl => exact commitsSatisfy_nil _ _
  | @tail config config' reachable step inductionHypothesis =>
      have earlier : CommitsSatisfy
          (fun initial before pid writes =>
            ∃ call, Serves config' pid call ∧ justified call initial before pid writes)
          config.shared.initial config.shared.log := by
        intro before pid writes after isLog
        obtain ⟨call, serves, isJustified⟩ := inductionHypothesis before pid writes after isLog
        exact ⟨call, serves.step step, isJustified⟩
      cases step with
      | start pid call isIdle => exact earlier
      | finish wasRunning isDone => exact earlier
      | environment passes =>
          obtain ⟨later, _, rfl⟩ := passes
          exact earlier
      | @perform pid call op next answer shared wasRunning performed =>
          obtain ⟨phase, isTrue, isAllowed, _⟩ :=
              tracks.phase_of_running follows reachable wasRunning
          have performed : performs schema failure pid op config.shared answer shared := performed
          cases op with
          | execute statement =>
              cases answer with
              | error error =>
                  obtain ⟨_, rfl⟩ := performed
                  exact earlier
              | ok answer =>
                  obtain ⟨_, _, rfl⟩ := performed
                  exact earlier.append_acquired _ _
          | commit =>
              cases answer with
              | error error =>
                  obtain ⟨_, rfl⟩ := performed
                  exact earlier
              | ok _ =>
                  obtain rfl := performed
                  exact earlier.append_committed
                    ⟨call, ⟨_, Function.update_self _ _ _⟩,
                      justifies pid call phase _ isTrue isAllowed⟩
          | rollback =>
              cases answer with
              | error error =>
                  obtain ⟨_, rfl⟩ := performed
                  exact earlier
              | ok _ =>
                  obtain rfl := performed
                  exact earlier
          | now =>
              cases answer with
              | error error => exact performed.elim
              | ok time =>
                  obtain ⟨_, rfl⟩ := performed
                  exact earlier

/-- A fact about a run that stays true as the run goes on. -/
def Endures (fact : Store → List (Event Key Write) → Nat → Prop) : Prop :=
  ∀ initial log events clock later, clock ≤ later → fact initial log clock →
    fact initial (log ++ events) later

/-- What the phases say at the end of a program is true of its result, for ever. -/
theorem Tracks.ended
    {protocol : Call → Protocol ε (SessionAnswer Answer) Phase}
    {start : Phase}
    {means : ProcId → Call → Phase → Db Store Key Write → Prop}
    (tracks : Tracks schema failure protocol start means)
    {post : Call → Phase → Except ε α → Prop}
    (follows : ∀ call, Follows (protocol call) start (body call) (post call))
    (ending : ProcId → Call → Except ε α → Store → List (Event Key Write) → Nat → Prop)
    (endures : ∀ pid call result, Endures (ending pid call result))
    (ends : ∀ pid call phase result db, means pid call phase db → post call phase result →
      ending pid call result db.initial db.log db.clock)
    {initial : Store}
    {clock : Nat}
    {config : Config ε (SessionAnswer Answer) Call (Db Store Key Write) α}
    (reachable : Reachable (machine schema failure Call) body (Db.start initial clock) config)
    {pid : ProcId}
    {call : Call}
    {status : Status ε (SessionAnswer Answer) α}
    {result : Except ε α}
    (isStarted : config.process pid = some (call, status))
    (isResult : status.result = some result) :
    ending pid call result config.shared.initial config.shared.log config.shared.clock := by
  have ofRunning : ∀ {config : Config ε (SessionAnswer Answer) Call (Db Store Key Write) α}
      {pid call program result},
      Reachable (machine schema failure Call) body (Db.start initial clock) config →
      config.process pid = some (call, .running program) → program.outcome = some result →
      ending pid call result config.shared.initial config.shared.log config.shared.clock := by
    intro config pid call program result reachable isRunning isOutcome
    obtain ⟨phase, isTrue, isPost⟩ := tracks.phase_of_running follows reachable isRunning
    cases program with
    | ret value =>
        obtain rfl : .ok value = result := Option.some.inj isOutcome
        exact ends pid call phase _ _ isTrue isPost
    | raise error =>
        obtain rfl : .error error = result := Option.some.inj isOutcome
        exact ends pid call phase _ _ isTrue isPost
    | call op next => contradiction
  cases status with
  | running program => exact ofRunning reachable isStarted isResult
  | finished ended =>
      obtain rfl : ended = result := Option.some.inj isResult
      clear isResult
      induction reachable with
      | refl => simp [Config.initial] at isStarted
      | @tail config config' reachable step inductionHypothesis =>
          cases step with
          | start mover call' isIdle =>
              by_cases isOwn : pid = mover
              · subst isOwn
                simp at isStarted
              · simp only [Function.update_of_ne isOwn] at isStarted
                exact inductionHypothesis isStarted
          | @perform mover call' op next answer shared wasRunning performed =>
              by_cases isOwn : pid = mover
              · subst isOwn
                simp at isStarted
              · simp only [Function.update_of_ne isOwn] at isStarted
                have moves := performs_moves schema performed
                obtain ⟨keys, commits, isLog, _⟩ := moves.log
                rw [moves.initial, isLog]
                exact endures _ _ _ _ _ _ _ _ (Nat.le_of_eq moves.clock.symm)
                  (inductionHypothesis isStarted)
          | @finish mover call' program result wasRunning isOutcome =>
              by_cases isOwn : pid = mover
              · subst isOwn
                simp only [Function.update_self, Option.some.injEq, Prod.mk.injEq,
                  Status.finished.injEq] at isStarted
                obtain ⟨rfl, rfl⟩ := isStarted
                have isEnding := ofRunning reachable wasRunning isOutcome
                exact isEnding
              · simp only [Function.update_of_ne isOwn] at isStarted
                exact inductionHypothesis isStarted
          | environment passes =>
              obtain ⟨later, isLater, rfl⟩ := passes
              have endured := endures _ _ _ _ _ [] _ _ isLater (inductionHypothesis isStarted)
              rwa [List.append_nil] at endured

end Phases

end ReadCommitted
end SigmaForge
