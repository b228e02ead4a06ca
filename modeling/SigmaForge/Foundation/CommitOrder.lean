import SigmaForge.Foundation.Phases
import Mathlib.Data.List.Nodup

/-!
# The order of commits

A program whose last operation is its commit commits at most once.  The sessions in the
history of commits are then those that have returned, each of them once.  Where every
commit is what its call commits when it is served alone, the calls might as well have been
served one after the other, in the order of their commits.
-/

namespace SigmaForge
namespace ReadCommitted

section Programs

variable
    {ε Statement α β : Type}
    {Answer : Statement → Type}

/-- A program that has committed returns. -/
def CommitsLast : Program ε (SessionAnswer Answer) α → Prop
  | .ret _ => True
  | .raise _ => True
  | .call op next =>
      (match op, next with
        | .commit, next => ∃ value, next (.ok ()) = .ret value
        | _, _ => True) ∧
      ∀ answer, CommitsLast (next answer)

/-- The program does not commit. -/
abbrev NeverCommits (program : Program ε (SessionAnswer Answer) α) : Prop :=
  program.Only (· ≠ .commit)

theorem CommitsLast.of_never
    {program : Program ε (SessionAnswer Answer) α}
    (never : NeverCommits program) :
    CommitsLast program := by
  induction program with
  | ret value => trivial
  | raise error => trivial
  | call op next inductionHypothesis =>
      refine ⟨?_, fun answer => inductionHypothesis answer (never.2 answer)⟩
      cases op with
      | commit => exact absurd rfl never.1
      | _ => trivial

/-- What is done with the result of a program that has committed is to return it. -/
theorem CommitsLast.bind_ret
    {program : Program ε (SessionAnswer Answer) α}
    (last : CommitsLast program)
    (give : α → β) :
    CommitsLast (program.bind fun value => .ret (give value)) := by
  induction program with
  | ret value => trivial
  | raise error => trivial
  | call op next inductionHypothesis =>
      refine ⟨?_, fun answer => inductionHypothesis answer (last.2 answer)⟩
      cases op with
      | commit =>
          obtain ⟨value, isReturn⟩ := last.1
          exact ⟨give value, congrArg (·.bind fun value => .ret (give value)) isReturn⟩
      | _ => trivial

theorem CommitsLast.bind
    {program : Program ε (SessionAnswer Answer) α}
    {rest : α → Program ε (SessionAnswer Answer) β}
    (never : NeverCommits program)
    (last : ∀ value, CommitsLast (rest value)) :
    CommitsLast (program.bind rest) := by
  induction program with
  | ret value => exact last value
  | raise error => trivial
  | call op next inductionHypothesis =>
      refine ⟨?_, fun answer => inductionHypothesis answer (never.2 answer)⟩
      cases op with
      | commit => exact absurd rfl never.1
      | _ => trivial

theorem CommitsLast.catchWith
    {program : Program ε (SessionAnswer Answer) α}
    {handler : ε → Program ε (SessionAnswer Answer) α}
    (last : CommitsLast program)
    (handled : ∀ error, NeverCommits (handler error)) :
    CommitsLast (program.catchWith handler) := by
  induction program with
  | ret value => trivial
  | raise error => exact .of_never (handled error)
  | call op next inductionHypothesis =>
      refine ⟨?_, fun answer => inductionHypothesis answer (last.2 answer)⟩
      cases op with
      | commit =>
          obtain ⟨value, isReturn⟩ := last.1
          exact ⟨value, congrArg (·.catchWith handler) isReturn⟩
      | _ => trivial

end Programs

/-! ## The commits of a history -/

section Commits

variable {Key Write : Type}

/-- The commits of a history in their order. -/
def commits (log : List (Event Key Write)) : List (ProcId × List Write) :=
  log.filterMap fun
    | .acquired _ _ => none
    | .committed pid writes => some (pid, writes)

/-- The sessions that have committed. -/
abbrev committers (log : List (Event Key Write)) : List ProcId := (commits log).map Prod.fst

@[simp] theorem commits_append (log log' : List (Event Key Write)) :
    commits (log ++ log') = commits log ++ commits log' :=
  List.filterMap_append

@[simp] theorem commits_acquired (pid : ProcId) (keys : List Key) :
    commits (keys.map (Event.acquired pid) : List (Event Key Write)) = [] := by
  induction keys with
  | nil => rfl
  | cons key keys inductionHypothesis => exact inductionHypothesis

@[simp] theorem commits_committed
    (pid : ProcId)
    (writes : List Write)
    (log : List (Event Key Write)) :
    commits (.committed pid writes :: log) = (pid, writes) :: commits log := rfl

theorem mem_committers_iff {pid : ProcId} {log : List (Event Key Write)} :
    pid ∈ committers log ↔ ∃ writes, Event.committed pid writes ∈ log := by
  induction log with
  | nil => simp [commits]
  | cons event log inductionHypothesis =>
      cases event with
      | acquired other key =>
          rw [show committers (.acquired other key :: log) = committers log from rfl,
            inductionHypothesis]
          simp
      | committed other writes =>
          rw [show committers (.committed other writes :: log) = other :: committers log from rfl,
            List.mem_cons, inductionHypothesis]
          simp only [List.mem_cons, Event.committed.injEq]
          constructor
          · rintro (rfl | ⟨writes', isLater⟩)
            · exact ⟨writes, .inl ⟨rfl, rfl⟩⟩
            · exact ⟨writes', .inr isLater⟩
          · rintro ⟨writes', ⟨rfl, _⟩ | isLater⟩
            · exact .inl rfl
            · exact .inr ⟨writes', isLater⟩

/-- A commit of the history is in the same place among the commits. -/
theorem exists_commit_split
    {log : List (Event Key Write)}
    {before after : List (ProcId × List Write)}
    {pid : ProcId}
    {writes : List Write}
    (isSplit : commits log = before ++ (pid, writes) :: after) :
    ∃ log₁ log₂, log = log₁ ++ .committed pid writes :: log₂ ∧ commits log₁ = before := by
  induction log generalizing before with
  | nil => simp [commits] at isSplit
  | cons event log inductionHypothesis =>
      cases event with
      | acquired other key =>
          obtain ⟨log₁, log₂, rfl, isBefore⟩ := inductionHypothesis isSplit
          exact ⟨.acquired other key :: log₁, log₂, rfl, isBefore⟩
      | committed other others =>
          rw [commits_committed] at isSplit
          cases before with
          | nil =>
              obtain ⟨isFirst, _⟩ := List.cons.inj isSplit
              obtain ⟨rfl, rfl⟩ := Prod.mk.inj isFirst
              exact ⟨[], log, rfl, rfl⟩
          | cons first before =>
              rw [List.cons_append, List.cons.injEq] at isSplit
              obtain ⟨rfl, isSplit⟩ := isSplit
              obtain ⟨log₁, log₂, rfl, isBefore⟩ := inductionHypothesis isSplit
              exact ⟨.committed other others :: log₁, log₂, rfl,
                congrArg ((other, others) :: ·) isBefore⟩

/-- A session that has committed once has one place in the history. -/
theorem commit_split_unique
    {log log₁ log₂ log₁' log₂' : List (Event Key Write)}
    {pid : ProcId}
    {writes writes' : List Write}
    (once : (committers log).Nodup)
    (isSplit : log = log₁ ++ .committed pid writes :: log₂)
    (isSplit' : log = log₁' ++ .committed pid writes' :: log₂') :
    log₁ = log₁' ∧ writes = writes' := by
  have differ : ∀ {front : List (Event Key Write)} {middle back : List (Event Key Write)}
      {others others' : List Write},
      log = front ++ .committed pid others :: (middle ++ .committed pid others' :: back) →
      False := by
    intro front middle back others others' isLog
    rw [isLog, committers, commits_append, commits_committed, commits_append, commits_committed,
      List.map_append, List.map_cons, List.map_append, List.map_cons] at once
    have unique := (List.nodup_append.mp once).2.1
    exact (List.nodup_cons.mp unique).1 (by simp)
  rcases split_cases (isSplit.symm.trans isSplit') with ⟨rfl, same⟩ | ⟨middle, rfl⟩ | ⟨middle, rfl⟩
  · exact ⟨rfl, (Event.committed.inj same).2⟩
  · rw [List.append_assoc] at isSplit'
    exact (differ isSplit').elim
  · rw [List.append_assoc] at isSplit
    exact (differ isSplit).elim

end Commits

section Runs

variable
    {ε Call α Store Key Write Statement : Type}
    {Answer : Statement → Type}
    [DecidableEq Key]
    {schema : Schema Store Key Write Answer}
    {failure : ε}
    {body : Call → Program ε (SessionAnswer Answer) α}

omit [DecidableEq Key] in
/-- What is committed is the effect of the commits in their order. -/
theorem replay_eq_commits (initial : Store) (log : List (Event Key Write)) :
    replay schema initial log =
      (commits log).foldl (fun store commit => commit.2.foldl schema.apply store) initial := by
  induction log generalizing initial with
  | nil => rfl
  | cons event log inductionHypothesis =>
      cases event with
      | acquired pid key => exact inductionHypothesis initial
      | committed pid writes => exact inductionHypothesis (writes.foldl schema.apply initial)

/-- Every session has committed at most once, and has returned when it has. -/
structure CommittedOnce
    (config : Config ε (SessionAnswer Answer) Call (Db Store Key Write) α) : Prop where
  once : (committers config.shared.log).Nodup
  returned : ∀ pid ∈ committers config.shared.log, ∃ call status value,
    config.process pid = some (call, status) ∧ status.result = some (.ok value)
  last : ∀ pid call program, config.process pid = some (call, .running program) →
    CommitsLast program

omit [DecidableEq Key] in
/-- A step that commits nothing, of a session that has not committed or stays returned. -/
theorem CommittedOnce.of_same_commits
    {config : Config ε (SessionAnswer Answer) Call (Db Store Key Write) α}
    (committed : CommittedOnce config)
    {shared : Db Store Key Write}
    {pid : ProcId}
    {call : Call}
    {status : Status ε (SessionAnswer Answer) α}
    (sameCommits : commits shared.log = commits config.shared.log)
    (stays : pid ∈ committers config.shared.log → ∃ value, status.result = some (.ok value))
    (isLast : ∀ program, status = .running program → CommitsLast program) :
    CommittedOnce (⟨shared, Function.update config.process pid (some (call, status))⟩ :
      Config ε (SessionAnswer Answer) Call (Db Store Key Write) α) := by
  have sameCommitters : committers shared.log = committers config.shared.log :=
    congrArg (List.map Prod.fst) sameCommits
  refine ⟨?_, ?_, ?_⟩
  · exact sameCommitters ▸ committed.once
  · intro other isCommitter
    rw [sameCommitters] at isCommitter
    by_cases isOwn : other = pid
    · subst isOwn
      obtain ⟨value, isResult⟩ := stays isCommitter
      exact ⟨call, status, value, Function.update_self _ _ _, isResult⟩
    · obtain ⟨call', status', value, isProcess, isResult⟩ :=
        committed.returned other isCommitter
      exact ⟨call', status', value, (Function.update_of_ne isOwn _ _).trans isProcess, isResult⟩
  · intro other call' program isRunning
    by_cases isOwn : other = pid
    · subst isOwn
      simp only [Function.update_self, Option.some.injEq, Prod.mk.injEq] at isRunning
      exact isLast program isRunning.2
    · simp only [Function.update_of_ne isOwn] at isRunning
      exact committed.last other call' program isRunning

omit [DecidableEq Key] in
/-- A session that has an operation left has not committed. -/
theorem CommittedOnce.not_mem_of_call
    {config : Config ε (SessionAnswer Answer) Call (Db Store Key Write) α}
    (committed : CommittedOnce config)
    {pid : ProcId}
    {call : Call}
    {op : SessionOp Statement}
    {next : Except ε (SessionAnswer Answer op) → Program ε (SessionAnswer Answer) α}
    (isRunning : config.process pid = some (call, .running (.call op next))) :
    pid ∉ committers config.shared.log := by
  intro isCommitter
  obtain ⟨call', status, value, isProcess, isResult⟩ := committed.returned pid isCommitter
  rw [isRunning, Option.some.injEq, Prod.mk.injEq] at isProcess
  rw [← isProcess.2] at isResult
  contradiction

/-- What a session does other than committing leaves the commits as they are. -/
theorem commits_of_performs
    {pid : ProcId}
    {op : SessionOp Statement}
    {answer : Except ε (SessionAnswer Answer op)}
    {db db' : Db Store Key Write}
    (performed : performs schema failure pid op db answer db')
    (noCommit : op ≠ .commit) :
    commits db'.log = commits db.log := by
  cases op with
  | execute statement =>
      cases answer with
      | ok answer =>
          obtain ⟨_, _, rfl⟩ := performed
          simp [Db.executed]
      | error error =>
          obtain ⟨_, rfl⟩ := performed
          rfl
  | commit => exact absurd rfl noCommit
  | rollback =>
      cases answer with
      | ok value =>
          obtain rfl := performed
          rfl
      | error error =>
          obtain ⟨_, rfl⟩ := performed
          rfl
  | now =>
      cases answer with
      | ok time =>
          obtain ⟨_, rfl⟩ := performed
          rfl
      | error error => exact performed.elim

theorem CommittedOnce.step
    (programs : ∀ call, CommitsLast (body call))
    {config config' : Config ε (SessionAnswer Answer) Call (Db Store Key Write) α}
    (committed : CommittedOnce config)
    (step : Step (machine schema failure Call) body config config') :
    CommittedOnce config' := by
  cases step with
  | start pid call isIdle =>
      apply committed.of_same_commits rfl
      · intro isCommitter
        obtain ⟨_, _, _, isProcess, _⟩ := committed.returned pid isCommitter
        rw [isIdle] at isProcess
        contradiction
      · rintro _ ⟨⟩
        exact programs call
  | @perform pid call op next answer shared isRunning performed =>
      have isNew := committed.not_mem_of_call isRunning
      have isLast := committed.last pid call _ isRunning
      have performed : performs schema failure pid op config.shared answer shared := performed
      cases op with
      | commit =>
          cases answer with
          | error error =>
              obtain ⟨_, rfl⟩ := performed
              refine committed.of_same_commits rfl (fun isCommitter => absurd isCommitter isNew) ?_
              rintro _ ⟨⟩
              exact isLast.2 _
          | ok answer =>
              -- the session returns, and is the last one that has committed
              obtain rfl := performed
              obtain ⟨value, isReturn⟩ := isLast.1
              have isCommitters : committers (config.shared.commit pid).log =
                  committers config.shared.log ++ [pid] := by
                simp [Db.commit, committers, commits]
              refine ⟨?_, ?_, ?_⟩
              · rw [isCommitters, List.nodup_append]
                refine ⟨committed.once, List.nodup_singleton pid, ?_⟩
                rintro other isCommitter _ isPid rfl
                exact isNew (List.mem_singleton.mp isPid ▸ isCommitter)
              · intro other isCommitter
                rw [isCommitters, List.mem_append, List.mem_singleton] at isCommitter
                by_cases isOwn : other = pid
                · subst isOwn
                  refine ⟨call, _, value, Function.update_self _ _ _, ?_⟩
                  rw [Status.result, show next (.ok answer) = .ret value from isReturn]
                  rfl
                · obtain ⟨call', status', value', isProcess, isResult⟩ :=
                    committed.returned other (isCommitter.resolve_right isOwn)
                  exact ⟨call', status', value',
                    (Function.update_of_ne isOwn _ _).trans isProcess, isResult⟩
              · intro other call' program isRunning'
                by_cases isOwn : other = pid
                · subst isOwn
                  simp only [Function.update_self, Option.some.injEq, Prod.mk.injEq,
                    Status.running.injEq] at isRunning'
                  exact isRunning'.2 ▸ isLast.2 _
                · simp only [Function.update_of_ne isOwn] at isRunning'
                  exact committed.last other call' program isRunning'
      | execute statement =>
          refine committed.of_same_commits (commits_of_performs performed (by simp))
            (fun isCommitter => absurd isCommitter isNew) ?_
          rintro _ ⟨⟩
          exact isLast.2 _
      | rollback =>
          refine committed.of_same_commits (commits_of_performs performed (by simp))
            (fun isCommitter => absurd isCommitter isNew) ?_
          rintro _ ⟨⟩
          exact isLast.2 _
      | now =>
          refine committed.of_same_commits (commits_of_performs performed (by simp))
            (fun isCommitter => absurd isCommitter isNew) ?_
          rintro _ ⟨⟩
          exact isLast.2 _
  | @finish pid call program result isRunning isDone =>
      have sameCommits : commits (config.shared.release pid).log = commits config.shared.log := rfl
      refine committed.of_same_commits sameCommits ?_ ?_
      · intro isCommitter
        obtain ⟨call', status, value, isProcess, isResult⟩ :=
          committed.returned pid isCommitter
        rw [isRunning, Option.some.injEq, Prod.mk.injEq] at isProcess
        rw [← isProcess.2] at isResult
        exact ⟨value, isDone.symm.trans isResult⟩
      · intro _ isRunning'
        contradiction
  | environment passes =>
      obtain ⟨later, _, rfl⟩ := passes
      exact ⟨committed.once, committed.returned, committed.last⟩

/-- In every run of programs that end with their commit, a session commits at most once,
and has returned when it has. -/
theorem committedOnce_of_reachable
    (programs : ∀ call, CommitsLast (body call))
    {initial : Store}
    {clock : Nat}
    {config : Config ε (SessionAnswer Answer) Call (Db Store Key Write) α}
    (reachable : Reachable (machine schema failure Call) body (Db.start initial clock) config) :
    CommittedOnce config := by
  induction reachable with
  | refl =>
      refine ⟨List.nodup_nil, ?_, ?_⟩
      · simp [Config.initial, Db.start, commits]
      · simp [Config.initial]
  | tail _ step inductionHypothesis => exact inductionHypothesis.step programs step

/-! ## Serial orders -/

/-- Calls that are served one after the other, each on what the ones before it have
left. -/
def serveEach (serve : Call → Store → Except ε α × Store) :
    List Call → Store → List (Except ε α) × Store
  | [], store => ([], store)
  | call :: calls, store =>
      let (result, after) := serve call store
      let (results, last) := serveEach serve calls after
      (result :: results, last)

/-- The sessions that have committed, in an order in which serving their calls one after
the other gives their answers and what is committed. -/
structure Serializes
    (schema : Schema Store Key Write Answer)
    (serve : Call → Store → Except ε α × Store)
    (config : Config ε (SessionAnswer Answer) Call (Db Store Key Write) α)
    (order : List (ProcId × Call × α)) : Prop where
  sessions : order.map (fun served => served.1) = committers config.shared.log
  returned : ∀ served ∈ order, HasReturned config served.1 served.2.1 served.2.2
  serial : serveEach serve (order.map fun served => served.2.1) config.shared.initial =
    (order.map fun served => .ok served.2.2, config.shared.committed schema)

omit [DecidableEq Key] in
/-- The order of the commits serializes a history if every commit is what serving its
call alone gives. -/
theorem exists_serializes
    {serve : Call → Store → Except ε α × Store}
    {config : Config ε (SessionAnswer Answer) Call (Db Store Key Write) α}
    (each : ∀ before pid writes after,
      config.shared.log = before ++ .committed pid writes :: after →
      ∃ call value, HasReturned config pid call value ∧
        serve call (replay schema config.shared.initial before) =
          (.ok value, writes.foldl schema.apply (replay schema config.shared.initial before))) :
    ∃ order, Serializes schema serve config order := by
  -- the commits that are left, after some that have been served
  have served : ∀ after before : List (ProcId × List Write),
      commits config.shared.log = before ++ after →
      ∃ order : List (ProcId × Call × α),
        order.map (fun served => served.1) = after.map Prod.fst ∧
        (∀ served ∈ order, HasReturned config served.1 served.2.1 served.2.2) ∧
        serveEach serve (order.map fun served => served.2.1)
          (before.foldl (fun store commit => commit.2.foldl schema.apply store)
            config.shared.initial) =
          (order.map fun served => .ok served.2.2, config.shared.committed schema) := by
    intro after
    induction after with
    | nil =>
        intro before isCommits
        rw [List.append_nil] at isCommits
        refine ⟨[], rfl, by simp, ?_⟩
        rw [Db.committed, replay_eq_commits, isCommits]
        rfl
    | cons commit after inductionHypothesis =>
        intro before isCommits
        obtain ⟨pid, writes⟩ := commit
        obtain ⟨log₁, log₂, isLog, isBefore⟩ := exists_commit_split isCommits
        obtain ⟨call, value, returned, isServed⟩ := each log₁ pid writes log₂ isLog
        rw [replay_eq_commits, isBefore] at isServed
        obtain ⟨order, sessions, haveReturned, serial⟩ :=
          inductionHypothesis (before ++ [(pid, writes)]) (by rw [isCommits]; simp)
        rw [List.foldl_append] at serial
        refine ⟨(pid, call, value) :: order, congrArg (pid :: ·) sessions, ?_, ?_⟩
        · intro entry isEntry
          rcases List.mem_cons.mp isEntry with rfl | isLater
          · exact returned
          · exact haveReturned entry isLater
        · simp only [List.map_cons, serveEach, isServed]
          exact congrArg (fun rest => (Except.ok value :: rest.1, rest.2)) serial
  obtain ⟨order, sessions, returned, serial⟩ := served (commits config.shared.log) [] rfl
  exact ⟨order, sessions, returned, serial⟩

/-- What is served later comes later in the order. -/
theorem Serializes.extends
    {serve : Call → Store → Except ε α × Store}
    {config config' : Config ε (SessionAnswer Answer) Call (Db Store Key Write) α}
    {order order' : List (ProcId × Call × α)}
    (serializes : Serializes schema serve config order)
    (serializes' : Serializes schema serve config' order')
    (steps : Steps (machine schema failure Call) body config config') :
    order <+: order' := by
  obtain ⟨_, events, isLog⟩ := log_extends steps
  have sameSessions : order'.map (fun served => served.1) =
      order.map (fun served => served.1) ++ committers events := by
    rw [serializes'.sessions, isLog, serializes.sessions, committers, commits_append,
      List.map_append]
  obtain ⟨first, later, rfl, sameFirst, _⟩ := List.map_eq_append_iff.mp sameSessions
  refine ⟨later, congrArg (· ++ later) ?_⟩
  have sameLength : order.length = first.length := by
    simpa using (congrArg List.length sameFirst).symm
  apply List.ext_getElem sameLength
  intro position isLeft isRight
  have samePid : (first[position]).1 = (order[position]).1 := by
    have samePosition := congrArg (fun sessions => sessions[position]?) sameFirst
    simpa [isLeft, isRight] using samePosition
  have returned := (serializes.returned _ (List.getElem_mem isLeft)).steps steps
  have returned' := serializes'.returned first[position]
    (List.mem_append_left later (List.getElem_mem isRight))
  rw [samePid] at returned'
  obtain ⟨sameCall, sameValue⟩ := returned.unique returned'
  exact Prod.ext samePid.symm (Prod.ext sameCall sameValue)

end Runs

end ReadCommitted
end SigmaForge
