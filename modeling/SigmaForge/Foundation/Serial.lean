import SigmaForge.Foundation.ReadCommitted

/-!
# Sessions that run alone

Without other sessions and without failures, a program has one run.  It is a run
of the machine, in which no session has to wait.
-/

namespace SigmaForge
namespace ReadCommitted

section Alone

variable
    {ε Store Key Write Statement α Call : Type}
    {Answer : Statement → Type}
    (schema : Schema Store Key Write Answer)
    (failure : ε)
    (clock : Nat)

/-- How a session that is alone performs an operation, on what is committed and
what is pending. -/
def answerAlone :
    (op : SessionOp Statement) → Store × List Write →
      Except ε (SessionAnswer Answer op) × (Store × List Write)
  | .execute statement, (committed, pending) =>
      let effect := schema.effect statement (pending.foldl schema.apply committed)
      match effect.answer with
      | some answer => (.ok answer, committed, pending ++ effect.writes)
      | none => (.error failure, committed, pending)
  | .commit, (committed, pending) => (.ok (), pending.foldl schema.apply committed, [])
  | .rollback, (committed, _) => (.ok (), committed, [])
  | .now, state => (.ok clock, state)

/-- A statement with an answer. -/
theorem answerAlone_of_some
    {statement : Statement}
    {committed : Store}
    {pending : List Write}
    {answer : Answer statement}
    (isAnswer : (schema.effect statement (pending.foldl schema.apply committed)).answer =
      some answer) :
    answerAlone schema failure clock (.execute statement) (committed, pending) =
      (.ok answer, committed,
        pending ++ (schema.effect statement (pending.foldl schema.apply committed)).writes) := by
  simp only [answerAlone, isAnswer]

/-- A statement that raises. -/
theorem answerAlone_of_none
    {statement : Statement}
    {committed : Store}
    {pending : List Write}
    (isAnswer : (schema.effect statement (pending.foldl schema.apply committed)).answer =
      none) :
    answerAlone schema failure clock (.execute statement) (committed, pending) =
      (.error failure, committed, pending) := by
  simp only [answerAlone, isAnswer]

/-- The result of a program in a session of its own, and what is committed
then. -/
def alone (program : Program ε (SessionAnswer Answer) α) (store : Store) : Except ε α × Store :=
  let (result, committed, _) := program.solo (answerAlone schema failure clock) (store, [])
  (result, committed)

/-- The operation writes nothing else. -/
def Writes (schema : Schema Store Key Write Answer) (property : Write → Prop) :
    SessionOp Statement → Prop
  | .execute statement => ∀ store, ∀ write ∈ (schema.effect statement store).writes, property write
  | .commit => True
  | .rollback => True
  | .now => True

/-- What a program commits comes from its writes. -/
theorem solo_writes
    {schema : Schema Store Key Write Answer}
    {property : Write → Prop}
    {program : Program ε (SessionAnswer Answer) α}
    (only : program.Only (Writes schema property))
    (committed : Store)
    (pending : List Write)
    (holds : ∀ write ∈ pending, property write) :
    ∃ writes : List Write, (∀ write ∈ writes, property write) ∧
      (program.solo (answerAlone schema failure clock) (committed, pending)).2.1 =
        writes.foldl schema.apply committed := by
  induction program generalizing committed pending with
  | ret value => exact ⟨[], by simp, rfl⟩
  | raise error => exact ⟨[], by simp, rfl⟩
  | call op next inductionHypothesis =>
      cases op with
      | execute statement =>
          cases isAnswer :
              (schema.effect statement (pending.foldl schema.apply committed)).answer with
          | none =>
              simp only [Program.solo, answerAlone_of_none schema failure clock isAnswer]
              exact inductionHypothesis _ (only.2 _) committed pending holds
          | some answer =>
              simp only [Program.solo, answerAlone_of_some schema failure clock isAnswer]
              apply inductionHypothesis _ (only.2 _)
              intro write isPending
              rcases List.mem_append.mp isPending with isOld | isNew
              · exact holds write isOld
              · exact only.1 _ write isNew
      | commit =>
          obtain ⟨writes, areWrites, isCommitted⟩ :=
            inductionHypothesis (.ok ()) (only.2 _) (pending.foldl schema.apply committed) []
              (by simp)
          refine ⟨pending ++ writes, ?_, ?_⟩
          · intro write isWrite
            rcases List.mem_append.mp isWrite with isOld | isNew
            · exact holds write isOld
            · exact areWrites write isNew
          · rw [List.foldl_append]
            exact isCommitted
      | rollback => exact inductionHypothesis (.ok ()) (only.2 _) committed [] (by simp)
      | now => exact inductionHypothesis (.ok clock) (only.2 _) committed pending holds

/-- The operation keeps a fact about the tables. -/
def Keeps (schema : Schema Store Key Write Answer) (fact : Store → Prop) :
    SessionOp Statement → Prop
  | .execute statement => ∀ store, fact store →
      fact ((schema.effect statement store).writes.foldl schema.apply store)
  | .commit => True
  | .rollback => True
  | .now => True

/-- So does a program of such operations. -/
theorem alone_keeps
    {schema : Schema Store Key Write Answer}
    {fact : Store → Prop}
    {program : Program ε (SessionAnswer Answer) α}
    (only : program.Only (Keeps schema fact))
    {store : Store}
    (holds : fact store) :
    fact (alone schema failure clock program store).2 := by
  suffices keeps : ∀ committed pending, fact committed →
      fact (pending.foldl schema.apply committed) →
      fact (program.solo (answerAlone schema failure clock) (committed, pending)).2.1 from
    keeps store [] holds holds
  clear holds
  induction program with
  | ret value => exact fun committed pending holds _ => holds
  | raise error => exact fun committed pending holds _ => holds
  | call op next inductionHypothesis =>
      intro committed pending holds isSeen
      cases op with
      | execute statement =>
          cases isAnswer :
              (schema.effect statement (pending.foldl schema.apply committed)).answer with
          | none =>
              simp only [Program.solo, answerAlone_of_none schema failure clock isAnswer]
              exact inductionHypothesis _ (only.2 _) committed pending holds isSeen
          | some answer =>
              simp only [Program.solo, answerAlone_of_some schema failure clock isAnswer]
              apply inductionHypothesis _ (only.2 _) committed _ holds
              rw [List.foldl_append]
              exact only.1 _ isSeen
      | commit => exact inductionHypothesis (.ok ()) (only.2 _) _ [] isSeen isSeen
      | rollback => exact inductionHypothesis (.ok ()) (only.2 _) committed [] holds holds
      | now => exact inductionHypothesis (.ok clock) (only.2 _) committed pending holds isSeen

variable
    [DecidableEq Key]
    {body : Call → Program ε (SessionAnswer Answer) α}

/-- No session other than the given one holds a lock. -/
def NoneWaits (pid : ProcId) (db : Db Store Key Write) : Prop :=
  ∀ key, db.holder key = none ∨ db.holder key = some pid

omit [DecidableEq Key] in
theorem noneWaits_release
    {pid : ProcId}
    {db : Db Store Key Write}
    (noneWaits : NoneWaits pid db) (key : Key) :
    (db.release pid).holder key = none := by
  simp only [Db.release]
  rcases noneWaits key with isFree | isOwn
  · simp [isFree]
  · simp [isOwn]

/-- An operation of a session that is alone, as an operation of the machine. -/
theorem performs_of_alone
    {pid : ProcId}
    {db : Db Store Key Write}
    (noneWaits : NoneWaits pid db)
    (isClock : db.clock = clock)
    (op : SessionOp Statement) :
    ∃ db', performs schema failure pid op db
        (answerAlone schema failure clock op (db.committed schema, db.pending pid)).1 db' ∧
      NoneWaits pid db' ∧ db'.clock = clock ∧
      (db'.committed schema, db'.pending pid) =
        (answerAlone schema failure clock op (db.committed schema, db.pending pid)).2 := by
  cases op with
  | execute statement =>
      cases isAnswer : (schema.effect statement (db.view schema pid)).answer with
      | none =>
          rw [answerAlone_of_none schema failure clock isAnswer]
          exact ⟨db, ⟨rfl, rfl⟩, noneWaits, isClock, rfl⟩
      | some answer =>
          rw [answerAlone_of_some schema failure clock isAnswer]
          refine ⟨db.executed pid (schema.effect statement (db.view schema pid)),
            ⟨fun key _ => noneWaits key, isAnswer, rfl⟩, ?_, isClock, ?_⟩
          · intro key
            simp only [Db.executed]
            split_ifs
            · exact .inr rfl
            · exact noneWaits key
          · rw [committed_executed]
            simp only [Db.executed, Function.update_self]
            rfl
  | commit =>
      refine ⟨db.commit pid, rfl, fun key => .inl (noneWaits_release noneWaits key), isClock, ?_⟩
      simp only [answerAlone, Db.committed, Db.commit, replay_append]
      rw [Prod.mk.injEq]
      exact ⟨rfl, Function.update_self _ _ _⟩
  | rollback =>
      refine ⟨db.release pid, rfl, fun key => .inl (noneWaits_release noneWaits key), isClock, ?_⟩
      simp only [answerAlone]
      rw [Prod.mk.injEq]
      exact ⟨rfl, Function.update_self _ _ _⟩
  | now => exact ⟨db, ⟨isClock.symm, rfl⟩, noneWaits, isClock, rfl⟩

/-- The run of a program that is alone, as a run of the machine. -/
theorem steps_of_solo
    {pid : ProcId}
    {call : Call}
    (program : Program ε (SessionAnswer Answer) α)
    {config : Config ε (SessionAnswer Answer) Call (Db Store Key Write) α}
    (isRunning : config.process pid = some (call, .running program))
    (noneWaits : NoneWaits pid config.shared)
    (isClock : config.shared.clock = clock) :
    ∃ config', Steps (machine schema failure Call) body config config' ∧
      config'.process = Function.update config.process pid
        (some (call, .finished (program.solo (answerAlone schema failure clock)
          (config.shared.committed schema, config.shared.pending pid)).1)) ∧
      config'.shared.committed schema =
        (program.solo (answerAlone schema failure clock)
          (config.shared.committed schema, config.shared.pending pid)).2.1 ∧
      (∀ key, config'.shared.holder key = none) ∧ config'.shared.clock = clock := by
  induction program generalizing config with
  | ret value =>
      refine ⟨_, .single (.finish isRunning rfl), rfl, rfl, ?_, isClock⟩
      exact noneWaits_release noneWaits
  | raise error =>
      refine ⟨_, .single (.finish isRunning rfl), rfl, rfl, ?_, isClock⟩
      exact noneWaits_release noneWaits
  | call op next inductionHypothesis =>
      obtain ⟨db', performed, noneWaits', isClock', isState⟩ :=
        performs_of_alone schema failure clock noneWaits isClock op
      let answered : Config ε (SessionAnswer Answer) Call (Db Store Key Write) α :=
        ⟨db', Function.update config.process pid (some (call, .running (next
          (answerAlone schema failure clock op
            (config.shared.committed schema, config.shared.pending pid)).1)))⟩
      have isStep : Step (machine schema failure Call) body config answered :=
        .perform isRunning performed
      have isRunning' : answered.process pid = some (call, .running (next _)) :=
        Function.update_self _ _ _
      obtain ⟨config', steps, isProcess, isCommitted, noHolder⟩ :=
        inductionHypothesis _ isRunning' noneWaits' isClock'
      refine ⟨config', .head isStep steps, ?_, ?_, noHolder⟩
      · rw [isProcess, Function.update_idem]
        simp only [answered, isState]
        rfl
      · rw [isCommitted]
        simp only [answered, isState]
        rfl

/-- A call that is served alone, as a run of the machine. -/
theorem steps_of_alone
    (pid : ProcId)
    (call : Call)
    {config : Config ε (SessionAnswer Answer) Call (Db Store Key Write) α}
    (isIdle : config.process pid = none)
    (noHolder : ∀ key, config.shared.holder key = none)
    (nothingPending : config.shared.pending pid = [])
    (isClock : config.shared.clock = clock) :
    ∃ config', Steps (machine schema failure Call) body config config' ∧
      config'.process = Function.update config.process pid
        (some (call, .finished
          (alone schema failure clock (body call) (config.shared.committed schema)).1)) ∧
      config'.shared.committed schema =
        (alone schema failure clock (body call) (config.shared.committed schema)).2 ∧
      (∀ key, config'.shared.holder key = none) ∧ config'.shared.clock = clock := by
  let opened : Config ε (SessionAnswer Answer) Call (Db Store Key Write) α :=
    ⟨config.shared, Function.update config.process pid (some (call, .running (body call)))⟩
  have isRunning : opened.process pid = some (call, .running (body call)) :=
    Function.update_self _ _ _
  obtain ⟨config', steps, isProcess, isCommitted, noHolder'⟩ :=
    steps_of_solo schema failure clock (body call) isRunning (fun key => .inl (noHolder key))
      isClock
  refine ⟨config', .head (.start pid call isIdle) steps, ?_, ?_, noHolder'⟩
  · rw [isProcess, Function.update_idem]
    simp only [opened, nothingPending]
    rfl
  · rw [isCommitted]
    simp only [opened, nothingPending]
    rfl

end Alone

/-! ## Calls one after the other -/

section InTurn

variable
    {ε Store Key Write Statement α Call : Type}
    [DecidableEq Key]
    {Answer : Statement → Type}
    (schema : Schema Store Key Write Answer)
    (failure : ε)
    (body : Call → Program ε (SessionAnswer Answer) α)

/-- The calls so far have been served one after the other, and it is now the given time: no lock
is held, and the processes from `next` on have not started. -/
structure InTurn (initial : Store) (clock now : Nat) (next : ProcId)
    (config : Config ε (SessionAnswer Answer) Call (Db Store Key Write) α) : Prop where
  reachable : Reachable (machine schema failure Call) body (Db.start initial clock) config
  isIdle : ∀ pid, next ≤ pid → config.process pid = none
  noHolder : ∀ key, config.shared.holder key = none
  isClock : config.shared.clock = now

theorem inTurn_start (initial : Store) (clock : Nat) :
    InTurn schema failure body initial clock clock 0 (.initial (Db.start initial clock)) :=
  ⟨.refl, fun _ _ => rfl, fun _ => rfl, rfl⟩

variable
    {schema}
    {failure}
    {body}

/-- One more call, with the result that it has alone. -/
theorem InTurn.serve
    {initial store store' : Store}
    {clock now : Nat}
    {next : ProcId}
    {config : Config ε (SessionAnswer Answer) Call (Db Store Key Write) α}
    (inTurn : InTurn schema failure body initial clock now next config)
    (isCommitted : config.shared.committed schema = store)
    {call : Call}
    {result : Except ε α}
    (isServed : alone schema failure now (body call) store = (result, store')) :
    ∃ config', Steps (machine schema failure Call) body config config' ∧
      InTurn schema failure body initial clock now (next + 1) config' ∧
      config'.process next = some (call, .finished result) ∧
      (∀ pid, pid ≠ next → config'.process pid = config.process pid) ∧
      config'.shared.committed schema = store' := by
  subst isCommitted
  have isIdle := inTurn.isIdle next (Nat.le_refl next)
  have isFresh : Fresh body (config.process next) := by
    rw [isIdle]
    trivial
  have untouched : Untouched next config.shared := untouched_of_fresh inTurn.reachable isFresh
  obtain ⟨config', steps, isProcess, isCommitted, noHolder, isClock⟩ :=
    steps_of_alone schema failure now next call isIdle inTurn.noHolder untouched.1 inTurn.isClock
  rw [isServed] at isProcess isCommitted
  have others : ∀ pid, pid ≠ next → config'.process pid = config.process pid := by
    intro pid isOther
    rw [isProcess, Function.update_of_ne isOther]
  refine ⟨config', steps, ⟨inTurn.reachable.trans steps, ?_, noHolder, isClock⟩, ?_, others,
    isCommitted⟩
  · intro pid isLater
    rw [others pid (Nat.ne_of_gt isLater)]
    exact inTurn.isIdle pid (Nat.le_of_succ_le isLater)
  · rw [isProcess, Function.update_self]

/-- Until the next call, time may pass. -/
theorem InTurn.wait
    {initial : Store}
    {clock now later : Nat}
    {next : ProcId}
    {config : Config ε (SessionAnswer Answer) Call (Db Store Key Write) α}
    (inTurn : InTurn schema failure body initial clock now next config)
    (isLater : now ≤ later) :
    InTurn schema failure body initial clock later next
      ⟨{ config.shared with clock := later }, config.process⟩ := by
  have passes : (machine schema failure Call).environment config.shared
      { config.shared with clock := later } :=
    ⟨later, inTurn.isClock.symm ▸ isLater, rfl⟩
  exact ⟨inTurn.reachable.tail (.environment passes), inTurn.isIdle, inTurn.noHolder, rfl⟩

end InTurn

end ReadCommitted
end SigmaForge
