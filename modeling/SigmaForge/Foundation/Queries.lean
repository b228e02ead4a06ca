import SigmaForge.Foundation.Serial

/-!
# Programs that only query

At READ COMMITTED each query sees what is committed at its own moment.  The result
of a program that neither locks nor writes is determined by what it sees at these
moments; alone, it sees the same tables every time.
-/

namespace SigmaForge

namespace Program

variable
    {ε Op : Type}
    {Answer : Op → Type}
    {α β : Type}

/-- The result of a program whose operations always get the same answers. -/
def evaluate (answers : (op : Op) → Except ε (Answer op)) : Program ε Answer α → Except ε α
  | .ret value => .ok value
  | .raise error => .error error
  | .call op next => (next (answers op)).evaluate answers

section Evaluate

variable {answers : (op : Op) → Except ε (Answer op)}

@[simp] theorem evaluate_ret (value : α) :
    (Program.ret value : Program ε Answer α).evaluate answers = .ok value := rfl

@[simp] theorem evaluate_raise (error : ε) :
    (Program.raise error : Program ε Answer α).evaluate answers = .error error := rfl

@[simp] theorem evaluate_perform (op : Op) :
    (perform op : Program ε Answer (Answer op)).evaluate answers = answers op := by
  rw [perform, evaluate]
  cases answers op <;> rfl

theorem evaluate_bind
    (program : Program ε Answer α)
    (rest : α → Program ε Answer β) :
    (program.bind rest).evaluate answers =
      (program.evaluate answers).bind fun value => (rest value).evaluate answers := by
  induction program with
  | ret value => rfl
  | raise error => rfl
  | call op next inductionHypothesis => exact inductionHypothesis (answers op)

/-- The operations that a program issues while they always get the same answers. -/
def issued (answers : (op : Op) → Except ε (Answer op)) : Program ε Answer α → List Op
  | .ret _ => []
  | .raise _ => []
  | .call op next => op :: (next (answers op)).issued answers

@[simp] theorem issued_ret (value : α) :
    (Program.ret value : Program ε Answer α).issued answers = [] := rfl

@[simp] theorem issued_raise (error : ε) :
    (Program.raise error : Program ε Answer α).issued answers = [] := rfl

@[simp] theorem issued_perform (op : Op) :
    (perform op : Program ε Answer (Answer op)).issued answers = [op] := by
  rw [perform, issued]
  cases answers op <;> rfl

@[simp] theorem issued_ofOption (error : ε) (option : Option α) :
    (ofOption error option : Program ε Answer α).issued answers = [] := by
  cases option <;> rfl

@[simp] theorem issued_ensure (condition : Prop) [Decidable condition] (error : ε) :
    (ensure condition error : Program ε Answer Unit).issued answers = [] := by
  unfold ensure
  split <;> rfl

theorem issued_bind
    (program : Program ε Answer α)
    (rest : α → Program ε Answer β) :
    (program.bind rest).issued answers = program.issued answers ++
      match program.evaluate answers with
      | .ok value => (rest value).issued answers
      | .error _ => [] := by
  induction program with
  | ret value => rfl
  | raise error => rfl
  | call op next inductionHypothesis =>
      exact congrArg (op :: ·) (inductionHypothesis (answers op))

end Evaluate

end Program

/-! ## Runs and the moments of their operations -/

section Moments

variable
    {ε Op : Type}
    {Answer : Op → Type}
    {Call σ α : Type}

/-- A run in which the process performs operations in the given states, one after the
other.  Between them the others may take any steps. -/
inductive PerformsAt (machine : Machine ε Answer Call σ) (body : Call → Program ε Answer α)
    (pid : ProcId) : Config ε Answer Call σ α → List σ → Config ε Answer Call σ α → Prop
  | refl (config : Config ε Answer Call σ α) : PerformsAt machine body pid config [] config
  | own {config config' : Config ε Answer Call σ α} {moments : List σ} {call : Call} {op : Op}
      {next : Except ε (Answer op) → Program ε Answer α} {answer : Except ε (Answer op)}
      {shared : σ} :
      config.process pid = some (call, .running (.call op next)) →
      machine.perform pid op config.shared answer shared →
      PerformsAt machine body pid
        ⟨shared, Function.update config.process pid (some (call, .running (next answer)))⟩
        moments config' →
      PerformsAt machine body pid config (config.shared :: moments) config'
  | other {config config' config'' : Config ε Answer Call σ α} {moments : List σ} :
      Step machine body config config' →
      config'.process pid = config.process pid →
      PerformsAt machine body pid config' moments config'' →
      PerformsAt machine body pid config moments config''

/-- What happens between the operations is a run. -/
theorem PerformsAt.steps
    {machine : Machine ε Answer Call σ}
    {body : Call → Program ε Answer α}
    {pid : ProcId}
    {config config' : Config ε Answer Call σ α}
    {moments : List σ}
    (performs : PerformsAt machine body pid config moments config') :
    Steps machine body config config' := by
  induction performs with
  | refl config => exact .refl
  | own isRunning performed _ inductionHypothesis =>
      exact .head (.perform isRunning performed) inductionHypothesis
  | other step _ _ inductionHypothesis => exact .head step inductionHypothesis

/-- The process may have come from the first status to the second one. -/
def Status.Follows : Status ε Answer α → Status ε Answer α → Prop
  | .running program, .running rest => rest = program ∨ rest.Rest program
  | .running _, .finished _ => True
  | .finished result, status => status = .finished result

/-- A process does not go back. -/
theorem process_of_steps
    {machine : Machine ε Answer Call σ}
    {body : Call → Program ε Answer α}
    {pid : ProcId}
    {config config' : Config ε Answer Call σ α}
    {call : Call}
    {status : Status ε Answer α}
    (steps : Steps machine body config config')
    (isProcess : config.process pid = some (call, status)) :
    ∃ status', config'.process pid = some (call, status') ∧ status.Follows status' := by
  induction steps with
  | refl =>
      refine ⟨status, isProcess, ?_⟩
      cases status with
      | running program => exact .inl rfl
      | finished result => rfl
  | tail _ step inductionHypothesis =>
      obtain ⟨status', isProcess', follows⟩ := inductionHypothesis
      cases step with
      | start other otherCall isIdle =>
          have different : pid ≠ other := by
            rintro rfl
            rw [isIdle] at isProcess'
            contradiction
          exact ⟨status', by simpa only [Function.update_of_ne different], follows⟩
      | @perform other otherCall op next answer shared wasRunning performed =>
          by_cases isOwn : pid = other
          · subst isOwn
            obtain ⟨rfl, rfl⟩ := Prod.mk.inj (Option.some.inj (wasRunning.symm.trans isProcess'))
            refine ⟨.running (next answer), Function.update_self _ _ _, ?_⟩
            cases status with
            | running program =>
                rcases follows with rfl | isRest
                · exact .inr (.next answer)
                · exact .inr (isRest.trans (.next answer))
            | finished result => contradiction
          · exact ⟨status', by simpa only [Function.update_of_ne isOwn], follows⟩
      | @finish other otherCall otherProgram result wasRunning _ =>
          by_cases isOwn : pid = other
          · subst isOwn
            obtain ⟨rfl, rfl⟩ := Prod.mk.inj (Option.some.inj (wasRunning.symm.trans isProcess'))
            refine ⟨.finished result, Function.update_self _ _ _, ?_⟩
            cases status with
            | running program => trivial
            | finished result => contradiction
          · exact ⟨status', by simpa only [Function.update_of_ne isOwn], follows⟩
      | environment _ => exact ⟨status', isProcess', follows⟩

/-- Steps of the others, and of none. -/
abbrev OtherSteps (machine : Machine ε Answer Call σ) (body : Call → Program ε Answer α)
    (pid : ProcId) : Config ε Answer Call σ α → Config ε Answer Call σ α → Prop :=
  Relation.ReflTransGen fun config config' =>
    Step machine body config config' ∧ config'.process pid = config.process pid

/-- While a process stays where it is, the others take all steps. -/
theorem otherSteps_of_steps
    {machine : Machine ε Answer Call σ}
    {body : Call → Program ε Answer α}
    {pid : ProcId}
    {config config' : Config ε Answer Call σ α}
    {call : Call}
    {program : Program ε Answer α}
    (steps : Steps machine body config config')
    (isRunning : config.process pid = some (call, .running program))
    (unmoved : config'.process pid = config.process pid) :
    OtherSteps machine body pid config config' := by
  induction steps using Relation.ReflTransGen.head_induction_on with
  | refl => exact .refl
  | @head config middle step rest inductionHypothesis =>
      by_cases isHere : middle.process pid = config.process pid
      · exact .head ⟨step, isHere⟩
          (inductionHypothesis (isHere.trans isRunning) (unmoved.trans isHere.symm))
      · -- otherwise the process has moved on, and is not back
        obtain ⟨status, isMiddle, follows⟩ := process_of_steps (.single step) isRunning
        obtain ⟨status', isLast, follows'⟩ := process_of_steps rest isMiddle
        rw [unmoved, isRunning] at isLast
        obtain rfl := (Prod.mk.inj (Option.some.inj isLast)).2
        cases status with
        | finished result => contradiction
        | running later =>
            rcases follows with rfl | isRest
            · exact absurd (isMiddle.trans isRunning.symm) isHere
            · rcases follows' with rfl | isLater
              · exact absurd isRest (Program.Rest.irrefl _)
              · exact absurd (isRest.trans isLater) (Program.Rest.irrefl _)

theorem PerformsAt.of_others
    {machine : Machine ε Answer Call σ}
    {body : Call → Program ε Answer α}
    {pid : ProcId}
    {config config' config'' : Config ε Answer Call σ α}
    {moments : List σ}
    (others : OtherSteps machine body pid config config')
    (performs : PerformsAt machine body pid config' moments config'') :
    PerformsAt machine body pid config moments config'' := by
  induction others using Relation.ReflTransGen.head_induction_on with
  | refl => exact performs
  | head step _ inductionHypothesis => exact .other step.1 step.2 inductionHypothesis

end Moments

namespace ReadCommitted

section Queries

variable
    {ε Store Key Write Statement α β Call : Type}
    {Answer : Statement → Type}

/-- An operation that neither locks nor writes. -/
def IsQueryOf (schema : Schema Store Key Write Answer) : SessionOp Statement → Prop
  | .execute statement => ∀ store, (schema.effect statement store).locks = [] ∧
      (schema.effect statement store).writes = []
  | _ => False

/-- The answers of the queries on given tables. -/
def answersOn (schema : Schema Store Key Write Answer) (failure : ε) (store : Store) :
    (op : SessionOp Statement) → Except ε (SessionAnswer Answer op)
  | .execute statement =>
      match (schema.effect statement store).answer with
      | some answer => .ok answer
      | none => .error failure
  | .commit => .ok ()
  | .rollback => .ok ()
  | .now => .ok 0

/-- A program of queries that is alone: all of its queries see the same tables. -/
theorem alone_of_queries
    {schema : Schema Store Key Write Answer}
    {program : Program ε (SessionAnswer Answer) α}
    (queries : program.Only (IsQueryOf schema))
    (failure : ε)
    (clock : Nat)
    (store : Store) :
    alone schema failure clock program store =
      (program.evaluate (answersOn schema failure store), store) := by
  have isEvaluated : program.solo (answerAlone schema failure clock) (store, []) =
      (program.evaluate (answersOn schema failure store), store, []) := by
    induction program with
    | ret value => rfl
    | raise error => rfl
    | call op next inductionHypothesis =>
        match op, next, queries, inductionHypothesis with
        | .execute statement, next, queries, inductionHypothesis =>
            have noWrites := (queries.1 store).2
            rw [Program.solo, Program.evaluate]
            cases isAnswer : (schema.effect statement store).answer with
            | none =>
                rw [answerAlone_of_none schema failure clock isAnswer]
                simp only [answersOn, isAnswer]
                exact inductionHypothesis _ (queries.2 _)
            | some answer =>
                rw [answerAlone_of_some schema failure clock isAnswer]
                simp only [answersOn, isAnswer, List.foldl_nil, noWrites, List.append_nil]
                exact inductionHypothesis _ (queries.2 _)
  unfold alone
  rw [isEvaluated]

/-- The program has a result if each of its queries sees the tables of a moment of its
own.  A query may fail. -/
def Sees (schema : Schema Store Key Write Answer) (failure : ε) :
    Program ε (SessionAnswer Answer) α → List Store → Except ε α → Prop
  | .ret value, moments, result => moments = [] ∧ result = .ok value
  | .raise error, moments, result => moments = [] ∧ result = .error error
  | .call (.execute statement) next, moments, result =>
      ∃ store moments', moments = store :: moments' ∧
        ((∃ answer, (schema.effect statement store).answer = some answer ∧
          Sees schema failure (next (.ok answer)) moments' result) ∨
        Sees schema failure (next (.error failure)) moments' result)
  | .call _ _, _, _ => False

section Sees

variable
    {schema : Schema Store Key Write Answer}
    {failure : ε}
    {moments : List Store}

/-- A sequence sees what its parts see, one after the other. -/
theorem sees_bind
    {program : Program ε (SessionAnswer Answer) α}
    {rest : α → Program ε (SessionAnswer Answer) β}
    {result : Except ε β}
    (sees : Sees schema failure (program.bind rest) moments result) :
    (∃ value earlier later, moments = earlier ++ later ∧
      Sees schema failure program earlier (.ok value) ∧
      Sees schema failure (rest value) later result) ∨
    (∃ error, result = .error error ∧ Sees schema failure program moments (.error error)) := by
  induction program generalizing moments with
  | ret value => exact .inl ⟨value, [], moments, rfl, ⟨rfl, rfl⟩, sees⟩
  | raise error => exact .inr ⟨error, sees.2, sees.1, rfl⟩
  | call op next inductionHypothesis =>
      match op, next, inductionHypothesis, sees with
      | .execute statement, next, inductionHypothesis, sees =>
          obtain ⟨store, moments', rfl, ⟨answer, isAnswer, sees⟩ | sees⟩ := sees
          · rcases inductionHypothesis _ sees with
              ⟨value, earlier, later, rfl, first, second⟩ | ⟨error, isError, first⟩
            · exact .inl ⟨value, store :: earlier, later, rfl,
                ⟨store, earlier, rfl, .inl ⟨answer, isAnswer, first⟩⟩, second⟩
            · exact .inr ⟨error, isError, store, moments', rfl,
                .inl ⟨answer, isAnswer, first⟩⟩
          · rcases inductionHypothesis _ sees with
              ⟨value, earlier, later, rfl, first, second⟩ | ⟨error, isError, first⟩
            · exact .inl ⟨value, store :: earlier, later, rfl,
                ⟨store, earlier, rfl, .inr first⟩, second⟩
            · exact .inr ⟨error, isError, store, moments', rfl, .inr first⟩

end Sees

/-! ## What a run has seen -/

section Runs

variable
    [DecidableEq Key]
    {schema : Schema Store Key Write Answer}
    {failure : ε}
    {body : Call → Program ε (SessionAnswer Answer) α}
    {pid : ProcId}

/-- The database has become the other one. -/
def Db.Becomes (db db' : Db Store Key Write) : Prop :=
  db'.initial = db.initial ∧ db.log <+: db'.log

instance : Std.Refl (@Db.Becomes Store Key Write) :=
  ⟨fun db => ⟨rfl, List.prefix_refl db.log⟩⟩

omit [DecidableEq Key] in
theorem Db.Becomes.trans
    {db db' db'' : Db Store Key Write}
    (first : db.Becomes db')
    (second : db'.Becomes db'') :
    db.Becomes db'' :=
  ⟨second.1.trans first.1, first.2.trans second.2⟩

theorem becomes_of_steps
    {config config' : Config ε (SessionAnswer Answer) Call (Db Store Key Write) α}
    (steps : Steps (machine schema failure Call) body config config') :
    config.shared.Becomes config'.shared := by
  obtain ⟨sameInitial, events, isLog⟩ := log_extends steps
  exact ⟨sameInitial, events, isLog.symm⟩

/-- The moments of a run are between its ends, in order. -/
theorem becomes_of_performsAt
    {config config' : Config ε (SessionAnswer Answer) Call (Db Store Key Write) α}
    {moments : List (Db Store Key Write)}
    (performs : PerformsAt (machine schema failure Call) body pid config moments config') :
    (∀ db ∈ moments, config.shared.Becomes db ∧ db.Becomes config'.shared) ∧
      moments.Pairwise Db.Becomes := by
  induction performs with
  | refl config => exact ⟨by simp, .nil⟩
  | @own config config' moments call op next answer shared isRunning performed later
      inductionHypothesis =>
      obtain ⟨between, inOrder⟩ := inductionHypothesis
      have step : Step (machine schema failure Call) body config ⟨shared, _⟩ :=
        .perform isRunning performed
      have first := becomes_of_steps (.single step)
      refine ⟨?_, .cons (fun db isLater => first.trans (between db isLater).1) inOrder⟩
      intro db isMoment
      rcases List.mem_cons.mp isMoment with rfl | isLater
      · exact ⟨⟨rfl, List.prefix_refl _⟩, first.trans (becomes_of_steps later.steps)⟩
      · exact ⟨first.trans (between db isLater).1, (between db isLater).2⟩
  | other step _ _ inductionHypothesis =>
      obtain ⟨between, inOrder⟩ := inductionHypothesis
      refine ⟨fun db isMoment => ?_, inOrder⟩
      exact ⟨(becomes_of_steps (.single step)).trans (between db isMoment).1,
        (between db isMoment).2⟩

/-- A step that leaves a running process where it is leaves its transaction alone. -/
theorem pending_of_other
    {config config' : Config ε (SessionAnswer Answer) Call (Db Store Key Write) α}
    (step : Step (machine schema failure Call) body config config')
    (unmoved : config'.process pid = config.process pid) :
    config'.shared.pending pid = config.shared.pending pid := by
  cases step with
  | start other otherCall _ => rfl
  | @perform other otherCall op next answer shared wasRunning performed =>
      by_cases isOwn : pid = other
      · subst isOwn
        simp only [Function.update_self] at unmoved
        rw [wasRunning] at unmoved
        have isSame : next answer = .call op next :=
          Status.running.inj (Prod.mk.inj (Option.some.inj unmoved)).2
        have isRest : (next answer).Rest (.call op next) := .next answer
        rw [isSame] at isRest
        exact absurd isRest (Program.Rest.irrefl _)
      · exact (performs_moves schema performed).pending pid isOwn
  | @finish other otherCall otherProgram result wasRunning _ =>
      by_cases isOwn : pid = other
      · subst isOwn
        simp only [Function.update_self] at unmoved
        rw [wasRunning] at unmoved
        simp at unmoved
      · exact (release_moves other config.shared).pending pid isOwn
  | environment passes =>
      obtain ⟨_, _, rfl⟩ := passes
      rfl

theorem pending_of_others
    {config config' : Config ε (SessionAnswer Answer) Call (Db Store Key Write) α}
    (others : OtherSteps (machine schema failure Call) body pid config config') :
    config'.shared.pending pid = config.shared.pending pid := by
  induction others with
  | refl => rfl
  | tail _ step inductionHypothesis =>
      exact (pending_of_other step.1 step.2).trans inductionHypothesis

/-- A program of queries has the result that belongs to what it has seen. -/
theorem sees_of_performsAt
    {config config' : Config ε (SessionAnswer Answer) Call (Db Store Key Write) α}
    {moments : List (Db Store Key Write)}
    {call call' : Call}
    {program : Program ε (SessionAnswer Answer) α}
    {status : Status ε (SessionAnswer Answer) α}
    {result : Except ε α}
    (performs : PerformsAt (machine schema failure Call) body pid config moments config')
    (queries : program.Only (IsQueryOf schema))
    (isRunning : config.process pid = some (call, .running program))
    (nothingPending : config.shared.pending pid = [])
    (hasRun : config'.process pid = some (call', status))
    (isResult : status.result = some result) :
    call' = call ∧
      Sees schema failure program (moments.map (Db.committed schema)) result := by
  induction performs generalizing program with
  | refl config =>
      rw [isRunning] at hasRun
      obtain ⟨rfl, rfl⟩ := Prod.mk.inj (Option.some.inj hasRun)
      refine ⟨rfl, ?_⟩
      cases program with
      | ret value => exact ⟨rfl, (Option.some.inj isResult).symm⟩
      | raise error => exact ⟨rfl, (Option.some.inj isResult).symm⟩
      | call op next => simp [Status.result, Program.outcome] at isResult
  | @own config config' moments ownCall op next answer shared wasRunning performed _
      inductionHypothesis =>
      obtain ⟨rfl, isProgram⟩ := Prod.mk.inj (Option.some.inj (isRunning.symm.trans wasRunning))
      obtain rfl := Status.running.inj isProgram
      have isRunning' : (Function.update config.process pid
          (some (call, Status.running (next answer)))) pid =
            some (call, .running (next answer)) := Function.update_self _ _ _
      have sees := fun nothingPending =>
        inductionHypothesis (queries.2 answer) isRunning' nothingPending hasRun
      cases op with
      | execute statement =>
          cases answer with
          | ok answer =>
              obtain ⟨_, isAnswer, isNext⟩ := performed
              have isView : config.shared.view schema pid = config.shared.committed schema := by
                rw [Db.view, nothingPending]
                rfl
              rw [isView] at isAnswer isNext
              obtain ⟨noLocks, noWrites⟩ := queries.1 (config.shared.committed schema)
              rw [executed_silent noLocks noWrites] at isNext
              obtain ⟨isCall, seen⟩ := sees (by rw [isNext]; exact nothingPending)
              exact ⟨isCall, _, _, rfl, .inl ⟨answer, isAnswer, seen⟩⟩
          | error error =>
              obtain ⟨rfl, isNext⟩ := performed
              obtain ⟨isCall, seen⟩ := sees (by rw [isNext]; exact nothingPending)
              exact ⟨isCall, _, _, rfl, .inr seen⟩
      | commit => exact queries.1.elim
      | rollback => exact queries.1.elim
      | now => exact queries.1.elim
  | other step unmoved _ inductionHypothesis =>
      apply inductionHypothesis queries (unmoved.trans isRunning) _ hasRun
      rw [pending_of_other step unmoved]
      exact nothingPending

/-- A query is answered from what is committed, and changes nothing. -/
theorem PerformsAt.query
    {config config' : Config ε (SessionAnswer Answer) Call (Db Store Key Write) α}
    {moments : List (Db Store Key Write)}
    {call : Call}
    {statement : Statement}
    {next : Except ε (Answer statement) → Program ε (SessionAnswer Answer) α}
    {answer : Answer statement}
    (isRunning : config.process pid = some (call, .running (.call (.execute statement) next)))
    (isQuery : IsQueryOf schema (.execute statement))
    (nothingPending : config.shared.pending pid = [])
    (isAnswer : (schema.effect statement (config.shared.committed schema)).answer = some answer)
    (performs : PerformsAt (machine schema failure Call) body pid
      ⟨config.shared, Function.update config.process pid
        (some (call, .running (next (.ok answer))))⟩ moments config') :
    PerformsAt (machine schema failure Call) body pid config (config.shared :: moments)
      config' := by
  have isView : config.shared.view schema pid = config.shared.committed schema := by
    rw [Db.view, nothingPending]
    rfl
  obtain ⟨noLocks, noWrites⟩ := isQuery (config.shared.committed schema)
  have performed : (machine schema failure Call).perform pid (.execute statement) config.shared
      (.ok answer) config.shared := by
    change Db.Free pid _ _ ∧ _ ∧ _
    rw [isView, noLocks]
    exact ⟨by simp [Db.Free], isAnswer, (executed_silent noLocks noWrites _).symm⟩
  exact .own isRunning performed performs

/-- A process serves the call in a run, from its start to its result.  It performs its
operations in the states of `moments`. -/
def ServedAt (schema : Schema Store Key Write Answer) (failure : ε)
    (body : Call → Program ε (SessionAnswer Answer) α) (initial : Db Store Key Write)
    (pid : ProcId) (call : Call) (moments : List (Db Store Key Write)) (result : Except ε α) :
    Prop :=
  ∃ config config' status,
    Reachable (machine schema failure Call) body initial config ∧
    config.process pid = some (call, .running (body call)) ∧
    PerformsAt (machine schema failure Call) body pid config moments config' ∧
    config'.process pid = some (call, status) ∧ status.result = some result

section Served

variable
    {property : CommitProperty Store Key Write}
    {post : ProcId → Call → Except ε α → Db Store Key Write → Prop}
    {initial : Store}
    {clock : Nat}
    {call : Call}
    {moments : List (Db Store Key Write)}
    {result : Except ε α}

/-- The result of a call that only queries belongs to what it has seen. -/
theorem ServedAt.sees
    (served : ServedAt schema failure body (Db.start initial clock) pid call moments result)
    (queries : (body call).Only (IsQueryOf schema)) :
    Sees schema failure (body call) (moments.map (Db.committed schema)) result := by
  obtain ⟨config, config', status, reachable, isRunning, performs, hasRun, isResult⟩ := served
  have isFresh : SigmaForge.Fresh body (config.process pid) := by
    rw [isRunning]
    rfl
  have untouched := untouched_of_fresh reachable isFresh
  exact (sees_of_performsAt performs queries isRunning untouched.1 hasRun isResult).2

/-- Whatever is committed before the end of a call has the property. -/
theorem ServedAt.satisfied
    (outlined : Outlined (machine schema failure Call) (discipline schema property) body
      Untouched post)
    (served : ServedAt schema failure body (Db.start initial clock) pid call moments result) :
    moments.Pairwise Db.Becomes ∧
      ∀ db ∈ moments, db.initial = initial ∧ CommitsSatisfy property initial db.log := by
  obtain ⟨config, config', status, reachable, isRunning, performs, hasRun, isResult⟩ := served
  obtain ⟨between, inOrder⟩ := becomes_of_performsAt performs
  refine ⟨inOrder, fun db isMoment => ?_⟩
  obtain ⟨satisfied, _⟩ := sound_of_outlined outlined (reachable.trans performs.steps)
  have isInitial : config'.shared.initial = initial :=
    (log_extends (reachable.trans performs.steps)).1
  obtain ⟨sameInitial, later, isLog⟩ := (between db isMoment).2
  rw [isInitial, ← isLog] at satisfied
  exact ⟨sameInitial.symm.trans isInitial, satisfied.of_append⟩

end Served

end Runs

end Queries

end ReadCommitted
end SigmaForge
