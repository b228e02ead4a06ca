import SigmaForge.Foundation.Phases
import Mathlib.Logic.Hydra
import Mathlib.Algebra.BigOperators.Group.Finset.Basic
import Mathlib.Order.WellFounded

/-!
# Sessions that wait for each other

A statement waits until no other session holds a lock that it needs.  It may have taken
some of its locks by then.  Where the sessions can be ranked such that each waits only for
ones below it, none of them waits for itself, and all that have started finish.
-/

namespace SigmaForge
namespace ReadCommitted

/-- How a row is locked. -/
inductive Mode
  /-- `FOR KEY SHARE`, by which a foreign key keeps the row that it refers to. -/
  | share
  /-- `FOR NO KEY UPDATE`, by which an `UPDATE` of other columns than keys locks its rows. -/
  | update
  /-- `FOR UPDATE`, and the lock of an entry that is inserted into a unique index. -/
  | exclusive

/-- Two sessions cannot have both locks of a row. -/
def Mode.Conflicts : Mode → Mode → Prop
  | .share, .exclusive => True
  | .share, _ => False
  | .update, .share => False
  | _, _ => True

theorem Mode.conflicts_exclusive (mode : Mode) : mode.Conflicts .exclusive := by
  cases mode <;> trivial

/-- A writer is kept off by every other writer. -/
theorem Mode.conflicts_of_ne_share
    {mode mode' : Mode}
    (notShare : mode ≠ .share)
    (notShare' : mode' ≠ .share) :
    mode.Conflicts mode' := by
  cases mode <;> cases mode' <;> first | contradiction | trivial

/-- What keeps off an update is no share. -/
theorem Mode.ne_share_of_conflicts_update
    {mode : Mode}
    (conflicts : Mode.update.Conflicts mode) :
    mode ≠ .share := by
  rintro rfl
  exact conflicts

/-- The locks of a database: what a statement may have to wait for, among it all that it
locks, and the rows that a write refers to, which stay shared until the transaction
ends. -/
structure Locking
    {Store Key Write Statement : Type}
    {Answer : Statement → Type}
    (schema : Schema Store Key Write Answer) where
  needs : Statement → Store → List (Key × Mode)
  refers : Write → List Key
  locks : ∀ statement store, ∀ key ∈ (schema.effect statement store).locks,
    ∃ mode, mode ≠ .share ∧ (key, mode) ∈ needs statement store

section Waiting

variable
    {ε Call α Store Key Write Statement : Type}
    {Answer : Statement → Type}
    [DecidableEq Key]
    {schema : Schema Store Key Write Answer}
    (locking : Locking schema)
    (config : Config ε (SessionAnswer Answer) Call (Db Store Key Write) α)

/-- The statement is the next one of the session. -/
def Executes (pid : ProcId) (statement : Statement) : Prop :=
  ∃ call next, config.process pid = some (call, .running (.call (.execute statement) next))

/-- The next statement of the session needs the lock. -/
def Wants (pid : ProcId) (key : Key) (mode : Mode) : Prop :=
  ∃ statement, Executes config pid statement ∧
    (key, mode) ∈ locking.needs statement (config.shared.view schema pid)

/-- The transaction of the session may have the lock.  Who holds a row has locked it with
`FOR NO KEY UPDATE`, with `FOR UPDATE` or with both. -/
def Has (pid : ProcId) (key : Key) : Mode → Prop
  | .share => ∃ write ∈ config.shared.pending pid, key ∈ locking.refers write
  | _ => config.shared.holder key = some pid

/-- What the sessions have locked at some moment: the locks of their transactions, and
some of those of their next statements. -/
structure LockTable (granted : ProcId → Key → Mode → Prop) : Prop where
  held : ∀ pid key, config.shared.holder key = some pid →
    ∃ mode, mode ≠ .share ∧ granted pid key mode
  justified : ∀ pid key mode, granted pid key mode →
    Has locking config pid key mode ∨ Wants locking config pid key mode
  conflicts : ∀ pid other key mode mode', granted pid key mode → granted other key mode' →
    mode.Conflicts mode' → other = pid

/-- The session needs a lock that the other one keeps from it. -/
def WaitsFor (granted : ProcId → Key → Mode → Prop) (pid other : ProcId) : Prop :=
  other ≠ pid ∧ ∃ key mode mode', Wants locking config pid key mode ∧
    granted other key mode' ∧ mode.Conflicts mode'

/-- However far the statements have come, a session waits only for sessions of a lower
rank. -/
def Ranked (highest : Nat) : Prop :=
  ∀ granted, LockTable locking config granted → ∃ rank : ProcId → Nat,
    ∀ pid other, WaitsFor locking config granted pid other →
      rank other < rank pid ∧ rank pid ≤ highest

variable
    {locking}
    {config}

omit [DecidableEq Key] in
/-- Among any sessions there is one that waits for none of them. -/
theorem Ranked.exists_not_waiting
    {highest : Nat}
    (ranked : Ranked locking config highest)
    {granted : ProcId → Key → Mode → Prop}
    (table : LockTable locking config granted)
    {members : Set ProcId}
    (nonempty : members.Nonempty) :
    ∃ pid ∈ members, ∀ other ∈ members, ¬WaitsFor locking config granted pid other := by
  obtain ⟨rank, lower⟩ := ranked granted table
  have wellFounded : WellFounded fun pid other => rank pid < rank other :=
    InvImage.wf rank wellFounded_lt
  obtain ⟨pid, isMember, least⟩ := wellFounded.has_min members nonempty
  exact ⟨pid, isMember, fun other isOther waits => least other isOther (lower pid other waits).1⟩

/-- The locks of the transactions alone. -/
def heldOnly (config : Config ε (SessionAnswer Answer) Call (Db Store Key Write) α)
    (pid : ProcId) (key : Key) (mode : Mode) : Prop :=
  mode ≠ .share ∧ config.shared.holder key = some pid

omit [DecidableEq Key] in
theorem lockTable_heldOnly : LockTable locking config (heldOnly config) where
  held _ _ isHeld := ⟨.exclusive, by simp, by simp, isHeld⟩
  justified pid key mode holds := by
    obtain ⟨notShare, isHeld⟩ := holds
    cases mode with
    | share => contradiction
    | update => exact .inl isHeld
    | exclusive => exact .inl isHeld
  conflicts pid other key mode mode' holds holds' _ :=
    Option.some.inj (holds'.2.symm.trans holds.2)

end Waiting

section Granted

variable
    {ε Call α Store Key Write Statement : Type}
    {Answer : Statement → Type}
    [DecidableEq Key]
    {schema : Schema Store Key Write Answer}
    {locking : Locking schema}
    {config : Config ε (SessionAnswer Answer) Call (Db Store Key Write) α}

omit [DecidableEq Key] in
/-- A session without a transaction has only what its next statement has taken. -/
theorem LockTable.wants_of_clear
    {granted : ProcId → Key → Mode → Prop}
    (table : LockTable locking config granted)
    {pid : ProcId}
    (clear : Clear pid config.shared)
    {key : Key}
    {mode : Mode}
    (isGranted : granted pid key mode) :
    Wants locking config pid key mode := by
  refine (table.justified pid key mode isGranted).resolve_left fun has => ?_
  cases mode with
  | share =>
      obtain ⟨write, isPending, _⟩ := has
      simp [clear.1] at isPending
  | update => exact clear.2 key has
  | exclusive => exact clear.2 key has

omit [DecidableEq Key] in
/-- A session keeps every other one from updating the rows that it holds. -/
theorem LockTable.not_updates
    {granted : ProcId → Key → Mode → Prop}
    (table : LockTable locking config granted)
    {pid other : ProcId}
    {key : Key}
    {mode : Mode}
    (isHeld : config.shared.holder key = some pid)
    (isGranted : granted other key mode)
    (conflicts : Mode.update.Conflicts mode) :
    other = pid := by
  obtain ⟨held, notShare, isOwn⟩ := table.held pid key isHeld
  exact table.conflicts pid other key held mode isOwn isGranted
    (Mode.conflicts_of_ne_share notShare (Mode.ne_share_of_conflicts_update conflicts))

omit [DecidableEq Key] in
/-- Nobody else keeps the rows that a session holds from being referred to. -/
theorem LockTable.not_refers
    {granted : ProcId → Key → Mode → Prop}
    (table : LockTable locking config granted)
    {pid other : ProcId}
    {key : Key}
    {mode : Mode}
    (isHeld : config.shared.holder key = some pid)
    (isGranted : granted other key mode)
    (conflicts : Mode.share.Conflicts mode) :
    other = pid := by
  obtain ⟨held, _, isOwn⟩ := table.held pid key isHeld
  cases mode with
  | share => exact conflicts.elim
  | update => exact conflicts.elim
  | exclusive =>
      exact table.conflicts pid other key held .exclusive isOwn isGranted
        (Mode.conflicts_exclusive held)

end Granted

/-! ## Runs without failures -/

section Proceeding

variable
    {ε Call α Store Key Write Statement : Type}
    {Answer : Statement → Type}
    [DecidableEq Key]
    (schema : Schema Store Key Write Answer)
    (failure : ε)

omit [DecidableEq Key] in
/-- The database raises an error of its own. -/
def Raises (pid : ProcId) (db : Db Store Key Write) : SessionOp Statement → Prop
  | .execute statement => (schema.effect statement (db.view schema pid)).answer = none
  | _ => False

/-- A step of a session that has started, some time later, in which nothing fails: an
operation that raises has to. -/
inductive Proceeds : Config ε (SessionAnswer Answer) Call (Db Store Key Write) α →
    Config ε (SessionAnswer Answer) Call (Db Store Key Write) α → Prop
  | perform {config : Config ε (SessionAnswer Answer) Call (Db Store Key Write) α}
      {now : Nat} {pid : ProcId} {call : Call} {op : SessionOp Statement}
      {next : Except ε (SessionAnswer Answer op) → Program ε (SessionAnswer Answer) α}
      {answer : Except ε (SessionAnswer Answer op)} {shared : Db Store Key Write} :
      config.shared.clock ≤ now →
      config.process pid = some (call, .running (.call op next)) →
      performs schema failure pid op { config.shared with clock := now } answer shared →
      (∀ error, answer = .error error → Raises schema pid config.shared op) →
      Proceeds config
        ⟨shared, Function.update config.process pid (some (call, .running (next answer)))⟩
  | finish {config : Config ε (SessionAnswer Answer) Call (Db Store Key Write) α}
      {now : Nat} {pid : ProcId} {call : Call} {program : Program ε (SessionAnswer Answer) α}
      {result : Except ε α} :
      config.shared.clock ≤ now →
      config.process pid = some (call, .running program) →
      program.outcome = some result →
      Proceeds config
        ⟨Db.release pid { config.shared with clock := now },
          Function.update config.process pid (some (call, .finished result))⟩

variable
    {schema}
    {failure}
    {body : Call → Program ε (SessionAnswer Answer) α}
    {config config' : Config ε (SessionAnswer Answer) Call (Db Store Key Write) α}

/-- Time passes, and the session goes on. -/
theorem Proceeds.steps (proceeds : Proceeds schema failure config config') :
    Steps (machine schema failure Call) body config config' := by
  cases proceeds with
  | perform isLater isRunning performed _ =>
      have passes : Step (machine schema failure Call) body config _ :=
        .environment ⟨_, isLater, rfl⟩
      exact (Relation.ReflTransGen.single passes).tail (.perform isRunning performed)
  | finish isLater isRunning isDone =>
      have passes : Step (machine schema failure Call) body config _ :=
        .environment ⟨_, isLater, rfl⟩
      exact (Relation.ReflTransGen.single passes).tail (.finish isRunning isDone)

theorem steps_of_proceeds
    (proceeds : Relation.ReflTransGen (Proceeds schema failure) config config') :
    Steps (machine schema failure Call) body config config' := by
  induction proceeds with
  | refl => exact .refl
  | tail _ proceeds inductionHypothesis => exact inductionHypothesis.trans proceeds.steps

/-- Only sessions that have started go on. -/
theorem started_of_proceeds
    (proceeds : Relation.ReflTransGen (Proceeds schema failure) config config')
    {pid : ProcId}
    {call : Call}
    {status : Status ε (SessionAnswer Answer) α}
    (isStarted : config'.process pid = some (call, status)) :
    ∃ status', config.process pid = some (call, status') := by
  induction proceeds generalizing status with
  | refl => exact ⟨status, isStarted⟩
  | tail _ proceeds inductionHypothesis =>
      cases proceeds with
      | @perform _ mover call' op next answer shared _ isRunning _ _ =>
          by_cases isOwn : pid = mover
          · subst isOwn
            simp only [Function.update_self, Option.some.injEq, Prod.mk.injEq] at isStarted
            exact inductionHypothesis (isStarted.1 ▸ isRunning)
          · simp only [Function.update_of_ne isOwn] at isStarted
            exact inductionHypothesis isStarted
      | @finish _ mover call' program result _ isRunning _ =>
          by_cases isOwn : pid = mover
          · subst isOwn
            simp only [Function.update_self, Option.some.injEq, Prod.mk.injEq] at isStarted
            exact inductionHypothesis (isStarted.1 ▸ isRunning)
          · simp only [Function.update_of_ne isOwn] at isStarted
            exact inductionHypothesis isStarted

/-! ### They end -/

/-- The program of a session that has not ended. -/
def unended : Option (Call × Status ε (SessionAnswer Answer) α) →
    Multiset (Program ε (SessionAnswer Answer) α)
  | some (_, .running program) => {program}
  | _ => 0

/-- The programs of the sessions that have not ended. -/
def remaining
    (config : Config ε (SessionAnswer Answer) Call (Db Store Key Write) α)
    (pids : Finset ProcId) :
    Multiset (Program ε (SessionAnswer Answer) α) :=
  pids.sum fun pid => unended (config.process pid)

omit [DecidableEq Key] in
/-- A session that moves has less of its program left, and changes no other. -/
theorem cutExpand_remaining
    {pid : ProcId}
    {pids : Finset ProcId}
    (isListed : pid ∈ pids)
    {call : Call}
    {program : Program ε (SessionAnswer Answer) α}
    (isRunning : config.process pid = some (call, .running program))
    {status : Status ε (SessionAnswer Answer) α}
    (later : ∀ rest, status = .running rest → rest.Rest program)
    (shared : Db Store Key Write) :
    Relation.CutExpand Program.Rest
      (remaining ⟨shared, Function.update config.process pid (some (call, status))⟩ pids)
      (remaining config pids) := by
  have others : (pids.erase pid).sum (fun other => unended
      (Function.update config.process pid (some (call, status)) other)) =
      (pids.erase pid).sum fun other => unended (config.process other) := by
    apply Finset.sum_congr rfl
    intro other isOther
    rw [Function.update_of_ne (Finset.ne_of_mem_erase isOther)]
  unfold remaining
  rw [← Finset.add_sum_erase _ _ isListed, ← Finset.add_sum_erase _ _ isListed, others]
  simp only [Function.update_self]
  rw [isRunning, Relation.cutExpand_add_right]
  cases status with
  | running rest => exact Relation.cutExpand_singleton_singleton (later rest rfl)
  | finished result => exact Relation.cutExpand_zero

/-- Only finitely many sessions have started. -/
theorem finite_started
    {initial : Store}
    {clock : Nat}
    (reachable : Reachable (machine schema failure Call) body (Db.start initial clock) config) :
    ∃ pids : Finset ProcId, ∀ pid, pid ∉ pids → config.process pid = none := by
  have started : ∀ {config : Config ε (SessionAnswer Answer) Call (Db Store Key Write) α}
      {shared : Db Store Key Write} (pid : ProcId)
      (moved : Call × Status ε (SessionAnswer Answer) α),
      (∃ pids : Finset ProcId, ∀ other, other ∉ pids → config.process other = none) →
      ∃ pids : Finset ProcId, ∀ other, other ∉ pids →
        (⟨shared, Function.update config.process pid (some moved)⟩ : Config ε
          (SessionAnswer Answer) Call (Db Store Key Write) α).process other = none := by
    rintro config shared pid moved ⟨pids, idle⟩
    refine ⟨insert pid pids, fun other notListed => ?_⟩
    rw [Finset.mem_insert, not_or] at notListed
    exact (Function.update_of_ne notListed.1 _ _).trans (idle other notListed.2)
  induction reachable with
  | refl => exact ⟨∅, fun _ _ => rfl⟩
  | tail _ step inductionHypothesis =>
      cases step with
      | start pid call _ => exact started pid _ inductionHypothesis
      | perform _ _ => exact started _ _ inductionHypothesis
      | finish _ _ => exact started _ _ inductionHypothesis
      | environment _ => exact inductionHypothesis

/-- A step is one of a session that has started, which has less of its program left. -/
theorem Proceeds.decreases
    {pids : Finset ProcId}
    (idle : ∀ pid, pid ∉ pids → config.process pid = none)
    (proceeds : Proceeds schema failure config config') :
    Relation.CutExpand Program.Rest (remaining config' pids) (remaining config pids) ∧
      ∀ pid, pid ∉ pids → config'.process pid = none := by
  have isListed : ∀ {pid : ProcId} {moved : Call × Status ε (SessionAnswer Answer) α},
      config.process pid = some moved → pid ∈ pids := by
    intro pid moved isStarted
    by_contra notListed
    rw [idle pid notListed] at isStarted
    contradiction
  have stillIdle : ∀ {pid : ProcId} {moved moved' : Call × Status ε (SessionAnswer Answer) α},
      config.process pid = some moved → ∀ other, other ∉ pids →
        Function.update config.process pid (some moved') other = none := by
    intro pid moved moved' isStarted other notListed
    have different : other ≠ pid := fun same => notListed (same ▸ isListed isStarted)
    exact (Function.update_of_ne different _ _).trans (idle other notListed)
  cases proceeds with
  | @perform _ pid call op next answer shared _ isRunning performed _ =>
      refine ⟨cutExpand_remaining (isListed isRunning) isRunning ?_ shared, stillIdle isRunning⟩
      rintro _ ⟨⟩
      exact .next answer
  | @finish _ pid call program result _ isRunning _ =>
      refine ⟨cutExpand_remaining (isListed isRunning) isRunning ?_ _, stillIdle isRunning⟩
      intro _ isRest
      contradiction

/-- Without new sessions, every run ends. -/
theorem acc_proceeds
    {initial : Store}
    {clock : Nat}
    (reachable : Reachable (machine schema failure Call) body (Db.start initial clock) config) :
    Acc (fun after before => Proceeds schema failure before after) config := by
  obtain ⟨pids, idle⟩ := finite_started reachable
  clear reachable
  generalize isLeft : remaining config pids = left
  induction left using (Program.Rest.wellFounded.cutExpand).induction generalizing config with
  | h left inductionHypothesis =>
      refine ⟨_, fun after proceeds => ?_⟩
      obtain ⟨decreases, stillIdle⟩ := proceeds.decreases idle
      exact inductionHypothesis _ (isLeft ▸ decreases) stillIdle rfl

/-! ### They end with all sessions -/

/-- The next operation can be performed unless it waits. -/
theorem exists_performs
    (schema : Schema Store Key Write Answer)
    (failure : ε)
    (pid : ProcId)
    (op : SessionOp Statement)
    (db : Db Store Key Write) :
    (∃ answer db', performs schema failure pid op db answer db' ∧
      ∀ error, answer = .error error → Raises schema pid db op) ∨
    ∃ statement, op = .execute statement ∧
      ∃ key ∈ (schema.effect statement (db.view schema pid)).locks, ∃ other, other ≠ pid ∧
        db.holder key = some other := by
  cases op with
  | execute statement =>
      by_cases free : db.Free pid (schema.effect statement (db.view schema pid)).locks
      · left
        cases isAnswer : (schema.effect statement (db.view schema pid)).answer with
        | some answer => exact ⟨.ok answer, _, ⟨free, isAnswer, rfl⟩, by simp⟩
        | none => exact ⟨.error failure, db, ⟨rfl, rfl⟩, fun _ _ => isAnswer⟩
      · right
        simp only [Db.Free, not_forall, not_or] at free
        obtain ⟨key, isLocked, isTaken, notOwn⟩ := free
        obtain ⟨other, isHeld⟩ := Option.ne_none_iff_exists'.mp isTaken
        exact ⟨statement, rfl, key, isLocked, other, fun same => notOwn (same ▸ isHeld), isHeld⟩
  | commit => exact .inl ⟨.ok (), db.commit pid, rfl, by simp⟩
  | rollback => exact .inl ⟨.ok (), db.release pid, rfl, by simp⟩
  | now => exact .inl ⟨.ok db.clock, db, ⟨rfl, rfl⟩, by simp⟩

/-- Where sessions are ranked, one of those that run can go on. -/
theorem Ranked.exists_proceeds
    (failure : ε)
    {locking : Locking schema}
    {highest : Nat}
    (ranked : Ranked locking config highest)
    (settled : Settled schema config)
    {pid : ProcId}
    (isRunning : Running config pid) :
    ∃ config', Proceeds schema failure config config' := by
  have nonempty : {pid | Running config pid}.Nonempty := ⟨pid, isRunning⟩
  obtain ⟨pid, ⟨call, program, isRunning⟩, notWaiting⟩ :=
    ranked.exists_not_waiting lockTable_heldOnly nonempty
  cases program with
  | ret value => exact ⟨_, .finish le_rfl isRunning rfl⟩
  | raise error => exact ⟨_, .finish le_rfl isRunning rfl⟩
  | call op next =>
      rcases exists_performs schema failure pid op config.shared with
        ⟨answer, shared, performed, unfailing⟩ | waits
      · exact ⟨_, .perform le_rfl isRunning performed unfailing⟩
      · obtain ⟨statement, rfl, key, isLocked, other, different, isHeld⟩ := waits
        obtain ⟨mode, _, isNeeded⟩ := locking.locks _ _ key isLocked
        have wants : Wants locking config pid key mode :=
          ⟨statement, ⟨call, next, isRunning⟩, isNeeded⟩
        have isGranted : heldOnly config other key .exclusive := ⟨by simp, isHeld⟩
        exact absurd ⟨different, key, _, _, wants, isGranted, Mode.conflicts_exclusive mode⟩
          (notWaiting other (settled.running_of_holder isHeld))

/-- All sessions that have started finish, however much time passes between their steps: every
run of them without failures ends, and when it cannot go on, all of them have finished. -/
structure AllFinish
    (schema : Schema Store Key Write Answer)
    (failure : ε)
    (config : Config ε (SessionAnswer Answer) Call (Db Store Key Write) α) : Prop where
  ends : Acc (fun after before => Proceeds schema failure before after) config
  finished : ∀ last, Relation.ReflTransGen (Proceeds schema failure) config last →
    (∀ after, ¬Proceeds schema failure last after) →
    ∀ pid call status, last.process pid = some (call, status) →
      ∃ result, status = .finished result

/-- Where sessions stay ranked, all of them finish. -/
theorem allFinish_of_ranked
    {locking : Locking schema}
    {highest : Nat}
    {initial : Store}
    {clock : Nat}
    (reachable : Reachable (machine schema failure Call) body (Db.start initial clock) config)
    (ranked : ∀ last, Relation.ReflTransGen (Proceeds schema failure) config last →
      Ranked locking last highest) :
    AllFinish schema failure config where
  ends := acc_proceeds reachable
  finished last proceeds isLast pid call status isStarted := by
    cases status with
    | finished result => exact ⟨result, rfl⟩
    | running program =>
        have settled := settled_of_reachable (reachable.trans (steps_of_proceeds proceeds))
        obtain ⟨after, goesOn⟩ := (ranked last proceeds).exists_proceeds failure settled
          ⟨call, program, isStarted⟩
        exact absurd goesOn (isLast after)

end Proceeding

end ReadCommitted
end SigmaForge
