import SigmaForge.Foundation.Interleaving
import Mathlib.Tactic.SplitIfs

/-!
# Transactions at READ COMMITTED with row locks

Every process has a session of its own.  A statement sees what is committed and
what its own transaction has written.  It waits until no other session holds a
lock that it needs; locks are held until the transaction ends.  Every
statement, `COMMIT` and `ROLLBACK` may fail.

A row that a statement writes is locked, so whoever holds the lock of a row can
rely on what the row contains.
-/

namespace SigmaForge
namespace ReadCommitted

/-- What a statement does: the keys it locks, its answer, and what it writes.
Without an answer, the statement raises. -/
structure Effect (Key Write Answer : Type) where
  locks : List Key
  answer : Option Answer
  writes : List Write

/-- The tables of a database, with their statements.  A statement locks every
key that it writes. -/
structure Schema (Store Key Write : Type) {Statement : Type} (Answer : Statement → Type) where
  apply : Store → Write → Store
  keys : Write → List Key
  effect : (statement : Statement) → Store → Effect Key Write (Answer statement)
  locked : ∀ statement store, ∀ write ∈ (effect statement store).writes,
    ∀ key ∈ keys write, key ∈ (effect statement store).locks

/-- The operations of a session. -/
inductive SessionOp (Statement : Type)
  | execute (statement : Statement)
  | commit
  | rollback
  | now

/-- The answers of the operations. -/
abbrev SessionAnswer {Statement : Type} (Answer : Statement → Type) :
    SessionOp Statement → Type
  | .execute statement => Answer statement
  | .commit => Unit
  | .rollback => Unit
  | .now => Nat

/-- What the history of a database records. -/
inductive Event (Key Write : Type)
  | acquired (pid : ProcId) (key : Key)
  | committed (pid : ProcId) (writes : List Write)

/-- A database with open transactions. -/
structure Db (Store Key Write : Type) where
  initial : Store
  log : List (Event Key Write)
  pending : ProcId → List Write
  holder : Key → Option ProcId
  clock : Nat

section Semantics

variable
    {Store Key Write Statement : Type}
    {Answer : Statement → Type}
    [DecidableEq Key]
    (schema : Schema Store Key Write Answer)

/-- The effect of an event on what is committed. -/
def applyEvent (store : Store) : Event Key Write → Store
  | .acquired _ _ => store
  | .committed _ writes => writes.foldl schema.apply store

/-- What is committed after a history. -/
def replay (initial : Store) (log : List (Event Key Write)) : Store :=
  log.foldl (applyEvent schema) initial

/-- The committed store. -/
def Db.committed (db : Db Store Key Write) : Store := replay schema db.initial db.log

/-- What the statements of a session see. -/
def Db.view (pid : ProcId) (db : Db Store Key Write) : Store :=
  (db.pending pid).foldl schema.apply (db.committed schema)

omit [DecidableEq Key] in
@[simp] theorem replay_append
    (initial : Store)
    (log log' : List (Event Key Write)) :
    replay schema initial (log ++ log') = replay schema (replay schema initial log) log' := by
  simp [replay, List.foldl_append]

omit [DecidableEq Key] in
/-- Locks leave what is committed alone. -/
theorem replay_acquired (store : Store) (pid : ProcId) (keys : List Key) :
    replay schema store (keys.map (Event.acquired pid)) = store := by
  induction keys with
  | nil => rfl
  | cons key keys inductionHypothesis => exact inductionHypothesis

section Kept

variable
    {schema}
    {fact : Store → Prop}

omit [DecidableEq Key] in
/-- What every write keeps, a list of writes keeps. -/
theorem foldl_kept
    (kept : ∀ store write, fact store → fact (schema.apply store write))
    (writes : List Write)
    {store : Store}
    (holds : fact store) :
    fact (writes.foldl schema.apply store) := by
  induction writes generalizing store with
  | nil => exact holds
  | cons write writes inductionHypothesis => exact inductionHypothesis (kept store write holds)

omit [DecidableEq Key] in
/-- What every write keeps stays true along a history. -/
theorem replay_kept
    (kept : ∀ store write, fact store → fact (schema.apply store write))
    {initial : Store}
    {log : List (Event Key Write)}
    (holds : fact (replay schema initial log))
    (log' : List (Event Key Write)) :
    fact (replay schema initial (log ++ log')) := by
  rw [replay_append]
  induction log' generalizing log with
  | nil => exact holds
  | cons event log' inductionHypothesis =>
      have isReplay : replay schema (replay schema initial log) (event :: log') =
          replay schema (replay schema initial (log ++ [event])) log' := by
        rw [replay_append]
        rfl
      rw [isReplay]
      apply inductionHypothesis
      rw [replay_append]
      cases event with
      | acquired pid key => exact holds
      | committed pid writes => exact foldl_kept kept writes holds

end Kept

/-- The end of a transaction: its locks are gone. -/
def Db.release (pid : ProcId) (db : Db Store Key Write) : Db Store Key Write :=
  { db with
    pending := Function.update db.pending pid []
    holder := fun key => if db.holder key = some pid then none else db.holder key }

/-- `COMMIT`. -/
def Db.commit (pid : ProcId) (db : Db Store Key Write) : Db Store Key Write :=
  { db.release pid with log := db.log ++ [.committed pid (db.pending pid)] }

/-- A statement that has got its locks. -/
def Db.executed
    {α : Type}
    (pid : ProcId)
    (effect : Effect Key Write α)
    (db : Db Store Key Write) :
    Db Store Key Write :=
  { db with
    log := db.log ++ effect.locks.map (.acquired pid)
    pending := Function.update db.pending pid (db.pending pid ++ effect.writes)
    holder := fun key => if key ∈ effect.locks then some pid else db.holder key }

/-- No other session holds any of the keys. -/
def Db.Free (pid : ProcId) (keys : List Key) (db : Db Store Key Write) : Prop :=
  ∀ key ∈ keys, db.holder key = none ∨ db.holder key = some pid

/-- How a session performs an operation.  A transaction whose `COMMIT` or
`ROLLBACK` fails is rolled back by the server. -/
def performs {ε : Type} (failure : ε) (pid : ProcId) :
    (op : SessionOp Statement) → Db Store Key Write →
      Except ε (SessionAnswer Answer op) → Db Store Key Write → Prop
  | .execute statement, db, .ok answer, db' =>
      let effect := schema.effect statement (db.view schema pid)
      db.Free pid effect.locks ∧ effect.answer = some answer ∧ db' = db.executed pid effect
  | .execute _, db, .error error, db' => error = failure ∧ db' = db
  | .commit, db, .ok _, db' => db' = db.commit pid
  | .commit, db, .error error, db' => error = failure ∧ db' = db.release pid
  | .rollback, db, .ok _, db' => db' = db.release pid
  | .rollback, db, .error error, db' => error = failure ∧ db' = db.release pid
  | .now, db, .ok time, db' => time = db.clock ∧ db' = db
  | .now, _, .error _, _ => False

/-- The sessions of a database.  A session that is closed rolls its transaction
back; time passes. -/
def machine {ε : Type} (failure : ε) (Call : Type) :
    Machine ε (SessionAnswer Answer) Call (Db Store Key Write) where
  opening _ _ db := db
  perform := performs schema failure
  closing := Db.release
  environment db db' := ∃ later, db.clock ≤ later ∧ db' = { db with clock := later }

/-- A database without open transactions. -/
def Db.start (initial : Store) (clock : Nat) : Db Store Key Write where
  initial := initial
  log := []
  pending _ := []
  holder _ := none
  clock := clock

end Semantics

/-! ## What a session can do to the others -/

section Frame

variable
    {Store Key Write Statement : Type}
    {Answer : Statement → Type}
    [DecidableEq Key]
    (schema : Schema Store Key Write Answer)

/-- Whatever a session has written but not committed is locked by it. -/
def Locked (db : Db Store Key Write) : Prop :=
  ∀ pid, ∀ write ∈ db.pending pid, ∀ key ∈ schema.keys write, db.holder key = some pid

/-- A change that one session makes: it extends the history, touches neither
the locks nor the open transactions of the others, and takes no lock that
another session holds. -/
structure Moves (pid : ProcId) (db db' : Db Store Key Write) : Prop where
  initial : db'.initial = db.initial
  clock : db'.clock = db.clock
  pending : ∀ other, other ≠ pid → db'.pending other = db.pending other
  holder : ∀ key other, other ≠ pid → (db'.holder key = some other ↔ db.holder key = some other)
  log : ∃ (keys : List Key) (commits : List (Event Key Write)),
    db'.log = db.log ++ (keys.map (.acquired pid) ++ commits) ∧
    (commits = [] ∨ commits = [.committed pid (db.pending pid)])
  acquired : ∀ key other, other ≠ pid → db.holder key = some other →
    ∀ events, db'.log = db.log ++ events → Event.acquired pid key ∉ events

omit [DecidableEq Key] in
theorem moves_refl (pid : ProcId) (db : Db Store Key Write) : Moves pid db db where
  initial := rfl
  clock := rfl
  pending _ _ := rfl
  holder _ _ _ := Iff.rfl
  log := ⟨[], [], by simp, .inl rfl⟩
  acquired _ _ _ _ events isLog := by
    simp [List.self_eq_append_right.mp isLog]

omit [DecidableEq Key] in
theorem release_holder
    (pid other : ProcId)
    (different : other ≠ pid)
    (db : Db Store Key Write)
    (key : Key) :
    (db.release pid).holder key = some other ↔ db.holder key = some other := by
  simp only [Db.release]
  split_ifs with isHeld
  · rw [isHeld]
    simp [different.symm]
  · rfl

omit [DecidableEq Key] in
theorem release_moves (pid : ProcId) (db : Db Store Key Write) : Moves pid db (db.release pid) where
  initial := rfl
  clock := rfl
  pending other different := Function.update_of_ne different _ _
  holder key other different := release_holder pid other different db key
  log := ⟨[], [], by simp [Db.release], .inl rfl⟩
  acquired _ _ _ _ events isLog := by
    simp [List.self_eq_append_right.mp isLog]

omit [DecidableEq Key] in
theorem commit_moves (pid : ProcId) (db : Db Store Key Write) : Moves pid db (db.commit pid) where
  initial := rfl
  clock := rfl
  pending other different := Function.update_of_ne different _ _
  holder key other different := release_holder pid other different db key
  log := ⟨[], [.committed pid (db.pending pid)], by simp [Db.commit], .inr rfl⟩
  acquired _ _ _ _ events isLog := by
    simp [← List.append_cancel_left isLog]

theorem executed_moves
    {α : Type}
    {pid : ProcId}
    {effect : Effect Key Write α}
    {db : Db Store Key Write}
    (free : db.Free pid effect.locks) :
    Moves pid db (db.executed pid effect) where
  initial := rfl
  clock := rfl
  pending other different := Function.update_of_ne different _ _
  holder key other different := by
    simp only [Db.executed]
    split_ifs with isLocked
    · rcases free key isLocked with isFree | isOwn
      · simp [isFree, different.symm]
      · simp [isOwn, different.symm]
    · rfl
  log := ⟨effect.locks, [], by simp [Db.executed], .inl rfl⟩
  acquired key other different isHeld events isLog isAcquired := by
    rw [← List.append_cancel_left isLog, List.mem_map] at isAcquired
    obtain ⟨_, isLocked, isKey⟩ := isAcquired
    obtain ⟨_, rfl⟩ := Event.acquired.inj isKey
    rcases free _ isLocked with isFree | isOwn
    · simp [isFree] at isHeld
    · rw [isOwn, Option.some.injEq] at isHeld
      exact different isHeld.symm

/-- Whatever a session does is a move of it. -/
theorem performs_moves
    {ε : Type}
    {failure : ε}
    {pid : ProcId}
    {op : SessionOp Statement}
    {answer : Except ε (SessionAnswer Answer op)}
    {db db' : Db Store Key Write}
    (performed : performs schema failure pid op db answer db') :
    Moves pid db db' := by
  match op, answer, performed with
  | .execute statement, .ok answer, ⟨free, _, isNext⟩ => exact isNext ▸ executed_moves free
  | .execute _, .error _, ⟨_, isNext⟩ => exact isNext ▸ moves_refl pid db
  | .commit, .ok _, isNext => exact isNext ▸ commit_moves pid db
  | .commit, .error _, ⟨_, isNext⟩ => exact isNext ▸ release_moves pid db
  | .rollback, .ok _, isNext => exact isNext ▸ release_moves pid db
  | .rollback, .error _, ⟨_, isNext⟩ => exact isNext ▸ release_moves pid db
  | .now, .ok _, ⟨_, isNext⟩ => exact isNext ▸ moves_refl pid db

omit [DecidableEq Key] in
theorem release_locked
    (pid : ProcId)
    {db : Db Store Key Write}
    (locked : Locked schema db) :
    Locked schema (db.release pid) := by
  intro other write isPending key isKey
  by_cases isOwn : other = pid
  · subst isOwn
    simp [Db.release] at isPending
  · rw [release_holder pid other isOwn]
    simp only [Db.release, Function.update_of_ne isOwn] at isPending
    exact locked other write isPending key isKey

theorem executed_locked
    {pid : ProcId}
    {statement : Statement}
    {store : Store}
    {db : Db Store Key Write}
    (free : db.Free pid (schema.effect statement store).locks)
    (locked : Locked schema db) :
    Locked schema (db.executed pid (schema.effect statement store)) := by
  intro other write isPending key isKey
  by_cases isOwn : other = pid
  · subst isOwn
    simp only [Db.executed, Function.update_self, List.mem_append] at isPending ⊢
    split_ifs with isLocked
    · rfl
    · rcases isPending with isOld | isNew
      · exact locked other write isOld key isKey
      · exact absurd (schema.locked statement store write isNew key isKey) isLocked
  · rw [(executed_moves free).holder key other isOwn]
    rw [(executed_moves free).pending other isOwn] at isPending
    exact locked other write isPending key isKey

/-- What a session has written stays locked by it. -/
theorem performs_locked
    {ε : Type}
    {failure : ε}
    {pid : ProcId}
    {op : SessionOp Statement}
    {answer : Except ε (SessionAnswer Answer op)}
    {db db' : Db Store Key Write}
    (performed : performs schema failure pid op db answer db')
    (locked : Locked schema db) :
    Locked schema db' := by
  match op, answer, performed with
  | .execute statement, .ok answer, ⟨free, _, isNext⟩ =>
      exact isNext ▸ executed_locked schema free locked
  | .execute _, .error _, ⟨_, isNext⟩ => exact isNext ▸ locked
  | .commit, .ok _, isNext =>
      rw [isNext]
      exact release_locked schema pid locked
  | .commit, .error _, ⟨_, isNext⟩ => exact isNext ▸ release_locked schema pid locked
  | .rollback, .ok _, isNext => exact isNext ▸ release_locked schema pid locked
  | .rollback, .error _, ⟨_, isNext⟩ => exact isNext ▸ release_locked schema pid locked
  | .now, .ok _, ⟨_, isNext⟩ => exact isNext ▸ locked

/-- Both, for the operations of the machine. -/
theorem perform_moves_locked
    {ε Call : Type}
    {failure : ε}
    {pid : ProcId}
    {op : SessionOp Statement}
    {answer : Except ε (SessionAnswer Answer op)}
    {db db' : Db Store Key Write}
    (performed : (machine schema failure Call).perform pid op db answer db')
    (locked : Locked schema db) :
    Moves pid db db' ∧ Locked schema db' := by
  have performed' : performs schema failure pid op db answer db' := performed
  exact ⟨performs_moves schema performed', performs_locked schema performed' locked⟩

/-- An observation of the store that only writes of the given key can change. -/
def DependsOn {β : Type} (observe : Store → β) (key : Key) : Prop :=
  ∀ store write, key ∉ schema.keys write → observe (schema.apply store write) = observe store

variable {schema}

omit [DecidableEq Key] in
theorem DependsOn.foldl
    {β : Type}
    {observe : Store → β}
    {key : Key}
    (depends : DependsOn schema observe key)
    (writes : List Write)
    (untouched : ∀ write ∈ writes, key ∉ schema.keys write)
    (store : Store) :
    observe (writes.foldl schema.apply store) = observe store := by
  induction writes generalizing store with
  | nil => rfl
  | cons write writes inductionHypothesis =>
      rw [List.foldl_cons, inductionHypothesis
        (fun other isOther => untouched other (List.mem_cons_of_mem _ isOther))]
      exact depends store write (untouched write List.mem_cons_self)

omit [DecidableEq Key] in
/-- The commit of another session leaves a row alone whose lock is held. -/
theorem Moves.observe
    {β : Type}
    {observe : Store → β}
    {key : Key}
    {pid other : ProcId}
    {db db' : Db Store Key Write}
    (moves : Moves other db db')
    (different : other ≠ pid)
    (locked : Locked schema db)
    (holds : db.holder key = some pid)
    (depends : DependsOn schema observe key) :
    observe (db'.committed schema) = observe (db.committed schema) := by
  obtain ⟨keys, commits, isLog, isCommit⟩ := moves.log
  rw [Db.committed, moves.initial, isLog, replay_append, replay_append, replay_acquired]
  rcases isCommit with rfl | rfl
  · rfl
  · apply depends.foldl
    intro write isPending isKey
    have held := locked other write isPending key isKey
    rw [holds, Option.some.injEq] at held
    exact different held.symm

end Frame

/-! ## Locks in the history -/

section Held

variable
    {Key Write : Type}
    {pid other : ProcId}
    {key : Key}

/-- Two places in a history are the same, or one is in front of the other. -/
theorem split_cases
    {α : Type}
    {before before' after after' : List α}
    {event event' : α}
    (same : before ++ event :: after = before' ++ event' :: after') :
    (before = before' ∧ event = event') ∨
      (∃ middle, before' = before ++ event :: middle) ∨
      ∃ middle, before = before' ++ event' :: middle := by
  rcases List.append_eq_append_iff.mp same with
    ⟨middle, isBefore, isRest⟩ | ⟨middle, isBefore, isRest⟩
  · cases middle with
    | nil =>
        rw [List.nil_append, List.cons.injEq] at isRest
        exact .inl ⟨by rw [isBefore, List.append_nil], isRest.1⟩
    | cons first middle =>
        rw [List.cons_append, List.cons.injEq] at isRest
        exact .inr (.inl ⟨middle, by rw [isBefore, isRest.1]⟩)
  · cases middle with
    | nil =>
        rw [List.nil_append, List.cons.injEq] at isRest
        exact .inl ⟨by rw [isBefore, List.append_nil], isRest.1.symm⟩
    | cons first middle =>
        rw [List.cons_append, List.cons.injEq] at isRest
        exact .inr (.inr ⟨middle, by rw [isBefore, isRest.1]⟩)

/-- The session has taken the lock after the opening of the history.  No other
session has taken it since, and the session has not committed. -/
def HeldSince (pid : ProcId) (key : Key) (opening log : List (Event Key Write)) : Prop :=
  ∃ later, log = opening ++ .acquired pid key :: later ∧
    (∀ other, other ≠ pid → Event.acquired other key ∉ later) ∧
    ∀ writes, Event.committed pid writes ∉ later

/-- While a session holds a lock, no session that holds it too commits. -/
theorem HeldSince.exclusive
    {opening opening' middle after : List (Event Key Write)}
    {writes : List Write}
    (held : HeldSince pid key opening
      (opening ++ .acquired pid key :: (middle ++ .committed other writes :: after)))
    (held' : HeldSince other key opening' (opening ++ .acquired pid key :: middle)) :
    False := by
  obtain ⟨later, isLog, quiet, uncommitted⟩ := held
  obtain ⟨later', isLog', quiet', uncommitted'⟩ := held'
  obtain rfl : middle ++ .committed other writes :: after = later :=
    (List.cons.inj (List.append_cancel_left isLog)).2
  have different : other ≠ pid := by
    rintro rfl
    exact uncommitted writes (by simp)
  rcases split_cases isLog' with ⟨_, same⟩ | ⟨between, rfl⟩ | ⟨between, rfl⟩
  · exact different (Event.acquired.inj same).1.symm
  · -- the other session took the lock second
    rw [List.append_assoc, List.cons_append] at isLog'
    obtain rfl := (List.cons.inj (List.append_cancel_left isLog')).2
    exact quiet other different (by simp)
  · rw [List.append_assoc, List.cons_append] at isLog'
    obtain rfl := (List.cons.inj (List.append_cancel_left isLog')).2
    exact quiet' pid different.symm (by simp)

end Held

/-! ## Proof rules -/

section Rules

variable
    {Store Key Write Statement : Type}
    {Answer : Statement → Type}
    [DecidableEq Key]
    (schema : Schema Store Key Write Answer)

/-- A property of a commit: what was there at first, the history in front of
the commit, and the session with its writes. -/
abbrev CommitProperty (Store Key Write : Type) :=
  Store → List (Event Key Write) → ProcId → List Write → Prop

/-- Every commit of the history has the property. -/
def CommitsSatisfy
    (property : CommitProperty Store Key Write)
    (initial : Store)
    (log : List (Event Key Write)) : Prop :=
  ∀ before pid writes after, log = before ++ .committed pid writes :: after →
    property initial before pid writes

omit [DecidableEq Key] in
theorem commitsSatisfy_nil
    (property : CommitProperty Store Key Write)
    (initial : Store) :
    CommitsSatisfy property initial [] := by
  intro before pid writes after isNil
  simp at isNil

omit [DecidableEq Key] in
/-- Locks are no commits. -/
theorem CommitsSatisfy.append_acquired
    {property : CommitProperty Store Key Write}
    {initial : Store}
    {log : List (Event Key Write)}
    (satisfied : CommitsSatisfy property initial log)
    (pid : ProcId)
    (keys : List Key) :
    CommitsSatisfy property initial (log ++ keys.map (.acquired pid)) := by
  intro before other writes after isSplit
  rcases List.append_eq_append_iff.mp isSplit with
    ⟨middle, isBefore, isKeys⟩ | ⟨middle, isLog, isRest⟩
  · have isKey : Event.committed other writes ∈ keys.map (Event.acquired pid) := by
      rw [isKeys]
      simp
    simp at isKey
  · cases middle with
    | nil =>
        have isKey : Event.committed other writes ∈ keys.map (Event.acquired pid) := by
          rw [← List.nil_append (keys.map _), ← isRest]
          exact List.mem_cons_self
        simp at isKey
    | cons event middle =>
        rw [List.cons_append, List.cons.injEq] at isRest
        rw [← isRest.1] at isLog
        exact satisfied before other writes middle isLog

omit [DecidableEq Key] in
/-- A history may be extended by a commit that has the property. -/
theorem CommitsSatisfy.append_committed
    {property : CommitProperty Store Key Write}
    {initial : Store}
    {log : List (Event Key Write)}
    {pid : ProcId}
    {writes : List Write}
    (satisfied : CommitsSatisfy property initial log)
    (last : property initial log pid writes) :
    CommitsSatisfy property initial (log ++ [.committed pid writes]) := by
  intro before other others after isSplit
  rcases List.append_eq_append_iff.mp isSplit with
    ⟨middle, isBefore, isLast⟩ | ⟨middle, isLog, isRest⟩
  · cases middle with
    | nil =>
        rw [List.nil_append, List.cons.injEq, Event.committed.injEq] at isLast
        obtain ⟨⟨rfl, rfl⟩, _⟩ := isLast
        rw [isBefore, List.append_nil]
        exact last
    | cons event middle =>
        rw [List.cons_append, List.cons.injEq] at isLast
        simp at isLast
  · cases middle with
    | nil =>
        rw [List.nil_append, List.cons.injEq, Event.committed.injEq] at isRest
        obtain ⟨⟨rfl, rfl⟩, _⟩ := isRest
        rw [List.append_nil] at isLog
        rw [← isLog]
        exact last
    | cons event middle =>
        rw [List.cons_append, List.cons.injEq] at isRest
        rw [← isRest.1] at isLog
        exact satisfied before other others middle isLog

omit [DecidableEq Key] in
/-- What is true of all commits is true of the first ones. -/
theorem CommitsSatisfy.of_append
    {property : CommitProperty Store Key Write}
    {initial : Store}
    {log log' : List (Event Key Write)}
    (satisfied : CommitsSatisfy property initial (log ++ log')) :
    CommitsSatisfy property initial log := by
  intro before pid writes after isSplit
  apply satisfied before pid writes (after ++ log')
  rw [isSplit]
  simp

omit [DecidableEq Key] in
/-- What every commit with the property keeps is kept along a history. -/
theorem CommitsSatisfy.kept
    {property : CommitProperty Store Key Write}
    {initial : Store}
    (fact : Store → Prop)
    (kept : ∀ before pid writes, property initial before pid writes →
      fact (replay schema initial before) →
      fact (writes.foldl schema.apply (replay schema initial before)))
    {log log' : List (Event Key Write)}
    (satisfied : CommitsSatisfy property initial (log ++ log'))
    (holds : fact (replay schema initial log)) :
    fact (replay schema initial (log ++ log')) := by
  induction log' generalizing log with
  | nil => rwa [List.append_nil]
  | cons event log' inductionHypothesis =>
      rw [List.append_cons] at satisfied ⊢
      apply inductionHypothesis satisfied
      rw [replay_append]
      cases event with
      | acquired pid key => exact holds
      | committed pid writes =>
          exact kept log pid writes (satisfied log pid writes log' (by simp)) holds

/-- Sessions that commit only what has the property. -/
def discipline (property : CommitProperty Store Key Write) : Discipline (Db Store Key Write) where
  invariant db := Locked schema db ∧ CommitsSatisfy property db.initial db.log
  guarantee := Moves

variable
    {schema}
    {ε Call : Type}
    {failure : ε}
    {property : CommitProperty Store Key Write}
    {pid : ProcId}

/-- An assertion is stable if neither moves of others nor time affect it. -/
theorem stable_of_moves
    {assertion : Db Store Key Write → Prop}
    (moved : ∀ other db db', other ≠ pid → Locked schema db → Moves other db db' →
      assertion db → assertion db')
    (timeless : ∀ db later, assertion db → assertion { db with clock := later }) :
    Stable (machine schema failure Call) (discipline schema property) pid assertion := by
  intro db db' invariant _ holds change
  rcases change with ⟨other, different, moves⟩ | ⟨later, _, rfl⟩
  · exact moved other db db' different invariant.1 moves holds
  · exact timeless db later holds

theorem stable_pending (writes : List Write) :
    Stable (machine schema failure Call) (discipline schema property) pid fun db =>
      db.pending pid = writes := by
  apply stable_of_moves
  · intro other db db' different _ moves holds
    rw [moves.pending pid different.symm]
    exact holds
  · intro db later holds
    exact holds

/-- The session holds the lock of a row, of which the fact is true. -/
def Owns
    {β : Type}
    (schema : Schema Store Key Write Answer)
    (pid : ProcId)
    (key : Key)
    (observe : Store → β)
    (fact : β → Prop)
    (db : Db Store Key Write) : Prop :=
  db.holder key = some pid ∧ fact (observe (db.committed schema))

/-- A session can rely on a row that it has locked. -/
theorem stable_owns
    {β : Type}
    {observe : Store → β}
    {key : Key}
    (depends : DependsOn schema observe key)
    (fact : β → Prop) :
    Stable (machine schema failure Call) (discipline schema property) pid
      (Owns schema pid key observe fact) := by
  apply stable_of_moves
  · intro other db db' different locked moves holds
    refine ⟨(moves.holder key pid different.symm).mpr holds.1, ?_⟩
    rw [moves.observe different locked holds.1 depends]
    exact holds.2
  · intro db later holds
    exact holds

/-- The session holds the lock that it has taken after the opening. -/
def Holds (pid : ProcId) (key : Key) (opening : List (Event Key Write))
    (db : Db Store Key Write) : Prop :=
  db.holder key = some pid ∧ HeldSince pid key opening db.log

theorem stable_holds (key : Key) (opening : List (Event Key Write)) :
    Stable (machine schema failure Call) (discipline schema property) pid
      (Holds pid key opening) := by
  apply stable_of_moves
  · intro other db db' different _ moves holds
    obtain ⟨isHeld, later, isOpening, quiet, uncommitted⟩ := holds
    obtain ⟨keys, commits, isLog, isCommit⟩ := moves.log
    refine ⟨(moves.holder key pid different.symm).mpr isHeld,
      later ++ (keys.map (.acquired other) ++ commits), ?_, ?_, ?_⟩
    · rw [isLog, isOpening]
      simp
    · intro third notOwn isAcquired
      rcases List.mem_append.mp isAcquired with isOld | isNew
      · exact quiet third notOwn isOld
      · by_cases isOther : third = other
        · subst isOther
          exact moves.acquired key pid different.symm isHeld _ isLog isNew
        · rcases List.mem_append.mp isNew with isKey | isLast
          · simp [Ne.symm isOther] at isKey
          · rcases isCommit with rfl | rfl <;> simp at isLast
    · intro writes isCommitted
      rcases List.mem_append.mp isCommitted with isOld | isNew
      · exact uncommitted writes isOld
      · rcases List.mem_append.mp isNew with isKey | isLast
        · simp at isKey
        · rcases isCommit with rfl | rfl
          · simp at isLast
          · simp only [List.mem_singleton, Event.committed.injEq] at isLast
            exact different isLast.1.symm
  · intro db later holds
    exact holds

/-- Statements of the session itself keep its locks. -/
theorem Holds.executed
    {α : Type}
    {key : Key}
    {opening : List (Event Key Write)}
    {db : Db Store Key Write}
    (holds : Holds pid key opening db)
    (effect : Effect Key Write α) :
    Holds pid key opening (db.executed pid effect) := by
  obtain ⟨isHeld, later, isOpening, quiet, uncommitted⟩ := holds
  refine ⟨?_, later ++ effect.locks.map (.acquired pid), ?_, ?_, ?_⟩
  · simp only [Db.executed]
    split_ifs
    · rfl
    · exact isHeld
  · simp only [Db.executed, isOpening]
    simp
  · intro other notOwn isAcquired
    rcases List.mem_append.mp isAcquired with isOld | isNew
    · exact quiet other notOwn isOld
    · simp [notOwn.symm] at isNew
  · intro writes isCommitted
    rcases List.mem_append.mp isCommitted with isOld | isNew
    · exact uncommitted writes isOld
    · simp at isNew

/-- A statement that locks a single key. -/
theorem Holds.of_locked
    {α : Type}
    {key : Key}
    {effect : Effect Key Write α}
    (isLocked : effect.locks = [key])
    (db : Db Store Key Write) :
    Holds pid key db.log (db.executed pid effect) := by
  refine ⟨?_, [], ?_, ?_, ?_⟩
  · simp [Db.executed, isLocked]
  · simp [Db.executed, isLocked]
  · simp
  · simp

/-- The session has taken the lock after the opening, and has not taken it again since. -/
def TakenOnce (pid : ProcId) (key : Key) (opening log : List (Event Key Write)) : Prop :=
  ∃ later, log = opening ++ .acquired pid key :: later ∧ Event.acquired pid key ∉ later

theorem stable_takenOnce (key : Key) (opening : List (Event Key Write)) :
    Stable (machine schema failure Call) (discipline schema property) pid fun db =>
      TakenOnce pid key opening db.log := by
  apply stable_of_moves
  · intro other db db' different _ moves taken
    obtain ⟨later, isOpening, isOnce⟩ := taken
    obtain ⟨keys, commits, isLog, isCommit⟩ := moves.log
    refine ⟨later ++ (keys.map (.acquired other) ++ commits), ?_, ?_⟩
    · rw [isLog, isOpening]
      simp
    · intro isAcquired
      rcases List.mem_append.mp isAcquired with isOld | isNew
      · exact isOnce isOld
      · rcases List.mem_append.mp isNew with isKey | isLast
        · simp [different] at isKey
        · rcases isCommit with rfl | rfl <;> simp at isLast
  · intro db later taken
    exact taken

/-- A statement of the session that does not lock the key. -/
theorem TakenOnce.executed
    {α : Type}
    {key : Key}
    {opening : List (Event Key Write)}
    {db : Db Store Key Write}
    (taken : TakenOnce pid key opening db.log)
    {effect : Effect Key Write α}
    (notLocked : key ∉ effect.locks) :
    TakenOnce pid key opening (db.executed pid effect).log := by
  obtain ⟨later, isOpening, isOnce⟩ := taken
  refine ⟨later ++ effect.locks.map (.acquired pid), ?_, ?_⟩
  · simp only [Db.executed, isOpening]
    simp
  · intro isAcquired
    rcases List.mem_append.mp isAcquired with isOld | isNew
    · exact isOnce isOld
    · simp [notLocked] at isNew

/-- A statement that locks the key, and no other one. -/
theorem TakenOnce.of_locked
    {α : Type}
    {key : Key}
    {effect : Effect Key Write α}
    (isLocked : effect.locks = [key])
    (db : Db Store Key Write) :
    TakenOnce pid key db.log (db.executed pid effect).log :=
  ⟨[], by simp [Db.executed, isLocked], by simp⟩

/-- A session can rely on what no commit changes. -/
theorem stable_committed
    {fact : Store → Prop}
    (kept : ∀ store write, fact store → fact (schema.apply store write)) :
    Stable (machine schema failure Call) (discipline schema property) pid fun db =>
      fact (db.committed schema) := by
  apply stable_of_moves
  · intro other db db' _ _ moves holds
    obtain ⟨keys, commits, isLog, _⟩ := moves.log
    rw [Db.committed, moves.initial, isLog]
    exact replay_kept kept holds _
  · intro db later holds
    exact holds

/-- A session can rely on what has happened. -/
theorem stable_log
    {fact : Store → List (Event Key Write) → Prop}
    (kept : ∀ initial log events, fact initial log → fact initial (log ++ events)) :
    Stable (machine schema failure Call) (discipline schema property) pid fun db =>
      fact db.initial db.log := by
  apply stable_of_moves
  · intro other db db' _ _ moves holds
    obtain ⟨keys, commits, isLog, _⟩ := moves.log
    rw [moves.initial, isLog]
    exact kept _ _ _ holds
  · intro db later holds
    exact holds

/-- The session has not committed anything. -/
def Uncommitted (pid : ProcId) (log : List (Event Key Write)) : Prop :=
  ∀ writes, Event.committed pid writes ∉ log

theorem stable_uncommitted :
    Stable (machine schema failure Call) (discipline schema property) pid fun db =>
      Uncommitted pid db.log := by
  apply stable_of_moves
  · intro other db db' different _ moves holds writes isCommitted
    obtain ⟨keys, commits, isLog, isCommit⟩ := moves.log
    rw [isLog, List.mem_append, List.mem_append] at isCommitted
    rcases isCommitted with isOld | isKey | isNew
    · exact holds writes isOld
    · simp at isKey
    · rcases isCommit with rfl | rfl
      · simp at isNew
      · simp only [List.mem_singleton, Event.committed.injEq] at isNew
        exact different isNew.1.symm
  · intro db later holds
    exact holds

/-- The session has neither written nor committed anything. -/
def Untouched (pid : ProcId) (db : Db Store Key Write) : Prop :=
  db.pending pid = [] ∧ Uncommitted pid db.log

theorem stable_untouched :
    Stable (machine schema failure Call) (discipline schema property) pid (Untouched pid) :=
  (stable_pending []).and stable_uncommitted

/-- The rule for statements: they keep the invariant by themselves. -/
theorem outline_execute
    {statement : Statement}
    {assertion raised : Db Store Key Write → Prop}
    {returned : Answer statement → Db Store Key Write → Prop}
    (returnedStable : ∀ answer,
      Stable (machine schema failure Call) (discipline schema property) pid (returned answer))
    (raisedStable :
      Stable (machine schema failure Call) (discipline schema property) pid raised)
    (succeeds : ∀ answer db, (discipline schema property).invariant db → assertion db →
      (schema.effect statement (db.view schema pid)).answer = some answer →
      returned answer (db.executed pid (schema.effect statement (db.view schema pid))))
    (fails : ∀ db, assertion db → raised db) :
    Outline (machine schema failure Call) (discipline schema property) pid
      (Program.perform (.execute statement)) assertion
      (byOutcome returned fun error db => error = failure ∧ raised db) := by
  apply Outline.perform returnedStable
  · intro error
    exact (Stable.const _).and raisedStable
  · intro answer db db' invariant holds performed
    obtain ⟨moves, locked⟩ := perform_moves_locked schema performed invariant.1
    obtain ⟨free, isAnswer, rfl⟩ := performed
    exact ⟨⟨locked, invariant.2.append_acquired pid _⟩, moves,
      succeeds answer db invariant holds isAnswer⟩
  · intro error db db' invariant holds performed
    obtain ⟨moves, _⟩ := perform_moves_locked schema performed invariant.1
    obtain ⟨isFailure, rfl⟩ := performed
    exact ⟨invariant, moves, isFailure, fails db' holds⟩

/-- A statement leaves what is committed alone. -/
theorem committed_executed
    {α : Type}
    (effect : Effect Key Write α)
    (db : Db Store Key Write) :
    (db.executed pid effect).committed schema = db.committed schema := by
  rw [Db.committed, Db.executed, replay_append, replay_acquired]
  rfl

/-- A statement commits nothing. -/
theorem uncommitted_executed
    {α : Type}
    {effect : Effect Key Write α}
    {db : Db Store Key Write}
    (holds : Uncommitted pid db.log) :
    Uncommitted pid (db.executed pid effect).log := by
  intro writes isCommitted
  rcases List.mem_append.mp isCommitted with isOld | isKey
  · exact holds writes isOld
  · simp at isKey

/-- Statements of the session itself keep what it owns. -/
theorem Owns.executed
    {α β : Type}
    {key : Key}
    {observe : Store → β}
    {fact : β → Prop}
    {db : Db Store Key Write}
    (owns : Owns schema pid key observe fact db)
    (effect : Effect Key Write α) :
    Owns schema pid key observe fact (db.executed pid effect) := by
  constructor
  · simp only [Db.executed]
    split_ifs
    · rfl
    · exact owns.1
  · rw [committed_executed]
    exact owns.2

/-- A statement that locks a key gives what is true of its row. -/
theorem Owns.of_locked
    {α β : Type}
    {key : Key}
    {observe : Store → β}
    {fact : β → Prop}
    {effect : Effect Key Write α}
    {db : Db Store Key Write}
    (isLocked : key ∈ effect.locks)
    (holds : fact (observe (db.committed schema))) :
    Owns schema pid key observe fact (db.executed pid effect) := by
  constructor
  · simp only [Db.executed]
    rw [if_pos isLocked]
  · rw [committed_executed]
    exact holds

/-- A statement without effects leaves the database as it is. -/
theorem executed_silent
    {α : Type}
    {effect : Effect Key Write α}
    (noLocks : effect.locks = [])
    (noWrites : effect.writes = [])
    (db : Db Store Key Write) :
    db.executed pid effect = db := by
  unfold Db.executed
  rw [noLocks, noWrites]
  simp

/-- The rule for statements that only read, in a transaction that has not
written anything: what they have seen is committed. -/
theorem outline_read
    {statement : Statement}
    {assertion : Db Store Key Write → Prop}
    {fact : Answer statement → Store → Prop}
    (stable : Stable (machine schema failure Call) (discipline schema property) pid assertion)
    (noLocks : ∀ store, (schema.effect statement store).locks = [])
    (noWrites : ∀ store, (schema.effect statement store).writes = [])
    (nothingPending : ∀ db, assertion db → db.pending pid = [])
    (seen : ∀ store answer, (schema.effect statement store).answer = some answer →
      fact answer store)
    (kept : ∀ answer store write, fact answer store → fact answer (schema.apply store write)) :
    Outline (machine schema failure Call) (discipline schema property) pid
      (Program.perform (.execute statement)) assertion
      (byOutcome (fun answer db => assertion db ∧ fact answer (db.committed schema))
        fun error db => error = failure ∧ assertion db) := by
  apply outline_execute
  · exact fun answer => stable.and (stable_committed (kept answer))
  · exact stable
  · intro answer db _ holds isAnswer
    rw [executed_silent (noLocks _) (noWrites _)]
    have isView : db.view schema pid = db.committed schema := by
      rw [Db.view, nothingPending db holds]
      rfl
    rw [isView] at isAnswer
    exact ⟨holds, seen _ _ isAnswer⟩
  · exact fun db holds => holds

/-- The rule for commits: what is committed must have the property. -/
theorem outline_commit
    {assertion returned raised : Db Store Key Write → Prop}
    (returnedStable :
      Stable (machine schema failure Call) (discipline schema property) pid returned)
    (raisedStable :
      Stable (machine schema failure Call) (discipline schema property) pid raised)
    (succeeds : ∀ db, (discipline schema property).invariant db → assertion db →
      property db.initial db.log pid (db.pending pid) ∧ returned (db.commit pid))
    (fails : ∀ db, assertion db → raised (db.release pid)) :
    Outline (machine schema failure Call) (discipline schema property) pid
      (Program.perform .commit) assertion
      (byOutcome (fun _ => returned) fun error db => error = failure ∧ raised db) := by
  apply Outline.perform fun _ => returnedStable
  · intro error
    exact (Stable.const _).and raisedStable
  · intro _ db db' invariant holds performed
    obtain ⟨moves, locked⟩ := perform_moves_locked schema performed invariant.1
    obtain rfl := performed
    obtain ⟨last, after⟩ := succeeds db invariant holds
    exact ⟨⟨locked, invariant.2.append_committed last⟩, moves, after⟩
  · intro error db db' invariant holds performed
    obtain ⟨moves, locked⟩ := perform_moves_locked schema performed invariant.1
    obtain ⟨isFailure, rfl⟩ := performed
    exact ⟨⟨locked, invariant.2⟩, moves, isFailure, fails db holds⟩

/-- The rule for rollbacks. -/
theorem outline_rollback
    {assertion after : Db Store Key Write → Prop}
    (afterStable : Stable (machine schema failure Call) (discipline schema property) pid after)
    (released : ∀ db, assertion db → after (db.release pid)) :
    Outline (machine schema failure Call) (discipline schema property) pid
      (Program.perform .rollback) assertion
      (byOutcome (fun _ => after) fun error db => error = failure ∧ after db) := by
  apply Outline.perform fun _ => afterStable
  · intro error
    exact (Stable.const _).and afterStable
  · intro _ db db' invariant holds performed
    obtain ⟨moves, locked⟩ := perform_moves_locked schema performed invariant.1
    obtain rfl := performed
    exact ⟨⟨locked, invariant.2⟩, moves, released db holds⟩
  · intro error db db' invariant holds performed
    obtain ⟨moves, locked⟩ := perform_moves_locked schema performed invariant.1
    obtain ⟨isFailure, rfl⟩ := performed
    exact ⟨⟨locked, invariant.2⟩, moves, isFailure, released db holds⟩

/-- The rule for a transaction that is rolled back, and its error raised again,
when something fails in it. -/
theorem outline_transaction
    {α : Type}
    {transaction : Program ε (SessionAnswer Answer) α}
    {assertion raised after : Db Store Key Write → Prop}
    {returned : α → Db Store Key Write → Prop}
    (afterStable : Stable (machine schema failure Call) (discipline schema property) pid after)
    (released : ∀ db, raised db → after (db.release pid))
    (outline : Outline (machine schema failure Call) (discipline schema property) pid transaction
      assertion (byOutcome returned fun error db => error = failure ∧ raised db)) :
    Outline (machine schema failure Call) (discipline schema property) pid
      (transaction.catchWith fun error =>
        (Program.perform SessionOp.rollback).bind fun _ => .raise error)
      assertion
      (byOutcome returned fun error db => error = failure ∧ after db) := by
  apply Outline.catchWith outline
  · exact fun value db _ holds => holds
  · intro error
    apply Outline.bind
    · apply outline_rollback ((Stable.const (error = failure)).and afterStable)
      exact fun db holds => ⟨holds.1, released db holds.2⟩
    · exact fun _ db _ holds => holds
    · exact fun raised db _ holds => ⟨holds.1, holds.2.2⟩

/-- The rule for reading the clock. -/
theorem outline_now
    {assertion : Db Store Key Write → Prop}
    (stable : Stable (machine schema failure Call) (discipline schema property) pid assertion) :
    Outline (machine schema failure Call) (discipline schema property) pid
      (Program.perform .now) assertion
      (byOutcome (fun _ => assertion) fun _ _ => False) := by
  apply Outline.perform fun _ => stable
  · intro error
    exact Stable.const False
  · intro time db db' invariant holds performed
    obtain ⟨_, rfl⟩ := performed
    exact ⟨invariant, moves_refl pid db', holds⟩
  · intro error db db' invariant holds performed
    exact performed.elim

variable
    {α : Type}
    {body : Call → Program ε (SessionAnswer Answer) α}
    {post : ProcId → Call → Except ε α → Db Store Key Write → Prop}

/-- Outlines of all bodies that start in a session of their own. -/
theorem outlined_of_outlines
    (stable : ∀ pid call result,
      Stable (machine schema failure Call) (discipline schema property) pid
        (post pid call result))
    (released : ∀ pid call result db, post pid call result db →
      post pid call result (db.release pid))
    (outlines : ∀ pid call,
      Outline (machine schema failure Call) (discipline schema property) pid (body call)
        (Untouched pid) (post pid call)) :
    Outlined (machine schema failure Call) (discipline schema property) body Untouched
      post where
  idle_stable _ := stable_untouched
  post_stable := stable
  environment db db' invariant passes := by
    obtain ⟨later, _, rfl⟩ := passes
    exact invariant
  outline pid call := by
    refine ⟨Untouched pid, stable_untouched, ?_, ?_⟩
    · exact fun db invariant untouched => ⟨invariant, moves_refl pid db, untouched⟩
    · apply (outlines pid call).consequence
      intro result db invariant holds
      exact ⟨⟨release_locked schema pid invariant.1, invariant.2⟩, release_moves pid db,
        released pid call result db holds⟩

/-- What every run from a database without open transactions keeps. -/
theorem sound_of_outlined
    (outlined : Outlined (machine schema failure Call) (discipline schema property) body
      Untouched post)
    {initial : Store}
    {clock : Nat}
    {config : Config ε (SessionAnswer Answer) Call (Db Store Key Write) α}
    (reachable : Reachable (machine schema failure Call) body (Db.start initial clock) config) :
    CommitsSatisfy property config.shared.initial config.shared.log ∧
      ∀ pid call result, config.process pid = some (call, .finished result) →
        post pid call result config.shared := by
  have started : (discipline schema property).invariant (Db.start initial clock) := by
    refine ⟨?_, commitsSatisfy_nil property initial⟩
    intro pid write isPending
    simp [Db.start] at isPending
  have untouched : ∀ pid, Untouched pid (Db.start initial clock : Db Store Key Write) := by
    intro pid
    refine ⟨rfl, fun writes isCommitted => ?_⟩
    simp [Db.start] at isCommitted
  obtain ⟨invariant, posts⟩ := outlined.sound started untouched reachable
  exact ⟨invariant.2, posts⟩

/-- A process that has not performed any operation has neither written nor
committed anything. -/
theorem untouched_of_fresh
    {initial : Store}
    {clock : Nat}
    {config : Config ε (SessionAnswer Answer) Call (Db Store Key Write) α}
    (reachable : Reachable (machine schema failure Call) body (Db.start initial clock) config)
    (isFresh : Fresh body (config.process pid)) :
    Untouched pid config.shared := by
  have kept : ∀ (pid other : ProcId) (db db' : Db Store Key Write), other ≠ pid →
      Moves pid db db' → Untouched other db → Untouched other db' := by
    intro pid other db db' different moves untouched
    obtain ⟨keys, commits, isLog, isCommit⟩ := moves.log
    refine ⟨(moves.pending other different).trans untouched.1, fun writes isCommitted => ?_⟩
    rw [isLog, List.mem_append, List.mem_append] at isCommitted
    rcases isCommitted with isOld | isKey | isNew
    · exact untouched.2 writes isOld
    · simp at isKey
    · rcases isCommit with rfl | rfl
      · simp at isNew
      · simp only [List.mem_singleton, Event.committed.injEq] at isNew
        exact different isNew.1
  apply fact_of_fresh (machine schema failure Call) body _ _ _ _ _ reachable pid isFresh
  · intro pid
    refine ⟨rfl, fun writes isCommitted => ?_⟩
    simp [Db.start] at isCommitted
  · exact fun _ _ _ _ untouched => untouched
  · exact fun pid other op answer db db' different performed =>
      kept pid other db db' different (performs_moves schema performed)
  · exact fun pid other db different => kept pid other db _ different (release_moves pid db)
  · rintro pid db _ ⟨later, _, rfl⟩ untouched
    exact untouched

/-- A run extends the history, whatever its programs do. -/
theorem log_extends_of_step
    {config config' : Config ε (SessionAnswer Answer) Call (Db Store Key Write) α}
    (step : Step (machine schema failure Call) body config config') :
    config'.shared.initial = config.shared.initial ∧
      ∃ events, config'.shared.log = config.shared.log ++ events := by
  cases step with
  | start pid call _ => exact ⟨rfl, [], (List.append_nil _).symm⟩
  | perform _ performed =>
      have moves := performs_moves schema performed
      obtain ⟨keys, commits, isLog, _⟩ := moves.log
      exact ⟨moves.initial, _, isLog⟩
  | finish _ _ => exact ⟨rfl, [], (List.append_nil _).symm⟩
  | environment passes =>
      obtain ⟨later, _, rfl⟩ := passes
      exact ⟨rfl, [], (List.append_nil _).symm⟩

theorem log_extends
    {config config' : Config ε (SessionAnswer Answer) Call (Db Store Key Write) α}
    (steps : Steps (machine schema failure Call) body config config') :
    config'.shared.initial = config.shared.initial ∧
      ∃ events, config'.shared.log = config.shared.log ++ events := by
  induction steps with
  | refl => exact ⟨rfl, [], (List.append_nil _).symm⟩
  | tail _ step inductionHypothesis =>
      obtain ⟨sameInitial, events, isLog⟩ := inductionHypothesis
      obtain ⟨sameInitial', events', isLog'⟩ := log_extends_of_step step
      exact ⟨sameInitial'.trans sameInitial, events ++ events',
        by rw [isLog', isLog, List.append_assoc]⟩

end Rules

end ReadCommitted
end SigmaForge
