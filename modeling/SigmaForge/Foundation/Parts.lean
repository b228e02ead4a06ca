import SigmaForge.Foundation.Phases
import SigmaForge.Foundation.Serial
import Mathlib.Data.List.Basic

/-!
# Groups of tables

Services may share a database in which each of them has tables of its own.  What one of them
does is invisible in the tables of the others.  A program for a group of tables can run in the
whole database, where its sessions do the same.
-/

namespace SigmaForge
namespace ReadCommitted

section Parts

variable
    {Store Key Write Statement : Type}
    {Answer : Statement → Type}
    {Store' Key' Write' Statement' : Type}
    {Answer' : Statement' → Type}

/-- A group of the tables of a database, with its own statements. -/
structure Part (schema : Schema Store Key Write Answer)
    (schema' : Schema Store' Key' Write' Answer') where
  store : Store → Store'
  key : Key' → Key
  /-- What a write does to the group, if anything. -/
  write : Write → Option Write'
  statement : Statement' → Statement
  answer : ∀ statement', Answer (statement statement') → Answer' statement'
  store_apply : ∀ whole change, store (schema.apply whole change) =
    (write change).elim (store whole) (schema'.apply (store whole))
  locks : ∀ statement' whole, (schema.effect (statement statement') whole).locks =
    (schema'.effect statement' (store whole)).locks.map key
  answers : ∀ statement' whole,
    (schema.effect (statement statement') whole).answer.map (answer statement') =
      (schema'.effect statement' (store whole)).answer
  writes : ∀ statement' whole,
    (schema.effect (statement statement') whole).writes.filterMap write =
      (schema'.effect statement' (store whole)).writes

variable
    {schema : Schema Store Key Write Answer}
    {schema' : Schema Store' Key' Write' Answer'}
    (part : Part schema schema')

namespace Part

/-- An operation on the group, in the whole database. -/
def op : SessionOp Statement' → SessionOp Statement
  | .execute statement' => .execute (part.statement statement')
  | .commit => .commit
  | .rollback => .rollback
  | .now => .now

section Host

variable
    {ε ε' : Type}
    (failure' : ε')

/-- What an operation on the group answers. -/
def reply : (op' : SessionOp Statement') → Except ε (SessionAnswer Answer (part.op op')) →
    Except ε' (SessionAnswer Answer' op')
  | _, .error _ => .error failure'
  | .execute statement', .ok answer => .ok (part.answer statement' answer)
  | .commit, .ok _ => .ok ()
  | .rollback, .ok _ => .ok ()
  | .now, .ok time => .ok time

/-- A program for the group, in the whole database.  Its result is a value. -/
def host {α : Type} : Program ε' (SessionAnswer Answer') α →
    Program ε (SessionAnswer Answer) (Except ε' α)
  | .ret value => .ret (.ok value)
  | .raise error => .ret (.error error)
  | .call op' next => .call (part.op op') fun answer => host (next (part.reply failure' op' answer))

/-- The result of a program that has no operation left is that of its host. -/
theorem outcome_host
    {α : Type}
    {program : Program ε' (SessionAnswer Answer') α}
    {result : Except ε' α}
    (isOutcome : program.outcome = some result) :
    (part.host failure' program : Program ε (SessionAnswer Answer) _) = .ret result := by
  cases program with
  | ret value =>
      obtain rfl : Except.ok value = result := Option.some.inj isOutcome
      rfl
  | raise error =>
      obtain rfl : Except.error error = result := Option.some.inj isOutcome
      rfl
  | call op' next => cases isOutcome

/-- A host performs operations on its group only. -/
theorem only_host
    {α : Type}
    {allowed : SessionOp Statement → Prop}
    (isAllowed : ∀ op', allowed (part.op op'))
    (program : Program ε' (SessionAnswer Answer') α) :
    (part.host failure' program : Program ε (SessionAnswer Answer) _).Only allowed := by
  induction program with
  | ret value => trivial
  | raise error => trivial
  | call op' next inductionHypothesis =>
      exact ⟨isAllowed op', fun answer => inductionHypothesis _⟩

end Host

/-- The statement concerns other tables. -/
def Spares (statement : Statement) : Prop :=
  ∀ whole, (∀ key', part.key key' ∉ (schema.effect statement whole).locks) ∧
    (schema.effect statement whole).writes.filterMap part.write = []

/-- The operation concerns other tables. -/
def Foreign : SessionOp Statement → Prop
  | .execute statement => part.Spares statement
  | _ => True

variable
    {part}
    [DecidableEq Key]
    [DecidableEq Key']

/-- The group's part of the database. -/
structure Shows (part : Part schema schema') (db : Db Store Key Write)
    (db' : Db Store' Key' Write') : Prop where
  initial : db'.initial = part.store db.initial
  committed : db'.committed schema' = part.store (db.committed schema)
  pending : ∀ pid, db'.pending pid = (db.pending pid).filterMap part.write
  holder : ∀ key', db'.holder key' = db.holder (part.key key')
  clock : db'.clock = db.clock

omit [DecidableEq Key] [DecidableEq Key'] in
theorem store_foldl (changes : List Write) (whole : Store) :
    part.store (changes.foldl schema.apply whole) =
      (changes.filterMap part.write).foldl schema'.apply (part.store whole) := by
  induction changes generalizing whole with
  | nil => rfl
  | cons change changes inductionHypothesis =>
      rw [List.foldl_cons, inductionHypothesis, part.store_apply]
      cases isWrite : part.write change with
      | none =>
          rw [List.filterMap_cons_none isWrite]
          rfl
      | some change' =>
          rw [List.filterMap_cons_some isWrite]
          rfl

omit [DecidableEq Key] [DecidableEq Key'] in
theorem shows_start (initial : Store) (clock : Nat) :
    part.Shows (Db.start initial clock) (Db.start (part.store initial) clock) where
  initial := rfl
  committed := rfl
  pending _ := rfl
  holder _ := rfl
  clock := rfl

section Operations

variable
    {db : Db Store Key Write}
    {db' : Db Store' Key' Write'}
    (shows : part.Shows db db')

include shows

omit [DecidableEq Key] [DecidableEq Key'] in
theorem Shows.view (pid : ProcId) : db'.view schema' pid = part.store (db.view schema pid) := by
  rw [Db.view, Db.view, shows.committed, shows.pending, store_foldl]

omit [DecidableEq Key] [DecidableEq Key'] in
theorem Shows.tick (later : Nat) :
    part.Shows { db with clock := later } { db' with clock := later } where
  initial := shows.initial
  committed := shows.committed
  pending := shows.pending
  holder := shows.holder
  clock := rfl

omit [DecidableEq Key] [DecidableEq Key'] in
theorem Shows.release (pid : ProcId) : part.Shows (db.release pid) (db'.release pid) where
  initial := shows.initial
  committed := shows.committed
  pending other := by
    by_cases isOwn : other = pid
    · simp [Db.release, isOwn]
    · simp [Db.release, isOwn, shows.pending]
  holder key' := by
    simp only [Db.release, shows.holder]
  clock := shows.clock

omit [DecidableEq Key] [DecidableEq Key'] in
theorem Shows.commit (pid : ProcId) : part.Shows (db.commit pid) (db'.commit pid) where
  initial := shows.initial
  committed := by
    have isCommitted : ∀ {Store Key Write Statement : Type} {Answer : Statement → Type}
        (schema : Schema Store Key Write Answer) (db : Db Store Key Write),
        (db.commit pid).committed schema =
          (db.pending pid).foldl schema.apply (db.committed schema) := by
      intro _ _ _ _ _ schema db
      exact replay_append schema db.initial db.log [.committed pid (db.pending pid)]
    rw [isCommitted, isCommitted, store_foldl, shows.committed, shows.pending]
  pending := (shows.release pid).pending
  holder := (shows.release pid).holder
  clock := shows.clock

/-- A statement on the group does there what it does in the whole database. -/
theorem Shows.execute
    {pid : ProcId}
    (injective : Function.Injective part.key)
    (statement' : Statement') :
    part.Shows
      (db.executed pid (schema.effect (part.statement statement') (db.view schema pid)))
      (db'.executed pid (schema'.effect statement' (db'.view schema' pid))) where
  initial := shows.initial
  committed := by
    rw [committed_executed, committed_executed, shows.committed]
  pending other := by
    by_cases isOwn : other = pid
    · subst isOwn
      simp only [Db.executed, Function.update_self, List.filterMap_append, shows.pending,
        part.writes, shows.view]
    · simp only [Db.executed, Function.update_of_ne isOwn, shows.pending]
  holder key' := by
    have isLocked : part.key key' ∈
        (schema.effect (part.statement statement') (db.view schema pid)).locks ↔
        key' ∈ (schema'.effect statement' (db'.view schema' pid)).locks := by
      rw [part.locks, shows.view]
      exact List.mem_map_of_injective injective
    simp only [Db.executed, isLocked, shows.holder]
  clock := shows.clock

/-- An operation on the group is performed there, too. -/
theorem Shows.performs_own
    {ε ε' : Type}
    {failure : ε}
    (failure' : ε')
    {pid : ProcId}
    (injective : Function.Injective part.key)
    {op' : SessionOp Statement'}
    {answer : Except ε (SessionAnswer Answer (part.op op'))}
    {after : Db Store Key Write}
    (performed : performs schema failure pid (part.op op') db answer after) :
    ∃ after', performs schema' failure' pid op' db' (part.reply failure' op' answer) after' ∧
      part.Shows after after' := by
  match op', answer, performed with
  | .execute statement', .ok answer, ⟨free, isAnswer, isAfter⟩ =>
      refine ⟨_, ⟨?_, ?_, rfl⟩, isAfter ▸ shows.execute injective statement'⟩
      · intro key' isLocked
        rw [shows.holder]
        apply free
        rw [part.locks, ← shows.view]
        exact List.mem_map_of_mem isLocked
      · rw [shows.view, ← part.answers, isAnswer]
        rfl
  | .execute _, .error _, ⟨_, isAfter⟩ => exact ⟨db', ⟨rfl, rfl⟩, isAfter ▸ shows⟩
  | .commit, .ok _, isAfter => exact ⟨_, rfl, isAfter ▸ shows.commit pid⟩
  | .commit, .error _, ⟨_, isAfter⟩ => exact ⟨_, ⟨rfl, rfl⟩, isAfter ▸ shows.release pid⟩
  | .rollback, .ok _, isAfter => exact ⟨_, rfl, isAfter ▸ shows.release pid⟩
  | .rollback, .error _, ⟨_, isAfter⟩ => exact ⟨_, ⟨rfl, rfl⟩, isAfter ▸ shows.release pid⟩
  | .now, .ok time, ⟨isTime, isAfter⟩ =>
      exact ⟨db', ⟨isTime.trans shows.clock.symm, rfl⟩, isAfter ▸ shows⟩

end Operations

end Part

/-! ## What is invisible -/

section Foreign

variable
    {part : Part schema schema'}
    [DecidableEq Key]
    [DecidableEq Key']
    {db : Db Store Key Write}
    {db' : Db Store' Key' Write'}
    {pid : ProcId}

omit [DecidableEq Key'] in
/-- A session without a transaction has nothing to release. -/
theorem release_of_clear (clear : Clear pid db') : db'.release pid = db' := by
  unfold Db.release
  rw [← clear.1, Function.update_eq_self]
  congr
  funext key'
  exact if_neg (clear.2 key')

omit [DecidableEq Key] [DecidableEq Key'] in
/-- The end of a transaction that has done nothing to the group. -/
theorem Part.Shows.release_of_clear (shows : part.Shows db db') (clear : Clear pid db') :
    part.Shows (db.release pid) db' :=
  ReadCommitted.release_of_clear clear ▸ shows.release pid

omit [DecidableEq Key] [DecidableEq Key'] in
theorem Part.Shows.commit_of_clear (shows : part.Shows db db') (clear : Clear pid db') :
    part.Shows (db.commit pid) db' where
  initial := shows.initial
  committed := by
    have isCommitted : (db.commit pid).committed schema =
        (db.pending pid).foldl schema.apply (db.committed schema) :=
      replay_append schema db.initial db.log [.committed pid (db.pending pid)]
    rw [isCommitted, Part.store_foldl, ← shows.pending, clear.1]
    exact shows.committed
  pending := (shows.release_of_clear clear).pending
  holder := (shows.release_of_clear clear).holder
  clock := shows.clock

omit [DecidableEq Key'] in
/-- An operation on other tables is invisible in the group. -/
theorem Part.Shows.performs_foreign
    {ε : Type}
    {failure : ε}
    {op : SessionOp Statement}
    {answer : Except ε (SessionAnswer Answer op)}
    {after : Db Store Key Write}
    (shows : part.Shows db db')
    (clear : Clear pid db')
    (foreign : part.Foreign op)
    (performed : performs schema failure pid op db answer after) :
    part.Shows after db' := by
  match op, answer, performed with
  | .execute statement, .ok answer, ⟨_, _, isAfter⟩ =>
      obtain ⟨notLocked, nothing⟩ := foreign (db.view schema pid)
      subst isAfter
      refine ⟨shows.initial, ?_, ?_, ?_, shows.clock⟩
      · rw [committed_executed, shows.committed]
      · intro other
        by_cases isOwn : other = pid
        · subst isOwn
          simp only [Db.executed, Function.update_self, List.filterMap_append, nothing,
            List.append_nil, shows.pending]
        · simp only [Db.executed, Function.update_of_ne isOwn, shows.pending]
      · intro key'
        simp only [Db.executed, if_neg (notLocked key'), shows.holder]
  | .execute _, .error _, ⟨_, isAfter⟩ => exact isAfter ▸ shows
  | .commit, .ok _, isAfter => exact isAfter ▸ shows.commit_of_clear clear
  | .commit, .error _, ⟨_, isAfter⟩ => exact isAfter ▸ shows.release_of_clear clear
  | .rollback, .ok _, isAfter => exact isAfter ▸ shows.release_of_clear clear
  | .rollback, .error _, ⟨_, isAfter⟩ => exact isAfter ▸ shows.release_of_clear clear
  | .now, .ok _, ⟨_, isAfter⟩ => exact isAfter ▸ shows

end Foreign

end Parts

/-! ## Two groups of tables -/

section Beside

variable
    {Store Key Write Statement Store' Key' Write' Statement' : Type}
    {Answer : Statement → Type}
    {Answer' : Statement' → Type}

/-- What a statement does to the first of two groups. -/
def Effect.inLeft {α : Type} (effect : Effect Key Write α) :
    Effect (Key ⊕ Key') (Write ⊕ Write') α where
  locks := effect.locks.map .inl
  answer := effect.answer
  writes := effect.writes.map .inl

/-- What a statement does to the second of two groups. -/
def Effect.inRight {α : Type} (effect : Effect Key' Write' α) :
    Effect (Key ⊕ Key') (Write ⊕ Write') α where
  locks := effect.locks.map .inr
  answer := effect.answer
  writes := effect.writes.map .inr

/-- A database with two groups of tables. -/
def Schema.beside (schema : Schema Store Key Write Answer)
    (schema' : Schema Store' Key' Write' Answer') :
    Schema (Store × Store') (Key ⊕ Key') (Write ⊕ Write') (Sum.elim Answer Answer') where
  apply store
    | .inl change => (schema.apply store.1 change, store.2)
    | .inr change => (store.1, schema'.apply store.2 change)
  keys
    | .inl change => (schema.keys change).map .inl
    | .inr change => (schema'.keys change).map .inr
  effect
    | .inl statement, store => (schema.effect statement store.1).inLeft
    | .inr statement, store => (schema'.effect statement store.2).inRight
  locked := by
    intro statement store change isWritten key isKey
    cases statement with
    | inl statement =>
        obtain ⟨own, isOwn, rfl⟩ := List.mem_map.mp isWritten
        obtain ⟨ownKey, isOwnKey, rfl⟩ := List.mem_map.mp isKey
        exact List.mem_map_of_mem (schema.locked statement store.1 own isOwn ownKey isOwnKey)
    | inr statement =>
        obtain ⟨own, isOwn, rfl⟩ := List.mem_map.mp isWritten
        obtain ⟨ownKey, isOwnKey, rfl⟩ := List.mem_map.mp isKey
        exact List.mem_map_of_mem (schema'.locked statement store.2 own isOwn ownKey isOwnKey)

variable
    (schema : Schema Store Key Write Answer)
    (schema' : Schema Store' Key' Write' Answer')

/-- The first group of tables. -/
def Part.left : Part (schema.beside schema') schema where
  store := Prod.fst
  key := .inl
  write := Sum.getLeft?
  statement := .inl
  answer _ answer := answer
  store_apply whole change := by cases change <;> rfl
  locks _ _ := rfl
  answers _ _ := Option.map_id'
  writes statement whole := by
    have isSame : Sum.getLeft? ∘ (Sum.inl : Write → Write ⊕ Write') = some := rfl
    change ((schema.effect statement whole.1).writes.map Sum.inl).filterMap Sum.getLeft? = _
    rw [List.filterMap_map, isSame, List.filterMap_some]

/-- The second group of tables. -/
def Part.right : Part (schema.beside schema') schema' where
  store := Prod.snd
  key := .inr
  write := Sum.getRight?
  statement := .inr
  answer _ answer := answer
  store_apply whole change := by cases change <;> rfl
  locks _ _ := rfl
  answers _ _ := Option.map_id'
  writes statement whole := by
    have isSame : Sum.getRight? ∘ (Sum.inr : Write' → Write ⊕ Write') = some := rfl
    change ((schema'.effect statement whole.2).writes.map Sum.inr).filterMap Sum.getRight? = _
    rw [List.filterMap_map, isSame, List.filterMap_some]

/-- What is done to the first group does not concern the second. -/
theorem Part.foreign_right (op : SessionOp Statement) :
    (Part.right schema schema').Foreign ((Part.left schema schema').op op) := by
  cases op with
  | execute statement =>
      intro whole
      constructor
      · intro key isLocked
        obtain ⟨_, _, isKey⟩ := List.mem_map.mp isLocked
        cases isKey
      · change ((schema.effect statement whole.1).writes.map Sum.inl).filterMap Sum.getRight? = []
        rw [List.filterMap_map]
        exact List.filterMap_eq_nil_iff.mpr fun _ _ => rfl
  | commit => trivial
  | rollback => trivial
  | now => trivial

end Beside

namespace Part

/-! ## A program for a group, alone -/

section Alone

variable
    {Store Key Write Statement : Type}
    {Answer : Statement → Type}
    {Store' Key' Write' Statement' : Type}
    {Answer' : Statement' → Type}
    {schema : Schema Store Key Write Answer}
    {schema' : Schema Store' Key' Write' Answer'}
    (part : Part schema schema')
    {ε ε' α : Type}
    (failure : ε)
    (failure' : ε')
    (clock : Nat)

/-- Alone, a host does what its program does alone. -/
theorem solo_host
    (program : Program ε' (SessionAnswer Answer') α)
    (committed : Store)
    (pending : List Write) :
    let own := program.solo (answerAlone schema' failure' clock)
      (part.store committed, pending.filterMap part.write)
    ∃ committed' pending',
      (part.host failure' program).solo (answerAlone schema failure clock) (committed, pending) =
        (.ok own.1, committed', pending') ∧
      part.store committed' = own.2.1 ∧ pending'.filterMap part.write = own.2.2 := by
  induction program generalizing committed pending with
  | ret value => exact ⟨committed, pending, rfl, rfl, rfl⟩
  | raise error => exact ⟨committed, pending, rfl, rfl, rfl⟩
  | call op' next inductionHypothesis =>
      have isView := part.store_foldl pending committed
      cases op' with
      | now => exact inductionHypothesis (.ok clock) committed pending
      | rollback => exact inductionHypothesis (.ok ()) committed []
      | commit =>
          have committing :=
            inductionHypothesis (.ok ()) (pending.foldl schema.apply committed) []
          rw [isView] at committing
          exact committing
      | execute statement' =>
          have isAnswer := part.answers statement' (pending.foldl schema.apply committed)
          have isWritten := part.writes statement' (pending.foldl schema.apply committed)
          rw [isView] at isAnswer isWritten
          simp only [host, op, Program.solo]
          cases wasAnswer : (schema.effect (part.statement statement')
              (pending.foldl schema.apply committed)).answer with
          | none =>
              rw [wasAnswer] at isAnswer
              rw [answerAlone_of_none schema failure clock wasAnswer,
                answerAlone_of_none schema' failure' clock isAnswer.symm]
              exact inductionHypothesis (.error failure') committed pending
          | some answer =>
              rw [wasAnswer] at isAnswer
              rw [answerAlone_of_some schema failure clock wasAnswer,
                answerAlone_of_some schema' failure' clock isAnswer.symm, ← isWritten,
                ← List.filterMap_append]
              exact inductionHypothesis (.ok (part.answer statement' answer)) committed _

end Alone
end Part

end ReadCommitted
end SigmaForge
