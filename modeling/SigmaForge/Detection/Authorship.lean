import SigmaForge.Foundation.Provenance
import SigmaForge.Detection.Waiting

/-!
# Who the rules come from

The owner of a rule has created it, and the author of a version has stored it.
-/

namespace SigmaForge
namespace Detection

open Text Json ReadCommitted

section Programs

variable
    {python : Interpreter}
    {collation : Collation}

/-- The version that a call stores. -/
def RuleCall.newVersionId : RuleCall python → Option UUID
  | .create _ ids => some ids.versionId
  | .revise _ _ _ versionId => some versionId
  | _ => none

/-- The write names the user of the call. -/
def Authored (request : UUID × RuleCall python) : Write → Prop
  | .insertRule id columns => columns.ownerId = request.1 ∧
      ∃ draft ids, request.2 = .create draft ids ∧ ids.ruleId = id
  | .insertVersion id columns => columns.createdBy = request.1 ∧
      request.2.newVersionId = some id
  | .updateRule _ _ _ _ => True

theorem writes_flush
    {property : Write → Prop}
    {write : Write}
    (isOwn : property write) :
    Writes (schema collation) property (.execute (.flush write)) := by
  intro store other isWritten
  obtain ⟨isFlush, _⟩ := effect_writes isWritten
  obtain rfl : write = other := Statement.flush.inj isFlush
  exact isOwn

/-- A `SELECT` writes nothing. -/
theorem writes_select
    {property : Write → Prop}
    {statement : Statement}
    (isSelect : ∀ write, statement ≠ .flush write) :
    Writes (schema collation) property (.execute statement) := by
  intro store write isWritten
  obtain ⟨isFlush, _⟩ := effect_writes isWritten
  exact absurd isFlush (isSelect write)

theorem allowsSelects_writes (property : Write → Prop) :
    AllowsSelects (Writes (schema collation) property) where
  getRule _ := writes_select fun _ isFlush => nomatch isFlush
  getVersion _ := writes_select fun _ isFlush => nomatch isFlush
  selectVersion _ _ := writes_select fun _ isFlush => nomatch isFlush
  selectDrafts _ _ _ := writes_select fun _ isFlush => nomatch isFlush
  selectVersions _ _ _ := writes_select fun _ isFlush => nomatch isFlush

/-- Every call names its user in what it writes. -/
theorem only_serve (request : UUID × RuleCall python) :
    (serve request).Only (Writes (schema collation) (Authored request)) := by
  obtain ⟨ownerId, call⟩ := request
  by_cases onlyReads : call.OnlyReads
  · exact (allowsSelects_writes _).only_program ownerId onlyReads
  cases call with
  | create draft ids =>
      refine Program.Only.bind (only_createRuleDraft trivial trivial draft ownerId ids ?_)
        fun _ => trivial
      intro write isIn
      apply writes_flush
      simp only [createWrites, List.mem_cons, List.not_mem_nil, or_false] at isIn
      rcases isIn with rfl | rfl | rfl
      · exact ⟨rfl, draft, ids, rfl, rfl⟩
      · exact ⟨rfl, rfl⟩
      · trivial
  | revise ruleId expectedVersion draft versionId =>
      refine Program.Only.bind (only_reviseOwnedRuleDraft trivial trivial ruleId ownerId
        expectedVersion draft versionId ?_ (allowsSelects_writes _).getVersion ?_) fun _ => trivial
      · apply writes_select
        intro write isFlush
        cases isFlush
      · intro id number write isIn
        apply writes_flush
        simp only [reviseWrites, List.mem_cons, List.not_mem_nil, or_false] at isIn
        rcases isIn with rfl | rfl
        · exact ⟨rfl, rfl⟩
        · trivial
  | get ruleId => exact absurd trivial onlyReads
  | list limit offset => exact absurd trivial onlyReads
  | listVersions ruleId limit offset => exact absurd trivial onlyReads
  | getVersion ruleId versionNumber => exact absurd trivial onlyReads
  | diff ruleId versionNumber => exact absurd trivial onlyReads

end Programs

section Rows

variable {store : RuleStore}

/-- A write adds its own rule at most, and no rule changes its owner. -/
theorem owner_of_apply
    {origin : UUID → UUID → Prop}
    {write : Write}
    (isOrigin : ∀ id columns, write = .insertRule id columns → origin id columns.ownerId)
    (holds : ∀ id columns, store.rules.lookup id = some columns → origin id columns.ownerId) :
    ∀ id columns, (store.apply write).rules.lookup id = some columns →
      origin id columns.ownerId := by
  by_cases admissible : store.Admissible write
  · rw [RuleStore.apply_toTables admissible]
    intro id columns found
    cases write with
    | insertVersion versionId version => exact holds id columns found
    | insertRule ruleId rule =>
        by_cases isNew : id = ruleId
        · subst isNew
          rw [Tables.write, Finmap.lookup_insert] at found
          cases found
          exact isOrigin id columns rfl
        · rw [Tables.write, Finmap.lookup_insert_of_ne _ isNew] at found
          exact holds id columns found
    | updateRule ruleId title logSource currentVersionId =>
        simp only [Tables.write] at found
        cases isRule : store.rules.lookup ruleId with
        | none =>
            rw [isRule] at found
            exact holds id columns found
        | some rule =>
            rw [isRule] at found
            by_cases isChanged : id = ruleId
            · subst isChanged
              rw [Finmap.lookup_insert] at found
              cases found
              exact holds id rule isRule
            · rw [Finmap.lookup_insert_of_ne _ isChanged] at found
              exact holds id columns found
  · rw [RuleStore.apply, dif_neg admissible]
    exact holds

/-- A write adds its own version at most. -/
theorem version_of_apply
    {origin : UUID → VersionColumns → Prop}
    {write : Write}
    (isOrigin : ∀ id columns, write = .insertVersion id columns → origin id columns)
    (holds : ∀ id columns, store.versions.lookup id = some columns → origin id columns) :
    ∀ id columns, (store.apply write).versions.lookup id = some columns → origin id columns := by
  by_cases admissible : store.Admissible write
  · rw [RuleStore.apply_toTables admissible]
    intro id columns found
    cases write with
    | insertRule ruleId rule => exact holds id columns found
    | insertVersion versionId version =>
        by_cases isNew : id = versionId
        · subst isNew
          rw [Tables.write, Finmap.lookup_insert] at found
          cases found
          exact isOrigin id columns rfl
        · rw [Tables.write, Finmap.lookup_insert_of_ne _ isNew] at found
          exact holds id columns found
    | updateRule ruleId title logSource currentVersionId =>
        simp only [Tables.write] at found
        cases isRule : store.rules.lookup ruleId with
        | none =>
            rw [isRule] at found
            exact holds id columns found
        | some rule =>
            rw [isRule] at found
            exact holds id columns found
  · rw [RuleStore.apply, dif_neg admissible]
    exact holds

end Rows

section Runs

variable
    {python : Interpreter}
    {collation : Collation}
    {initial : RuleStore}
    {clock : Nat}
    {config : Config ServiceError (SessionAnswer Answer) (UUID × RuleCall python) RuleDb Response}

/-- Whoever owns a rule has created it, unless it has been there from the start. -/
theorem rules_authored
    (reachable : Reachable (ruleMachine python collation) serve (Db.start initial clock) config) :
    ∀ id columns,
      (config.shared.committed (schema collation)).rules.lookup id = some columns →
      (∃ first, initial.rules.lookup id = some first ∧ first.ownerId = columns.ownerId) ∨
        ∃ pid draft ids, Serves config pid (columns.ownerId, .create draft ids) ∧
          ids.ruleId = id := by
  have only : ∀ request : UUID × RuleCall python,
      (serve request).Only (Writes (schema collation) (Authored request)) := only_serve
  let origin (id ownerId : UUID) : Prop :=
    (∃ first, initial.rules.lookup id = some first ∧ first.ownerId = ownerId) ∨
      ∃ pid draft ids, Serves config pid (ownerId, .create draft ids) ∧ ids.ruleId = id
  let holds (store : RuleStore) : Prop :=
    ∀ id columns, store.rules.lookup id = some columns → origin id columns.ownerId
  have keeps : ∀ pid request store write, Serves config pid request → Authored request write →
      holds store → holds (store.apply write) := by
    intro pid request store write serves isAuthored isTrue
    apply owner_of_apply _ isTrue
    rintro id columns rfl
    obtain ⟨isOwner, draft, ids, isCall, isId⟩ := isAuthored
    obtain ⟨ownerId, call⟩ := request
    obtain rfl : call = .create draft ids := isCall
    exact .inr ⟨pid, draft, ids, isOwner ▸ serves, isId⟩
  have isInitial : holds initial := fun id columns found => .inl ⟨columns, found, rfl⟩
  exact holds_of_reachable only reachable keeps isInitial

/-- Whoever is the author of a version has stored it, unless it has been there from the start. -/
theorem versions_authored
    (reachable : Reachable (ruleMachine python collation) serve (Db.start initial clock) config) :
    ∀ id columns,
      (config.shared.committed (schema collation)).versions.lookup id = some columns →
      initial.versions.lookup id = some columns ∨
        ∃ pid call, Serves config pid (columns.createdBy, call) ∧
          call.newVersionId = some id := by
  have only : ∀ request : UUID × RuleCall python,
      (serve request).Only (Writes (schema collation) (Authored request)) := only_serve
  let origin (id : UUID) (columns : VersionColumns) : Prop :=
    initial.versions.lookup id = some columns ∨
      ∃ pid call, Serves config pid (columns.createdBy, call) ∧ call.newVersionId = some id
  let holds (store : RuleStore) : Prop :=
    ∀ id columns, store.versions.lookup id = some columns → origin id columns
  have keeps : ∀ pid request store write, Serves config pid request → Authored request write →
      holds store → holds (store.apply write) := by
    intro pid request store write serves isAuthored isTrue
    apply version_of_apply _ isTrue
    rintro id columns rfl
    obtain ⟨isAuthor, isId⟩ := isAuthored
    obtain ⟨authorId, call⟩ := request
    exact .inr ⟨pid, call, isAuthor ▸ serves, isId⟩
  have isInitial : holds initial := fun id columns found => .inl found
  exact holds_of_reachable only reachable keeps isInitial

end Runs

end Detection
end SigmaForge
