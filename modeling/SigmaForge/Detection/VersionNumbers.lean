import SigmaForge.Detection.Reads
import SigmaForge.Detection.Diff

/-!
# Version numbers and their column

Which numbers `get_owned_rule_version` and `diff_owned_rule_version` bind to
`version_number`, and when these are in the range of the column.
-/

namespace SigmaForge
namespace Detection

open Text Json ReadCommitted

/-- Every number that a call binds to `version_number` is in the range of the column, and
the call succeeds or raises `404`. -/
structure StaysInColumn (python : Interpreter) (collation : Collation) (store : RuleStore)
    (ownerId : UUID) (call : RuleCall python) : Prop where
  bound : ∀ ruleId number, SessionOp.execute (.selectVersion ruleId number) ∈
    (call.program ownerId).issued (onTables collation store) → IsInteger number
  ends : (∃ response, request python collation ownerId call store = (.ok response, store)) ∨
    request python collation ownerId call store = (.error notFound, store)

/-- The rule has a version with the given number, and its snapshot can be decoded. -/
def HasVersion (python : Interpreter) (store : RuleStore) (ruleId : UUID) (number : Int) :
    Prop :=
  ∃ version ∈ store.versionList ruleId, version.versionNumber = number ∧
    ∃ snapshot, decodeStoredRuleSnapshot python version.sigmaYaml = .ok snapshot

section Numbers

variable
    {python : Interpreter}
    {collation : Collation}
    {store : RuleStore}
    {ruleId ownerId : UUID}

/-! ## What is bound -/

/-- The numbers that a program binds are in the range of the column. -/
def BindsIntegers {α : Type} (collation : Collation) (store : RuleStore) (program : Service α) :
    Prop :=
  ∀ ruleId number, SessionOp.execute (.selectVersion ruleId number) ∈
    program.issued (onTables collation store) → IsInteger number

theorem bindsIntegers_bind_iff
    {α β : Type}
    {program : Service α}
    {rest : α → Service β} :
    BindsIntegers collation store (program.bind rest) ↔
      BindsIntegers collation store program ∧
        ∀ value, program.evaluate (onTables collation store) = .ok value →
          BindsIntegers collation store (rest value) := by
  simp only [BindsIntegers, Program.issued_bind, List.mem_append]
  cases isResult : program.evaluate (onTables collation store) with
  | error error => simp
  | ok value =>
      simp only [Except.ok.injEq, forall_eq']
      constructor
      · exact fun all => ⟨fun id number isFirst => all id number (.inl isFirst),
          fun id number isRest => all id number (.inr isRest)⟩
      · exact fun ⟨first, rest⟩ id number isIssued =>
          isIssued.elim (first id number) (rest id number)

theorem bindsIntegers_of_issuesNothing
    {α : Type}
    {program : Service α}
    (nothing : program.issued (onTables collation store) = []) :
    BindsIntegers collation store program := by
  intro id number isIssued
  rw [nothing] at isIssued
  contradiction

theorem issued_decodeSnapshot (serialized : Str) :
    (decodeSnapshot python serialized).issued (onTables collation store) = [] := by
  unfold decodeSnapshot
  split <;> rfl

/-- What follows the query of a version binds nothing. -/
theorem bindsIntegers_versionRest
    (number : Int)
    (rule : DetectionRule)
    (current : UUID) :
    BindsIntegers collation store (versionRest python ruleId number rule current) ↔
      IsInteger number := by
  unfold versionRest
  simp only [Program.bind_eq]
  rw [bindsIntegers_bind_iff]
  have isQuery : BindsIntegers collation store (execute (.selectVersion ruleId number)) ↔
      IsInteger number := by
    unfold BindsIntegers execute
    simp only [Program.issued_perform, List.mem_singleton, SessionOp.execute.injEq,
      Statement.selectVersion.injEq]
    constructor
    · exact fun all => all ruleId number ⟨rfl, rfl⟩
    · rintro isInteger _ _ ⟨_, rfl⟩
      exact isInteger
  rw [isQuery]
  refine ⟨And.left, fun isInteger => ⟨isInteger, fun version _ => ?_⟩⟩
  rw [bindsIntegers_bind_iff]
  refine ⟨bindsIntegers_of_issuesNothing (Program.issued_ofOption _ _), fun version _ => ?_⟩
  rw [bindsIntegers_bind_iff]
  refine ⟨bindsIntegers_of_issuesNothing (Program.issued_ensure _ _), fun _ _ => ?_⟩
  rw [bindsIntegers_bind_iff]
  exact ⟨bindsIntegers_of_issuesNothing (issued_decodeSnapshot _),
    fun _ _ => bindsIntegers_of_issuesNothing rfl⟩

/-- `get_owned_rule_version` binds the number if the user may read the rule. -/
theorem bindsIntegers_getOwnedRuleVersion (number : Int) :
    BindsIntegers collation store (getOwnedRuleVersion python ruleId ownerId number) ↔
      (readRule store ruleId ownerId = none ∨ IsInteger number) := by
  have isRule : (execute (.getRule ruleId)).evaluate (onTables collation store) =
      .ok (store.rule ruleId) := rfl
  have isQuery : BindsIntegers collation store (execute (.getRule ruleId)) := by
    unfold BindsIntegers execute
    simp
  rw [getOwnedRuleVersion_eq, withRule_eq, bindsIntegers_bind_iff, isRule]
  simp only [isQuery, true_and, Except.ok.injEq, forall_eq']
  rw [bindsIntegers_bind_iff]
  unfold readRule RuleStore.ownedRule
  rw [← ownedBy]
  cases ownedBy ownerId (store.rule ruleId) with
  | none =>
      refine ⟨fun _ => .inl rfl, fun _ => ⟨bindsIntegers_of_issuesNothing rfl, ?_⟩⟩
      intro value isValue
      simp [Program.ofOption] at isValue
  | some read =>
      simp only [reduceCtorEq, false_or]
      rw [← bindsIntegers_versionRest number read.1 read.2]
      constructor
      · exact fun both => both.2 read rfl
      · intro binds
        refine ⟨bindsIntegers_of_issuesNothing rfl, fun value isValue => ?_⟩
        obtain rfl : read = value := Except.ok.inj isValue
        exact binds

/-! ## How the operations end -/

/-- A success or `404`. -/
def SucceedsOrNotFound {α : Type} (result : Except ServiceError α) : Prop :=
  (∃ body, result = .ok body) ∨ result = .error notFound

theorem decodeStoredRuleSnapshot_error
    {serialized : Str}
    {exception : HTTPException}
    (raises : decodeStoredRuleSnapshot python serialized = .error exception) :
    exception = ruleNotFound := by
  unfold decodeStoredRuleSnapshot at raises
  split_ifs at raises
  · exact (Except.error.inj raises).symm
  · split at raises
    · exact (Except.error.inj raises).symm
    · split_ifs at raises
      · exact (Except.error.inj raises).symm
      · split at raises
        · exact (Except.error.inj raises).symm
        · contradiction

theorem versionBody_cases
    (rule : DetectionRule)
    (current : UUID)
    (version : Option DetectionRuleVersion) :
    (∃ found body, version = some found ∧ found.ruleId = rule.id ∧
      decodeStoredRuleSnapshot python found.sigmaYaml = .ok body.sigma ∧
      versionBody python rule current version = .ok body) ∨
    ((∀ found, version = some found → found.ruleId = rule.id →
      ∀ sigma, decodeStoredRuleSnapshot python found.sigmaYaml ≠ .ok sigma) ∧
      versionBody python rule current version = .error notFound) := by
  unfold versionBody
  cases version with
  | none => exact .inr ⟨by simp, rfl⟩
  | some found =>
      by_cases sameRule : found.ruleId = rule.id
      · rw [Option.filter_some_pos (by simpa using sameRule)]
        cases isDecoded : decodeStoredRuleSnapshot python found.sigmaYaml with
        | error exception =>
            obtain rfl := decodeStoredRuleSnapshot_error isDecoded
            refine .inr ⟨?_, by simp only [isDecoded, notFound]⟩
            intro other isOther _ sigma isOk
            obtain rfl := Option.some.inj isOther
            rw [isDecoded] at isOk
            contradiction
        | ok sigma =>
            exact .inl ⟨found, ⟨rule.id.str, found.id.str, found.versionNumber,
              found.id = current, sigma, structuralOnly⟩, rfl, sameRule, isDecoded,
              by simp only [isDecoded]⟩
      · rw [Option.filter_some_neg (by simpa using sameRule)]
        refine .inr ⟨?_, rfl⟩
        rintro other isOther sameRule'
        obtain rfl := Option.some.inj isOther
        exact absurd sameRule' sameRule

/-- `get_owned_rule_version` for a rule that the user may read and a number in range. -/
theorem getOwnedRuleVersion_cases
    {rule : DetectionRule}
    {current : UUID}
    {number : Int}
    (isRead : readRule store ruleId ownerId = some (rule, current))
    (isInteger : IsInteger number) :
    (∃ version body, version ∈ store.versionList ruleId ∧ version.versionNumber = number ∧
      decodeStoredRuleSnapshot python version.sigmaYaml = .ok body.sigma ∧
      (getOwnedRuleVersion python ruleId ownerId number).evaluate (onTables collation store) =
        .ok body) ∨
    (¬HasVersion python store ruleId number ∧
      (getOwnedRuleVersion python ruleId ownerId number).evaluate (onTables collation store) =
        .error notFound) := by
  have isId : rule.id = ruleId := by
    obtain ⟨owned, isOwned, isPair⟩ := Option.bind_eq_some_iff.mp isRead
    obtain ⟨_, _, isPair⟩ := Option.map_eq_some_iff.mp isPair
    obtain ⟨rfl, _⟩ := Prod.mk.inj isPair
    exact (RuleStore.ownedRule_eq_some_iff.mp isOwned).1
  have isBody : (getOwnedRuleVersion python ruleId ownerId number).evaluate
      (onTables collation store) = versionBody python rule current
        ((store.versionList ruleId).find? fun version => version.versionNumber = number) := by
    rw [evaluate_getOwnedRuleVersion, isRead]
    simp only [findVersion, if_pos isInteger]
    rfl
  rw [isBody]
  rcases versionBody_cases rule current ((store.versionList ruleId).find?
    fun version => version.versionNumber = number) with
    ⟨version, body, isFound, _, isDecoded, isOk⟩ | ⟨undecoded, isMissing⟩
  · obtain ⟨isListed, isNumber⟩ := RuleStore.find?_versionList_iff.mp isFound
    exact .inl ⟨version, body, isListed, isNumber, isDecoded, isOk⟩
  · refine .inr ⟨?_, isMissing⟩
    rintro ⟨version, isListed, isNumber, sigma, isDecoded⟩
    have sameRule := (RuleStore.mem_versionList.mp isListed).2
    exact undecoded version (RuleStore.find?_versionList_iff.mpr ⟨isListed, isNumber⟩)
      (sameRule.trans isId.symm) sigma isDecoded

theorem getOwnedRuleVersion_of_unreadable
    (number : Int)
    (isUnreadable : readRule store ruleId ownerId = none) :
    (getOwnedRuleVersion python ruleId ownerId number).evaluate (onTables collation store) =
      .error notFound := by
  rw [evaluate_getOwnedRuleVersion, isUnreadable]

theorem getOwnedRuleVersion_of_outOfRange
    {number : Int}
    (isReadable : readRule store ruleId ownerId ≠ none)
    (outOfRange : ¬IsInteger number) :
    (getOwnedRuleVersion python ruleId ownerId number).evaluate (onTables collation store) =
      .error .database := by
  obtain ⟨⟨rule, current⟩, isRead⟩ := Option.ne_none_iff_exists'.mp isReadable
  rw [evaluate_getOwnedRuleVersion, isRead]
  simp only [findVersion, if_neg outOfRange]
  rfl

/-- The summary of two decoded snapshots raises no `KeyError`. -/
theorem diffBody_succeedsOrNotFound
    {previousText currentText : Str}
    (number : Int)
    {previous current : RuleVersion}
    (isPrevious : decodeStoredRuleSnapshot python previousText = .ok previous.sigma)
    (isCurrent : decodeStoredRuleSnapshot python currentText = .ok current.sigma) :
    SucceedsOrNotFound (diffBody ruleId number previous current) := by
  rw [decodeStoredRuleSnapshot_eq] at isPrevious isCurrent
  obtain ⟨_, _, decoded⟩ := exists_decoded isPrevious
  obtain ⟨_, _, decoded'⟩ := exists_decoded isCurrent
  obtain ⟨changes, isSummary, _⟩ := decoded.summarizes decoded'
  unfold diffBody
  rw [isSummary]
  split_ifs
  · exact .inl ⟨_, rfl⟩
  · exact .inr rfl

/-! ## The exact range -/

/-- A call that reads stays in the column if its operation does. -/
theorem staysInColumn_iff
    {α : Type}
    (call : RuleCall python)
    {operation : Service α}
    {respond : α → Response}
    (onlyReads : call.OnlyReads)
    (isProgram : call.program ownerId = operation.bind fun body => .ret (respond body)) :
    StaysInColumn python collation store ownerId call ↔
      BindsIntegers collation store operation ∧
        SucceedsOrNotFound (operation.evaluate (onTables collation store)) := by
  have binds : BindsIntegers collation store (call.program ownerId) ↔
      BindsIntegers collation store operation := by
    rw [isProgram, bindsIntegers_bind_iff]
    exact ⟨And.left, fun first => ⟨first, fun _ _ => bindsIntegers_of_issuesNothing rfl⟩⟩
  have ends : ((∃ response, request python collation ownerId call store =
      (.ok response, store)) ∨ request python collation ownerId call store =
        (.error notFound, store)) ↔
      SucceedsOrNotFound (operation.evaluate (onTables collation store)) := by
    rw [request_of_reads onlyReads, isProgram, Program.evaluate_bind]
    cases operation.evaluate (onTables collation store) with
    | error error => simp [SucceedsOrNotFound, Except.bind]
    | ok body => simp [SucceedsOrNotFound, Except.bind]
  exact ⟨fun stays => ⟨binds.mp stays.bound, ends.mp stays.ends⟩,
    fun ⟨bound, ended⟩ => ⟨binds.mpr bound, ends.mpr ended⟩⟩

/-- `get_owned_rule_version` stays in the column exactly if the user may not read the rule,
or the number is in range. -/
theorem getOwnedRuleVersion_stays_iff (number : Int) :
    (BindsIntegers collation store (getOwnedRuleVersion python ruleId ownerId number) ∧
      SucceedsOrNotFound ((getOwnedRuleVersion python ruleId ownerId number).evaluate
        (onTables collation store))) ↔
      readRule store ruleId ownerId = none ∨ IsInteger number := by
  rw [bindsIntegers_getOwnedRuleVersion]
  refine ⟨And.left, fun condition => ⟨condition, ?_⟩⟩
  cases isRead : readRule store ruleId ownerId with
  | none => exact .inr (getOwnedRuleVersion_of_unreadable number isRead)
  | some read =>
      have isInteger := condition.resolve_left (by simp [isRead])
      rcases getOwnedRuleVersion_cases isRead isInteger with
        ⟨_, body, _, _, _, isOk⟩ | ⟨_, isMissing⟩
      · exact .inl ⟨body, isOk⟩
      · exact .inr isMissing

/-- `diff_owned_rule_version` reads the version before first. -/
theorem bindsIntegers_diffOwnedRuleVersion
    {number : Int}
    (isLater : 2 ≤ number) :
    BindsIntegers collation store (diffOwnedRuleVersion python ruleId ownerId number) ↔
      BindsIntegers collation store (getOwnedRuleVersion python ruleId ownerId (number - 1)) ∧
        ∀ previous, (getOwnedRuleVersion python ruleId ownerId (number - 1)).evaluate
            (onTables collation store) = .ok previous →
          BindsIntegers collation store (getOwnedRuleVersion python ruleId ownerId number) := by
  have rest : ∀ previous current, BindsIntegers collation store
      (diffRest ruleId number previous current) := by
    intro previous current
    apply bindsIntegers_of_issuesNothing
    unfold diffRest Program.ensure
    split_ifs
    · cases summarizeRuleVersionChanges previous.sigma current.sigma <;> rfl
    · rfl
  rw [diffOwnedRuleVersion_eq, Program.ensure, if_pos isLater, Program.ret_bind,
    bindsIntegers_bind_iff]
  refine and_congr_right fun _ => forall₂_congr fun previous _ => ?_
  rw [bindsIntegers_bind_iff]
  exact ⟨And.left, fun first => ⟨first, fun current _ => rest previous current⟩⟩

/-- `diff_owned_rule_version` stays in the column exactly if the user may not read the
rule, or both numbers are in range, or the version before is in range and is not found. -/
theorem diffOwnedRuleVersion_stays_iff
    {number : Int}
    (isLater : 2 ≤ number) :
    (BindsIntegers collation store (diffOwnedRuleVersion python ruleId ownerId number) ∧
      SucceedsOrNotFound ((diffOwnedRuleVersion python ruleId ownerId number).evaluate
        (onTables collation store))) ↔
      readRule store ruleId ownerId = none ∨ (IsInteger (number - 1) ∧
        (IsInteger number ∨ ¬HasVersion python store ruleId (number - 1))) := by
  rw [bindsIntegers_diffOwnedRuleVersion isLater, evaluate_diffOwnedRuleVersion,
    if_pos isLater]
  simp only [bindsIntegers_getOwnedRuleVersion]
  cases isRead : readRule store ruleId ownerId with
  | none =>
      rw [getOwnedRuleVersion_of_unreadable (number - 1) isRead]
      simp [SucceedsOrNotFound, Except.bind]
  | some read =>
      obtain ⟨rule, current⟩ := read
      simp only [reduceCtorEq, false_or]
      constructor
      · rintro ⟨⟨isInteger, next⟩, _⟩
        refine ⟨isInteger, ?_⟩
        rcases getOwnedRuleVersion_cases isRead isInteger with
          ⟨_, body, _, _, _, isOk⟩ | ⟨isMissing, _⟩
        · exact .inl (next body isOk)
        · exact .inr isMissing
      · rintro ⟨isInteger, isNext⟩
        rcases getOwnedRuleVersion_cases isRead isInteger with
          ⟨version, previous, isListed, isNumber, isDecoded, isOk⟩ | ⟨_, isMissing⟩
        · have isInteger' : IsInteger number :=
            isNext.resolve_right (not_not.mpr
              ⟨version, isListed, isNumber, previous.sigma, isDecoded⟩)
          refine ⟨⟨isInteger, fun _ _ => isInteger'⟩, ?_⟩
          rw [isOk, Except.bind]
          rcases getOwnedRuleVersion_cases isRead isInteger' with
            ⟨_, body, _, _, isDecoded', isOk'⟩ | ⟨_, isMissing⟩
          · rw [isOk', Except.bind]
            exact diffBody_succeedsOrNotFound number isDecoded isDecoded'
          · rw [isMissing]
            exact .inr rfl
        · rw [isMissing]
          exact ⟨⟨isInteger, fun _ isOk => by simp at isOk⟩, .inr rfl⟩

end Numbers

/-- When the version numbers from the routes stay in the column.  The routes admit all
numbers from one, and from two for the summary of changes.  If the user may read the
rule, they have to be at most `2147483647`; the summary of changes for `2147483648` ends
in `404` if the version before is not found. -/
theorem version_numbers_stay_iff
    (python : Interpreter)
    (collation : Collation)
    (store : RuleStore)
    (ownerId ruleId : UUID)
    (number : Int) :
    (1 ≤ number →
      (StaysInColumn python collation store ownerId (.getVersion ruleId number) ↔
        readRule store ruleId ownerId = none ∨ number ≤ 2147483647)) ∧
    (2 ≤ number →
      (StaysInColumn python collation store ownerId (.diff ruleId number) ↔
        readRule store ruleId ownerId = none ∨ number ≤ 2147483647 ∨
          (number = 2147483648 ∧ ¬HasVersion python store ruleId 2147483647))) := by
  have isInteger_iff : ∀ number : Int, 1 ≤ number → (IsInteger number ↔ number ≤ 2147483647) := by
    intro number isPositive
    unfold IsInteger
    omega
  constructor
  · intro isPositive
    rw [staysInColumn_iff (.getVersion ruleId number) trivial rfl,
      getOwnedRuleVersion_stays_iff, isInteger_iff number isPositive]
  · intro isLater
    rw [staysInColumn_iff (.diff ruleId number) trivial rfl,
      diffOwnedRuleVersion_stays_iff isLater, isInteger_iff number (by omega),
      isInteger_iff (number - 1) (by omega)]
    refine or_congr_right ?_
    by_cases isLast : number = 2147483648
    · subst isLast
      simp
    · constructor
      · rintro ⟨_, isSmall | _⟩
        · exact .inl isSmall
        · exact .inl (by omega)
      · rintro (isSmall | ⟨isLast', _⟩)
        · exact ⟨by omega, .inl isSmall⟩
        · exact absurd isLast' isLast

theorem twoVersions_numbers_stay :
    StaysInColumn .coarse .codePoints twoVersions 5 (.getVersion 1 2) ∧
      StaysInColumn .coarse .codePoints twoVersions 5 (.diff 1 2) := by
  obtain ⟨reads, differs⟩ := version_numbers_stay_iff .coarse .codePoints twoVersions 5 1 2
  exact ⟨(reads (by decide)).mpr (.inr (by decide)),
    (differs (by decide)).mpr (.inr (.inl (by decide)))⟩

theorem readRule_twoVersions : readRule twoVersions 1 5 ≠ none :=
  Option.ne_none_iff_exists'.mpr ⟨_, twoVersions_appended.readRule⟩

/-- A draft of the user 5 with two versions is in the database; the user asks for the
version `2147483648`, and the driver raises. -/
theorem twoVersions_leaves_column :
    (∃ config, Reachable (ruleMachine .coarse .codePoints) serve (Db.start RuleStore.empty 0)
        config ∧ config.shared.committed (schema .codePoints) = twoVersions) ∧
      (1 : Int) ≤ 2147483648 ∧
      ¬StaysInColumn .coarse .codePoints twoVersions 5 (.getVersion 1 2147483648) ∧
      request .coarse .codePoints 5 (.getVersion 1 2147483648) twoVersions =
        (.error .database, twoVersions) := by
  refine ⟨reachable_twoVersions, by decide, ?_, ?_⟩
  · rw [staysInColumn_iff (.getVersion 1 2147483648) trivial rfl, getOwnedRuleVersion_stays_iff]
    rintro (isUnreadable | isInteger)
    · exact readRule_twoVersions isUnreadable
    · exact absurd isInteger (by decide)
  · have raises : (getOwnedRuleVersion .coarse 1 5 2147483648).evaluate
        (onTables .codePoints twoVersions) = .error .database :=
      getOwnedRuleVersion_of_outOfRange readRule_twoVersions (by decide)
    have isRequest : request .coarse .codePoints 5 (.getVersion 1 2147483648) twoVersions =
        (((getOwnedRuleVersion .coarse 1 5 2147483648).bind fun body =>
          .ret (.version body)).evaluate (onTables .codePoints twoVersions), twoVersions) :=
      request_of_reads (by trivial) 5
    rw [isRequest, Program.evaluate_bind, raises]
    rfl

end Detection
end SigmaForge
