import SigmaForge.Detection.Editors
import SigmaForge.Detection.Revision

/-!
# The version history of a rule under concurrent editors

The invariant of the tables along every run, and no lost update.
-/

namespace SigmaForge
namespace Detection

open Text Json ReadCommitted

/-- The current version of the rule has the given number. -/
def CurrentNumber (store : RuleStore) (ruleId : UUID) (number : Int) : Prop :=
  ∃ rule id version, store.rules.lookup ruleId = some rule ∧
    rule.currentVersionId = some id ∧ store.versions.lookup id = some version ∧
    version.versionNumber = number

/-- The current version of the rule has the given number, or a later one. -/
def Reached (store : RuleStore) (ruleId : UUID) (number : Int) : Prop :=
  ∃ number', number ≤ number' ∧ CurrentNumber store ruleId number'

theorem CurrentNumber.unique
    {store : RuleStore}
    {ruleId : UUID}
    {number number' : Int}
    (first : CurrentNumber store ruleId number)
    (second : CurrentNumber store ruleId number') :
    number = number' := by
  obtain ⟨rule, id, version, isRule, isCurrent, isVersion, rfl⟩ := first
  obtain ⟨rule', id', version', isRule', isCurrent', isVersion', rfl⟩ := second
  obtain rfl : rule = rule' := Option.some.inj (isRule.symm.trans isRule')
  obtain rfl : id = id' := Option.some.inj (isCurrent.symm.trans isCurrent')
  obtain rfl : version = version' := Option.some.inj (isVersion.symm.trans isVersion')
  rfl

section Commits

variable
    {python : Interpreter}
    {store before after : RuleStore}
    {ruleId ownerId versionId : UUID}
    {rule : RuleColumns}
    {version previous : VersionColumns}

theorem Revises.currentNumber
    (revises : Revises store ruleId ownerId versionId rule previous) :
    CurrentNumber store ruleId previous.versionNumber := by
  obtain ⟨previousId, isCurrent, isPrevious⟩ := revises.isCurrent
  exact ⟨rule, previousId, previous, revises.isRule, isCurrent, isPrevious, rfl⟩

theorem Appended.currentNumber
    (appended : Appended before after ruleId rule versionId version) :
    CurrentNumber after ruleId version.versionNumber := by
  exact ⟨rule, versionId, version, appended.lookup_rule, appended.isCurrent,
    appended.lookup_new, rfl⟩

theorem Appended.currentNumber_of_other
    (appended : Appended before after ruleId rule versionId version)
    {other : UUID}
    (different : other ≠ ruleId)
    {number : Int}
    (current : CurrentNumber before other number) :
    CurrentNumber after other number := by
  obtain ⟨otherRule, id, found, isRule, isCurrent, isFound, isNumber⟩ := current
  refine ⟨otherRule, id, found, ?_, isCurrent, appended.lookup_version isFound, isNumber⟩
  rw [appended.rules, Finmap.lookup_insert_of_ne _ different, isRule]

/-- A commit never takes a rule back to an earlier version. -/
theorem Advances.reached
    {writes : List Write}
    (advances : Advances python store writes)
    {bound : Int}
    (reached : Reached store ruleId bound) :
    Reached (writes.foldl RuleStore.apply store) ruleId bound := by
  obtain ⟨number, isLater, current⟩ := reached
  cases advances with
  | create draft owner ids creates =>
      have different : ruleId ≠ ids.ruleId := by
        rintro rfl
        obtain ⟨_, _, _, isRule, _⟩ := current
        exact creates.ruleNew (Finmap.mem_of_lookup_eq_some isRule)
      exact ⟨number, isLater,
        (creates.appended draft owner).currentNumber_of_other different current⟩
  | @revise draft revised owner version rule previous revises _ =>
      by_cases isRevised : ruleId = revised
      · subst isRevised
        have isPrevious := revises.currentNumber.unique current
        exact ⟨previous.versionNumber + 1, by omega, (revises.appended draft).currentNumber⟩
      · exact ⟨number, isLater,
          (revises.appended draft).currentNumber_of_other isRevised current⟩

/-- No commit changes a version. -/
theorem Advances.lookup_version
    {writes : List Write}
    (advances : Advances python store writes)
    {id : UUID}
    {found : VersionColumns}
    (isFound : store.versions.lookup id = some found) :
    (writes.foldl RuleStore.apply store).versions.lookup id = some found := by
  cases advances with
  | create draft owner ids creates =>
      exact (creates.appended draft owner).lookup_version isFound
  | revise draft revises _ => exact (revises.appended draft).lookup_version isFound

end Commits

/-! ## Histories -/

section Histories

variable
    {python : Interpreter}
    {collation : Collation}
    {initial : RuleStore}
    {clock : Nat}
    {config config' : Config ServiceError (SessionAnswer Answer) (UUID × RuleCall python) RuleDb
      Response}

/-- After a revision, the rule is never back at the version that it
replaced. -/
theorem not_revises_again
    {ruleId ownerId ownerId' versionId versionId' : UUID}
    {rule rule' : RuleColumns}
    {previous previous' : VersionColumns}
    {draft : Draft python}
    {pid : ProcId}
    {before middle : List (Event Key Write)}
    (satisfied : CommitsSatisfy (advancing python collation) initial
      (before ++ .committed pid
        (reviseWrites ruleId ownerId (previous.versionNumber + 1) draft versionId) :: middle))
    (first : Revises (replay (schema collation) initial before) ruleId ownerId versionId rule
      previous)
    (second : Revises
      (replay (schema collation) initial (before ++ .committed pid
        (reviseWrites ruleId ownerId (previous.versionNumber + 1) draft versionId) :: middle))
      ruleId ownerId' versionId' rule' previous') :
    previous'.versionNumber ≠ previous.versionNumber := by
  rw [List.append_cons] at satisfied second
  have atCommit : Reached
      (replay (schema collation) initial (before ++ [.committed pid
        (reviseWrites ruleId ownerId (previous.versionNumber + 1) draft versionId)]))
      ruleId (previous.versionNumber + 1) := by
    rw [replay_append]
    exact ⟨_, le_rfl, (first.appended draft).currentNumber⟩
  obtain ⟨number, isLater, current⟩ :=
    satisfied.kept (schema collation) (Reached · ruleId (previous.versionNumber + 1))
      (fun _ _ _ advances => advances.reached) atCommit
  have := second.currentNumber.unique current
  omega

/-- What is stored stays stored. -/
theorem isStored_kept
    {log log' : List (Event Key Write)}
    (satisfied : CommitsSatisfy (advancing python collation) initial (log ++ log'))
    {id : UUID}
    {version : VersionColumns}
    (isFound : (replay (schema collation) initial log).versions.lookup id = some version) :
    (replay (schema collation) initial (log ++ log')).versions.lookup id = some version :=
  satisfied.kept (schema collation) (fun store => store.versions.lookup id = some version)
    (fun _ _ _ advances => advances.lookup_version) isFound

/-- In every run from the empty tables, with any number of users who create and
revise drafts, every rule has a chain of versions at any time, no version ever
changes, and a call that has raised has committed nothing. -/
theorem version_chains
    (reachable : Reachable (ruleMachine python collation) serve
      (Db.start RuleStore.empty clock) config)
    (steps : Steps (ruleMachine python collation) serve config config') :
    Chained python (config.shared.committed (schema collation)) ∧
    (∀ id version,
      (config.shared.committed (schema collation)).versions.lookup id = some version →
      (config'.shared.committed (schema collation)).versions.lookup id = some version) ∧
    ∀ pid request error, config.process pid = some (request, .finished (.error error)) →
      Uncommitted pid config.shared.log := by
  have outlined := outlined_serve python collation
  obtain ⟨satisfied, finished⟩ := sound_of_outlined outlined reachable
  obtain ⟨satisfied', _⟩ := sound_of_outlined outlined (reachable.trans steps)
  have isInitial : config.shared.initial = RuleStore.empty := (log_extends reachable).1
  refine ⟨?_, ?_, ?_⟩
  · rw [Db.committed, isInitial, ← List.nil_append config.shared.log]
    rw [isInitial, ← List.nil_append config.shared.log] at satisfied
    apply satisfied.kept (schema collation) (Chained python)
    · exact fun _ _ _ advances chained => chained.of_advances advances
    · exact chained_empty python
  · intro id version isFound
    obtain ⟨sameInitial, events, isLog⟩ := log_extends steps
    rw [sameInitial, isLog] at satisfied'
    rw [Db.committed, sameInitial, isLog]
    exact isStored_kept satisfied' isFound
  · intro pid request error isFinished
    have outcome := finished pid request (.error error) isFinished
    obtain ⟨ownerId, call⟩ := request
    cases call with
    | create draft ids => exact outcome.2
    | revise ruleId expectedVersion draft versionId => exact outcome.2
    | get ruleId => exact outcome
    | list limit offset => exact outcome
    | listVersions ruleId limit offset => exact outcome
    | getVersion ruleId versionNumber => exact outcome
    | diff ruleId versionNumber => exact outcome

/-- A revision that has succeeded, in a history. -/
theorem HasRevised.stored
    {pid : ProcId}
    {ruleId ownerId versionId : UUID}
    {expectedVersion : Int}
    {draft : Draft python}
    {body : RuleReceipt}
    {log : List (Event Key Write)}
    (satisfied : CommitsSatisfy (advancing python collation) initial log)
    (revised : HasRevised collation pid ruleId ownerId expectedVersion draft versionId body
      initial log) :
    (replay (schema collation) initial log).versions.lookup versionId =
      some (newVersion ruleId (expectedVersion + 1) draft ownerId) := by
  obtain ⟨before, after, rule, previous, rfl, revises, rfl, _⟩ := revised
  rw [List.append_cons] at satisfied ⊢
  apply isStored_kept satisfied
  rw [replay_append]
  refine (congrArg (Finmap.lookup versionId) (revises.appended draft).versions).trans ?_
  exact Finmap.lookup_insert _

/-- In every run, at most one call that names version `n` of a rule succeeds.
Version `n` was the current one when it committed, it returns `n + 1`, and this
version stores its draft.  All other calls that name `n` are refused and commit
nothing. -/
theorem no_lost_update
    (reachable : Reachable (ruleMachine python collation) serve (Db.start initial clock) config)
    (ruleId : UUID)
    (n : Int) :
    (∀ pid pid' ownerId ownerId' draft draft' versionId versionId' response response',
      config.process pid =
        some ((ownerId, .revise ruleId n draft versionId), .finished (.ok response)) →
      config.process pid' =
        some ((ownerId', .revise ruleId n draft' versionId'), .finished (.ok response')) →
      pid = pid') ∧
    (∀ pid ownerId draft versionId response,
      config.process pid =
        some ((ownerId, .revise ruleId n draft versionId), .finished (.ok response)) →
      ∃ before after body,
        config.shared.log = before ++
          .committed pid (reviseWrites ruleId ownerId (n + 1) draft versionId) :: after ∧
        CurrentNumber (replay (schema collation) config.shared.initial before) ruleId n ∧
        response = .receipt body ∧ body.versionNumber = n + 1 ∧ body.versionId = versionId.str ∧
        ∃ version snapshot,
          (config.shared.committed (schema collation)).versions.lookup versionId =
            some version ∧
          version.ruleId = ruleId ∧ version.versionNumber = n + 1 ∧
          decodeStoredRuleSnapshot python version.sigmaYaml = .ok snapshot ∧
          snapshot.Same draft.request.modelDump) ∧
    ∀ pid ownerId draft versionId error,
      config.process pid =
        some ((ownerId, .revise ruleId n draft versionId), .finished (.error error)) →
      IsRefusal error ∧ Uncommitted pid config.shared.log := by
  obtain ⟨satisfied, finished⟩ := sound_of_outlined (outlined_serve python collation) reachable
  refine ⟨?_, ?_, ?_⟩
  · intro pid pid' ownerId ownerId' draft draft' versionId versionId' response response'
      isFinished isFinished'
    obtain ⟨body, _, before, after, rule, previous, isLog, revises, isExpected, _⟩ :=
      finished pid _ _ isFinished
    obtain ⟨body', _, before', after', rule', previous', isLog', revises', isExpected', _⟩ :=
      finished pid' _ _ isFinished'
    rw [← isExpected] at isLog
    rw [← isExpected'] at isLog'
    rcases split_cases (isLog.symm.trans isLog') with
      ⟨_, sameEvent⟩ | ⟨middle, isLater⟩ | ⟨middle, isLater⟩
    · exact (Event.committed.inj sameEvent).1
    · -- the first call was before the second: the rule has left version `n`
      subst isLater
      rw [isLog'] at satisfied
      exact absurd (isExpected'.trans isExpected.symm)
        (not_revises_again satisfied.of_append revises revises')
    · subst isLater
      rw [isLog] at satisfied
      exact absurd (isExpected.trans isExpected'.symm)
        (not_revises_again satisfied.of_append revises' revises)
  · intro pid ownerId draft versionId response isFinished
    obtain ⟨body, isResponse, revised⟩ := finished pid _ _ isFinished
    have isStored := revised.stored satisfied
    obtain ⟨before, after, rule, previous, isLog, revises, isExpected, isBody⟩ := revised
    obtain ⟨snapshot, decoded, same⟩ : ∃ snapshot,
        decodeStoredRuleSnapshot python (sigmaYaml draft) = .ok snapshot ∧
          snapshot.Same draft.request.modelDump :=
      ⟨_, decode_sigmaYaml draft,
        Value.sortKeys_idempotent (RulePreflightRequest.modelDump_distinct draft.hasDicts)⟩
    refine ⟨before, after, body, isLog, ?_, isResponse, ?_, ?_, _, snapshot, isStored, rfl, rfl,
      decoded, same⟩
    · rw [← isExpected]
      exact revises.currentNumber
    · rw [isBody]
      rfl
    · rw [isBody]
      rfl
  · intro pid ownerId draft versionId error isFinished
    exact finished pid _ _ isFinished

end Histories

/-! ## A rule with two versions -/

/-- The requests so far have been served one after the other. -/
abbrev Served (initial : RuleStore) (next : ProcId)
    (config : Config ServiceError (SessionAnswer Answer) (UUID × RuleCall .coarse) RuleDb
      Response) : Prop :=
  InTurn (schema .codePoints) ServiceError.database serve initial 0 0 next config

/-- One more request. -/
theorem Served.request
    {initial store store' : RuleStore}
    {next : ProcId}
    {config : Config ServiceError (SessionAnswer Answer) (UUID × RuleCall .coarse) RuleDb
      Response}
    (served : Served initial next config)
    (isCommitted : config.shared.committed (schema .codePoints) = store)
    {ownerId : UUID}
    {call : RuleCall .coarse}
    {response : Except ServiceError Response}
    (isRequest : Detection.request .coarse .codePoints ownerId call store = (response, store')) :
    ∃ config', Steps (ruleMachine .coarse .codePoints) serve config config' ∧
      Served initial (next + 1) config' ∧
      config'.process next = some ((ownerId, call), .finished response) ∧
      (∀ pid, pid ≠ next → config'.process pid = config.process pid) ∧
      config'.shared.committed (schema .codePoints) = store' :=
  served.serve isCommitted isRequest

/-- The tables with one draft of two versions. -/
def twoVersions : RuleStore :=
  (reviseWrites 1 5 2 Draft.allOfNot 9).foldl RuleStore.apply oneDraft

theorem oneDraft_revises :
    Revises oneDraft 1 5 9 (described (newRule Draft.sample 5 (.sample 1)) Draft.sample 2)
      (newVersion 1 1 Draft.sample 5) :=
  (creates_empty (.sample 1)).revises Draft.sample 5 (by decide) Finmap.notMem_empty

theorem twoVersions_revisable :
    Revisable .coarse twoVersions 1 5
      (described (described (newRule Draft.sample 5 (.sample 1)) Draft.sample 2) Draft.allOfNot 9)
      (newVersion 1 2 Draft.allOfNot 5) Draft.allOfNot.request.modelDump.sortKeys :=
  oneDraft_revises.revisable Draft.allOfNot

theorem request_oneDraft :
    request .coarse .codePoints 5 (.create Draft.sample (.sample 1)) RuleStore.empty =
      (.ok (.receipt (receipt 1 (UUID.str 3) 2 1)), oneDraft) :=
  request_create .codePoints Draft.sample 5 (creates_empty (.sample 1))

theorem request_twoVersions :
    request .coarse .codePoints 5 (.revise 1 1 Draft.allOfNot 9) oneDraft =
      (.ok (.receipt (receipt 1 (UUID.str 3) 9 2)), twoVersions) := by
  have isFirst : (newVersion 1 1 Draft.sample 5).versionNumber = 1 := rfl
  have isRequest := request_revise .codePoints oneDraft_revisable Draft.allOfNot 9
  rw [isFirst] at isRequest
  rcases isRequest with ⟨isEqual, _⟩ | ⟨_, _, isRequest⟩ | ⟨_, notNew, _⟩
  · exact absurd (isEqual.symm.trans allOfNot_differs) (by decide)
  · rw [isRequest, twoVersions, show (1 : Int) + 1 = 2 from rfl]
    rfl
  · exact absurd ⟨oneDraft_revises.versionNew, oneDraft_revises.numberNew,
      oneDraft_revises.isInteger⟩ notNew

/-- A second revision of the first version comes too late. -/
theorem request_stale :
    request .coarse .codePoints 5 (.revise 1 1 Draft.retyped 10) twoVersions =
      (.error (conflict (lit "Draft version conflict")), twoVersions) :=
  twoVersions_revisable.refused_of_stale .codePoints (by decide) Draft.retyped 10

/-- The draft is created. -/
theorem served_oneDraft :
    ∃ config, Served RuleStore.empty 1 config ∧
      config.process 0 = some ((5, .create Draft.sample (.sample 1)),
        .finished (.ok (.receipt (receipt 1 (UUID.str 3) 2 1)))) ∧
      config.shared.committed (schema .codePoints) = oneDraft := by
  have start : Served RuleStore.empty 0 (.initial (Db.start RuleStore.empty 0)) :=
    inTurn_start _ _ _ _ _
  obtain ⟨config, _, served, isCreated, _, isCommitted⟩ := start.request rfl request_oneDraft
  exact ⟨config, served, isCreated, isCommitted⟩

/-- One request creates the draft, and two revise its first version: the second of them is
refused. -/
theorem served_twoVersions :
    ∃ created revised config,
      Served RuleStore.empty 1 created ∧
      created.process 0 = some ((5, .create Draft.sample (.sample 1)),
        .finished (.ok (.receipt (receipt 1 (UUID.str 3) 2 1)))) ∧
      created.shared.committed (schema .codePoints) = oneDraft ∧
      Steps (ruleMachine .coarse .codePoints) serve created revised ∧
      revised.shared.committed (schema .codePoints) = twoVersions ∧
      Steps (ruleMachine .coarse .codePoints) serve revised config ∧
      Served RuleStore.empty 3 config ∧
      config.shared.committed (schema .codePoints) = twoVersions ∧
      config.process 0 = created.process 0 ∧
      config.process 1 = some ((5, .revise 1 1 Draft.allOfNot 9),
        .finished (.ok (.receipt (receipt 1 (UUID.str 3) 9 2)))) ∧
      config.process 2 = some ((5, .revise 1 1 Draft.retyped 10),
        .finished (.error (conflict (lit "Draft version conflict")))) := by
  obtain ⟨created, served, isCreated, isOneDraft⟩ := served_oneDraft
  obtain ⟨revised, steps, served', isRevised, others, isTwoVersions⟩ := served.request
    isOneDraft request_twoVersions
  obtain ⟨config, steps', served'', isRefused, others', isCommitted⟩ := served'.request
    isTwoVersions request_stale
  exact ⟨created, revised, config, served, isCreated, isOneDraft, steps, isTwoVersions, steps',
    served'', isCommitted, (others' 0 (by decide)).trans (others 0 (by decide)),
    (others' 1 (by decide)).trans isRevised, isRefused⟩

/-- The tables with two versions are reached. -/
theorem reachable_twoVersions :
    ∃ config, Reachable (ruleMachine .coarse .codePoints) serve (Db.start RuleStore.empty 0)
        config ∧
      config.shared.committed (schema .codePoints) = twoVersions := by
  obtain ⟨_, _, config, _, _, _, _, _, _, served, isCommitted, _⟩ := served_twoVersions
  exact ⟨config, served.reachable, isCommitted⟩

/-- The rows of the two versions. -/
theorem twoVersions_appended :
    Appended oneDraft twoVersions 1
      (described (described (newRule Draft.sample 5 (.sample 1)) Draft.sample 2) Draft.allOfNot 9)
      9 (newVersion 1 2 Draft.allOfNot 5) :=
  oneDraft_revises.appended Draft.allOfNot

/-- The first of the two versions. -/
theorem twoVersions_first :
    twoVersions.versions.lookup 2 = some (newVersion 1 1 Draft.sample 5) := by
  have isFirst : oneDraft.versions.lookup 2 = some (newVersion 1 1 Draft.sample 5) := by
    rw [oneDraft]
    exact ((creates_empty (.sample 1)).appended Draft.sample 5).lookup_new
  exact twoVersions_appended.lookup_version isFirst

theorem sample_version_chains :
    ∃ config config', Reachable (ruleMachine .coarse .codePoints) serve
        (Db.start RuleStore.empty 0) config ∧
      Steps (ruleMachine .coarse .codePoints) serve config config' ∧
      config.shared.committed (schema .codePoints) = oneDraft ∧
      config'.shared.committed (schema .codePoints) = twoVersions ∧
      Chained .coarse oneDraft ∧ Chained .coarse twoVersions ∧
      (∀ id version, oneDraft.versions.lookup id = some version →
        twoVersions.versions.lookup id = some version) ∧
      config'.process 2 = some ((5, .revise 1 1 Draft.retyped 10),
        .finished (.error (conflict (lit "Draft version conflict")))) ∧
      Uncommitted 2 config'.shared.log := by
  obtain ⟨created, revised, config, served, _, isOneDraft, steps, _, steps', served', isCommitted,
    _, _, isRefused⟩ := served_twoVersions
  obtain ⟨isChained, isKept, _⟩ := version_chains served.reachable (steps.trans steps')
  obtain ⟨isChained', _, uncommitted⟩ := version_chains served'.reachable .refl
  rw [isOneDraft] at isChained isKept
  rw [isCommitted] at isChained' isKept
  exact ⟨created, config, served.reachable, steps.trans steps', isOneDraft, isCommitted, isChained,
    isChained', isKept, isRefused, uncommitted _ _ _ isRefused⟩

/-- Two calls name the first version: one of them succeeds, and the other one is refused. -/
theorem sample_no_lost_update :
    ∃ config, Reachable (ruleMachine .coarse .codePoints) serve (Db.start RuleStore.empty 0)
        config ∧
      config.process 1 = some ((5, .revise 1 1 Draft.allOfNot 9),
        .finished (.ok (.receipt (receipt 1 (UUID.str 3) 9 2)))) ∧
      config.process 2 = some ((5, .revise 1 1 Draft.retyped 10),
        .finished (.error (conflict (lit "Draft version conflict")))) ∧
      (∀ pid ownerId draft versionId response,
        config.process pid =
          some ((ownerId, .revise 1 1 draft versionId), .finished (.ok response)) →
        1 = pid) ∧
      (∃ before after,
        config.shared.log = before ++
          .committed 1 (reviseWrites 1 5 2 Draft.allOfNot 9) :: after ∧
        CurrentNumber (replay (schema .codePoints) config.shared.initial before) 1 1) ∧
      (∃ version snapshot,
        (config.shared.committed (schema .codePoints)).versions.lookup 9 = some version ∧
        version.ruleId = 1 ∧ version.versionNumber = 2 ∧
        decodeStoredRuleSnapshot .coarse version.sigmaYaml = .ok snapshot ∧
        snapshot.Same Draft.allOfNot.request.modelDump) ∧
      Uncommitted 2 config.shared.log := by
  obtain ⟨_, _, config, _, _, _, _, _, _, served, _, _, isRevised, isRefused⟩ :=
    served_twoVersions
  obtain ⟨isUnique, isStored, uncommitted⟩ := no_lost_update served.reachable 1 1
  obtain ⟨before, after, _, isLog, isCurrent, _, _, _, isVersion⟩ :=
    isStored _ _ _ _ _ isRevised
  exact ⟨config, served.reachable, isRevised, isRefused,
    fun pid _ _ _ _ isFinished => isUnique _ _ _ _ _ _ _ _ _ _ isRevised isFinished,
    ⟨before, after, isLog, isCurrent⟩, isVersion, (uncommitted _ _ _ _ _ isRefused).2⟩

end Detection
end SigmaForge
