import SigmaForge.Foundation.CommitOrder
import SigmaForge.Detection.Revision
import SigmaForge.Detection.CanonicalForm
import SigmaForge.Detection.VersionHistory

/-!
# Concurrent edits are serializable

The sessions run at READ COMMITTED.  What the creating and revising calls return and
commit is still what serving them one after the other gives, in the order of their
commits.
-/

namespace SigmaForge
namespace Detection

open Text Json ReadCommitted

variable
    {python : Interpreter}
    {collation : Collation}

/-! ## The programs commit last -/

theorem commitsLast_flushes (writes : List Write) : CommitsLast (flushes writes) := by
  induction writes with
  | nil =>
      refine ⟨⟨(), rfl⟩, fun answer => ?_⟩
      cases answer <;> trivial
  | cons write writes inductionHypothesis =>
      exact .bind (Program.Only.perform (by simp)) fun _ => inductionHypothesis

theorem commitsLast_atomically (writes : List Write) : CommitsLast (atomically writes) := by
  apply (commitsLast_flushes writes).catchWith
  intro error
  exact Program.Only.bind (Program.Only.perform (by simp)) fun _ => trivial

theorem neverCommits_decodeSnapshot (serialized : Str) :
    NeverCommits (decodeSnapshot python serialized) := by
  unfold decodeSnapshot
  split <;> trivial

theorem commitsLast_reviseOwnedRuleDraft
    (ruleId ownerId : UUID)
    (expectedVersion : Int)
    (draft : Draft python)
    (versionId : UUID) :
    CommitsLast (reviseOwnedRuleDraft ruleId ownerId expectedVersion draft versionId) := by
  apply CommitsLast.bind (Program.Only.perform (by simp))
  intro _
  apply CommitsLast.bind (Program.Only.ofOption _ _)
  intro rule
  apply CommitsLast.bind (Program.Only.ensure _ _)
  intro _
  apply CommitsLast.bind (Program.Only.ensure _ _)
  intro _
  apply CommitsLast.bind (Program.Only.ofOption _ _)
  intro currentVersionId
  apply CommitsLast.bind (Program.Only.perform (by simp))
  intro _
  apply CommitsLast.bind (Program.Only.ofOption _ _)
  intro previous
  apply CommitsLast.bind (Program.Only.ensure _ _)
  intro _
  apply CommitsLast.bind (Program.Only.ensure _ _)
  intro _
  apply CommitsLast.bind (neverCommits_decodeSnapshot _)
  intro _
  apply CommitsLast.bind (Program.Only.ensure _ _)
  intro _
  exact (commitsLast_atomically (reviseWrites rule.id ownerId (previous.versionNumber + 1) draft
    versionId)).bind_ret fun _ => _

/-- Every call ends with its commit. -/
theorem commitsLast_serve (request : UUID × RuleCall python) : CommitsLast (serve request) := by
  obtain ⟨ownerId, call⟩ := request
  have reading : call.OnlyReads → CommitsLast (serve (ownerId, call)) := by
    intro onlyReads
    apply CommitsLast.of_never
    have queries : (call.program ownerId).Only (IsQuery .codePoints) :=
      queries_program ownerId onlyReads
    refine queries.mono ?_
    rintro op isQuery rfl
    exact isQuery
  cases call with
  | create draft ids =>
      exact ((commitsLast_atomically (createWrites draft ownerId ids)).bind_ret
        fun _ => _).bind_ret Response.receipt
  | revise ruleId expectedVersion draft versionId =>
      exact (commitsLast_reviseOwnedRuleDraft ruleId ownerId expectedVersion draft
        versionId).bind_ret Response.receipt
  | get ruleId => exact reading trivial
  | list limit offset => exact reading trivial
  | listVersions ruleId limit offset => exact reading trivial
  | getVersion ruleId versionNumber => exact reading trivial
  | diff ruleId versionNumber => exact reading trivial

/-! ## Commits are served alone -/

/-- A draft in another order of its keys differs from what the draft differs from. -/
theorem Differs.of_same
    {previous : VersionColumns}
    {draft draft' : Draft python}
    (differs : Differs previous draft)
    (sameText : sigmaYaml draft = sigmaYaml draft') :
    Differs previous draft' := by
  obtain ⟨snapshot, isDecoded, notEqual⟩ := differs
  refine ⟨snapshot, isDecoded, ?_⟩
  obtain ⟨stored, limit, decoded⟩ := decoded_snapshot isDecoded
  have comparable := modelDump_comparable draft.hasDicts draft.valid
  have comparable' := modelDump_comparable draft'.hasDicts draft'.valid
  rw [Bool.eq_false_iff, ne_eq, Value.pyEq_iff_equalValue comparable decoded.distinctKeys]
    at notEqual
  rw [Bool.eq_false_iff, ne_eq, Value.pyEq_iff_equalValue comparable' decoded.distinctKeys]
  have same := (Value.same_iff_alike comparable.distinct comparable'.distinct).mp
    (same_of_sigmaYaml sameText)
  exact fun alike => notEqual (same.of_equal alike)

/-- What is committed as a revision is no revision to an equal draft. -/
theorem differs_of_advances
    {store : RuleStore}
    {ruleId ownerId versionId : UUID}
    {number : Int}
    {rule : RuleColumns}
    {previous : VersionColumns}
    {draft : Draft python}
    (advances : Advances python store (reviseWrites ruleId ownerId number draft versionId))
    (revises : Revises store ruleId ownerId versionId rule previous) :
    Differs previous draft := by
  generalize isWrites : reviseWrites ruleId ownerId number draft versionId = writes at advances
  cases advances with
  | create draft' ownerId' ids _ => simp [reviseWrites, createWrites] at isWrites
  | @revise draft' ruleId' ownerId' versionId' rule' previous' revises' differs =>
      simp only [reviseWrites, newVersion, List.cons.injEq, Write.insertVersion.injEq,
        VersionColumns.mk.injEq] at isWrites
      obtain ⟨⟨_, rfl, _, sameText, _⟩, _⟩ := isWrites
      obtain ⟨previousId, isCurrent, isPrevious⟩ := revises.isCurrent
      obtain ⟨previousId', isCurrent', isPrevious'⟩ := revises'.isCurrent
      obtain rfl : rule = rule' := Option.some.inj (revises.isRule.symm.trans revises'.isRule)
      obtain rfl : previousId = previousId' := Option.some.inj (isCurrent.symm.trans isCurrent')
      obtain rfl : previous = previous' := Option.some.inj (isPrevious.symm.trans isPrevious')
      exact differs.of_same sameText.symm

/-- A revision that is committed is what serving it alone commits. -/
theorem Revises.request
    (collation : Collation)
    {store : RuleStore}
    {ruleId ownerId versionId : UUID}
    {rule : RuleColumns}
    {previous : VersionColumns}
    {draft : Draft python}
    (revises : Revises store ruleId ownerId versionId rule previous)
    (differs : Differs previous draft) :
    request python collation ownerId (.revise ruleId previous.versionNumber draft versionId)
        store =
      (.ok (.receipt (receipt ruleId rule.ruleUid versionId (previous.versionNumber + 1))),
        (reviseWrites ruleId ownerId (previous.versionNumber + 1) draft versionId).foldl
          RuleStore.apply store) := by
  obtain ⟨snapshot, isDecoded, notEqual⟩ := differs
  have revisable : Revisable python store ruleId ownerId rule previous snapshot :=
    ⟨revises.isRule, revises.isOwned, revises.isDraft, revises.isCurrent, revises.sameRule,
      isDecoded⟩
  rcases request_revise collation revisable draft versionId with
    ⟨isEqual, _⟩ | ⟨_, _, isServed⟩ | ⟨_, isOld, _⟩
  · rw [notEqual] at isEqual
    contradiction
  · exact isServed
  · exact absurd ⟨revises.versionNew, revises.numberNew, revises.isInteger⟩ isOld

section Runs

variable
    {initial : RuleStore}
    {clock : Nat}
    {config config' : Config ServiceError (SessionAnswer Answer) (UUID × RuleCall python) RuleDb
      Response}

/-- What a call leaves behind is settled when it has returned. -/
theorem outcome_of_returned
    (reachable : Reachable (ruleMachine python collation) serve (Db.start initial clock) config)
    {pid : ProcId}
    {ownerId : UUID}
    {call : RuleCall python}
    {response : Response}
    (returned : HasReturned config pid (ownerId, call) response) :
    Outcome collation pid ownerId call (.ok response) config.shared := by
  obtain ⟨status, isProcess, isResult⟩ := returned
  have outlined := outlined_serve python collation
  cases status with
  | finished result =>
      obtain rfl : result = .ok response := Option.some.inj isResult
      exact (sound_of_outlined outlined reachable).2 pid (ownerId, call) _ isProcess
  | running program =>
      have finished := (sound_of_outlined outlined
        (reachable.tail (.finish isProcess isResult))).2 pid (ownerId, call) (.ok response)
          (Function.update_self _ _ _)
      -- the end of the session leaves the history alone
      cases call <;> exact finished

/-- A call that writes and has returned has committed. -/
theorem mem_committers_of_returned
    (reachable : Reachable (ruleMachine python collation) serve (Db.start initial clock) config)
    {pid : ProcId}
    {ownerId : UUID}
    {call : RuleCall python}
    {response : Response}
    (returned : HasReturned config pid (ownerId, call) response)
    (writes : ¬call.OnlyReads) :
    pid ∈ committers config.shared.log := by
  have outcome := outcome_of_returned reachable returned
  rw [mem_committers_iff]
  cases call with
  | create draft ids =>
      obtain ⟨_, before, after, isLog, _⟩ := outcome
      exact ⟨_, isLog ▸ List.mem_append_right before List.mem_cons_self⟩
  | revise ruleId expectedVersion draft versionId =>
      obtain ⟨body, _, before, after, rule, previous, isLog, _⟩ := outcome
      exact ⟨_, isLog ▸ List.mem_append_right before List.mem_cons_self⟩
  | get ruleId => exact absurd trivial writes
  | list limit offset => exact absurd trivial writes
  | listVersions ruleId limit offset => exact absurd trivial writes
  | getVersion ruleId versionNumber => exact absurd trivial writes
  | diff ruleId versionNumber => exact absurd trivial writes

/-- Every commit is what serving its call alone commits. -/
theorem served_of_commit
    (reachable : Reachable (ruleMachine python collation) serve (Db.start initial clock) config)
    {before after : List (Event Key Write)}
    {pid : ProcId}
    {writes : List Write}
    (isCommit : config.shared.log = before ++ .committed pid writes :: after) :
    ∃ (served : UUID × RuleCall python) (response : Response),
      HasReturned config pid served response ∧ ¬served.2.OnlyReads ∧
      request python collation served.1 served.2
          (replay (schema collation) config.shared.initial before) =
        (.ok response, writes.foldl RuleStore.apply
          (replay (schema collation) config.shared.initial before)) := by
  have committed := committedOnce_of_reachable commitsLast_serve reachable
  have isCommitted : Event.committed pid writes ∈ config.shared.log := by
    rw [isCommit]
    exact List.mem_append_right before List.mem_cons_self
  obtain ⟨⟨ownerId, call⟩, status, response, isProcess, isResult⟩ :=
    committed.returned pid (mem_committers_iff.mpr ⟨writes, isCommitted⟩)
  have returned : HasReturned config pid (ownerId, call) response := ⟨status, isProcess, isResult⟩
  have outcome := outcome_of_returned reachable returned
  have satisfied := (sound_of_outlined (outlined_serve python collation) reachable).1
  have advances := satisfied before pid writes after isCommit
  refine ⟨(ownerId, call), response, returned, ?_⟩
  have notReading : ¬Uncommitted pid config.shared.log := fun uncommitted =>
    uncommitted writes isCommitted
  cases call with
  | create draft ids =>
      obtain ⟨rfl, before', after', isCommit', creates⟩ := outcome
      obtain ⟨rfl, rfl⟩ := commit_split_unique committed.once isCommit isCommit'
      exact ⟨id, request_create collation draft ownerId creates⟩
  | revise ruleId expectedVersion draft versionId =>
      obtain ⟨body, rfl, before', after', rule, previous, isCommit', revises, rfl, rfl⟩ := outcome
      obtain ⟨rfl, rfl⟩ := commit_split_unique committed.once isCommit isCommit'
      exact ⟨id, revises.request collation (differs_of_advances advances revises)⟩
  | get ruleId => exact absurd outcome notReading
  | list limit offset => exact absurd outcome notReading
  | listVersions ruleId limit offset => exact absurd outcome notReading
  | getVersion ruleId versionNumber => exact absurd outcome notReading
  | diff ruleId versionNumber => exact absurd outcome notReading

/-- Requests that are served alone, one after the other: their results, and what is
committed then. -/
def requests (collation : Collation) :
    List (UUID × RuleCall python) → RuleStore → List (Except ServiceError Response) × RuleStore :=
  serveEach fun asked => request python collation asked.1 asked.2

/-- The edits of a run in a serial order: the creating and revising calls that have
returned. -/
structure EditOrder
    (collation : Collation)
    (config : Config ServiceError (SessionAnswer Answer) (UUID × RuleCall python) RuleDb Response)
    (order : List (ProcId × (UUID × RuleCall python) × Response)) : Prop where
  sessions : (order.map fun served => served.1).Nodup
  complete : ∀ pid ownerId call response, (pid, (ownerId, call), response) ∈ order ↔
    ¬call.OnlyReads ∧ HasReturned config pid (ownerId, call) response
  serial : requests collation (order.map fun served => served.2.1) config.shared.initial =
    (order.map fun served => .ok served.2.2, config.shared.committed (schema collation))

theorem exists_editOrder
    (reachable : Reachable (ruleMachine python collation) serve (Db.start initial clock) config) :
    ∃ order, Serializes (schema collation)
        (fun asked => request python collation asked.1 asked.2) config order ∧
      EditOrder collation config order := by
  obtain ⟨order, serializes⟩ : ∃ order, Serializes (schema collation)
      (fun asked => request python collation asked.1 asked.2) config order := by
    apply exists_serializes
    intro before pid writes after isCommit
    obtain ⟨served, response, returned, _, isServed⟩ := served_of_commit reachable isCommit
    exact ⟨served, response, returned, isServed⟩
  have committed := committedOnce_of_reachable commitsLast_serve reachable
  refine ⟨order, serializes, ?_, ?_, serializes.serial⟩
  · rw [serializes.sessions]
    exact committed.once
  · intro pid ownerId call response
    constructor
    · intro isServed
      have returned := serializes.returned _ isServed
      refine ⟨?_, returned⟩
      have isCommitter : pid ∈ committers config.shared.log := by
        rw [← serializes.sessions]
        exact List.mem_map_of_mem (f := fun served => served.1) isServed
      obtain ⟨writes, isCommitted⟩ := mem_committers_iff.mp isCommitter
      obtain ⟨before, after, isCommit⟩ := List.append_of_mem isCommitted
      obtain ⟨served, response', returned', notReading, _⟩ :=
        served_of_commit reachable isCommit
      obtain ⟨rfl, _⟩ := returned.unique returned'
      exact notReading
    · rintro ⟨notReading, returned⟩
      have isCommitter := mem_committers_of_returned reachable returned notReading
      rw [← serializes.sessions, List.mem_map] at isCommitter
      obtain ⟨⟨_, served, response'⟩, isServed, rfl⟩ := isCommitter
      obtain ⟨rfl, rfl⟩ := returned.unique (serializes.returned _ isServed)
      exact isServed

/-- In every run, the creating and revising calls that have returned can be put in an
order in which serving them one after the other gives the same responses and the same
tables.  The order of a later state begins with the order of an earlier one, so that a
call that starts after another has returned comes after it. -/
theorem edits_serializable
    (reachable : Reachable (ruleMachine python collation) serve (Db.start initial clock) config)
    (steps : Steps (ruleMachine python collation) serve config config') :
    ∃ order later, EditOrder collation config order ∧
      EditOrder collation config' (order ++ later) := by
  obtain ⟨order, serializes, isOrder⟩ := exists_editOrder reachable
  obtain ⟨order', serializes', isOrder'⟩ := exists_editOrder (reachable.trans steps)
  obtain ⟨later, rfl⟩ := serializes.extends serializes' steps
  exact ⟨order, later, isOrder, isOrder'⟩

end Runs

/-- The draft is created first.  Of the two revisions of its first version, one joins the order
and the other one, which is refused, does not. -/
theorem sample_edits_serializable :
    ∃ created config, Reachable (ruleMachine .coarse .codePoints) serve
        (Db.start RuleStore.empty 0) created ∧
      Steps (ruleMachine .coarse .codePoints) serve created config ∧
      ∃ order later, EditOrder .codePoints created order ∧
        EditOrder .codePoints config (order ++ later) ∧
        (0, (5, .create Draft.sample (.sample 1)), .receipt (receipt 1 (UUID.str 3) 2 1)) ∈
          order ∧
        (1, (5, .revise 1 1 Draft.allOfNot 9), .receipt (receipt 1 (UUID.str 3) 9 2)) ∈ later ∧
        ∀ asked response, (2, asked, response) ∉ order ++ later := by
  obtain ⟨created, revised, config, served, isCreated, _, steps, _, steps', _, _, _, isRevised,
    isRefused⟩ := served_twoVersions
  obtain ⟨order, later, isOrder, isOrder'⟩ :=
    edits_serializable served.reachable (steps.trans steps')
  refine ⟨created, config, served.reachable, steps.trans steps', order, later, isOrder, isOrder',
    (isOrder.complete 0 5 _ _).mpr ⟨id, _, isCreated, rfl⟩, ?_, ?_⟩
  · have isEdit := (isOrder'.complete 1 5 (.revise 1 1 Draft.allOfNot 9)
      (.receipt (receipt 1 (UUID.str 3) 9 2))).mpr ⟨id, _, isRevised, rfl⟩
    refine (List.mem_append.mp isEdit).resolve_left fun isEarlier => ?_
    obtain ⟨_, _, isProcess, _⟩ := (isOrder.complete _ _ _ _).mp isEarlier
    rw [served.isIdle 1 le_rfl] at isProcess
    contradiction
  · rintro ⟨ownerId, call⟩ response isEdit
    obtain ⟨_, status, isProcess, isResult⟩ := (isOrder'.complete _ _ _ _).mp isEdit
    rw [isRefused, Option.some.injEq, Prod.mk.injEq] at isProcess
    rw [← isProcess.2] at isResult
    cases isResult

end Detection
end SigmaForge
