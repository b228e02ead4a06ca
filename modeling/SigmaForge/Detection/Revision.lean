import SigmaForge.Detection.Requests
import SigmaForge.Detection.Decoder

/-!
# Revisions that are refused as unchanged

A revision that is served alone: when it is refused because the draft is the
current one, and what it appends otherwise.
-/

namespace SigmaForge
namespace Detection

open Text Json ReadCommitted

section Revision

variable {python : Interpreter}

/-- A draft that the user may revise: its rule row, its current version and the
snapshot that is decoded from it. -/
structure Revisable (python : Interpreter) (store : RuleStore) (ruleId ownerId : UUID)
    (rule : RuleColumns) (previous : VersionColumns) (snapshot : Value) : Prop where
  isRule : store.rules.lookup ruleId = some rule
  isOwned : rule.ownerId = ownerId
  isDraft : rule.status = .draft
  isCurrent : ∃ previousId, rule.currentVersionId = some previousId ∧
    store.versions.lookup previousId = some previous
  sameRule : previous.ruleId = ruleId
  decoded : decodeStoredRuleSnapshot python previous.sigmaYaml = .ok snapshot

/-- `SELECT … FOR UPDATE` finds the rule. -/
theorem Revisable.found
    {store : RuleStore}
    {ruleId ownerId : UUID}
    {rule : RuleColumns}
    {previous : VersionColumns}
    {snapshot : Value}
    (revisable : Revisable python store ruleId ownerId rule previous snapshot) :
    (store.rule ruleId).filter (fun row => row.ownerId = ownerId) = some ⟨rule, ruleId⟩ := by
  simp [RuleStore.rule, revisable.isRule, revisable.isOwned]

/-- The revision up to its comparison of the version with the expected one. -/
theorem Revisable.solo_found
    (collation : Collation)
    {store : RuleStore}
    {ruleId ownerId : UUID}
    {rule : RuleColumns}
    {previous : VersionColumns}
    {snapshot : Value}
    (revisable : Revisable python store ruleId ownerId rule previous snapshot)
    (expectedVersion : Int)
    (draft : Draft python)
    (versionId : UUID) :
    (reviseOwnedRuleDraft ruleId ownerId expectedVersion draft versionId).solo
        (ruleAnswers collation) (store, []) =
      ((Program.ensure (previous.versionNumber = expectedVersion)
        (conflict (lit "Draft version conflict"))).bind fun _ =>
          (decodeSnapshot python previous.sigmaYaml).bind fun previousSnapshot =>
            (Program.ensure (draft.request.modelDump.pyEq previousSnapshot = false)
              (conflict (lit "Draft is unchanged"))).bind fun _ =>
                (atomically (reviseWrites ruleId ownerId (previous.versionNumber + 1) draft
                  versionId)).bind fun _ =>
                    .ret (receipt ruleId rule.ruleUid versionId
                      (previous.versionNumber + 1))).solo (ruleAnswers collation) (store, []) := by
  obtain ⟨previousId, isCurrent, isPrevious⟩ := revisable.isCurrent
  have selected := effect_of_found collation revisable.found
  have isAnswer : (effect collation (.getVersion previousId) store).answer =
      some (some ⟨previous, previousId⟩) := by
    simp [effect, reads, RuleStore.version, isPrevious]
  refine (solo_query_of_answer (by rw [selected]) (by rw [selected]) _).trans ?_
  simp only [bind, Program.ofOption, Program.bind, Program.ensure, revisable.isOwned,
    revisable.isDraft, isCurrent, and_self, if_true]
  refine (solo_query_of_answer rfl isAnswer _).trans ?_
  simp only [Program.bind, revisable.sameRule, if_true]
  rfl

/-- The revision up to its comparison of the draft with the snapshot. -/
theorem Revisable.solo
    (collation : Collation)
    {store : RuleStore}
    {ruleId ownerId : UUID}
    {rule : RuleColumns}
    {previous : VersionColumns}
    {snapshot : Value}
    (revisable : Revisable python store ruleId ownerId rule previous snapshot)
    (draft : Draft python)
    (versionId : UUID) :
    (reviseOwnedRuleDraft ruleId ownerId previous.versionNumber draft versionId).solo
        (ruleAnswers collation) (store, []) =
      ((Program.ensure (draft.request.modelDump.pyEq snapshot = false)
        (conflict (lit "Draft is unchanged"))).bind fun _ =>
          (atomically (reviseWrites ruleId ownerId (previous.versionNumber + 1) draft
            versionId)).bind fun _ =>
              .ret (receipt ruleId rule.ruleUid versionId (previous.versionNumber + 1))).solo
        (ruleAnswers collation) (store, []) := by
  rw [revisable.solo_found collation, Program.ensure, if_pos rfl]
  simp only [Program.bind, decodeSnapshot, revisable.decoded]
  rfl

/-- A revision that names another version than the current one is refused. -/
theorem Revisable.refused_of_stale
    (collation : Collation)
    {store : RuleStore}
    {ruleId ownerId : UUID}
    {rule : RuleColumns}
    {previous : VersionColumns}
    {snapshot : Value}
    (revisable : Revisable python store ruleId ownerId rule previous snapshot)
    {expectedVersion : Int}
    (isStale : previous.versionNumber ≠ expectedVersion)
    (draft : Draft python)
    (versionId : UUID) :
    request python collation ownerId (.revise ruleId expectedVersion draft versionId) store =
      (.error (conflict (lit "Draft version conflict")), store) := by
  have isProgram : (RuleCall.revise ruleId expectedVersion draft versionId).program ownerId =
      (reviseOwnedRuleDraft ruleId ownerId expectedVersion draft versionId).bind fun body =>
        .ret (.receipt body) := rfl
  unfold request alone
  rw [isProgram, Program.solo_bind, revisable.solo_found collation, Program.ensure,
    if_neg isStale]
  rfl

/-- A revision that is served alone.  It is refused, or it commits both of its
writes, or the database refuses one of them. -/
theorem request_revise
    (collation : Collation)
    {store : RuleStore}
    {ruleId ownerId : UUID}
    {rule : RuleColumns}
    {previous : VersionColumns}
    {snapshot : Value}
    (revisable : Revisable python store ruleId ownerId rule previous snapshot)
    (draft : Draft python)
    (versionId : UUID) :
    (draft.request.modelDump.pyEq snapshot = true ∧
      request python collation ownerId (.revise ruleId previous.versionNumber draft versionId)
        store = (.error (conflict (lit "Draft is unchanged")), store)) ∨
    (draft.request.modelDump.pyEq snapshot = false ∧
      Revises store ruleId ownerId versionId rule previous ∧
      request python collation ownerId (.revise ruleId previous.versionNumber draft versionId)
        store =
          (.ok (.receipt (receipt ruleId rule.ruleUid versionId (previous.versionNumber + 1))),
            (reviseWrites ruleId ownerId (previous.versionNumber + 1) draft versionId).foldl
              RuleStore.apply store)) ∨
    (draft.request.modelDump.pyEq snapshot = false ∧
      ¬(versionId ∉ store.versions ∧
        ¬store.NumberTaken ruleId (previous.versionNumber + 1) ∧
        IsInteger (previous.versionNumber + 1)) ∧
      request python collation ownerId (.revise ruleId previous.versionNumber draft versionId)
        store = (.error .database, store)) := by
  have isProgram : (RuleCall.revise ruleId previous.versionNumber draft versionId).program
      ownerId = (reviseOwnedRuleDraft ruleId ownerId previous.versionNumber draft
        versionId).bind fun body => .ret (.receipt body) := rfl
  unfold request alone
  rw [isProgram, Program.solo_bind, revisable.solo collation draft versionId]
  cases isEqual : draft.request.modelDump.pyEq snapshot with
  | true =>
      left
      rw [Program.ensure, if_neg (by simp)]
      exact ⟨rfl, rfl⟩
  | false =>
      right
      rw [Program.ensure, if_pos rfl]
      simp only [Program.bind]
      by_cases isNew : versionId ∉ store.versions ∧
          ¬store.NumberTaken ruleId (previous.versionNumber + 1) ∧
          IsInteger (previous.versionNumber + 1)
      · left
        rw [Program.solo_bind, solo_atomically_of_admissible
          ((allAdmissible_revise_iff draft revisable.isRule).mpr isNew)]
        exact ⟨trivial, ⟨revisable.isRule, revisable.isOwned, revisable.isDraft,
          revisable.isCurrent, revisable.sameRule, isNew.1, isNew.2.1, isNew.2.2⟩, rfl⟩
      · right
        rw [Program.solo_bind, solo_atomically_of_not_admissible
          (mt (allAdmissible_revise_iff draft revisable.isRule).mp isNew)]
        exact ⟨trivial, isNew, rfl⟩

/-! ## The comparison -/

/-- Two accepted drafts are the same up to key order exactly when they are written
as the same text. -/
theorem same_iff_dumpsSorted
    {left right : Value}
    (loadable : left.Loadable)
    (loadable' : right.Loadable) :
    left.Same right ↔ dumpsSorted python.floats left = dumpsSorted python.floats right := by
  constructor
  · intro same
    unfold dumpsSorted
    rw [same]
  · intro sameText
    have isLoaded : loads python.floats snapshotHooks (dumpsSorted python.floats left) =
        .ok left.sortKeys := loads_dumpsSorted snapshotHooks_keepsDistinct loadable
    rw [sameText, loads_dumpsSorted snapshotHooks_keepsDistinct loadable'] at isLoaded
    exact (Except.ok.inj isLoaded).symm

theorem decoded_snapshot
    {text : Str}
    {snapshot : Value}
    (isDecoded : decodeStoredRuleSnapshot python text = .ok snapshot) :
    ∃ draft limit, Decoded python limit text snapshot draft := by
  rw [decodeStoredRuleSnapshot_eq] at isDecoded
  obtain ⟨draft, decoded⟩ := decoded_of_ok isDecoded
  exact ⟨draft, _, decoded⟩

/-- A revision of the current version is refused as unchanged exactly when the draft
is the same value as the snapshot, and is appended otherwise. -/
structure RefusedExactlyUnchanged (collation : Collation) (store : RuleStore)
    (ruleId ownerId : UUID) (rule : RuleColumns) (previous : VersionColumns) (snapshot : Value)
    (draft : Draft python) (versionId : UUID) : Prop where
  refused_iff :
    (request python collation ownerId (.revise ruleId previous.versionNumber draft versionId)
      store).1 = .error (conflict (lit "Draft is unchanged")) ↔
        draft.request.modelDump.Same snapshot
  appended :
    ¬draft.request.modelDump.Same snapshot →
    versionId ∉ store.versions →
    ¬store.NumberTaken ruleId (previous.versionNumber + 1) →
    IsInteger (previous.versionNumber + 1) →
    ∃ store', request python collation ownerId
        (.revise ruleId previous.versionNumber draft versionId) store =
          (.ok (.receipt (receipt ruleId rule.ruleUid versionId (previous.versionNumber + 1))),
            store') ∧
      Appended store store' ruleId (described rule draft versionId) versionId
        (newVersion ruleId (previous.versionNumber + 1) draft ownerId)

/-- The revision is refused exactly when it is unchanged, unless the draft and the
snapshot differ in nothing but how numbers are written. -/
theorem refusedExactlyUnchanged_iff
    (collation : Collation)
    {store : RuleStore}
    {ruleId ownerId : UUID}
    {rule : RuleColumns}
    {previous : VersionColumns}
    {snapshot : Value}
    (revisable : Revisable python store ruleId ownerId rule previous snapshot)
    (draft : Draft python)
    (versionId : UUID) :
    (draft.request.modelDump.Same snapshot ↔
      dumpsSorted python.floats draft.request.modelDump =
        dumpsSorted python.floats snapshot) ∧
    (RefusedExactlyUnchanged collation store ruleId ownerId rule previous snapshot draft
        versionId ↔
      ¬draft.request.modelDump.OnlyRetyped snapshot) := by
  obtain ⟨stored, limit, decoded⟩ := decoded_snapshot revisable.decoded
  have comparable := modelDump_comparable draft.hasDicts draft.valid
  have equal_of_same : draft.request.modelDump.Same snapshot →
      draft.request.modelDump.pyEq snapshot = true :=
    Value.pyEq_of_same comparable decoded.distinctKeys
  constructor
  · unfold dumpsSorted Value.Same
    rw [← decoded.same]
    exact same_iff_dumpsSorted (modelDump_loadable draft.hasDicts draft.valid)
      (modelDump_loadable decoded.hasDicts decoded.valid)
  · rw [Value.onlyRetyped_iff comparable decoded.distinctKeys, not_and, not_not]
    rcases request_revise collation revisable draft versionId with
      ⟨isEqual, isRefused⟩ | ⟨differs, revises, isRevised⟩ | ⟨differs, notNew, isRaised⟩
    · constructor
      · intro exactly _
        exact exactly.refused_iff.mp (by rw [isRefused])
      · intro same
        refine ⟨?_, fun changed => absurd (same isEqual) changed⟩
        rw [isRefused]
        exact iff_of_true rfl (same isEqual)
    · have changed : ¬draft.request.modelDump.Same snapshot := fun same => by
        simp [equal_of_same same] at differs
      refine iff_of_true ⟨?_, fun _ _ _ _ => ⟨_, isRevised, revises.appended draft⟩⟩ (by
        simp [differs])
      rw [isRevised]
      exact iff_of_false (by simp) changed
    · have changed : ¬draft.request.modelDump.Same snapshot := fun same => by
        simp [equal_of_same same] at differs
      refine iff_of_true ⟨?_, fun _ versionNew numberNew isInteger =>
        absurd ⟨versionNew, numberNew, isInteger⟩ notNew⟩ (by simp [differs])
      rw [isRaised]
      exact iff_of_false (by simp [conflict]) changed

/-- A draft that has just been created can be revised. -/
theorem Creates.revisable
    {store : RuleStore}
    {ids : FreshIds}
    (creates : Creates store ids)
    (draft : Draft python)
    (ownerId : UUID) :
    Revisable python ((createWrites draft ownerId ids).foldl RuleStore.apply store) ids.ruleId
      ownerId (described (newRule draft ownerId ids) draft ids.versionId)
      (newVersion ids.ruleId 1 draft ownerId) draft.request.modelDump.sortKeys := by
  have appended := creates.appended draft ownerId
  exact ⟨appended.lookup_rule, rfl, rfl, ⟨ids.versionId, rfl, appended.lookup_new⟩, rfl,
    decode_sigmaYaml draft⟩

/-- A draft that has just been created takes a second version. -/
theorem Creates.revises
    {store : RuleStore}
    {ids : FreshIds}
    (creates : Creates store ids)
    (draft : Draft python)
    (ownerId : UUID)
    {versionId : UUID}
    (different : versionId ≠ ids.versionId)
    (versionNew : versionId ∉ store.versions) :
    Revises ((createWrites draft ownerId ids).foldl RuleStore.apply store) ids.ruleId ownerId
      versionId (described (newRule draft ownerId ids) draft ids.versionId)
      (newVersion ids.ruleId 1 draft ownerId) := by
  have appended := creates.appended draft ownerId
  have revisable := creates.revisable draft ownerId
  have isInteger : IsInteger (1 + 1) := by decide
  refine ⟨revisable.isRule, rfl, rfl, revisable.isCurrent, rfl, ?_, ?_, isInteger⟩
  · rw [appended.versions, Finmap.mem_insert, not_or]
    exact ⟨different, versionNew⟩
  · rw [Tables.numberTaken_iff, appended.versions]
    rintro ⟨id, columns, found, sameRule, isNumber⟩
    rcases Tables.lookup_insert_cases found with ⟨_, rfl⟩ | ⟨_, isOld⟩
    · change (1 : Int) = 1 + 1 at isNumber
      omega
    · have ruleThere := store.consistent.ruleId isOld
      rw [sameRule] at ruleThere
      exact creates.ruleNew ruleThere

/-- So can a draft that has just been revised. -/
theorem Revises.revisable
    {store : RuleStore}
    {ruleId ownerId versionId : UUID}
    {rule : RuleColumns}
    {previous : VersionColumns}
    (revises : Revises store ruleId ownerId versionId rule previous)
    (draft : Draft python) :
    Revisable python
      ((reviseWrites ruleId ownerId (previous.versionNumber + 1) draft versionId).foldl
        RuleStore.apply store)
      ruleId ownerId (described rule draft versionId)
      (newVersion ruleId (previous.versionNumber + 1) draft ownerId)
      draft.request.modelDump.sortKeys := by
  have appended := revises.appended draft
  exact ⟨appended.lookup_rule, revises.isOwned, revises.isDraft,
    ⟨versionId, rfl, appended.lookup_new⟩, rfl, decode_sigmaYaml draft⟩

end Revision

/-! ## A refused change -/

/-- The tables with one draft of one version. -/
def oneDraft : RuleStore :=
  (createWrites Draft.sample 5 (.sample 1)).foldl RuleStore.apply RuleStore.empty

theorem oneDraft_revisable :
    Revisable .coarse oneDraft 1 5 (described (newRule Draft.sample 5 (.sample 1)) Draft.sample 2)
      (newVersion 1 1 Draft.sample 5) Draft.sample.request.modelDump.sortKeys :=
  (creates_empty (.sample 1)).revisable Draft.sample 5

theorem allOfNot_differs : Draft.allOfNot.request.modelDump.pyEq
    Draft.sample.request.modelDump.sortKeys = false := by decide +kernel

theorem allOfNot_refusedExactlyUnchanged :
    Revisable .coarse oneDraft 1 5 (described (newRule Draft.sample 5 (.sample 1)) Draft.sample 2)
      (newVersion 1 1 Draft.sample 5) Draft.sample.request.modelDump.sortKeys ∧
    RefusedExactlyUnchanged .codePoints oneDraft 1 5
      (described (newRule Draft.sample 5 (.sample 1)) Draft.sample 2)
      (newVersion 1 1 Draft.sample 5) Draft.sample.request.modelDump.sortKeys Draft.allOfNot 9 := by
  refine ⟨oneDraft_revisable, ?_⟩
  rw [(refusedExactlyUnchanged_iff .codePoints oneDraft_revisable Draft.allOfNot 9).2]
  have distinct : Draft.sample.request.modelDump.sortKeys.DistinctKeys :=
    (RulePreflightRequest.modelDump_distinct Draft.sample.hasDicts).sortKeys
      fun _ _ permuted => permuted.nodup_iff.mp
  rw [Value.onlyRetyped_iff (modelDump_comparable Draft.allOfNot.hasDicts Draft.allOfNot.valid)
    distinct]
  simp [allOfNot_differs]

/-- The small draft with `true` in place of `1`. -/
def Draft.retyped : Draft .coarse where
  request :=
    { Draft.sample.request with
      detection :=
        [(lit "sel", .object [(lit "EventID", .scalar (.bool true))]),
          (lit "condition", .scalar (.str (lit "sel")))] }
  hasDicts :=
    { logsource := Draft.sample.hasDicts.logsource
      detection := by
        refine .object (by decide) fun member isMember => ?_
        simp only [List.mem_cons, List.not_mem_nil, or_false] at isMember
        rcases isMember with rfl | rfl
        · exact .object (by simp) (by simpa using .scalar trivial)
        · exact .scalar trivial }
  accepted := by decide +kernel

/-- A changed draft is refused as unchanged: it has `true` where the current version
has `1`. -/
theorem retyped_refused :
    Revisable .coarse oneDraft 1 5 (described (newRule Draft.sample 5 (.sample 1)) Draft.sample 2)
      (newVersion 1 1 Draft.sample 5) Draft.sample.request.modelDump.sortKeys ∧
    request .coarse .codePoints 5 (.revise 1 1 Draft.retyped 9) oneDraft =
      (.error (conflict (lit "Draft is unchanged")), oneDraft) ∧
    ¬Draft.retyped.request.modelDump.Same Draft.sample.request.modelDump.sortKeys ∧
    ¬RefusedExactlyUnchanged .codePoints oneDraft 1 5
      (described (newRule Draft.sample 5 (.sample 1)) Draft.sample 2)
      (newVersion 1 1 Draft.sample 5) Draft.sample.request.modelDump.sortKeys Draft.retyped 9 := by
  have isEqual : Draft.retyped.request.modelDump.pyEq
      Draft.sample.request.modelDump.sortKeys = true := by decide +kernel
  have differs : dumpsSorted Interpreter.coarse.floats Draft.retyped.request.modelDump ≠
      dumpsSorted Interpreter.coarse.floats Draft.sample.request.modelDump.sortKeys := by
    decide +kernel
  have changed : ¬Draft.retyped.request.modelDump.Same
      Draft.sample.request.modelDump.sortKeys := not_same_of_dumpsSorted differs
  have isRefused : request .coarse .codePoints 5 (.revise 1 1 Draft.retyped 9) oneDraft =
      (.error (conflict (lit "Draft is unchanged")), oneDraft) := by
    rcases request_revise .codePoints oneDraft_revisable Draft.retyped 9 with
      ⟨_, isRefused⟩ | ⟨differs, _⟩ | ⟨differs, _⟩
    · exact isRefused
    · exact absurd (isEqual.symm.trans differs) (by decide)
    · exact absurd (isEqual.symm.trans differs) (by decide)
  refine ⟨oneDraft_revisable, isRefused, changed, fun exactly => changed ?_⟩
  apply exactly.refused_iff.mp
  exact congrArg Prod.fst isRefused

end Detection
end SigmaForge
