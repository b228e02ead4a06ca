import SigmaForge.Detection.ConcurrentReads

/-!
# Reads of one moment

Whether the response of a history read is that of the call alone at a moment between its
queries depends on which versions it reports: the marked version is the current one of the
first query, the reported versions are those of the last one.
-/

namespace SigmaForge
namespace Detection

open Text Json ReadCommitted

/-! ## The reported versions -/

/-- The call reports the version of the given number, of a chain of `count` versions. -/
def RuleCall.Reports {python : Interpreter} (count number : Int) : RuleCall python → Prop
  | .listVersions _ limit offset =>
      1 ≤ number ∧ offset ≤ count - number ∧ count - number < offset + limit
  | .getVersion _ versionNumber =>
      number = versionNumber ∧ 1 ≤ versionNumber ∧ versionNumber ≤ count
  | .diff _ versionNumber =>
      number = versionNumber ∧ 2 ≤ versionNumber ∧ versionNumber ≤ count
  | _ => False

section Reports

variable
    {python : Interpreter}
    {store : RuleStore}
    {ruleId ownerId : UUID}
    {rule : DetectionRule}
    {current : DetectionRuleVersion}
    {count : Int}
    {draft : Draft python}

/-- The numbers on a page of the versions. -/
theorem VersionChain.mem_page_iff
    {columns : RuleColumns}
    (chain : VersionChain python store ruleId columns count)
    (limit offset : Nat)
    (number : Int) :
    (∃ version ∈ ((store.versionList ruleId).drop offset).take limit,
        version.versionNumber = number) ↔
      1 ≤ number ∧ offset ≤ count - number ∧ count - number < offset + limit := by
  have isPage : (∃ version ∈ ((store.versionList ruleId).drop offset).take limit,
      version.versionNumber = number) ↔
      number ∈ (((List.range count.toNat).map fun index : Nat => count - index).drop
        offset).take limit := by
    rw [← chain.versionNumbers, ← List.map_drop, ← List.map_take, List.mem_map]
  rw [isPage, List.mem_iff_getElem?]
  simp only [List.getElem?_take, List.getElem?_drop, List.getElem?_map]
  constructor
  · rintro ⟨index, isNumber⟩
    split at isNumber
    · rw [Option.map_eq_some_iff] at isNumber
      obtain ⟨position, isPosition, rfl⟩ := isNumber
      obtain ⟨isIndex, rfl⟩ := List.getElem?_eq_some_iff.mp isPosition
      rw [List.length_range] at isIndex
      rw [List.getElem_range]
      omega
    · contradiction
  · rintro ⟨positive, low, high⟩
    refine ⟨(count - number).toNat - offset, ?_⟩
    have := chain.positive
    rw [if_pos (by omega), List.getElem?_range (by omega), Option.map_some]
    congr 1
    omega

/-- A response reports what its call reports. -/
theorem OwnedChain.reports_iff
    (owned : OwnedChain store ruleId ownerId rule current count draft)
    {call : RuleCall python}
    (history : call.ReadsHistory ruleId)
    {response : Response}
    (isResponse : call.readWith store rule current.id = .ok response)
    (number : Int) :
    response.Reports number ↔ call.Reports count number := by
  have isNumbered : ∀ {versionNumber : Int} {body : RuleVersion},
      readVersion python store ruleId versionNumber rule current.id = .ok body →
        body.versionNumber = versionNumber ∧ 1 ≤ versionNumber ∧ versionNumber ≤ count := by
    intro versionNumber body isBody
    obtain ⟨isNumber, version, isListed, isVersion⟩ := versionNumber_of_found isBody
    exact ⟨isNumber, (owned.chain.mem_versionNumbers _).mp
      (List.mem_map.mpr ⟨version, isListed, isVersion⟩)⟩
  cases history using RuleCall.ReadsHistory.cases with
  | listVersions limit offset =>
      obtain rfl := Except.ok.inj isResponse
      rw [RuleCall.Reports, ← owned.chain.mem_page_iff]
      simp only [Response.Reports, versionsBody, List.take_take,
        Nat.min_eq_left (Nat.le_succ limit), List.mem_map, exists_exists_and_eq_and]
  | getVersion versionNumber =>
      rw [RuleCall.readWith] at isResponse
      cases isBody : readVersion python store ruleId versionNumber rule current.id with
      | error error =>
          rw [isBody] at isResponse
          contradiction
      | ok body =>
          rw [isBody] at isResponse
          obtain rfl := Except.ok.inj isResponse
          obtain ⟨isNumber, isThere⟩ := isNumbered isBody
          simp only [Response.Reports, RuleCall.Reports, isNumber, isThere, and_true]
          exact eq_comm
  | diff versionNumber =>
      rw [RuleCall.readWith] at isResponse
      split at isResponse
      · rename_i low
        cases isPrevious : readVersion python store ruleId (versionNumber - 1) rule current.id with
        | error error =>
            rw [isPrevious] at isResponse
            contradiction
        | ok previous =>
            cases isBody : readVersion python store ruleId versionNumber rule current.id with
            | error error =>
                rw [isPrevious, isBody] at isResponse
                contradiction
            | ok body =>
                rw [isPrevious, isBody] at isResponse
                obtain ⟨_, _, isThere⟩ := isNumbered isBody
                simp only [Except.bind, diffBody] at isResponse
                split at isResponse
                · split at isResponse
                  · contradiction
                  · obtain rfl := Except.ok.inj isResponse
                    simp only [Response.Reports, RuleCall.Reports, low, isThere, and_true]
                    exact eq_comm
                · contradiction
      · contradiction

/-- Where a call has something to report, it returns a response. -/
theorem OwnedChain.exists_response
    (owned : OwnedChain store ruleId ownerId rule current count draft)
    (recorded : Recorded python store)
    {call : RuleCall python}
    (history : call.ReadsHistory ruleId)
    {number : Int}
    (reports : call.Reports count number) :
    ∃ response, call.readWith store rule current.id = .ok response := by
  have isAlone := request_history .codePoints history owned.isRead
  cases history using RuleCall.ReadsHistory.cases with
  | listVersions limit offset => exact ⟨_, rfl⟩
  | getVersion versionNumber =>
      obtain ⟨body, isBody⟩ : ∃ body, (getOwnedRuleVersion python ruleId ownerId
          versionNumber).evaluate (onTables .codePoints store) = .ok body :=
        (owned.version_ok_iff recorded versionNumber).mpr reports.2
      rw [request_fst (.getVersion ruleId versionNumber) trivial rfl, isBody] at isAlone
      exact ⟨_, isAlone.symm⟩
  | diff versionNumber =>
      obtain ⟨body, isBody⟩ : ∃ body, (diffOwnedRuleVersion python ruleId ownerId
          versionNumber).evaluate (onTables .codePoints store) = .ok body :=
        (owned.diff_ok_iff recorded versionNumber).mpr reports.2
      rw [request_fst (.diff ruleId versionNumber) trivial rfl, isBody] at isAlone
      exact ⟨_, isAlone.symm⟩

end Reports

/-! ## Reads of one moment -/

/-- The rule is at version `before` when it is read, and at version `after` when the
versions are read: the page contains one of both versions, or the call asks for the new
one. -/
def RuleCall.Mixes {python : Interpreter} (before after : Int) : RuleCall python → Prop
  | .listVersions _ limit offset =>
      before ≠ after ∧ ((offset = 0 ∧ 0 < limit) ∨
        (offset ≤ after - before ∧ after - before < offset + limit))
  | .getVersion _ versionNumber => before < versionNumber ∧ versionNumber = after
  | .diff _ versionNumber => before < versionNumber ∧ versionNumber = after
  | _ => False

section Mixes

variable
    {python : Interpreter}
    {collation : Collation}
    {ruleId ownerId : UUID}
    {call : RuleCall python}
    {moments : List RuleStore}
    {response : Except ServiceError Response}

/-- Where two different versions are seen as the current one, no tables have both. -/
theorem RuleCall.Mixes.absurd
    {before after count : Int}
    (mixes : call.Mixes before after)
    (history : call.ReadsHistory ruleId)
    (positive : 1 ≤ before)
    (isLater : before ≤ after)
    (isBounded : count ≤ after)
    (same : ∀ reported, call.Reports after reported →
      call.Reports count reported ∧ (reported = before ↔ reported = count)) :
    False := by
  cases history using RuleCall.ReadsHistory.cases with
  | listVersions limit offset =>
      obtain ⟨different, isReported⟩ := mixes
      have newest : offset = 0 ∧ 0 < limit → False := by
        rintro ⟨isStart, isPage⟩
        obtain ⟨⟨_, low, _⟩, isCurrent⟩ := same after ⟨by omega, by omega, by omega⟩
        omega
      rcases isReported with isNewest | ⟨low, high⟩
      · exact newest isNewest
      · -- the version that was the current one is the newest one of its tables
        obtain ⟨⟨_, low', high'⟩, isCurrent⟩ := same before ⟨positive, low, high⟩
        exact newest ⟨by omega, by omega⟩
  | getVersion versionNumber =>
      obtain ⟨isNewer, rfl⟩ := mixes
      obtain ⟨⟨_, _, isThere⟩, isCurrent⟩ := same versionNumber ⟨rfl, by omega, le_rfl⟩
      omega
  | diff versionNumber =>
      obtain ⟨isNewer, rfl⟩ := mixes
      obtain ⟨⟨_, _, isThere⟩, isCurrent⟩ := same versionNumber ⟨rfl, by omega, le_rfl⟩
      omega

/-- A call that mixes something reports something. -/
theorem RuleCall.Mixes.reports
    {before after : Int}
    (mixes : call.Mixes before after)
    (history : call.ReadsHistory ruleId)
    (positive : 1 ≤ before)
    (isLater : before ≤ after) :
    ∃ reported, call.Reports after reported := by
  cases history using RuleCall.ReadsHistory.cases with
  | listVersions limit offset =>
      obtain ⟨_, ⟨isStart, isPage⟩ | ⟨low, high⟩⟩ := mixes
      · exact ⟨after, by omega, by omega, by omega⟩
      · exact ⟨before, positive, low, high⟩
  | getVersion versionNumber =>
      obtain ⟨isNewer, rfl⟩ := mixes
      exact ⟨_, rfl, by omega, le_rfl⟩
  | diff versionNumber =>
      obtain ⟨isNewer, rfl⟩ := mixes
      exact ⟨_, rfl, by omega, le_rfl⟩

/-- If the call mixes two versions, its response belongs to no tables in between. -/
theorem Answered.not_mixes
    (answered : Answered python ownerId ruleId call response moments)
    (history : call.ReadsHistory ruleId)
    (recorded : ∀ store ∈ moments, Recorded python store)
    {store first last : RuleStore}
    (recordedStore : Recorded python store)
    (isResponse : response = (request python collation ownerId call store).1)
    (isFirst : moments.head? = some first)
    (isLast : moments.getLast? = some last)
    (since : Advanced python first store)
    (until' : Advanced python store last)
    {before after : Int}
    (wasCurrent : CurrentNumber first ruleId before)
    (isCurrent : CurrentNumber last ruleId after) :
    ¬call.Mixes before after := by
  intro mixes
  cases answered with
  | unread _ => simp at isFirst
  | refused _ _ =>
      obtain rfl := Option.some.inj isFirst
      obtain rfl := Option.some.inj isLast
      obtain rfl := wasCurrent.unique isCurrent
      cases history using RuleCall.ReadsHistory.cases with
      | listVersions limit offset => exact mixes.1 rfl
      | getVersion versionNumber =>
          obtain ⟨isNewer, isAfter⟩ := mixes
          omega
      | diff versionNumber =>
          obtain ⟨isNewer, isAfter⟩ := mixes
          omega
  | @reported _ first' last' rule rule' current current' count count' draft draft' isFirst' isLast'
      advanced owned owned' isReported =>
      obtain rfl := Option.some.inj (isFirst'.symm.trans isFirst)
      obtain rfl := Option.some.inj (isLast'.symm.trans isLast)
      obtain rfl := owned.currentNumber.unique wasCurrent
      obtain rfl := owned'.currentNumber.unique isCurrent
      obtain ⟨rule'', current'', count'', draft'', owned''⟩ := owned.persists since recordedStore
      have recordedLast : Recorded python last' := recorded _ (List.mem_of_getLast? isLast)
      have positive := owned.chain.positive
      have isLater := owned.count_le owned' advanced
      obtain ⟨reported, reports⟩ := mixes.reports history positive isLater
      obtain ⟨body, isBody⟩ := owned'.exists_response recordedLast history reports
      -- the response as it is marked here, and as it would be marked there
      rw [(owned.marks advanced).readWith_eq (owned.isId.trans owned'.isId.symm) current'.id
        history, isBody] at isReported
      rw [request_history collation history owned''.isRead,
        (owned''.marks .refl).readWith_eq rfl current''.id history] at isResponse
      rw [isReported] at isResponse
      cases isBody'' : call.readWith store rule'' current''.id with
      | error error =>
          rw [isBody''] at isResponse
          contradiction
      | ok body'' =>
          rw [isBody''] at isResponse
          have sameMark : body.mark count = body''.mark count'' := Except.ok.inj isResponse
          apply mixes.absurd history positive isLater (owned''.count_le owned' until')
          intro reported reports
          obtain ⟨reports'', isMarked⟩ := Response.eq_of_mark_eq sameMark
            ((owned'.reports_iff history isBody reported).mpr reports)
          exact ⟨(owned''.reports_iff history isBody'' reported).mp reports'', isMarked⟩

/-- Where both rule rows mark the same of the reported versions, the response belongs to
the last moment. -/
theorem OwnedChain.readWith_eq_of_same
    {first last : RuleStore}
    {rule rule' : DetectionRule}
    {current current' : DetectionRuleVersion}
    {count count' : Int}
    {draft draft' : Draft python}
    (owned : OwnedChain first ruleId ownerId rule current count draft)
    (owned' : OwnedChain last ruleId ownerId rule' current' count' draft')
    (advanced : Advanced python first last)
    (history : call.ReadsHistory ruleId)
    (same : ∀ reported, call.Reports count' reported →
      (reported = count ↔ reported = count')) :
    call.readWith last rule current.id = call.readWith last rule' current'.id := by
  have isMarked := (owned.marks advanced).readWith_eq (owned.isId.trans owned'.isId.symm)
    current'.id history
  have isMarked' := (owned'.marks .refl).readWith_eq (rfl : rule'.id = rule'.id) current'.id history
  cases isBody : call.readWith last rule' current'.id with
  | error error =>
      rw [isBody] at isMarked
      exact isMarked
  | ok body =>
      rw [isBody] at isMarked isMarked'
      have sameMark : body.mark count = body.mark count' := by
        apply Response.mark_congr
        intro reported isReported
        exact same reported ((owned'.reports_iff history isBody reported).mp isReported)
      exact isMarked.trans ((congrArg Except.ok sameMark).trans isMarked'.symm)

/-- The versions that were there at the first moment can also be read then. -/
theorem OwnedChain.readWith_eq_of_le
    {first last : RuleStore}
    {rule rule' : DetectionRule}
    {current current' : DetectionRuleVersion}
    {count count' versionNumber : Int}
    {draft draft' : Draft python}
    (owned : OwnedChain first ruleId ownerId rule current count draft)
    (owned' : OwnedChain last ruleId ownerId rule' current' count' draft')
    (advanced : Advanced python first last)
    (isThere : versionNumber ≤ count)
    (isCall : call = .getVersion ruleId versionNumber ∨ call = .diff ruleId versionNumber) :
    call.readWith last rule current.id = call.readWith first rule current.id := by
  rcases isCall with rfl | rfl
  · simp only [RuleCall.readWith, readVersion]
    rw [owned.findVersion_eq owned' advanced isThere]
  · simp only [RuleCall.readWith, readVersion]
    rw [owned.findVersion_eq owned' advanced isThere,
      owned.findVersion_eq owned' advanced (show versionNumber - 1 ≤ count by omega)]

/-- If the call does not mix two versions, its response belongs to one of its moments. -/
theorem Answered.of_not_mixes
    (answered : Answered python ownerId ruleId call response moments)
    (history : call.ReadsHistory ruleId)
    (notMixed : ∀ {first last : RuleStore} {before after : Int}, moments.head? = some first →
      moments.getLast? = some last → CurrentNumber first ruleId before →
      CurrentNumber last ruleId after → ¬call.Mixes before after)
    (collation : Collation) :
    (moments = [] ∧ ∀ store, response = (request python collation ownerId call store).1) ∨
      ∃ store ∈ moments, response = (request python collation ownerId call store).1 := by
  cases answered with
  | unread isResponse => exact .inl ⟨rfl, isResponse collation⟩
  | @refused store _ isResponse =>
      exact .inr ⟨store, List.mem_singleton_self store, isResponse collation⟩
  | @reported _ first last rule rule' current current' count count' draft draft' isFirst isLast
      advanced owned owned' isReported =>
      right
      have notHere := notMixed isFirst isLast owned.currentNumber owned'.currentNumber
      have atLast : (∀ reported, call.Reports count' reported →
          (reported = count ↔ reported = count')) →
          ∃ store ∈ moments, response = (request python collation ownerId call store).1 := by
        intro same
        refine ⟨last, List.mem_of_getLast? isLast, ?_⟩
        rw [isReported, request_history collation history owned'.isRead]
        exact owned.readWith_eq_of_same owned' advanced history same
      have atFirst : ∀ {versionNumber : Int}, versionNumber ≤ count →
          call = .getVersion ruleId versionNumber ∨ call = .diff ruleId versionNumber →
          ∃ store ∈ moments, response = (request python collation ownerId call store).1 := by
        intro versionNumber isThere isCall
        refine ⟨first, List.mem_of_head? isFirst, ?_⟩
        rw [isReported, request_history collation history owned.isRead]
        exact owned.readWith_eq_of_le owned' advanced isThere isCall
      cases history using RuleCall.ReadsHistory.cases with
      | listVersions limit offset =>
          apply atLast
          rintro reported ⟨positive, low, high⟩
          simp only [RuleCall.Mixes, not_and, not_or] at notHere
          by_cases same : count = count'
          · rw [same]
          · obtain ⟨notNewest, notCurrent⟩ := notHere same
            refine iff_of_false ?_ ?_
            · rintro rfl
              exact notCurrent low high
            · rintro rfl
              exact notNewest (by omega) (by omega)
      | getVersion versionNumber =>
          by_cases isThere : versionNumber ≤ count
          · exact atFirst isThere (.inl rfl)
          · apply atLast
            rintro reported ⟨rfl, _, _⟩
            refine iff_of_false (by omega) fun isNewest => ?_
            exact notHere ⟨by omega, isNewest⟩
      | diff versionNumber =>
          by_cases isThere : versionNumber ≤ count
          · exact atFirst isThere (.inr rfl)
          · apply atLast
            rintro reported ⟨rfl, _, _⟩
            refine iff_of_false (by omega) fun isNewest => ?_
            exact notHere ⟨by omega, isNewest⟩

/-- The versions of the last moment are reported, and the version is marked that was the
current one at the first moment. -/
theorem Answered.marked
    (answered : Answered python ownerId ruleId call response moments)
    (history : call.ReadsHistory ruleId)
    {first last : RuleStore}
    {before : Int}
    (isFirst : moments.head? = some first)
    (isLast : moments.getLast? = some last)
    (wasCurrent : CurrentNumber first ruleId before)
    (collation : Collation) :
    response = (request python collation ownerId call last).1.map (Response.mark before) := by
  cases answered with
  | unread _ => simp at isFirst
  | refused isError isResponse =>
      rw [← Option.some.inj isLast, List.getLast_singleton, ← isResponse collation, isError]
      rfl
  | reported isFirst' isLast' advanced owned owned' isReported =>
      obtain rfl := Option.some.inj (isFirst'.symm.trans isFirst)
      obtain rfl := Option.some.inj (isLast'.symm.trans isLast)
      obtain rfl := owned.currentNumber.unique wasCurrent
      rw [isReported, request_history collation history owned'.isRead]
      exact (owned.marks advanced).readWith_eq (owned.isId.trans owned'.isId.symm) _ history

end Mixes

/-! ## Runs -/

/-- The database was there between the first and the last query of the call. -/
def Between (moments : List RuleDb) (db : RuleDb) : Prop :=
  (∀ first, moments.head? = some first → first.Becomes db) ∧
    ∀ last, moments.getLast? = some last → db.Becomes last

/-- The response is what the call, served alone, returns on tables that were committed
between its first and its last query. -/
def SnapshotConsistent (python : Interpreter) (collation : Collation) (ownerId : UUID)
    (call : RuleCall python) (moments : List RuleDb) (response : Except ServiceError Response) :
    Prop :=
  ∃ db, Between moments db ∧
    (request python collation ownerId call (db.committed (schema collation))).1 = response

section Runs

variable
    {python : Interpreter}
    {collation : Collation}
    {clock : Nat}
    {pid : ProcId}
    {ruleId ownerId : UUID}
    {call : RuleCall python}
    {moments : List RuleDb}
    {response : Except ServiceError Response}

theorem recorded_committed
    {db : RuleDb}
    (isInitial : db.initial = RuleStore.empty)
    (satisfied : CommitsSatisfy (advancing python collation) RuleStore.empty db.log) :
    Recorded python (db.committed (schema collation)) := by
  rw [Db.committed, isInitial]
  exact recorded_replay satisfied

/-- What is committed at the moments of a call. -/
theorem served_moments
    (served : ServedAt (schema collation) .database serveMapped (Db.start RuleStore.empty clock)
      pid (ownerId, call) moments response) :
    (moments.map (Db.committed (schema collation))).Pairwise (Advanced python) ∧
      ∀ store ∈ moments.map (Db.committed (schema collation)), Recorded python store := by
  obtain ⟨inOrder, facts⟩ := served.satisfied (outlined_serveMapped python collation)
  constructor
  · rw [List.pairwise_map]
    apply inOrder.imp_of_mem
    intro db db' _ isMoment becomes
    obtain ⟨isInitial, satisfied⟩ := facts db' isMoment
    rw [← isInitial] at satisfied
    exact advanced_of_becomes satisfied becomes
  · intro store isMoment
    obtain ⟨db, isHere, rfl⟩ := List.mem_map.mp isMoment
    obtain ⟨isInitial, satisfied⟩ := facts db isHere
    exact recorded_committed isInitial satisfied

theorem answered_of_served
    (served : ServedAt (schema collation) .database serveMapped (Db.start RuleStore.empty clock)
      pid (ownerId, call) moments response)
    (history : call.ReadsHistory ruleId)
    (returned : response ≠ .error .database) :
    Answered python ownerId ruleId call response
      (moments.map (Db.committed (schema collation))) := by
  obtain ⟨inOrder, recorded⟩ := served_moments served
  have queries : (serveMapped (ownerId, call)).Only (IsQueryOf (schema collation)) :=
    (queries_serveMapped history.onlyReads).mono fun _ => isQueryOf_of_isQuery
  exact answered_of_sees history (served.sees queries) returned inOrder recorded

/-- A response belongs to one snapshot exactly if its call does not mix two versions. -/
theorem snapshotConsistent_iff
    (served : ServedAt (schema collation) .database serveMapped (Db.start RuleStore.empty clock)
      pid (ownerId, call) moments response)
    (history : call.ReadsHistory ruleId)
    (returned : response ≠ .error .database) :
    SnapshotConsistent python collation ownerId call moments response ↔
      ∀ first last before after, moments.head? = some first → moments.getLast? = some last →
        CurrentNumber (first.committed (schema collation)) ruleId before →
        CurrentNumber (last.committed (schema collation)) ruleId after →
        ¬call.Mixes before after := by
  have answered := answered_of_served served history returned
  obtain ⟨inOrder, facts⟩ := served.satisfied (outlined_serveMapped python collation)
  obtain ⟨_, recorded⟩ := served_moments served
  constructor
  · rintro ⟨db, ⟨since, until'⟩, isResponse⟩ first last before after isFirst isLast
    have becomes := until' last isLast
    obtain ⟨isInitial, satisfied⟩ := facts last (List.mem_of_getLast? isLast)
    have sameInitial : db.initial = RuleStore.empty := becomes.1.symm.trans isInitial
    have satisfiedStore : CommitsSatisfy (advancing python collation) RuleStore.empty db.log := by
      obtain ⟨_, events, isLog⟩ := becomes
      rw [← isLog] at satisfied
      exact satisfied.of_append
    have recordedStore := recorded_committed sameInitial satisfiedStore
    rw [← isInitial] at satisfied
    rw [← sameInitial] at satisfiedStore
    exact answered.not_mixes history recorded recordedStore isResponse.symm
      (by rw [List.head?_map, isFirst]; rfl) (by rw [List.getLast?_map, isLast]; rfl)
      (advanced_of_becomes satisfiedStore (since first isFirst))
      (advanced_of_becomes satisfied becomes)
  · intro notMixed
    rcases answered.of_not_mixes history (fun isFirst isLast wasCurrent isCurrent => by
        rw [List.head?_map, Option.map_eq_some_iff] at isFirst
        rw [List.getLast?_map, Option.map_eq_some_iff] at isLast
        obtain ⟨first, isFirst, rfl⟩ := isFirst
        obtain ⟨last, isLast, rfl⟩ := isLast
        exact notMixed first last _ _ isFirst isLast wasCurrent isCurrent) collation with
      ⟨isNil, isResponse⟩ | ⟨store, isMoment, isResponse⟩
    · rw [List.map_eq_nil_iff] at isNil
      subst isNil
      exact ⟨Db.start RuleStore.empty 0, ⟨by simp, by simp⟩, (isResponse _).symm⟩
    · obtain ⟨db, isHere, rfl⟩ := List.mem_map.mp isMoment
      have isNonempty := List.ne_nil_of_mem isHere
      refine ⟨db, ⟨fun first isFirst => ?_, fun last isLast => ?_⟩, isResponse.symm⟩
      · rw [List.head?_eq_some_head isNonempty] at isFirst
        rw [← Option.some.inj isFirst]
        exact inOrder.rel_head isHere
      · rw [List.getLast?_eq_some_getLast isNonempty] at isLast
        rw [← Option.some.inj isLast]
        exact inOrder.rel_getLast isHere

/-- What a call returns that reads the versions of a rule while it is revised: the
response of the call alone at its last query, except that the marked version is the
current one of its first query.  The response belongs to a single moment exactly if the
call does not mix the two. -/
theorem history_reads
    (served : ServedAt (schema collation) .database serveMapped (Db.start RuleStore.empty clock)
      pid (ownerId, call) moments response)
    (history : call.ReadsHistory ruleId)
    (returned : response ≠ .error .database) :
    (∀ first last before, moments.head? = some first → moments.getLast? = some last →
      CurrentNumber (first.committed (schema collation)) ruleId before →
      response = (request python collation ownerId call (last.committed (schema collation))).1.map
        (Response.mark before)) ∧
    (SnapshotConsistent python collation ownerId call moments response ↔
      ∀ first last before after, moments.head? = some first → moments.getLast? = some last →
        CurrentNumber (first.committed (schema collation)) ruleId before →
        CurrentNumber (last.committed (schema collation)) ruleId after →
        ¬call.Mixes before after) := by
  refine ⟨fun first last before isFirst isLast wasCurrent => ?_,
    snapshotConsistent_iff served history returned⟩
  exact (answered_of_served served history returned).marked history
    (by rw [List.head?_map, isFirst]; rfl) (by rw [List.getLast?_map, isLast]; rfl) wasCurrent
    collation

/-- A draft that is returned while its rule is revised is that of the first query.  Its
version, which stays as it is, was the current one then, and its title is that of its
snapshot. -/
theorem draft_reads
    {body : RuleDraft}
    (served : ServedAt (schema collation) .database serveMapped (Db.start RuleStore.empty clock)
      pid (ownerId, (.get ruleId : RuleCall python)) moments (.ok (.draft body))) :
    ∃ first rule version, moments.head? = some first ∧
      (first.committed (schema collation)).rule ruleId = some rule ∧
      rule.currentVersionId = some version.id ∧ version.ruleId = ruleId ∧
      (∀ db ∈ moments, (db.committed (schema collation)).version version.id = some version) ∧
      body.id = ruleId.str ∧ body.ruleUid = rule.ruleUid ∧ body.title = rule.title ∧
      body.versionId = version.id.str ∧ body.versionNumber = version.versionNumber ∧
      decodeStoredRuleSnapshot python version.sigmaYaml = .ok body.sigma ∧
      snapshotTitle body.sigma = some body.title ∧
      request python collation ownerId (.get ruleId) (first.committed (schema collation)) =
        (.ok (.draft body), first.committed (schema collation)) := by
  obtain ⟨inOrder, recorded⟩ := served_moments served
  have queries : (serveMapped (ownerId, (.get ruleId : RuleCall python))).Only
      (IsQueryOf (schema collation)) :=
    (queries_serveMapped (show (.get ruleId : RuleCall python).OnlyReads from trivial)).mono
      fun _ => isQueryOf_of_isQuery
  obtain ⟨result, isResponse, seen⟩ := seen_serveMapped rfl (served.sees queries)
  have notDatabase : result ≠ .error .database := by
    rintro rfl
    contradiction
  rcases seen_twice (fun _ _ => oneQuery_draftRest) rfl seen notDatabase with
    ⟨_, _, _, rfl⟩ | ⟨first, last, rule, id, isMoments, isRead, rfl⟩
  · contradiction
  · obtain ⟨firstDb, _, rfl, rfl, isRest⟩ := List.map_eq_cons_iff.mp isMoments
    obtain ⟨lastDb, _, rfl, rfl, isNil⟩ := List.map_eq_cons_iff.mp isRest
    obtain rfl := List.map_eq_nil_iff.mp isNil
    have advanced : Advanced python (firstDb.committed (schema collation))
        (lastDb.committed (schema collation)) := by simpa using inOrder
    obtain ⟨current, count, draft, rfl, owned⟩ :=
      (recorded _ List.mem_cons_self).ownedChain_of_read isRead
    obtain ⟨isId, isRow, _⟩ := RuleStore.ownedRule_eq_some_iff.mp owned.isOwned
    obtain ⟨isStored, sameRule⟩ := RuleStore.mem_versionList.mp owned.isListed
    have isStored' : (lastDb.committed (schema collation)).version current.id = some current :=
      RuleStore.version_eq_some_iff.mpr ⟨rfl, advanced.lookup_version isStored⟩
    rw [evaluate_draftRest, isStored', owned.draftBody_eq] at isResponse
    obtain rfl := Response.draft.inj (Except.ok.inj isResponse)
    refine ⟨firstDb, rule, current, rfl, RuleStore.rule_eq_some_iff.mpr ⟨isId, isRow⟩,
      owned.isCurrent, sameRule, ?_, rfl, rfl, rfl, rfl, owned.isLast.symm, ?_, owned.describes,
      request_get_iff.mpr owned.evaluate_draft⟩
    · intro db isMoment
      rcases List.mem_pair.mp isMoment with rfl | rfl
      · exact owned.isStored
      · exact isStored'
    · rw [owned.isDraft]
      exact decode_sigmaYaml draft

end Runs

/-! ## A revision between two queries -/

/-- The row of the small draft. -/
def oneDraftRule : DetectionRule :=
  ⟨described (newRule Draft.sample 5 (.sample 1)) Draft.sample 2, 1⟩

theorem oneDraft_rule : oneDraft.rule 1 = some oneDraftRule :=
  RuleStore.rule_eq_some_iff.mpr ⟨rfl, oneDraft_revisable.isRule⟩

/-- A call that gets the rule with its first query, and makes one more query, may be
served so that the rule is revised in between. -/
theorem served_while_revised
    {call : RuleCall .coarse}
    {response : Response}
    (statement : Statement)
    (answer : Answer statement)
    {next : Except ServiceError (Option DetectionRule) → Service Response}
    {last : Except ServiceError (Answer statement) → Service Response}
    (isProgram : serveMapped (5, call) = .call (.execute (.getRule 1)) next)
    (isNext : next (.ok (some oneDraftRule)) = .call (.execute statement) last)
    (isLast : last (.ok answer) = .ret response)
    (isQuery : IsQueryOf (schema .codePoints) (.execute statement))
    (isAnswer : ((schema .codePoints).effect statement twoVersions).answer = some answer) :
    ∃ first second : RuleDb, first.committed (schema .codePoints) = oneDraft ∧
      second.committed (schema .codePoints) = twoVersions ∧
      ServedAt (schema .codePoints) .database serveMapped (Db.start RuleStore.empty 0) 1 (5, call)
        [first, second] (.ok response) := by
  -- one process creates the draft
  have start : Reachable (ruleMachine .coarse .codePoints) serveMapped
      (Db.start RuleStore.empty 0) (.initial (Db.start RuleStore.empty 0)) := .refl
  obtain ⟨created, steps, others, isCommitted, noHolder, isClock⟩ :=
    steps_of_writing 0 start (getsNoRule_create 5 Draft.sample (.sample 1)) rfl (fun _ => rfl) rfl
  have isOneDraft : created.shared.committed (schema .codePoints) = oneDraft := by
    change _ = (request .coarse .codePoints 5 (.create Draft.sample (.sample 1))
      RuleStore.empty).2 at isCommitted
    rw [isCommitted, request_oneDraft]
  -- the reading process starts
  have isIdle : created.process 1 = none := others 1 (by decide)
  let opened : Config ServiceError (SessionAnswer Answer) (UUID × RuleCall .coarse) RuleDb
      Response := ⟨created.shared,
    Function.update created.process 1 (some ((5, call), .running (serveMapped (5, call))))⟩
  have isStarted : opened.process 1 = some ((5, call), .running (serveMapped (5, call))) :=
    Function.update_self 1 _ created.process
  have reachable : Reachable (ruleMachine .coarse .codePoints) serveMapped
      (Db.start RuleStore.empty 0) opened := steps.tail (.start 1 (5, call) isIdle)
  have isFresh : SigmaForge.Fresh serveMapped (opened.process 1) := by
    rw [isStarted]
    rfl
  have untouched : Untouched 1 opened.shared := untouched_of_fresh reachable isFresh
  have isOpened := isStarted
  rw [isProgram] at isOpened
  -- it gets the rule
  have isRule : ((schema .codePoints).effect (.getRule 1)
      (opened.shared.committed (schema .codePoints))).answer = some (some oneDraftRule) := by
    change some ((created.shared.committed (schema .codePoints)).rule 1) = _
    rw [isOneDraft, oneDraft_rule]
  have getsRule : IsQueryOf (schema .codePoints) (.execute (.getRule 1)) := fun _ => ⟨rfl, rfl⟩
  let got : Config ServiceError (SessionAnswer Answer) (UUID × RuleCall .coarse) RuleDb
      Response := ⟨opened.shared,
    Function.update opened.process 1 (some ((5, call), .running (next (.ok (some oneDraftRule)))))⟩
  have isGot : got.process 1 = some ((5, call), .running (.call (.execute statement) last)) := by
    rw [← isNext]
    exact Function.update_self 1 _ opened.process
  have reachableGot : Reachable (ruleMachine .coarse .codePoints) serveMapped
      (Db.start RuleStore.empty 0) got :=
    reachable.trans (PerformsAt.query isOpened getsRule untouched.1 isRule (.refl got)).steps
  -- another process revises it
  have isIdle' : got.process 2 = none := by
    simp only [got, opened, Function.update_of_ne (show (2 : ProcId) ≠ 1 by decide)]
    exact others 2 (by decide)
  obtain ⟨revised, steps', others', isCommitted', _⟩ :=
    steps_of_writing 2 reachableGot (getsNoRule_revise 5 1 9 1 Draft.allOfNot) isIdle' noHolder
      isClock
  have isTwoVersions : revised.shared.committed (schema .codePoints) = twoVersions := by
    change _ = (request .coarse .codePoints 5 (.revise 1 1 Draft.allOfNot 9)
      (created.shared.committed (schema .codePoints))).2 at isCommitted'
    rw [isCommitted', isOneDraft, request_twoVersions]
  have unmoved : revised.process 1 = got.process 1 := others' 1 (by decide)
  have otherSteps := otherSteps_of_steps steps' isGot unmoved
  -- the reading process makes its second query
  rw [← isTwoVersions] at isAnswer
  have nothingPending : revised.shared.pending 1 = [] :=
    (pending_of_others otherSteps).trans untouched.1
  refine ⟨opened.shared, revised.shared, isOneDraft, isTwoVersions, opened, _,
    .running (last (.ok answer)), reachable, isStarted,
    PerformsAt.query isOpened getsRule untouched.1 isRule (PerformsAt.of_others otherSteps
      (PerformsAt.query (unmoved.trans isGot) isQuery nothingPending isAnswer (.refl _))),
    Function.update_self 1 _ revised.process, ?_⟩
  rw [isLast]
  rfl

/-- The newest of the two versions is listed first. -/
theorem twoVersions_versionList :
    ∃ older, twoVersions.versionList 1 = ⟨newVersion 1 2 Draft.allOfNot 5, 9⟩ :: older := by
  obtain ⟨config, reachable, isCommitted⟩ := reachable_twoVersions
  have recorded := recorded_of_reachable reachable
  rw [isCommitted] at recorded
  have isRow := twoVersions_appended.lookup_rule
  have isVersion := twoVersions_appended.lookup_new
  have isOwned : twoVersions.ownedRule 5 1 = some
      ⟨described (described (newRule Draft.sample 5 (.sample 1)) Draft.sample 2)
        Draft.allOfNot 9, 1⟩ := RuleStore.ownedRule_eq_some_iff.mpr ⟨rfl, isRow, rfl⟩
  obtain ⟨current, count, draft, owned⟩ := recorded.ownedChain isOwned
  obtain ⟨older, isList, _⟩ := owned.versionList_eq
  have isId : (9 : UUID) = current.id := Option.some.inj owned.isCurrent
  obtain ⟨isStored, _⟩ := RuleStore.mem_versionList.mp owned.isListed
  rw [← isId, isVersion] at isStored
  have isCurrent : current = ⟨newVersion 1 2 Draft.allOfNot 5, 9⟩ := by
    obtain ⟨columns, id⟩ := current
    obtain rfl := isId
    rw [Option.some.inj isStored]
  exact ⟨older, isCurrent ▸ isList⟩

/-- The first page of the versions, when the rule is revised after it was read. -/
def revisedPage : RuleVersionPage :=
  versionsBody oneDraftRule 2 (((twoVersions.versionList 1).drop 0).take 21) 20 0

theorem listed_while_revised :
    ∃ first second : RuleDb, first.committed (schema .codePoints) = oneDraft ∧
      second.committed (schema .codePoints) = twoVersions ∧
      ServedAt (schema .codePoints) .database serveMapped (Db.start RuleStore.empty 0) 1
        (5, (.listVersions 1 20 0 : RuleCall .coarse)) [first, second]
        (.ok (.versions revisedPage)) :=
  served_while_revised (.selectVersions 1 0 21) (((twoVersions.versionList 1).drop 0).take 21)
    rfl rfl rfl (fun _ => ⟨rfl, rfl⟩) rfl

theorem oneDraft_currentNumber : CurrentNumber oneDraft 1 1 :=
  oneDraft_revises.currentNumber

theorem twoVersions_currentNumber : CurrentNumber twoVersions 1 2 :=
  twoVersions_appended.currentNumber

/-- A page that reports the new version, and the previous one as the current one. -/
theorem revisedPage_mixed :
    ∃ (moments : List RuleDb) (newest : RuleVersionItem),
      ServedAt (schema .codePoints) .database serveMapped (Db.start RuleStore.empty 0) 1
        (5, (.listVersions 1 20 0 : RuleCall .coarse)) moments (.ok (.versions revisedPage)) ∧
      revisedPage.items.head? = some newest ∧ newest.versionNumber = 2 ∧
      newest.isCurrent = false ∧
      ¬SnapshotConsistent .coarse .codePoints 5 (.listVersions 1 20 0) moments
        (.ok (.versions revisedPage)) := by
  obtain ⟨first, second, isOneDraft, isTwoVersions, served⟩ := listed_while_revised
  obtain ⟨older, isList⟩ := twoVersions_versionList
  refine ⟨[first, second], ⟨UUID.str 9, 2, false⟩, served, ?_, rfl, rfl, fun consistent => ?_⟩
  · rw [revisedPage, isList]
    rfl
  · have mixesNot := (snapshotConsistent_iff served rfl (by simp)).mp consistent first second 1 2
      rfl rfl (isOneDraft ▸ oneDraft_currentNumber) (isTwoVersions ▸ twoVersions_currentNumber)
    exact mixesNot ⟨by decide, .inl ⟨rfl, by decide⟩⟩

theorem revisedPage_history_reads :
    ∃ moments : List RuleDb,
      ServedAt (schema .codePoints) .database serveMapped (Db.start RuleStore.empty 0) 1
        (5, (.listVersions 1 20 0 : RuleCall .coarse)) moments (.ok (.versions revisedPage)) ∧
      (.listVersions 1 20 0 : RuleCall .coarse).ReadsHistory 1 ∧
      (.ok (.versions revisedPage) : Except ServiceError Response) ≠ .error .database ∧
      (∀ first last before, moments.head? = some first → moments.getLast? = some last →
        CurrentNumber (first.committed (schema .codePoints)) 1 before →
        .ok (.versions revisedPage) = (request .coarse .codePoints 5 (.listVersions 1 20 0)
          (last.committed (schema .codePoints))).1.map (Response.mark before)) ∧
      (SnapshotConsistent .coarse .codePoints 5 (.listVersions 1 20 0) moments
          (.ok (.versions revisedPage)) ↔
        ∀ first last before after, moments.head? = some first → moments.getLast? = some last →
          CurrentNumber (first.committed (schema .codePoints)) 1 before →
          CurrentNumber (last.committed (schema .codePoints)) 1 after →
          ¬(.listVersions 1 20 0 : RuleCall .coarse).Mixes before after) := by
  obtain ⟨first, second, _, _, served⟩ := listed_while_revised
  exact ⟨[first, second], served, rfl, by simp, history_reads served rfl (by simp)⟩

/-- The draft as it was before its rule is revised. -/
def readDraft : RuleDraft where
  id := UUID.str 1
  ruleUid := oneDraftRule.ruleUid
  title := oneDraftRule.title
  versionId := UUID.str 2
  versionNumber := 1
  sigma := Draft.sample.request.modelDump.sortKeys
  validationLevel := structuralOnly

theorem read_while_revised :
    ∃ first second : RuleDb, first.committed (schema .codePoints) = oneDraft ∧
      second.committed (schema .codePoints) = twoVersions ∧
      ServedAt (schema .codePoints) .database serveMapped (Db.start RuleStore.empty 0) 1
        (5, (.get 1 : RuleCall .coarse)) [first, second] (.ok (.draft readDraft)) := by
  have isVersion : twoVersions.version 2 = some ⟨newVersion 1 1 Draft.sample 5, 2⟩ :=
    RuleStore.version_eq_some_iff.mpr ⟨rfl, twoVersions_first⟩
  refine served_while_revised (.getVersion 2) (some ⟨newVersion 1 1 Draft.sample 5, 2⟩) rfl rfl ?_
    (fun _ => ⟨rfl, rfl⟩) (congrArg some isVersion)
  have isDecoded : decodeSnapshot .coarse (sigmaYaml Draft.sample) =
      .ret Draft.sample.request.modelDump.sortKeys := by
    rw [decodeSnapshot, decode_sigmaYaml]
    rfl
  -- the snapshot is not to be computed
  unfold newVersion
  generalize sigmaYaml Draft.sample = serialized at isDecoded
  change (Program.cached identityMap (((decodeSnapshot .coarse serialized).bind _).bind _) _).bind
    _ = _
  rw [isDecoded]
  rfl

theorem readDraft_draft_reads :
    ∃ moments : List RuleDb,
      ServedAt (schema .codePoints) .database serveMapped (Db.start RuleStore.empty 0) 1
        (5, (.get 1 : RuleCall .coarse)) moments (.ok (.draft readDraft)) ∧
      ∃ first rule version, moments.head? = some first ∧
        (first.committed (schema .codePoints)).rule 1 = some rule ∧
        rule.currentVersionId = some version.id ∧ version.ruleId = 1 ∧
        (∀ db ∈ moments, (db.committed (schema .codePoints)).version version.id = some version) ∧
        readDraft.id = UUID.str 1 ∧ readDraft.ruleUid = rule.ruleUid ∧
        readDraft.title = rule.title ∧ readDraft.versionId = version.id.str ∧
        readDraft.versionNumber = version.versionNumber ∧
        decodeStoredRuleSnapshot .coarse version.sigmaYaml = .ok readDraft.sigma ∧
        snapshotTitle readDraft.sigma = some readDraft.title ∧
        request .coarse .codePoints 5 (.get 1) (first.committed (schema .codePoints)) =
          (.ok (.draft readDraft), first.committed (schema .codePoints)) := by
  obtain ⟨first, second, _, _, served⟩ := read_while_revised
  exact ⟨[first, second], served, draft_reads served⟩

end Detection
end SigmaForge
