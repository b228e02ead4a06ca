import SigmaForge.Detection.Agreement
import SigmaForge.Detection.Seen

/-!
# Reads between commits

What a reading operation returns when drafts are created and revised between its
queries.
-/

namespace SigmaForge
namespace Detection

open Text Json ReadCommitted

/-! ## Later tables -/

/-- The tables have become the other ones by commits. -/
def Advanced (python : Interpreter) : RuleStore → RuleStore → Prop :=
  Relation.ReflTransGen fun before after =>
    ∃ writes, Advances python before writes ∧ after = writes.foldl RuleStore.apply before

section Advanced

variable
    {python : Interpreter}
    {collation : Collation}
    {store later : RuleStore}
    {ruleId ownerId : UUID}

theorem advanced_of_becomes
    {db db' : RuleDb}
    (satisfied : CommitsSatisfy (advancing python collation) db'.initial db'.log)
    (becomes : db.Becomes db') :
    Advanced python (db.committed (schema collation)) (db'.committed (schema collation)) := by
  obtain ⟨sameInitial, events, isLog⟩ := becomes
  unfold Db.committed
  rw [← isLog] at satisfied ⊢
  rw [sameInitial] at satisfied ⊢
  apply satisfied.kept (schema collation)
    (Advanced python (replay (schema collation) db.initial db.log))
  · exact fun _ _ writes advances advanced => advanced.tail ⟨writes, advances, rfl⟩
  · exact .refl

theorem Advanced.lookup_version
    (advanced : Advanced python store later)
    {id : UUID}
    {version : VersionColumns}
    (isFound : store.versions.lookup id = some version) :
    later.versions.lookup id = some version := by
  induction advanced with
  | refl => exact isFound
  | tail _ step inductionHypothesis =>
      obtain ⟨writes, advances, rfl⟩ := step
      exact advances.lookup_version inductionHypothesis

theorem Advanced.mem_versionList
    (advanced : Advanced python store later)
    {version : DetectionRuleVersion}
    (isListed : version ∈ store.versionList ruleId) :
    version ∈ later.versionList ruleId := by
  obtain ⟨isStored, sameRule⟩ := RuleStore.mem_versionList.mp isListed
  exact RuleStore.mem_versionList.mpr ⟨advanced.lookup_version isStored, sameRule⟩

/-- A commit neither removes a rule nor changes its owner. -/
theorem Advances.lookup_rule
    {writes : List Write}
    (advances : Advances python store writes)
    {id : UUID}
    {rule : RuleColumns}
    (isRule : store.rules.lookup id = some rule) :
    ∃ rule', (writes.foldl RuleStore.apply store).rules.lookup id = some rule' ∧
      rule'.ownerId = rule.ownerId := by
  cases advances with
  | create draft owner ids creates =>
      have different : id ≠ ids.ruleId := by
        rintro rfl
        exact creates.ruleNew (Finmap.mem_of_lookup_eq_some isRule)
      refine ⟨rule, ?_, rfl⟩
      rw [(creates.appended draft owner).rules, Finmap.lookup_insert_of_ne _ different, isRule]
  | @revise draft revised owner version before previous revises _ =>
      rw [(revises.appended draft).rules]
      by_cases isRevised : id = revised
      · subst isRevised
        obtain rfl : before = rule := Option.some.inj (revises.isRule.symm.trans isRule)
        exact ⟨_, Finmap.lookup_insert _, rfl⟩
      · exact ⟨rule, by rw [Finmap.lookup_insert_of_ne _ isRevised, isRule], rfl⟩

theorem Advanced.ownedRule
    (advanced : Advanced python store later)
    {rule : DetectionRule}
    (isOwned : store.ownedRule ownerId ruleId = some rule) :
    ∃ rule', later.ownedRule ownerId ruleId = some rule' := by
  obtain ⟨_, isRule, isOwner⟩ := RuleStore.ownedRule_eq_some_iff.mp isOwned
  have isKept : ∃ rule', later.rules.lookup ruleId = some rule' ∧ rule'.ownerId = ownerId := by
    induction advanced with
    | refl => exact ⟨_, isRule, isOwner⟩
    | tail _ step inductionHypothesis =>
        obtain ⟨writes, advances, rfl⟩ := step
        obtain ⟨rule', isRule', isOwner'⟩ := inductionHypothesis
        obtain ⟨rule'', isRule'', sameOwner⟩ := advances.lookup_rule isRule'
        exact ⟨rule'', isRule'', sameOwner.trans isOwner'⟩
  obtain ⟨rule', isRule', isOwner'⟩ := isKept
  exact ⟨⟨rule', ruleId⟩, RuleStore.ownedRule_eq_some_iff.mpr ⟨rfl, isRule', isOwner'⟩⟩

end Advanced

/-! ## A chain and its later versions -/

section Chains

variable
    {python : Interpreter}
    {collation : Collation}
    {store later : RuleStore}
    {ruleId ownerId : UUID}
    {rule rule' : DetectionRule}
    {current current' : DetectionRuleVersion}
    {count count' : Int}
    {draft draft' : Draft python}

theorem OwnedChain.currentNumber
    (owned : OwnedChain store ruleId ownerId rule current count draft) :
    CurrentNumber store ruleId count := by
  obtain ⟨_, isRule, _⟩ := RuleStore.ownedRule_eq_some_iff.mp owned.isOwned
  exact ⟨rule.toRuleColumns, current.id, current.toVersionColumns, isRule, owned.isCurrent,
    (RuleStore.mem_versionList.mp owned.isListed).1, owned.isLast⟩

/-- A chain does not get shorter. -/
theorem OwnedChain.count_le
    (owned : OwnedChain store ruleId ownerId rule current count draft)
    (owned' : OwnedChain later ruleId ownerId rule' current' count' draft')
    (advanced : Advanced python store later) :
    count ≤ count' := by
  rw [← owned.isLast]
  exact ((owned'.chain.mem_versionNumbers _).mp
    (List.mem_map.mpr ⟨current, advanced.mem_versionList owned.isListed, rfl⟩)).2

/-- The versions that were there are found later, too. -/
theorem OwnedChain.findVersion_eq
    (owned : OwnedChain store ruleId ownerId rule current count draft)
    (owned' : OwnedChain later ruleId ownerId rule' current' count' draft')
    (advanced : Advanced python store later)
    {number : Int}
    (isThere : number ≤ count) :
    findVersion store ruleId number = findVersion later ruleId number := by
  unfold findVersion
  congr 2
  ext version
  rw [RuleStore.find?_versionList_iff, RuleStore.find?_versionList_iff]
  constructor
  · exact fun found => ⟨advanced.mem_versionList found.1, found.2⟩
  · rintro ⟨isListed, isNumber⟩
    have isPositive : 1 ≤ number :=
      ((owned'.chain.mem_versionNumbers number).mp
        (List.mem_map.mpr ⟨version, isListed, isNumber⟩)).1
    obtain ⟨version', isListed', isNumber'⟩ :=
      List.mem_map.mp ((owned.chain.mem_versionNumbers number).mpr ⟨isPositive, isThere⟩)
    have isFound := RuleStore.find?_versionList_iff.mpr ⟨isListed, isNumber⟩
    rw [RuleStore.find?_versionList_iff.mpr ⟨advanced.mem_versionList isListed', isNumber'⟩]
      at isFound
    obtain rfl := Option.some.inj isFound
    exact ⟨isListed', isNumber'⟩

/-- The id marks the version with the number. -/
def Marks (store : RuleStore) (ruleId id : UUID) (number : Int) : Prop :=
  ∀ version ∈ store.versionList ruleId, version.id = id ↔ version.versionNumber = number

/-- What was the current version can be told by its number. -/
theorem OwnedChain.marks
    (owned : OwnedChain store ruleId ownerId rule current count draft)
    (advanced : Advanced python store later) :
    Marks later ruleId current.id count := by
  intro version isListed
  obtain ⟨isStored, sameRule⟩ := RuleStore.mem_versionList.mp isListed
  obtain ⟨isStored', sameRule'⟩ :=
    RuleStore.mem_versionList.mp (advanced.mem_versionList owned.isListed)
  rw [← owned.isLast]
  constructor
  · intro sameId
    rw [sameId, isStored'] at isStored
    rw [Option.some.inj isStored]
  · intro sameNumber
    exact later.consistent.versionNumber isStored isStored' (sameRule.trans sameRule'.symm)
      sameNumber

end Chains

/-! ## The marks of a response -/

/-- The item, marked as the current one if it has the number. -/
def RuleVersionItem.mark (number : Int) (item : RuleVersionItem) : RuleVersionItem :=
  { item with isCurrent := item.versionNumber = number }

/-- The version, marked as the current one if it has the number. -/
def RuleVersion.mark (number : Int) (body : RuleVersion) : RuleVersion :=
  { body with isCurrent := body.versionNumber = number }

/-- The difference, marked as that of the current version if this has the number. -/
def RuleVersionDiff.mark (number : Int) (body : RuleVersionDiff) : RuleVersionDiff :=
  { body with isCurrent := body.versionNumber = number }

/-- The response with the version of the given number, and no other one, marked as the
current one. -/
def Response.mark (number : Int) : Response → Response
  | .versions body => .versions { body with items := body.items.map (·.mark number) }
  | .version body => .version (body.mark number)
  | .diff body => .diff (body.mark number)
  | response => response

/-- The response reports a version of the given number. -/
def Response.Reports (number : Int) : Response → Prop
  | .versions body => ∃ item ∈ body.items, item.versionNumber = number
  | .version body => body.versionNumber = number
  | .diff body => body.versionNumber = number
  | _ => False

/-- Versions that are not reported are not marked. -/
theorem Response.mark_congr
    {response : Response}
    {number number' : Int}
    (same : ∀ reported, response.Reports reported → (reported = number ↔ reported = number')) :
    response.mark number = response.mark number' := by
  cases response with
  | versions body =>
      have sameItems : body.items.map (·.mark number) = body.items.map (·.mark number') := by
        apply List.map_congr_left
        intro item isItem
        unfold RuleVersionItem.mark
        rw [decide_eq_decide.mpr (same _ ⟨item, isItem, rfl⟩)]
      simp only [mark, sameItems]
  | version body =>
      simp only [mark, RuleVersion.mark, decide_eq_decide.mpr (same _ rfl)]
  | diff body =>
      simp only [mark, RuleVersionDiff.mark, decide_eq_decide.mpr (same _ rfl)]
  | receipt body => rfl
  | draft body => rfl
  | drafts body => rfl

/-- Where two marks agree, they mark the same of the reported versions. -/
theorem Response.eq_of_mark_eq
    {response response' : Response}
    {number number' reported : Int}
    (same : response.mark number = response'.mark number')
    (isReported : response.Reports reported) :
    response'.Reports reported ∧ (reported = number ↔ reported = number') := by
  cases response with
  | versions body =>
      cases response' with
      | versions body' =>
          obtain ⟨item, isItem, rfl⟩ := isReported
          have sameItems : body.items.map (·.mark number) = body'.items.map (·.mark number') :=
            congrArg RuleVersionPage.items (Response.versions.inj same)
          have isMarked : item.mark number ∈ body'.items.map (·.mark number') := by
            rw [← sameItems]
            exact List.mem_map.mpr ⟨item, isItem, rfl⟩
          obtain ⟨item', isItem', sameMark⟩ := List.mem_map.mp isMarked
          have sameNumber : (item'.mark number').versionNumber = (item.mark number).versionNumber :=
            congrArg RuleVersionItem.versionNumber sameMark
          change item'.versionNumber = item.versionNumber at sameNumber
          have sameFlag := congrArg RuleVersionItem.isCurrent sameMark
          refine ⟨⟨item', isItem', sameNumber⟩, ?_⟩
          rw [← sameNumber]
          simp only [RuleVersionItem.mark, sameNumber, decide_eq_decide] at sameFlag ⊢
          exact sameFlag.symm
      | _ => contradiction
  | version body =>
      cases response' with
      | version body' =>
          have sameNumber := congrArg RuleVersion.versionNumber (Response.version.inj same)
          have sameFlag := congrArg RuleVersion.isCurrent (Response.version.inj same)
          obtain rfl : body.versionNumber = reported := isReported
          simp only [RuleVersion.mark] at sameNumber sameFlag
          rw [← sameNumber, decide_eq_decide] at sameFlag
          exact ⟨sameNumber.symm, sameFlag⟩
      | _ => contradiction
  | diff body =>
      cases response' with
      | diff body' =>
          have sameNumber := congrArg RuleVersionDiff.versionNumber (Response.diff.inj same)
          have sameFlag := congrArg RuleVersionDiff.isCurrent (Response.diff.inj same)
          obtain rfl : body.versionNumber = reported := isReported
          simp only [RuleVersionDiff.mark] at sameNumber sameFlag
          rw [← sameNumber, decide_eq_decide] at sameFlag
          exact ⟨sameNumber.symm, sameFlag⟩
      | _ => contradiction
  | receipt body => exact isReported.elim
  | draft body => exact isReported.elim
  | drafts body => exact isReported.elim

/-! ## The response and the last moment -/

/-- The call reads the versions of the rule. -/
def RuleCall.ReadsHistory {python : Interpreter} (ruleId : UUID) : RuleCall python → Prop
  | .listVersions ruleId' _ _ => ruleId' = ruleId
  | .getVersion ruleId' _ => ruleId' = ruleId
  | .diff ruleId' _ => ruleId' = ruleId
  | _ => False

/-- The calls that read the versions of a rule. -/
@[elab_as_elim]
theorem RuleCall.ReadsHistory.cases
    {python : Interpreter}
    {ruleId : UUID}
    {motive : (call : RuleCall python) → call.ReadsHistory ruleId → Prop}
    (listVersions : ∀ limit offset, motive (.listVersions ruleId limit offset) rfl)
    (getVersion : ∀ versionNumber, motive (.getVersion ruleId versionNumber) rfl)
    (diff : ∀ versionNumber, motive (.diff ruleId versionNumber) rfl)
    {call : RuleCall python}
    (history : call.ReadsHistory ruleId) :
    motive call history := by
  cases call with
  | listVersions ruleId' limit offset =>
      cases history
      exact listVersions limit offset
  | getVersion ruleId' versionNumber =>
      cases history
      exact getVersion versionNumber
  | diff ruleId' versionNumber =>
      cases history
      exact diff versionNumber
  | create draft ids => exact history.elim
  | get ruleId' => exact history.elim
  | list limit offset => exact history.elim
  | revise ruleId' expectedVersion draft versionId => exact history.elim

theorem RuleCall.ReadsHistory.onlyReads
    {python : Interpreter}
    {ruleId : UUID}
    {call : RuleCall python}
    (history : call.ReadsHistory ruleId) :
    call.OnlyReads := by
  cases call with
  | create draft ids => exact history
  | revise ruleId expectedVersion draft versionId => exact history
  | _ => trivial

/-- A version as it is read with the given rule row. -/
def readVersion (python : Interpreter) (store : RuleStore) (ruleId : UUID) (versionNumber : Int)
    (rule : DetectionRule) (currentVersionId : UUID) : Except ServiceError RuleVersion :=
  (findVersion store ruleId versionNumber).bind (versionBody python rule currentVersionId)

/-- What a call that reads the versions of a rule returns with the given rule row. -/
def RuleCall.readWith {python : Interpreter} (store : RuleStore) (rule : DetectionRule)
    (currentVersionId : UUID) : RuleCall python → Except ServiceError Response
  | .listVersions ruleId limit offset =>
      .ok (.versions (versionsBody rule currentVersionId
        (((store.versionList ruleId).drop offset).take (limit + 1)) limit offset))
  | .getVersion ruleId versionNumber =>
      (readVersion python store ruleId versionNumber rule currentVersionId).map .version
  | .diff ruleId versionNumber =>
      if 2 ≤ versionNumber then
        ((readVersion python store ruleId (versionNumber - 1) rule currentVersionId).bind
          fun previous =>
            (readVersion python store ruleId versionNumber rule currentVersionId).bind
              (diffBody ruleId versionNumber previous)).map .diff
      else .error (.http ⟨404, lit "Previous version not found"⟩)
  | _ => .error notFound

section Reading

variable
    {python : Interpreter}
    {collation : Collation}
    {store : RuleStore}
    {ruleId ownerId id : UUID}
    {rule rule' : DetectionRule}
    {number : Int}

/-- A version that is found has the number. -/
theorem versionNumber_of_found
    {currentVersionId : UUID}
    {body : RuleVersion}
    (isBody : readVersion python store ruleId number rule currentVersionId = .ok body) :
    body.versionNumber = number ∧ ∃ version ∈ store.versionList ruleId,
      version.versionNumber = number := by
  unfold readVersion findVersion at isBody
  split at isBody
  · cases isFound : (store.versionList ruleId).find?
        fun version => version.versionNumber = number with
    | none => simp [isFound, Except.bind, versionBody] at isBody
    | some version =>
        obtain ⟨isListed, isNumber⟩ := RuleStore.find?_versionList_iff.mp isFound
        refine ⟨?_, version, isListed, isNumber⟩
        rw [isFound] at isBody
        simp only [Except.bind, versionBody] at isBody
        split at isBody
        · contradiction
        · rename_i found isSame
          obtain rfl : version = found := Option.some.inj (Option.filter_eq_some_iff.mp isSame).1
          split at isBody
          · contradiction
          · rw [← Except.ok.inj isBody]
            exact isNumber
  · contradiction

/-- A version as it is marked with another id. -/
theorem Marks.readVersion_eq
    (marks : Marks store ruleId id number)
    (sameRule : rule.id = rule'.id)
    (id' : UUID)
    (versionNumber : Int) :
    readVersion python store ruleId versionNumber rule id =
      (readVersion python store ruleId versionNumber rule' id').map (·.mark number) := by
  unfold readVersion findVersion
  split
  · cases isFound : (store.versionList ruleId).find?
        fun version => version.versionNumber = versionNumber with
    | none => rfl
    | some version =>
        have isListed := (RuleStore.find?_versionList_iff.mp isFound).1
        simp only [Except.bind, versionBody, sameRule]
        split
        · rfl
        · rename_i found isSame
          obtain rfl : version = found := Option.some.inj (Option.filter_eq_some_iff.mp isSame).1
          cases decodeStoredRuleSnapshot python version.sigmaYaml with
          | error exception => rfl
          | ok sigma =>
              simp only [Except.map, RuleVersion.mark,
                decide_eq_decide.mpr (marks version isListed)]
  · rfl

/-- The difference, as it is marked with the number of another current version. -/
theorem diffBody_mark
    (ruleId : UUID)
    (number : Int)
    (previous current : RuleVersion) :
    diffBody ruleId current.versionNumber (previous.mark number) (current.mark number) =
      (diffBody ruleId current.versionNumber previous current).map (·.mark number) := by
  unfold diffBody RuleVersion.mark
  split
  · cases summarizeRuleVersionChanges previous.sigma current.sigma <;> rfl
  · rfl

/-- With another rule row, the same versions are returned with other marks. -/
theorem Marks.readWith_eq
    (marks : Marks store ruleId id number)
    (sameRule : rule.id = rule'.id)
    (id' : UUID)
    {call : RuleCall python}
    (history : call.ReadsHistory ruleId) :
    call.readWith store rule id = (call.readWith store rule' id').map (Response.mark number) := by
  cases history using RuleCall.ReadsHistory.cases with
  | listVersions limit offset =>
      simp only [RuleCall.readWith, Except.map, Response.mark, versionsBody, sameRule, List.map_map]
      congr 3
      apply List.map_congr_left
      intro version isListed
      have isListed' :=
        List.mem_of_mem_drop (List.mem_of_mem_take (List.mem_of_mem_take isListed))
      simp only [Function.comp_apply, RuleVersionItem.mark,
        decide_eq_decide.mpr (marks version isListed')]
  | getVersion versionNumber =>
      simp only [RuleCall.readWith]
      rw [marks.readVersion_eq sameRule id']
      cases readVersion python store ruleId versionNumber rule' id' <;> rfl
  | diff versionNumber =>
      simp only [RuleCall.readWith]
      split
      · rw [marks.readVersion_eq sameRule id', marks.readVersion_eq sameRule id' versionNumber]
        cases readVersion python store ruleId (versionNumber - 1) rule' id' with
        | error error => rfl
        | ok previous =>
            cases isBody : readVersion python store ruleId versionNumber rule' id' with
            | error error => rfl
            | ok body =>
                obtain ⟨rfl, _⟩ := versionNumber_of_found isBody
                simp only [Except.map, Except.bind]
                rw [diffBody_mark]
                cases diffBody ruleId body.versionNumber previous body <;> rfl
      · rfl

/-- The response to a call that reads and is served alone. -/
theorem request_fst
    {α : Type}
    (call : RuleCall python)
    {operation : Service α}
    {respond : α → Response}
    (onlyReads : call.OnlyReads)
    (isProgram : call.program ownerId = operation.bind fun body => .ret (respond body))
    (store : RuleStore) :
    (request python collation ownerId call store).1 =
      (operation.evaluate (onTables collation store)).map respond := by
  rw [request_of_reads onlyReads, isProgram, Program.evaluate_bind]
  cases operation.evaluate (onTables collation store) <;> rfl

/-- Alone, a call reads the rule row of the same tables. -/
theorem request_history
    (collation : Collation)
    {call : RuleCall python}
    (history : call.ReadsHistory ruleId)
    {currentVersionId : UUID}
    (isRead : readRule store ruleId ownerId = some (rule, currentVersionId)) :
    (request python collation ownerId call store).1 =
      call.readWith store rule currentVersionId := by
  cases history using RuleCall.ReadsHistory.cases with
  | listVersions limit offset =>
      rw [request_fst (.listVersions ruleId limit offset) trivial rfl,
        evaluate_listOwnedRuleVersions, isRead]
      rfl
  | getVersion versionNumber =>
      rw [request_fst (.getVersion ruleId versionNumber) trivial rfl,
        evaluate_getOwnedRuleVersion, isRead]
      rfl
  | diff versionNumber =>
      rw [request_fst (.diff ruleId versionNumber) trivial rfl, evaluate_diffOwnedRuleVersion,
        evaluate_getOwnedRuleVersion, evaluate_getOwnedRuleVersion, isRead]
      simp only [RuleCall.readWith]
      split <;> rfl

end Reading

/-! ## Chains that are read -/

section Chains

variable
    {python : Interpreter}
    {collation : Collation}
    {store later : RuleStore}
    {ruleId ownerId : UUID}
    {rule : DetectionRule}
    {current : DetectionRuleVersion}
    {count : Int}
    {draft : Draft python}

/-- The chain of a rule that has been read. -/
theorem Recorded.ownedChain_of_read
    (recorded : Recorded python store)
    {currentVersionId : UUID}
    (isRead : readRule store ruleId ownerId = some (rule, currentVersionId)) :
    ∃ current count, ∃ draft : Draft python, current.id = currentVersionId ∧
      OwnedChain store ruleId ownerId rule current count draft := by
  obtain ⟨isRule, isOwner, isCurrent⟩ := readRule_eq_some_iff.mp isRead
  obtain ⟨isId, isStored⟩ := RuleStore.rule_eq_some_iff.mp isRule
  obtain ⟨current, count, draft, owned⟩ :=
    recorded.ownedChain (RuleStore.ownedRule_eq_some_iff.mpr ⟨isId, isStored, isOwner⟩)
  exact ⟨current, count, draft, Option.some.inj (owned.isCurrent.symm.trans isCurrent), owned⟩

/-- A chain is there at any later moment. -/
theorem OwnedChain.persists
    (owned : OwnedChain store ruleId ownerId rule current count draft)
    (advanced : Advanced python store later)
    (recorded : Recorded python later) :
    ∃ rule' current' count', ∃ draft' : Draft python,
      OwnedChain later ruleId ownerId rule' current' count' draft' := by
  obtain ⟨rule', isOwned⟩ := advanced.ownedRule owned.isOwned
  obtain ⟨current', count', draft', owned'⟩ := recorded.ownedChain isOwned
  exact ⟨rule', current', count', draft', owned'⟩

/-- What a call returns that has seen the rule at the first moment, and versions until
the last one. -/
inductive Answered (python : Interpreter) (ownerId ruleId : UUID) (call : RuleCall python)
    (response : Except ServiceError Response) : List RuleStore → Prop
  /-- Nothing has been read. -/
  | unread : (∀ (collation : Collation) (store : RuleStore),
        response = (request python collation ownerId call store).1) →
      Answered python ownerId ruleId call response []
  /-- The rule has not been found. -/
  | refused {store : RuleStore} : response = .error notFound →
      (∀ collation : Collation, response = (request python collation ownerId call store).1) →
      Answered python ownerId ruleId call response [store]
  /-- The versions of the last moment are reported with the rule row of the first. -/
  | reported {moments : List RuleStore} {first last : RuleStore} {rule rule' : DetectionRule}
      {current current' : DetectionRuleVersion} {count count' : Int}
      {draft draft' : Draft python} :
      moments.head? = some first → moments.getLast? = some last →
      Advanced python first last →
      OwnedChain first ruleId ownerId rule current count draft →
      OwnedChain last ruleId ownerId rule' current' count' draft' →
      response = call.readWith last rule current.id →
      Answered python ownerId ruleId call response moments

/-- A call that reads the rule and makes one more query. -/
theorem answered_of_twice
    {α : Type}
    {call : RuleCall python}
    {respond : α → Response}
    {rest : DetectionRule → UUID → Service α}
    {moments : List RuleStore}
    {response : Except ServiceError Response}
    (onlyReads : call.OnlyReads)
    (isProgram : call.program ownerId =
      (withRule ruleId ownerId rest).bind fun body => .ret (respond body))
    (oneQuery : ∀ rule currentVersionId, OneQuery (rest rule currentVersionId))
    (isRest : ∀ (store : RuleStore) (rule : DetectionRule) (currentVersionId : UUID),
      ((rest rule currentVersionId).evaluate (onTables collation store)).map respond =
        call.readWith store rule currentVersionId)
    (sees : Sees (schema collation) .database (serveMapped (ownerId, call)) moments response)
    (returned : response ≠ .error .database)
    (inOrder : moments.Pairwise (Advanced python))
    (recorded : ∀ store ∈ moments, Recorded python store) :
    Answered python ownerId ruleId call response moments := by
  obtain ⟨result, rfl, seen⟩ := seen_serveMapped isProgram sees
  have notDatabase : result ≠ .error .database := by
    rintro rfl
    exact returned rfl
  rcases seen_twice oneQuery rfl seen notDatabase with
    ⟨store, rfl, notRead, rfl⟩ | ⟨first, last, rule, id, rfl, isRead, rfl⟩
  · refine Answered.refused rfl fun collation => ?_
    rw [request_fst call onlyReads isProgram, evaluate_withRule, notRead]
    rfl
  · have advanced : Advanced python first last := by simpa using inOrder
    obtain ⟨current, count, draft, rfl, owned⟩ :=
      (recorded first (by simp)).ownedChain_of_read isRead
    obtain ⟨rule', current', count', draft', owned'⟩ :=
      owned.persists advanced (recorded last (by simp))
    refine Answered.reported (show [first, last].head? = some first from rfl)
      (show [first, last].getLast? = some last from rfl) advanced owned owned' ?_
    rw [← isRest]
    cases (rest rule current.id).evaluate (onTables collation last) <;> rfl

/-- A call that compares two versions.  What has been read of the previous one is still
there at the last moment. -/
theorem answered_diff
    {versionNumber : Int}
    {moments : List RuleStore}
    {response : Except ServiceError Response}
    (sees : Sees (schema collation) .database
      (serveMapped (ownerId, (.diff ruleId versionNumber : RuleCall python))) moments response)
    (returned : response ≠ .error .database)
    (inOrder : moments.Pairwise (Advanced python))
    (recorded : ∀ store ∈ moments, Recorded python store) :
    Answered python ownerId ruleId (.diff ruleId versionNumber) response moments := by
  obtain ⟨result, rfl, seen⟩ := seen_serveMapped rfl sees
  have notDatabase : result ≠ .error .database := by
    rintro rfl
    exact returned rfl
  by_cases low : 2 ≤ versionNumber
  · rcases seen_diff low seen notDatabase with
      ⟨store, rfl, notRead, rfl⟩ | ⟨first, rule, id, isRead, ⟨last, error, rfl, rfl, isError⟩ |
        ⟨second, last, previous, loaded, rfl, isPrevious, rfl⟩⟩
    · refine Answered.refused rfl fun collation => ?_
      rw [request_fst (.diff ruleId versionNumber) trivial rfl, evaluate_diffOwnedRuleVersion,
        if_pos low, evaluate_getOwnedRuleVersion, notRead]
      rfl
    · have advanced : Advanced python first last := by simpa using inOrder
      obtain ⟨current, count, draft, rfl, owned⟩ :=
        (recorded first (by simp)).ownedChain_of_read isRead
      obtain ⟨rule', current', count', draft', owned'⟩ :=
        owned.persists advanced (recorded last (by simp))
      refine Answered.reported (show [first, last].head? = some first from rfl)
        (show [first, last].getLast? = some last from rfl) advanced owned owned' ?_
      rw [RuleCall.readWith, if_pos low, readVersion, isError]
      rfl
    · obtain ⟨⟨advanced'', advanced⟩, advanced'⟩ : (Advanced python first second ∧
          Advanced python first last) ∧ Advanced python second last := by simpa using inOrder
      obtain ⟨current, count, draft, rfl, owned⟩ :=
        (recorded first (by simp)).ownedChain_of_read isRead
      obtain ⟨_, _, count'', _, owned''⟩ := owned.persists advanced'' (recorded second (by simp))
      obtain ⟨rule', current', count', draft', owned'⟩ :=
        owned.persists advanced (recorded last (by simp))
      have isThere : versionNumber - 1 ≤ count'' := by
        obtain ⟨_, version, isListed, isNumber⟩ := versionNumber_of_found isPrevious
        exact ((owned''.chain.mem_versionNumbers _).mp
          (List.mem_map.mpr ⟨version, isListed, isNumber⟩)).2
      rw [owned''.findVersion_eq owned' advanced' isThere] at isPrevious
      refine Answered.reported (show [first, second, last].head? = some first from rfl)
        (show [first, second, last].getLast? = some last from rfl) advanced owned owned' ?_
      rw [RuleCall.readWith, if_pos low, readVersion, isPrevious, Except.bind, readVersion]
      cases ((findVersion last ruleId versionNumber).bind
        (versionBody python rule current.id)).bind (diffBody ruleId versionNumber previous) <;> rfl
  · rw [diffOwnedRuleVersion_eq, Program.ensure, if_neg low] at seen
    obtain ⟨rfl, rfl⟩ := seen
    refine Answered.unread fun collation store => ?_
    rw [request_fst (.diff ruleId versionNumber) trivial rfl, evaluate_diffOwnedRuleVersion,
      if_neg low]
    rfl

/-- What the calls return that read the versions of a rule. -/
theorem answered_of_sees
    {call : RuleCall python}
    {moments : List RuleStore}
    {response : Except ServiceError Response}
    (history : call.ReadsHistory ruleId)
    (sees : Sees (schema collation) .database (serveMapped (ownerId, call)) moments response)
    (returned : response ≠ .error .database)
    (inOrder : moments.Pairwise (Advanced python))
    (recorded : ∀ store ∈ moments, Recorded python store) :
    Answered python ownerId ruleId call response moments := by
  cases history using RuleCall.ReadsHistory.cases with
  | listVersions limit offset =>
      exact answered_of_twice trivial rfl (fun _ _ => oneQuery_versionsRest)
        (fun _ _ _ => rfl) sees returned inOrder recorded
  | getVersion versionNumber =>
      exact answered_of_twice trivial rfl (fun _ _ => oneQuery_versionRest)
        (fun _ rule id => congrArg (Except.map Response.version)
          (evaluate_versionRest ruleId versionNumber rule id)) sees returned inOrder recorded
  | diff versionNumber =>
      exact answered_diff sees returned inOrder recorded

end Chains

end Detection
end SigmaForge
