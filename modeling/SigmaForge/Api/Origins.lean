import SigmaForge.Api.Mediation
import SigmaForge.Detection.Authorship

/-!
# Who the drafts come from

Whatever the requests do, the rules and versions in the tables belong to accounts in the tables,
which have been authenticated and may create rules.
-/

namespace SigmaForge
namespace Api

open Text ReadCommitted

section Accounts

variable
    {reader : Auth.TokenReader}
    {settings : Auth.Settings}
    {platform : Auth.Platform}
    {collation : Detection.Collation}

/-- The requests make and remove no account, and change its login columns at most. -/
theorem sameAccount_along
    (initial : Auth.AuthStore × Detection.RuleStore)
    (log events : List (Event (Auth.Key ⊕ Detection.Key) (Auth.Write ⊕ Detection.Write)))
    (id : UUID) :
    Option.Rel Auth.SameAccount ((replay (schema platform collation) initial log).1.user id)
      ((replay (schema platform collation) initial (log ++ events)).1.user id) := by
  have kept : ∀ store write,
      Option.Rel Auth.SameAccount ((replay (schema platform collation) initial log).1.user id)
        (store.1.user id) →
      Option.Rel Auth.SameAccount ((replay (schema platform collation) initial log).1.user id)
        (((schema platform collation).apply store write).1.user id) := by
    intro store write same
    cases write with
    | inl write => exact Auth.sameAccount_apply same write
    | inr write => exact same
  apply replay_kept kept
  cases (replay (schema platform collation) initial log).1.user id with
  | none => exact .none
  | some user => exact .some (.refl user)

/-- The row of an account that may create rules. -/
structure MayCreate (row : Auth.User) : Prop where
  isActive : row.isActive = true
  permitted : checkPermission (lit "rule:create") row = .ok row

theorem MayCreate.of_sameAccount
    {user row : Auth.User}
    (mayCreate : MayCreate user)
    (same : Auth.SameAccount user row) :
    MayCreate row := by
  obtain ⟨columns, rfl⟩ := same
  refine ⟨mayCreate.isActive, ?_⟩
  have isPermitted := mayCreate.permitted
  simp only [checkPermission] at isPermitted ⊢
  split at isPermitted
  · cases isPermitted
  · rename_i isGranted
    rw [if_neg isGranted]

/-- Whoever has been recognised is in the tables. -/
theorem Recognised.exists_committed
    {point : Point}
    {db : ApiDb}
    {credentials : Option Str}
    {user : Auth.User}
    (recognised : Recognised reader settings platform collation point db credentials (.ok user)) :
    ∃ row, (db.committed (schema platform collation)).1.user user.id = some row ∧
      Auth.SameAccount user row := by
  obtain ⟨moment, ⟨events, isLog⟩, _, isUser⟩ := recognised.exists_row
  have same := @sameAccount_along platform collation db.initial moment events user.id
  rw [isUser, isLog] at same
  unfold Db.committed
  generalize (replay (schema platform collation) db.initial db.log).1.user user.id = found at same
  cases same with
  | some same => exact ⟨_, rfl, same⟩

end Accounts

section Drafts

variable
    (reader : Auth.TokenReader)
    (settings : Auth.Settings)
    (platform : Auth.Platform)
    (collation : Detection.Collation)
    {python : Detection.Interpreter}

/-- A request with the call has been authenticated as the user with the id, whose account is in
the tables and may create rules. -/
def Authorized (config : ApiConfig python) (pid : ProcId) (call : Detection.RuleCall python)
    (userId : UUID) : Prop :=
  ∃ credentials user row, Serves config pid ⟨credentials, .rules call⟩ ∧
    Recognised reader settings platform collation .start config.shared credentials (.ok user) ∧
    user.id = userId ∧
    (config.shared.committed (schema platform collation)).1.user userId = some row ∧
    Auth.SameAccount user row ∧ MayCreate row

variable
    {reader}
    {settings}
    {platform}
    {collation}

theorem authorized_of_mirrors
    {config : ApiConfig python}
    {rules : RulesConfig python}
    (ofRules : (rulesDesk reader settings platform collation python).Mirrors
      (fun pid _ phase db => phase.Means platform collation (fun _ => .start) pid db)
      (fun _ => Grounds reader settings platform collation .start) config rules)
    {pid : ProcId}
    {userId : UUID}
    {call : Detection.RuleCall python}
    (serves : Serves rules pid (userId, call)) :
    Authorized reader settings platform collation config pid call userId := by
  obtain ⟨credentials, user, isServed, recognised, isActive, isPermitted, rfl⟩ :=
    @exists_permitted _ _ _ _ _ _ _ (fun _ => .start) _ _ _ ofRules serves
  obtain ⟨row, isRow, same⟩ := recognised.exists_committed
  have mayCreate : MayCreate user := ⟨isActive, isPermitted⟩
  exact ⟨credentials, user, row, isServed, recognised, rfl, isRow, same,
    mayCreate.of_sameAccount same⟩

/-- In every run of the API, a rule has been there from the start, with the same owner, or its
owner has been authorized to create it; and a version has been there from the start, or its
author has been authorized to store it. -/
theorem drafts_authorized
    {store : Auth.AuthStore × Detection.RuleStore}
    {clock : Nat}
    {config : ApiConfig python}
    (reachable : Reachable (apiMachine platform collation python)
      (handle reader settings platform collation) (Db.start store clock) config) :
    (∀ id columns,
      (config.shared.committed (schema platform collation)).2.rules.lookup id = some columns →
      (∃ first, store.2.rules.lookup id = some first ∧ first.ownerId = columns.ownerId) ∨
        ∃ pid draft ids, ids.ruleId = id ∧ Authorized reader settings platform collation config
          pid (.create draft ids) columns.ownerId) ∧
    ∀ id columns,
      (config.shared.committed (schema platform collation)).2.versions.lookup id =
        some columns →
      store.2.versions.lookup id = some columns ∨
        ∃ pid call, call.newVersionId = some id ∧ Authorized reader settings platform collation
          config pid call columns.createdBy := by
  obtain ⟨rules, isRules, ofRules⟩ := sound_rulesDesk.exists_mirror sound_rulesDesk
    (before_start _) .refl (before_start _) (fun _ _ _ isStarted => absurd rfl isStarted)
    (fun _ _ _ isStarted => absurd rfl isStarted) reachable
  have isCommitted : rules.shared.committed (Detection.schema collation) =
      (config.shared.committed (schema platform collation)).2 := ofRules.shows.committed
  rw [← isCommitted]
  constructor
  case left =>
    intro id columns found
    rcases Detection.rules_authored isRules id columns found with
      isFirst | ⟨pid, draft, ids, serves, isId⟩
    · exact .inl isFirst
    · exact .inr ⟨pid, draft, ids, isId, authorized_of_mirrors ofRules serves⟩
  case right =>
    intro id columns found
    rcases Detection.versions_authored isRules id columns found with
      isFirst | ⟨pid, call, serves, isId⟩
    · exact .inl isFirst
    · exact .inr ⟨pid, call, isId, authorized_of_mirrors ofRules serves⟩

/-- The rule of the first request is there, and it is that of its owner. -/
theorem sample_drafts_authorized :
    ∃ config, Reachable (apiMachine (.encoding Auth.numbered) .codePoints .coarse)
        (handle .numbering (.sample 0) (.encoding Auth.numbered) .codePoints)
        (Db.start (Auth.AuthStore.sample, Detection.RuleStore.empty) 0) config ∧
      ∃ columns pid draft ids, ids.ruleId = 1 ∧
        (config.shared.committed (schema (.encoding Auth.numbered) .codePoints)).2.rules.lookup 1 =
          some columns ∧
        Authorized .numbering (.sample 0) (.encoding Auth.numbered) .codePoints config pid
          (.create draft ids) columns.ownerId := by
  obtain ⟨config, served, _, isCommitted⟩ := served_sample
  have found : (config.shared.committed
      (schema (.encoding Auth.numbered) .codePoints)).2.rules.lookup 1 =
        some (Detection.described (Detection.newRule Detection.Draft.sample 1 (.sample 1))
          Detection.Draft.sample (Detection.FreshIds.sample 1).versionId) := by
    rw [isCommitted,
      ((Detection.creates_empty (.sample 1)).appended Detection.Draft.sample 1).rules]
    exact Finmap.lookup_insert _
  rcases (drafts_authorized served.reachable).1 1 _ found with
    ⟨first, isFirst, _⟩ | ⟨pid, draft, ids, isId, isAuthorized⟩
  · cases isFirst
  · exact ⟨config, served.reachable, _, pid, draft, ids, isId, found, isAuthorized⟩

end Drafts

end Api
end SigmaForge
