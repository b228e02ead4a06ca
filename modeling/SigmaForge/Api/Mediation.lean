import SigmaForge.Api.Requests

/-!
# Complete mediation

Every run of the API is a run of each of its services.  The services serve what the dependencies
have let through, and for nobody else than whom these have recognised.
-/

namespace SigmaForge
namespace Api

open Text ReadCommitted

/-! ## What the dependencies do -/

section Reading

variable
    {reader : Auth.TokenReader}
    {settings : Auth.Settings}
    {platform : Auth.Platform}
    {collation : Detection.Collation}
    {credentials : Option Str}

/-- What `get_current_user` does with a token that has been decoded. -/
def identify (reader : Auth.TokenReader) :
    Except Auth.TokenError Auth.TokenPayload →
      Auth.Orm.Handler (Except Auth.Rejection Auth.User)
  | .error (.invalidToken _) => pure (.error (.http Auth.Orm.genericUnauthorized))
  | .error (.keyError name) => pure (.error (.keyError name))
  | .ok payload => do
      let current ← Auth.Orm.getCurrentUser (Auth.subjectOf reader payload)
      pure (current.mapError .http)

/-- The row, if the account is active. -/
def ifActive : Option Auth.User → Except Auth.Rejection Auth.User
  | none => .error (.http Auth.Orm.genericUnauthorized)
  | some user => if user.isActive then .ok user else .error (.http Auth.Orm.genericUnauthorized)

theorem ifActive_eq_ok
    {found : Option Auth.User}
    {user : Auth.User}
    (isAccount : ifActive found = .ok user) :
    found = some user ∧ user.isActive = true := by
  cases found with
  | none => cases isAccount
  | some row =>
      simp only [ifActive] at isAccount
      split at isAccount
      · rename_i isActive
        obtain rfl : row = user := Except.ok.inj isAccount
        exact ⟨rfl, isActive⟩
      · cases isAccount

/-- The account that a decoded token stands for. -/
def accountOf (reader : Auth.TokenReader) (store : Auth.AuthStore) :
    Except Auth.TokenError Auth.TokenPayload → Except Auth.Rejection Auth.User
  | .error (.invalidToken _) => .error (.http Auth.Orm.genericUnauthorized)
  | .error (.keyError name) => .error (.keyError name)
  | .ok payload => ifActive ((Auth.subjectOf reader payload).bind store.user)

theorem authenticated_token (token : Str) (now : Nat) (store : Auth.AuthStore) :
    Auth.authenticated reader settings platform (some token) now store =
      (.ok (.ok (accountOf reader store (Auth.decodeAccessToken reader settings token now))),
        store) := by
  rw [Auth.authenticated_some]
  cases Auth.decodeAccessToken reader settings token now with
  | error error => cases error <;> rfl
  | ok payload =>
      simp only [accountOf, Auth.activeUser]
      cases (Auth.subjectOf reader payload).bind store.user <;> rfl

/-- The result of `get_current_user` is the one that it has when nobody interferes. -/
def IsSeen (reader : Auth.TokenReader) (settings : Auth.Settings) (platform : Auth.Platform)
    (credentials : Option Str) (phase : Phase)
    (result : Except Auth.AuthError (Except Auth.Rejection Auth.User)) : Prop :=
  (∃ error, result = .error error) ∨
    ∃ current, result = .ok current ∧ Sees reader settings platform credentials current phase

/-- `get_current_user` follows the protocol, and what it has read decides its result. -/
theorem follows_currentUser :
    Follows protocol .asking (currentUser reader settings platform collation credentials)
      (inPhase (IsSeen reader settings platform credentials) fun _ => False) := by
  cases credentials with
  | none => exact .inr ⟨_, rfl, fun _ _ => rfl⟩
  | some token =>
      refine ⟨trivial, fun answer => ?_⟩
      cases answer with
      | error fault => exact .inl ⟨_, rfl⟩
      | ok now =>
          change Follows protocol (.timed now) ((accounts platform collation).host
            Auth.AuthError.database ((Attributes.erase (identify reader
              (Auth.decodeAccessToken reader settings token now))).interpret
                (Auth.sqlAlchemy platform))) _
          have isRead : ∀ store,
              Auth.authenticated reader settings platform (some token) now store =
                (.ok (.ok (accountOf reader store
                  (Auth.decodeAccessToken reader settings token now))), store) :=
            authenticated_token token now
          cases isDecoded : Auth.decodeAccessToken reader settings token now with
          | error error =>
              rw [isDecoded] at isRead
              cases error with
              | invalidToken message => exact .inr ⟨_, rfl, isRead⟩
              | keyError name => exact .inr ⟨_, rfl, isRead⟩
          | ok payload =>
              rw [isDecoded] at isRead
              simp only [identify, accountOf] at isRead ⊢
              cases isSubject : Auth.subjectOf reader payload with
              | none =>
                  rw [isSubject] at isRead
                  exact .inr ⟨_, rfl, isRead⟩
              | some userId =>
                  rw [isSubject] at isRead
                  refine ⟨trivial, fun answer => ?_⟩
                  cases answer with
                  | error fault => exact .inl ⟨_, rfl⟩
                  | ok found =>
                      have isAccount : ∀ store : Auth.AuthStore, store.user userId = found →
                          Auth.authenticated reader settings platform (some token) now store =
                            (.ok (.ok (ifActive found)), store) := by
                        intro store isFound
                        rw [isRead, Option.bind_some, isFound]
                      cases found with
                      | none => exact .inr ⟨_, rfl, isAccount⟩
                      | some user =>
                          cases user with
                          | mk columns id email hashedPassword fullName roleName isActive _ =>
                              cases isActive with
                              | true => exact .inr ⟨_, rfl, isAccount⟩
                              | false => exact .inr ⟨_, rfl, isAccount⟩

end Reading

/-! ## Decisions -/

section Decisions

variable
    (reader : Auth.TokenReader)
    (settings : Auth.Settings)
    (platform : Auth.Platform)
    (collation : Detection.Collation)
    {python : Detection.Interpreter}

/-- What a request decides in a phase. -/
def Decides (request : Request python) (phase : Phase) :
    Except Fault (Decision python) → Prop
  | .error _ => False
  | .ok decision => (∃ error, decision = .fail error) ∨
      ∃ current, decision = request.judge current ∧
        (request.isPublic ∨ Sees reader settings platform request.credentials current phase)

/-- The decision rests on whom the credentials stand for. -/
def Grounds (point : Point) (request : Request python)
    (result : Except Fault (Decision python)) (db : ApiDb) : Prop :=
  match result with
  | .error _ => False
  | .ok decision => (∃ error, decision = .fail error) ∨
      ∃ current, decision = request.judge current ∧
        Recognised reader settings platform collation point db request.credentials current

variable
    {reader}
    {settings}
    {platform}
    {collation}

/-- A public endpoint does not look at the user. -/
theorem judge_of_isPublic
    {request : Request python}
    (isPublic : request.isPublic = true)
    (current current' : Except Auth.Rejection Auth.User) :
    request.judge current = request.judge current' := by
  obtain ⟨credentials, endpoint⟩ := request
  cases endpoint with
  | login body draw => rfl
  | refresh rawToken draw => rfl
  | logout rawToken => rfl
  | logoutAll => cases isPublic
  | me => cases isPublic
  | preflightRule draft => cases isPublic
  | rules call => cases isPublic

theorem follows_decide (request : Request python) :
    Follows protocol .asking (decide reader settings platform collation request)
      (Decides reader settings platform request) := by
  unfold decide
  split
  · rename_i isPublic
    exact .inr ⟨_, rfl, .inl isPublic⟩
  · apply follows_currentUser.bind
    · intro phase result seen
      rcases seen with ⟨error, rfl⟩ | ⟨current, rfl, sees⟩
      · exact .inl ⟨error, rfl⟩
      · exact .inr ⟨current, rfl, .inr sees⟩
    · exact fun _ _ unreachable => unreachable.elim

/-- `get_current_user` has a result for everyone. -/
theorem exists_recognised
    {point : Point}
    {db : ApiDb}
    (isBefore : point.Before db)
    (credentials : Option Str) :
    ∃ current, Recognised reader settings platform collation point db credentials current := by
  have isRead : ∀ store, ∃ current, (Auth.authenticated reader settings platform credentials
      db.clock store).1 = .ok (.ok current) := by
    intro store
    cases credentials with
    | none => exact ⟨_, rfl⟩
    | some token => exact ⟨_, congrArg Prod.fst (authenticated_token token db.clock store)⟩
  obtain ⟨current, isCurrent⟩ := isRead (replay (schema platform collation) db.initial db.log).1
  exact ⟨current, db.clock, db.log, isBefore.clock, le_rfl, isBefore.log, List.prefix_rfl,
    isCurrent⟩

/-- What a request has seen is what it would see alone at some moment. -/
theorem recognised_of_sees
    {since : ProcId → Point}
    {pid : ProcId}
    {phase : Phase}
    {db : ApiDb}
    {credentials : Option Str}
    {current : Except Auth.Rejection Auth.User}
    (sees : Sees reader settings platform credentials current phase)
    (means : phase.Means platform collation since pid db) :
    Recognised reader settings platform collation (since pid) db credentials current := by
  obtain ⟨isBefore, means⟩ := means
  cases phase with
  | asking =>
      exact ⟨db.clock, db.log, isBefore.clock, le_rfl, isBefore.log, List.prefix_rfl,
        congrArg Prod.fst (sees _ _)⟩
  | timed now =>
      obtain ⟨_, isSince, isPast⟩ := means
      exact ⟨now, db.log, isSince, isPast, isBefore.log, List.prefix_rfl,
        congrArg Prod.fst (sees _)⟩
  | looked now userId found =>
      obtain ⟨isSince, isPast, moment, isAfter, isMoment, isFound⟩ := means
      exact ⟨now, moment, isSince, isPast, isAfter, isMoment, congrArg Prod.fst (sees _ isFound)⟩
  | broken => exact sees.elim

/-- Whoever is recognised had an active account at some moment. -/
theorem Recognised.exists_row
    {point : Point}
    {db : ApiDb}
    {credentials : Option Str}
    {user : Auth.User}
    (recognised : Recognised reader settings platform collation point db credentials (.ok user)) :
    ∃ moment, moment <+: db.log ∧ user.isActive = true ∧
      (replay (schema platform collation) db.initial moment).1.user user.id = some user := by
  obtain ⟨now, moment, _, _, _, isMoment, isRead⟩ := recognised
  cases credentials with
  | none => cases isRead
  | some token =>
      rw [authenticated_token] at isRead
      have isAccount := Except.ok.inj (Except.ok.inj isRead)
      cases isDecoded : Auth.decodeAccessToken reader settings token now with
      | error error =>
          rw [isDecoded] at isAccount
          cases error <;> cases isAccount
      | ok payload =>
          rw [isDecoded] at isAccount
          obtain ⟨isFound, isActive⟩ := ifActive_eq_ok isAccount
          obtain ⟨userId, _, isUser⟩ := Option.bind_eq_some_iff.mp isFound
          have isId : user.id = userId := Auth.AuthStore.user_id isUser
          exact ⟨moment, isMoment, isActive, isId ▸ isUser⟩

theorem Recognised.isActive
    {point : Point}
    {db : ApiDb}
    {credentials : Option Str}
    {user : Auth.User}
    (recognised : Recognised reader settings platform collation point db credentials (.ok user)) :
    user.isActive = true := by
  obtain ⟨_, _, isActive, _⟩ := recognised.exists_row
  exact isActive

theorem grounds_of_decides
    {request : Request python}
    {phase : Phase}
    {result : Except Fault (Decision python)}
    {since : ProcId → Point}
    {pid : ProcId}
    {db : ApiDb}
    (decides : Decides reader settings platform request phase result)
    (means : phase.Means platform collation since pid db) :
    Grounds reader settings platform collation (since pid) request result db := by
  cases result with
  | error fault => exact decides.elim
  | ok decision =>
      rcases decides with failed | ⟨current, isDecision, isPublic | sees⟩
      · exact .inl failed
      · obtain ⟨other, isRecognised⟩ : ∃ other, Recognised reader settings platform collation
            (since pid) db request.credentials other :=
          exists_recognised means.1 request.credentials
        exact .inr ⟨other, isDecision.trans (judge_of_isPublic isPublic _ _), isRecognised⟩
      · exact .inr ⟨current, isDecision, recognised_of_sees sees means⟩

end Decisions

/-! ## What stays true -/

section Lasting

variable
    {reader : Auth.TokenReader}
    {settings : Auth.Settings}
    {platform : Auth.Platform}
    {collation : Detection.Collation}
    {python : Detection.Interpreter}
    {point : Point}
    {since : ProcId → Point}
    {pid : ProcId}
    {db db' : ApiDb}

theorem prefix_log_of_moves (moves : Moves pid db db') : db.log <+: db'.log := by
  obtain ⟨keys, commits, isLog, _⟩ := moves.log
  exact isLog ▸ List.prefix_append _ _

theorem Point.Before.of_moves
    (isBefore : point.Before db)
    (moves : Moves pid db db') :
    point.Before db' :=
  ⟨moves.clock.symm ▸ isBefore.clock, isBefore.log.trans (prefix_log_of_moves moves)⟩

theorem Point.Before.later
    (isBefore : point.Before db)
    {later : Nat}
    (isLater : db.clock ≤ later) :
    point.Before { db with clock := later } :=
  ⟨isBefore.clock.trans isLater, isBefore.log⟩

theorem Looked.of_moves
    {userId : UUID}
    {found : Option Auth.User}
    (looked : Looked platform collation point db userId found)
    (moves : Moves pid db db') :
    Looked platform collation point db' userId found := by
  obtain ⟨moment, isAfter, isMoment, isFound⟩ := looked
  exact ⟨moment, isAfter, isMoment.trans (prefix_log_of_moves moves), moves.initial.symm ▸ isFound⟩

theorem Recognised.of_moves
    {credentials : Option Str}
    {current : Except Auth.Rejection Auth.User}
    (recognised : Recognised reader settings platform collation point db credentials current)
    (moves : Moves pid db db') :
    Recognised reader settings platform collation point db' credentials current := by
  obtain ⟨now, moment, isSince, isPast, isAfter, isMoment, isRead⟩ := recognised
  exact ⟨now, moment, isSince, moves.clock.symm ▸ isPast, isAfter,
    isMoment.trans (prefix_log_of_moves moves), moves.initial.symm ▸ isRead⟩

theorem Recognised.later
    {credentials : Option Str}
    {current : Except Auth.Rejection Auth.User}
    (recognised : Recognised reader settings platform collation point db credentials current)
    {later : Nat}
    (isLater : db.clock ≤ later) :
    Recognised reader settings platform collation point { db with clock := later } credentials
      current := by
  obtain ⟨now, moment, isSince, isPast, isAfter, isMoment, isRead⟩ := recognised
  exact ⟨now, moment, isSince, isPast.trans isLater, isAfter, isMoment, isRead⟩

theorem Grounds.mono
    {request : Request python}
    {result : Except Fault (Decision python)}
    (grounds : Grounds reader settings platform collation point request result db)
    (kept : ∀ current,
      Recognised reader settings platform collation point db request.credentials current →
      Recognised reader settings platform collation point db' request.credentials current) :
    Grounds reader settings platform collation point request result db' := by
  cases result with
  | error fault => exact grounds
  | ok decision =>
      rcases grounds with failed | ⟨current, isDecision, recognised⟩
      · exact .inl failed
      · exact .inr ⟨current, isDecision, kept current recognised⟩

/-- What a phase means is kept by the other requests. -/
theorem Phase.Means.of_moves
    {phase : Phase}
    {other : ProcId}
    (means : phase.Means platform collation since pid db)
    (different : other ≠ pid)
    (moves : Moves other db db') :
    phase.Means platform collation since pid db' := by
  obtain ⟨isBefore, means⟩ := means
  refine ⟨isBefore.of_moves moves, ?_⟩
  cases phase with
  | asking => exact Clear.of_moves means different moves
  | timed now =>
      exact ⟨means.1.of_moves different moves, means.2.1, moves.clock.symm ▸ means.2.2⟩
  | looked now userId found =>
      exact ⟨means.1, moves.clock.symm ▸ means.2.1, means.2.2.of_moves moves⟩
  | broken => trivial

theorem Phase.Means.later
    {phase : Phase}
    (means : phase.Means platform collation since pid db)
    {later : Nat}
    (isLater : db.clock ≤ later) :
    phase.Means platform collation since pid { db with clock := later } := by
  obtain ⟨isBefore, means⟩ := means
  refine ⟨isBefore.later isLater, ?_⟩
  cases phase with
  | asking => exact means
  | timed now => exact ⟨means.1, means.2.1, means.2.2.trans isLater⟩
  | looked now userId found => exact ⟨means.1, means.2.1.trans isLater, means.2.2⟩
  | broken => trivial

/-- What is read is what is committed. -/
theorem looked_of_performed
    {userId : UUID}
    {found : Option Auth.User}
    (isBefore : point.Before db)
    (clear : Clear pid db)
    (performed : performs (schema platform collation) Fault.database pid
      (.execute (.inl (.selectUserById userId))) db (.ok found) db') :
    Looked platform collation point db' userId found := by
  obtain ⟨_, isAnswer, rfl⟩ := performed
  have isView : db.view (schema platform collation) pid =
      replay (schema platform collation) db.initial db.log := by
    rw [Db.view, clear.1]
    rfl
  refine ⟨db.log, isBefore.log, List.prefix_append _ _, ?_⟩
  rw [isView] at isAnswer
  exact Option.some.inj isAnswer

/-- The dependencies lead from phase to phase. -/
theorem Phase.Means.next
    {phase : Phase}
    {op : SessionOp (Auth.Statement ⊕ Detection.Statement)}
    {answer : Except Fault (Answer op)}
    (means : phase.Means platform collation since pid db)
    (isAllowed : protocol.allowed phase op)
    (performed : performs (schema platform collation) Fault.database pid op db answer db') :
    (protocol.next phase op answer).Means platform collation since pid db' := by
  have moves := performs_moves (schema platform collation) performed
  obtain ⟨isBefore, means⟩ := means
  refine ⟨isBefore.of_moves moves, ?_⟩
  cases phase with
  | asking =>
      cases op with
      | now =>
          cases answer with
          | ok now =>
              obtain ⟨rfl, rfl⟩ := performed
              exact ⟨means, isBefore.clock, le_rfl⟩
          | error fault => exact performed.elim
      | execute statement => exact isAllowed.elim
      | commit => exact isAllowed.elim
      | rollback => exact isAllowed.elim
  | timed now =>
      cases op with
      | now => exact isAllowed.elim
      | commit => exact isAllowed.elim
      | rollback => exact isAllowed.elim
      | execute statement =>
          cases statement with
          | inr statement => exact isAllowed.elim
          | inl statement =>
              cases statement with
              | selectUserById userId =>
                  cases answer with
                  | error fault => trivial
                  | ok found =>
                      have isLooked := looked_of_performed isBefore means.1 performed
                      exact ⟨means.2.1, moves.clock.symm ▸ means.2.2, isLooked⟩
              | _ => exact isAllowed.elim
  | looked now userId found => exact False.elim isAllowed
  | broken => exact False.elim isAllowed

end Lasting

/-! ## The services behind the API -/

section Desks

variable
    (reader : Auth.TokenReader)
    (settings : Auth.Settings)
    (platform : Auth.Platform)
    (collation : Detection.Collation)
    (python : Detection.Interpreter)

/-- The requests in front of the service of the rule drafts. -/
def rulesDesk : Desk (drafts platform collation) Fault Detection.ServiceError (Request python)
    (UUID × Detection.RuleCall python) (Decision python) Response Detection.Response Phase where
  failure' := .database
  decide := decide reader settings platform collation
  protocol _ := protocol
  start := .asking
  decides := Decides reader settings platform
  route := route settings platform collation
  serve := Detection.serve
  handover _
    | .rules ownerId call => some (ownerId, call)
    | _ => none
  respond _ result := .rules result

variable
    {reader}
    {settings}
    {platform}
    {collation}
    {python}

theorem foreign_drafts (phase : Phase) (op : SessionOp (Auth.Statement ⊕ Detection.Statement))
    (isAllowed : protocol.allowed phase op) :
    (drafts platform collation).Foreign op := by
  cases op with
  | now => trivial
  | commit => trivial
  | rollback => trivial
  | execute statement =>
      cases statement with
      | inl statement =>
          exact Part.foreign_right (Auth.schema platform) (Detection.schema collation)
            (.execute statement)
      | inr statement => cases phase <;> exact False.elim isAllowed

theorem sound_rulesDesk :
    (rulesDesk reader settings platform collation python).Sound Fault.database
      (fun db => ∀ pid, (since pid).Before db)
      (fun pid _ phase db => phase.Means platform collation since pid db)
      (fun pid => Grounds reader settings platform collation (since pid)) where
  injective := Sum.inr_injective
  moved _ _ _ moves isRecent pid := (isRecent pid).of_moves moves
  ticked _ _ isLater isRecent pid := (isRecent pid).later isLater
  opens pid _ _ isRecent clear := ⟨isRecent pid, clear⟩
  proceeds _ _ _ _ _ _ _ means isAllowed performed := means.next isAllowed performed
  others _ _ _ _ _ _ different moves means := means.of_moves different moves
  waits _ _ _ _ _ isLater means := means.later isLater
  follows := follows_decide
  grounded _ _ _ _ _ decides means := grounds_of_decides decides means
  lasts _ _ _ _ _ _ moves grounds := grounds.mono fun _ recognised => recognised.of_moves moves
  timeless _ _ _ _ _ isLater grounds := grounds.mono fun _ recognised => recognised.later isLater
  foreign request := (follows_decide request).only foreign_drafts
  own := by
    intro request decision call isHandover
    cases decision with
    | rules ownerId call' =>
        obtain rfl : (ownerId, call') = call := Option.some.inj isHandover
        rfl
    | _ => cases isHandover
  other := by
    intro request decision noHandover
    cases decision with
    | rules ownerId call => cases noHandover
    | auth call =>
        exact Program.Only.bind
          (Part.only_host _ _ (Part.foreign_right _ _) _) fun _ => trivial
    | _ => trivial

end Desks

/-! ## A request alone -/

section Alone

variable
    {reader : Auth.TokenReader}
    {settings : Auth.Settings}
    {platform : Auth.Platform}
    {collation : Detection.Collation}
    {python : Detection.Interpreter}
    {now : Nat}
    {store : Auth.AuthStore × Detection.RuleStore}

/-- An active user is recognised by a token that can be decoded. -/
theorem solo_currentUser
    {token : Str}
    {payload : Auth.TokenPayload}
    {userId : UUID}
    {user : Auth.User}
    (isDecoded : Auth.decodeAccessToken reader settings token now = .ok payload)
    (isSubject : Auth.subjectOf reader payload = some userId)
    (isUser : store.1.user userId = some user)
    (isActive : user.isActive = true) :
    (currentUser reader settings platform collation (some token)).solo
      (answerAlone (schema platform collation) Fault.database now) (store, []) =
        (.ok (.ok (.ok user)), store, []) := by
  change ((accounts platform collation).host Auth.AuthError.database
    ((Attributes.erase (identify reader
      (Auth.decodeAccessToken reader settings token now))).interpret
        (Auth.sqlAlchemy platform))).solo _ _ = _
  rw [isDecoded]
  obtain ⟨columns, id, email, hashedPassword, fullName, roleName, active, mfaEnabled⟩ := user
  obtain rfl : active = true := isActive
  have isAnswer : answerAlone (schema platform collation) Fault.database now
      (.execute (.inl (.selectUserById userId))) (store, []) =
        (.ok (store.1.user userId), store, []) := rfl
  rw [isUser] at isAnswer
  simp only [identify, isSubject]
  change Program.solo _ (.call (.execute (.inl (.selectUserById userId)) : SessionOp
    (Auth.Statement ⊕ Detection.Statement)) _) _ = _
  simp only [Program.solo, isAnswer]
  rfl

/-- Alone, a user who may create rules gets what the service of the rule drafts returns. -/
theorem alone_handle_rules
    {credentials : Option Str}
    {call : Detection.RuleCall python}
    {user : Auth.User}
    (isRead : (currentUser reader settings platform collation credentials).solo
      (answerAlone (schema platform collation) Fault.database now) (store, []) =
        (.ok (.ok (.ok user)), store, []))
    (isPermitted : checkPermission (lit "rule:create") user = .ok user) :
    let own := alone (Detection.schema collation) Detection.ServiceError.database now
      (Detection.serve (user.id, call)) store.2
    let whole := alone (schema platform collation) Fault.database now
      (handle reader settings platform collation ⟨credentials, .rules call⟩) store
    whole.1 = .ok (.rules own.1) ∧ whole.2.2 = own.2 := by
  have isDecided : (decide reader settings platform collation ⟨credentials, .rules call⟩).solo
      (answerAlone (schema platform collation) Fault.database now) (store, []) =
        (.ok (.rules user.id call), store, []) := by
    change ((currentUser reader settings platform collation credentials).bind _).solo _ _ = _
    rw [Program.solo_bind, isRead]
    simp only [Request.judgeResult, Request.judge, Except.bind, isPermitted, decided,
      Program.solo_ret]
  obtain ⟨committed, pending, isServed, isCommitted, _⟩ :=
    (drafts platform collation).solo_host Fault.database Detection.ServiceError.database now
      (Detection.serve (user.id, call)) store []
  simp only [alone, handle, Program.solo_bind, isDecided, route, isServed, Program.solo_ret]
  exact ⟨rfl, isCommitted⟩

/-- So it gets that when the requests are served one after the other. -/
theorem serve_rules
    {initial : Auth.AuthStore × Detection.RuleStore}
    {clock : Nat}
    {next : ProcId}
    {config : Config Fault Answer (Request python) ApiDb Response}
    (inTurn : InTurn (schema platform collation) Fault.database
      (handle reader settings platform collation) initial clock now next config)
    (isCommitted : config.shared.committed (schema platform collation) = store)
    {credentials : Option Str}
    {call : Detection.RuleCall python}
    {user : Auth.User}
    (isRead : (currentUser reader settings platform collation credentials).solo
      (answerAlone (schema platform collation) Fault.database now) (store, []) =
        (.ok (.ok (.ok user)), store, []))
    (isPermitted : checkPermission (lit "rule:create") user = .ok user)
    {own : Except Detection.ServiceError Detection.Response × Detection.RuleStore}
    (isOwn : alone (Detection.schema collation) Detection.ServiceError.database now
      (Detection.serve (user.id, call)) store.2 = own) :
    ∃ config', InTurn (schema platform collation) Fault.database
        (handle reader settings platform collation) initial clock now (next + 1) config' ∧
      config'.process next = some (⟨credentials, .rules call⟩, .finished (.ok (.rules own.1))) ∧
      (config'.shared.committed (schema platform collation)).2 = own.2 := by
  obtain ⟨isServed, isStored⟩ :=
    @alone_handle_rules _ _ _ _ _ _ _ credentials call _ isRead isPermitted
  obtain ⟨config', _, inTurn', isProcess, _, isCommitted'⟩ :=
    inTurn.serve isCommitted (Prod.mk.eta (p := alone (schema platform collation) Fault.database
      now (handle reader settings platform collation ⟨credentials, .rules call⟩) store)).symm
  refine ⟨config', inTurn', ?_, ?_⟩
  · rw [isProcess, isServed, isOwn]
  · rw [isCommitted', isStored, isOwn]

end Alone

/-! ## Runs of the API -/

section Runs

variable
    {reader : Auth.TokenReader}
    {settings : Auth.Settings}
    {platform : Auth.Platform}
    {collation : Detection.Collation}
    {python : Detection.Interpreter}

theorem decided_eq
    {permitted : Except Auth.Rejection Auth.User}
    {decision : Auth.User → Decision python}
    {result : Decision python}
    (isDecided : decided permitted decision = result)
    (notRefused : ∀ rejection, result ≠ .refuse rejection) :
    ∃ user, permitted = .ok user ∧ decision user = result := by
  cases permitted with
  | error rejection => exact absurd isDecided.symm (notRefused rejection)
  | ok user => exact ⟨user, rfl, isDecided⟩

theorem checkPermission_eq_ok
    {permissionCode : Str}
    {user user' : Auth.User}
    (isGranted : checkPermission permissionCode user = .ok user') :
    user' = user := by
  simp only [checkPermission] at isGranted
  split at isGranted
  · cases isGranted
  · exact (Except.ok.inj isGranted).symm

/-- A call of the rules is for a user who may create rules. -/
theorem judge_eq_rules
    {request : Request python}
    {current : Except Auth.Rejection Auth.User}
    {ownerId : UUID}
    {call : Detection.RuleCall python}
    (isRules : request.judge current = .rules ownerId call) :
    request.endpoint = .rules call ∧ ∃ user, current = .ok user ∧
      checkPermission (lit "rule:create") user = .ok user ∧ user.id = ownerId := by
  obtain ⟨credentials, endpoint⟩ := request
  cases endpoint with
  | rules call' =>
      obtain ⟨user, isPermitted, isDecision⟩ :=
        decided_eq isRules fun _ isRefusal => nomatch isRefusal
      obtain ⟨rfl, rfl⟩ := Decision.rules.inj isDecision
      cases current with
      | error rejection => cases isPermitted
      | ok user' =>
          obtain rfl : user = user' := checkPermission_eq_ok isPermitted
          exact ⟨rfl, user, rfl, isPermitted, rfl⟩
  | logoutAll => cases current <;> cases isRules
  | me => cases current <;> cases isRules
  | preflightRule draft =>
      obtain ⟨user, _, isDecision⟩ := decided_eq isRules fun _ isRefusal => nomatch isRefusal
      cases isDecision
  | _ => cases isRules

variable
    (reader)
    (settings)
    (platform)
    (collation)

/-- The configurations of the API. -/
abbrev ApiConfig (python : Detection.Interpreter) :=
  Config Fault Answer (Request python) ApiDb Response

/-- The configurations of the service of the accounts. -/
abbrev AuthConfig :=
  Config Auth.AuthError (SessionAnswer Auth.Answer) Auth.AuthCall Auth.AuthDb Auth.AuthResponse

/-- The configurations of the service of the rule drafts. -/
abbrev RulesConfig (python : Detection.Interpreter) :=
  Config Detection.ServiceError (SessionAnswer Detection.Answer)
    (UUID × Detection.RuleCall python) Detection.RuleDb Detection.Response

/-- Where the response of a request comes from. -/
inductive Explained (point : Point) (db : ApiDb) (auth : AuthConfig) (rules : RulesConfig python)
    (pid : ProcId) (request : Request python) : Response → Prop
  | failed (error : Auth.AuthError) : Explained point db auth rules pid request (.failed error)
  | refused {current : Except Auth.Rejection Auth.User} {rejection : Auth.Rejection} :
      Recognised reader settings platform collation point db request.credentials current →
      request.judge current = .refuse rejection →
      Explained point db auth rules pid request (.refused rejection)
  | me {current : Except Auth.Rejection Auth.User} {user : Auth.User} :
      Recognised reader settings platform collation point db request.credentials current →
      request.judge current = .me user →
      Explained point db auth rules pid request (.me (meResponse user))
  | preflight {current : Except Auth.Rejection Auth.User} {draft : Detection.Draft python} :
      Recognised reader settings platform collation point db request.credentials current →
      request.judge current = .preflightRule draft →
      Explained point db auth rules pid request (.preflight draft.request.selectorNames)
  | auth {call : Auth.AuthCall} {result : Except Auth.AuthError Auth.AuthResponse} :
      auth.process pid = some (call, .finished result) →
      Explained point db auth rules pid request (.auth result)
  | rules {call : UUID × Detection.RuleCall python}
      {result : Except Detection.ServiceError Detection.Response} :
      rules.process pid = some (call, .finished result) →
      Explained point db auth rules pid request (.rules result)

variable
    {reader}
    {settings}
    {platform}
    {collation}
    {config : ApiConfig python}
    {auth : AuthConfig}
    {rules : RulesConfig python}
    {point : Point}
    {since : ProcId → Point}

/-- Unless SQLAlchemy has raised, the user decides. -/
theorem Grounds.exists_judged
    {db : ApiDb}
    {request : Request python}
    {decision : Decision python}
    (grounds : Grounds reader settings platform collation point request (.ok decision) db)
    (notFailed : ∀ error, decision ≠ .fail error) :
    ∃ current,
      Recognised reader settings platform collation point db request.credentials current ∧
      request.judge current = decision := by
  rcases grounds with ⟨error, isFail⟩ | ⟨current, isDecision, recognised⟩
  · exact absurd isFail (notFailed error)
  · exact ⟨current, recognised, isDecision.symm⟩

/-- A call of the rules is for the user of its request. -/
theorem exists_permitted
    {pid : ProcId}
    {ownerId : UUID}
    {call : Detection.RuleCall python}
    (ofRules : (rulesDesk reader settings platform collation python).Mirrors
      (fun pid _ phase db => phase.Means platform collation since pid db)
      (fun pid => Grounds reader settings platform collation (since pid)) config rules)
    (serves : Serves rules pid (ownerId, call)) :
    ∃ credentials user, Serves config pid ⟨credentials, .rules call⟩ ∧
      Recognised reader settings platform collation (since pid) config.shared credentials
        (.ok user) ∧
      user.isActive = true ∧ checkPermission (lit "rule:create") user = .ok user ∧
      user.id = ownerId := by
  obtain ⟨request, isServed, decision, grounds, isHandover⟩ := ofRules.belongs serves
  cases decision with
  | rules ownerId' call' =>
      obtain ⟨rfl, rfl⟩ := Prod.mk.inj (Option.some.inj isHandover)
      obtain ⟨current, recognised, isDecision⟩ :=
        grounds.exists_judged fun _ isFail => nomatch isFail
      obtain ⟨isEndpoint, user, rfl, isPermitted, isOwner⟩ := judge_eq_rules isDecision
      obtain ⟨credentials, endpoint⟩ := request
      obtain rfl : endpoint = .rules call' := isEndpoint
      exact ⟨credentials, user, isServed, recognised, recognised.isActive, isPermitted, isOwner⟩
  | _ => cases isHandover

theorem before_start (db : ApiDb) (_ : ProcId) : Point.start.Before db :=
  ⟨Nat.zero_le _, List.nil_prefix⟩

end Runs

/-! ## A run -/

/-- The token of the only account. -/
def sampleToken : Str :=
  (Auth.Platform.encoding Auth.numbered).encode
    (Auth.accessClaims (.sample 0) 1 (lit "detection_engineer") 1 0)
    (Auth.Settings.sample 0).jwtPrivateKey

/-- A request to create the first draft. -/
def Request.sample : Request .coarse where
  credentials := some sampleToken
  endpoint := .rules (.create Detection.Draft.sample (.sample 1))

/-- The name of the role is text. -/
theorem isText_role : ∀ c ∈ lit "detection_engineer", isSurrogate c = false := by
  have isPlain : (lit "detection_engineer").all (fun c => !isSurrogate c) = true := by decide
  intro c isIn
  simpa using List.all_eq_true.mp isPlain c isIn

theorem isDecoded_sampleToken :
    Auth.decodeAccessToken .numbering (.sample 0) sampleToken 0 = .ok (.ofAccess
      (Auth.accessClaims (.sample 0) 1 (lit "detection_engineer") 1 0)) := by
  have isFresh : 0 < Auth.expiry (.sample 0) 0 := by decide
  have isVisible : strip (lit "detection_engineer") ≠ [] := by decide
  unfold sampleToken
  rw [Auth.decodeAccessToken_issued (Auth.numbering_reads (.sample 0)) isText_role 1 1
    (Nat.le_refl 0),
    if_pos isFresh, if_neg isVisible]

theorem isGranted_sample : checkPermission (lit "rule:create") (.sample 1) = .ok (.sample 1) := by
  have isListed : lit "rule:create" ∈ Auth.Orm.rolePermissions (lit "detection_engineer") := by
    decide
  simp only [checkPermission]
  rw [if_neg]
  exact fun denied => denied.2 isListed

/-- The requests so far have been served one after the other. -/
abbrev Served (now : Nat) (next : ProcId) (config : ApiConfig .coarse) : Prop :=
  InTurn (schema (.encoding Auth.numbered) .codePoints) Fault.database
    (handle .numbering (.sample 0) (.encoding Auth.numbered) .codePoints)
    (Auth.AuthStore.sample, Detection.RuleStore.empty) 0 now next config

/-- A detection engineer creates the first draft. -/
theorem served_sample :
    ∃ config, Served 0 1 config ∧
      config.process 0 = some (.sample, .finished (.ok (.rules (.ok (.receipt
        (Detection.receipt 1 (UUID.str 3) 2 1)))))) ∧
      (config.shared.committed (schema (.encoding Auth.numbered) .codePoints)).2 =
        (Detection.createWrites Detection.Draft.sample 1 (.sample 1)).foldl
          Detection.RuleStore.apply Detection.RuleStore.empty := by
  have start : Served 0 0 (.initial (Db.start
      (Auth.AuthStore.sample, Detection.RuleStore.empty) 0)) := inTurn_start _ _ _ _ _
  have isUser : Auth.AuthStore.sample.user 1 = some (.sample 1) := rfl
  have isRead := @solo_currentUser .numbering (.sample 0) (.encoding Auth.numbered) .codePoints 0
    (Auth.AuthStore.sample, Detection.RuleStore.empty) sampleToken _ 1 (.sample 1)
    isDecoded_sampleToken (Auth.subjectOf_issued 1 _ _ _) isUser rfl
  have isCreated := Detection.request_create .codePoints Detection.Draft.sample 1
    (Detection.creates_empty (.sample 1))
  have isCommitted : (Config.initial (Db.start
      (Auth.AuthStore.sample, Detection.RuleStore.empty) 0) : ApiConfig .coarse).shared.committed
        (schema (.encoding Auth.numbered) .codePoints) =
          (Auth.AuthStore.sample, Detection.RuleStore.empty) := rfl
  obtain ⟨config, served, isProcess, isStored⟩ := @serve_rules _ _ _ _ .coarse _ _ _ _ _ _ start
    isCommitted _ (.create Detection.Draft.sample (.sample 1)) _ isRead isGranted_sample _ isCreated
  dsimp only at isProcess isStored
  exact ⟨config, served, isProcess, isStored⟩

end Api
end SigmaForge
