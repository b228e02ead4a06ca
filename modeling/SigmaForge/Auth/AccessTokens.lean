import SigmaForge.Foundation.Uuid
import SigmaForge.Auth.Accountability
import SigmaForge.Auth.Attributes
import Mathlib.Logic.Equiv.List
import Mathlib.Data.Nat.Digits.Lemmas

/-!
# Access tokens

`decode_access_token` and `get_current_user`, which read what `create_access_token` has
written.  The access token of a pair authenticates its account until it expires.
-/

namespace SigmaForge
namespace Auth

open Text Json ReadCommitted

/-! ## Decoding -/

/-- The `dict` that `create_access_token` encodes. -/
def AccessClaims.members (claims : AccessClaims) : List Member :=
  [(lit "sub", .scalar (.str claims.sub)), (lit "role", .scalar (.str claims.role)),
    (lit "jti", .scalar (.str claims.jti)), (lit "iat", .scalar (.int claims.iat)),
    (lit "exp", .scalar (.int claims.exp)), (lit "iss", .scalar (.str claims.iss)),
    (lit "type", .scalar (.str claims.type))]

/-- What the libraries compute when a token is read. -/
structure TokenReader where
  jwtPublicKey : Str
  /-- `jwt.decode` of a token with a key, for an issuer, at a time. `InvalidTokenError` is
  nothing. -/
  decode : Str → Str → Str → Nat → Option (List Member)
  /-- The digit values of Unicode. -/
  decimal : CodePoint → Option (Fin 10)

/-- What `decode_access_token` raises. -/
inductive TokenError
  /-- `InvalidTokenError`, with its message if it is raised here. -/
  | invalidToken (message : Option Str)
  | keyError (name : Str)
  deriving DecidableEq

/-- `TokenPayload`. -/
structure TokenPayload where
  sub : Value
  role : Value
  jti : Value
  exp : Value
  iat : Value
  iss : Value

/-- `claims[name]`. -/
def claim (claims : List Member) (name : Str) : Except TokenError Value :=
  match Value.lookup name claims with
  | none => .error (.keyError name)
  | some value => .ok value

/-- `TokenPayload(claims)`. -/
def TokenPayload.ofClaims (claims : List Member) : Except TokenError TokenPayload := do
  let sub ← claim claims (lit "sub")
  let role ← claim claims (lit "role")
  let jti ← claim claims (lit "jti")
  let exp ← claim claims (lit "exp")
  let iat ← claim claims (lit "iat")
  let iss ← claim claims (lit "iss")
  pure ⟨sub, role, jti, exp, iat, iss⟩

/-- `claims.get(name) == text`. -/
def claimIs (claims : List Member) (name text : Str) : Bool :=
  match Value.lookup name claims with
  | some (.scalar (.str found)) => found = text
  | _ => false

/-- The check of a claim that has to be a string which is not blank. -/
def checkText (claims : List Member) (name : Str) : Except TokenError Str :=
  match Value.lookup name claims with
  | some (.scalar (.str text)) =>
      if strip text = [] then
        .error (.invalidToken (some (lit "invalid " ++ name ++ lit " claim")))
      else .ok text
  | _ => .error (.invalidToken (some (lit "invalid " ++ name ++ lit " claim")))

/-- The check of a claim that has to be an id. -/
def checkId (decimal : CodePoint → Option (Fin 10)) (text : Str) : Except TokenError Unit :=
  match UUID.parse decimal text with
  | none => .error (.invalidToken (some (lit "invalid token identifier")))
  | some _ => .ok ()

/-- The checks of `decode_access_token` on the claims of a token whose signature is right. -/
def checkClaims (decimal : CodePoint → Option (Fin 10)) (claims : List Member) :
    Except TokenError TokenPayload :=
  if claimIs claims (lit "type") (lit "access") then do
    let sub ← checkText claims (lit "sub")
    let _ ← checkText claims (lit "role")
    let jti ← checkText claims (lit "jti")
    checkId decimal sub
    checkId decimal jti
    TokenPayload.ofClaims claims
  else .error (.invalidToken (some (lit "not an access token")))

section Decoding

variable
    (reader : TokenReader)
    (settings : Settings)

/-- `decode_access_token`, at the given time. -/
def decodeAccessToken (token : Str) (now : Nat) : Except TokenError TokenPayload :=
  match reader.decode token reader.jwtPublicKey settings.jwtIssuer now with
  | none => .error (.invalidToken none)
  | some claims => checkClaims reader.decimal claims

/-- `uuid.UUID` of a claim: only a string is an id. -/
def subjectOf (payload : TokenPayload) : Option UUID :=
  match payload.sub with
  | .scalar (.str text) => UUID.parse reader.decimal text
  | _ => none

/-- What `get_current_user` raises. -/
inductive Rejection
  | http (exception : Orm.HTTPException)
  | keyError (name : Str)
  deriving DecidableEq

/-- `get_current_user`, with the bearer credentials of the request. -/
def currentUser (credentials : Option Str) : Orm.Handler (Except Rejection User) :=
  match credentials with
  | none => pure (.error (.http Orm.genericUnauthorized))
  | some token => do
      let now ← Orm.invoke .now
      match decodeAccessToken reader settings token now with
      | .error (.invalidToken _) => pure (.error (.http Orm.genericUnauthorized))
      | .error (.keyError name) => pure (.error (.keyError name))
      | .ok payload => do
          let current ← Orm.getCurrentUser (subjectOf reader payload)
          pure (current.mapError .http)

/-- What a request with these credentials gets from `get_current_user` in a session of its
own, and what it leaves in the tables. -/
def authenticated (platform : Platform) (credentials : Option Str) (now : Nat)
    (store : AuthStore) :
    Except AuthError (Except Orm.Attribute (Except Rejection User)) × AuthStore :=
  alone (schema platform) .database now
    ((Attributes.track Orm.after (currentUser reader settings credentials) Orm.nothing).interpret
      (sqlAlchemy platform)) store

/-! ## What is decoded -/

section Reading

variable
    {reader : TokenReader}
    {settings : Settings}
    {platform : Platform}

/-- The library reads the tokens of `create_access_token`: from the second in which they are
issued on, and before the one in which they expire. -/
def TokenReader.Reads (reader : TokenReader) (settings : Settings) (platform : Platform) : Prop :=
  ∀ userId role jti issuedAt now, (∀ c ∈ role, isSurrogate c = false) →
    reader.decode (platform.encode (accessClaims settings userId role jti issuedAt)
        settings.jwtPrivateKey) reader.jwtPublicKey settings.jwtIssuer now =
      if (accessClaims settings userId role jti issuedAt).iat * 1000000 ≤ now ∧
          now < (accessClaims settings userId role jti issuedAt).exp * 1000000 then
        some (accessClaims settings userId role jti issuedAt).members
      else none

/-- The row for an id, of an active account. -/
def activeUser (store : AuthStore) (subject : Option UUID) : Except Rejection User :=
  match subject.bind store.user with
  | none => .error (.http Orm.genericUnauthorized)
  | some user =>
      if user.isActive then .ok user else .error (.http Orm.genericUnauthorized)

/-- `is_active` is read from a row that has been loaded. -/
theorem track_onlyActive
    {α : Type}
    {user : User}
    {loaded : Attributes.Loaded Orm.Attribute}
    (isLoaded : loaded (.user user.id .isActive) = true)
    (rest : Option User → Orm.Handler α) :
    Attributes.track Orm.after ((Orm.onlyActive (some user)).bind rest) loaded =
      Attributes.track Orm.after (rest (if user.isActive then some user else none)) loaded :=
  if_pos isLoaded

/-- `get_current_user` reads the row of the subject. -/
theorem alone_getCurrentUser
    (subject : Option UUID)
    (now : Nat)
    (store : AuthStore) :
    alone (schema platform) .database now ((Attributes.track Orm.after
        ((Orm.getCurrentUser subject).bind fun current => .ret (current.mapError Rejection.http))
        Orm.nothing).interpret (sqlAlchemy platform)) store =
      (.ok (.ok (activeUser store subject)), store) := by
  cases subject with
  | none => rfl
  | some userId =>
      have isAnswered : answerAlone (schema platform) AuthError.database now
          (.execute (.selectUserById userId)) (store, []) = (.ok (store.user userId), store, []) :=
        rfl
      simp only [alone, Orm.getCurrentUser, Orm.invoke, Attributes.call, Program.perform,
        Program.bind_eq, Program.bind, Attributes.track, Program.interpret, sqlAlchemy, execute,
        Program.attempt, Program.solo, isAnswered]
      cases isFound : store.user userId with
      | none =>
          rw [activeUser, Option.bind_some, isFound]
          rfl
      | some user =>
          have isLoaded : Orm.loadUser user Orm.nothing (.user user.id .isActive) = true := by
            simp [Orm.loadUser, Orm.UserAttribute.isColumn]
          rw [activeUser, Option.bind_some, isFound]
          simp only [Orm.after, Program.bind_assoc]
          rw [track_onlyActive isLoaded]
          cases user.isActive <;> rfl

/-- What `get_current_user` does with a token. -/
theorem authenticated_some
    (token : Str)
    (now : Nat)
    (store : AuthStore) :
    authenticated reader settings platform (some token) now store =
      (.ok (.ok (match decodeAccessToken reader settings token now with
        | .error (.invalidToken _) => .error (.http Orm.genericUnauthorized)
        | .error (.keyError name) => .error (.keyError name)
        | .ok payload => activeUser store (subjectOf reader payload))), store) := by
  have isAnswered : answerAlone (schema platform) AuthError.database now .now (store, []) =
      (.ok now, store, []) :=
    rfl
  simp only [authenticated, alone, currentUser, Orm.invoke, Attributes.call, Program.perform,
    Program.bind_eq, Program.bind, Attributes.track, Program.interpret, sqlAlchemy, clock,
    Program.attempt, Program.solo, isAnswered]
  cases decodeAccessToken reader settings token now with
  | error error =>
      cases error with
      | invalidToken message => rfl
      | keyError name => rfl
  | ok payload => exact alone_getCurrentUser (subjectOf reader payload) now store

/-- The text of an id is not blank. -/
theorem strip_str (id : UUID) : strip id.str ≠ [] := by
  intro isBlank
  have isHyphen : chr '-' ∈ id.str := by
    have isLiteral : lit "-" = [chr '-'] := by decide
    simp [UUID.str, isLiteral]
  exact absurd ((strip_eq_nil_iff _).mp isBlank _ isHyphen) (by decide)

theorem checkText_of_text
    {claims : List Member}
    {name text : Str}
    (isText : Value.lookup name claims = some (.scalar (.str text)))
    (isVisible : strip text ≠ []) :
    checkText claims name = .ok text := by
  simp only [checkText, isText]
  rw [if_neg isVisible]

theorem checkText_of_blank
    {claims : List Member}
    {name text : Str}
    (isText : Value.lookup name claims = some (.scalar (.str text)))
    (isBlank : strip text = []) :
    checkText claims name =
      .error (.invalidToken (some (lit "invalid " ++ name ++ lit " claim"))) := by
  simp only [checkText, isText]
  rw [if_pos isBlank]

theorem checkId_str (decimal : CodePoint → Option (Fin 10)) (id : UUID) :
    checkId decimal id.str = .ok () := by
  rw [checkId, UUID.parse_str]

/-- The payload of claims. -/
def TokenPayload.ofAccess (claims : AccessClaims) : TokenPayload where
  sub := .scalar (.str claims.sub)
  role := .scalar (.str claims.role)
  jti := .scalar (.str claims.jti)
  exp := .scalar (.int claims.exp)
  iat := .scalar (.int claims.iat)
  iss := .scalar (.str claims.iss)

theorem ofClaims_members (claims : AccessClaims) :
    TokenPayload.ofClaims claims.members = .ok (.ofAccess claims) := rfl

/-- The claims of an access token pass the checks, unless the name of the role is blank. -/
theorem checkClaims_members
    (decimal : CodePoint → Option (Fin 10))
    {claims : AccessClaims}
    {userId jti : UUID}
    (isSub : claims.sub = userId.str)
    (isJti : claims.jti = jti.str)
    (isType : claims.type = lit "access") :
    checkClaims decimal claims.members =
      if strip claims.role = [] then .error (.invalidToken (some (lit "invalid role claim")))
      else .ok (.ofAccess claims) := by
  have hasType : claimIs claims.members (lit "type") (lit "access") = true := by
    change decide (claims.type = lit "access") = true
    rw [isType, decide_eq_true rfl]
  have hasSub : checkText claims.members (lit "sub") = .ok userId.str :=
    checkText_of_text (congrArg (fun text => some (Value.scalar (.str text))) isSub)
      (strip_str userId)
  have hasJti : checkText claims.members (lit "jti") = .ok jti.str :=
    checkText_of_text (congrArg (fun text => some (Value.scalar (.str text))) isJti)
      (strip_str jti)
  have hasRole : Value.lookup (lit "role") claims.members =
      some (.scalar (.str claims.role)) := rfl
  unfold checkClaims
  rw [hasType, if_pos rfl, hasSub, hasJti]
  by_cases isBlank : strip claims.role = []
  · rw [if_pos isBlank, checkText_of_blank hasRole isBlank]
    rfl
  · rw [if_neg isBlank, checkText_of_text hasRole isBlank]
    simp only [bind, Except.bind, checkId_str, ofClaims_members]

/-- The second in which an access token expires. -/
def expiry (settings : Settings) (issuedAt : Nat) : Nat :=
  (issuedAt + seconds settings.jwtAccessTokenTtlSeconds) / 1000000 * 1000000

/-- The subject of a token is its account. -/
theorem subjectOf_issued
    (userId : UUID)
    (role : Str)
    (jti : UUID)
    (issuedAt : Nat) :
    subjectOf reader (.ofAccess (accessClaims settings userId role jti issuedAt)) = some userId :=
  UUID.parse_str reader.decimal userId

/-- The token of an account is decoded until it expires. -/
theorem decodeAccessToken_issued
    (reads : reader.Reads settings platform)
    {role : Str}
    (isText : ∀ c ∈ role, isSurrogate c = false)
    (userId jti : UUID)
    {issuedAt now : Nat}
    (isIssued : issuedAt ≤ now) :
    decodeAccessToken reader settings (platform.encode
        (accessClaims settings userId role jti issuedAt) settings.jwtPrivateKey) now =
      if now < expiry settings issuedAt then
        if strip role = [] then .error (.invalidToken (some (lit "invalid role claim")))
        else .ok (.ofAccess (accessClaims settings userId role jti issuedAt))
      else .error (.invalidToken none) := by
  have isStart : issuedAt / 1000000 * 1000000 ≤ now :=
    (Nat.div_mul_le_self issuedAt 1000000).trans isIssued
  have isChecked : checkClaims reader.decimal
        (accessClaims settings userId role jti issuedAt).members =
      if strip role = [] then .error (.invalidToken (some (lit "invalid role claim")))
      else .ok (.ofAccess (accessClaims settings userId role jti issuedAt)) :=
    checkClaims_members reader.decimal rfl rfl rfl
  unfold decodeAccessToken
  rw [reads userId role jti issuedAt now isText]
  by_cases isFresh : now < expiry settings issuedAt
  · rw [if_pos ⟨isStart, isFresh⟩, if_pos isFresh]
    exact isChecked
  · rw [if_neg fun isTimely => isFresh isTimely.2, if_neg isFresh]

/-- The token of an account is accepted until it expires. -/
theorem authenticated_issued
    (reads : reader.Reads settings platform)
    {role : Str}
    (isText : ∀ c ∈ role, isSurrogate c = false)
    (userId jti : UUID)
    {issuedAt now : Nat}
    (isIssued : issuedAt ≤ now)
    (store : AuthStore) :
    authenticated reader settings platform (some (platform.encode
        (accessClaims settings userId role jti issuedAt) settings.jwtPrivateKey)) now store =
      (.ok (.ok (if now < expiry settings issuedAt ∧ strip role ≠ [] then
          activeUser store (some userId)
        else .error (.http Orm.genericUnauthorized))), store) := by
  rw [authenticated_some, decodeAccessToken_issued reads isText userId jti isIssued]
  by_cases isFresh : now < expiry settings issuedAt
  · rw [if_pos isFresh]
    by_cases isBlank : strip role = []
    · rw [if_pos isBlank, if_neg fun isAccepted => isAccepted.2 isBlank]
    · rw [if_neg isBlank, if_pos ⟨isFresh, isBlank⟩]
      simp only [subjectOf_issued]
  · rw [if_neg isFresh, if_neg fun isAccepted => isFresh isAccepted.1]

end Reading

end Decoding

/-! ## The accounts of a run -/

/-- The same account: the rows differ in the login columns at most. -/
def SameAccount (user row : User) : Prop := ∃ columns, row = { user with toLoginColumns := columns }

theorem SameAccount.refl (user : User) : SameAccount user user := ⟨user.toLoginColumns, rfl⟩

theorem SameAccount.updated
    {user row : User}
    (same : SameAccount user row)
    (userId : UUID)
    (columns : LoginColumns) :
    SameAccount user (AuthTables.updatedUser userId columns row) := by
  unfold AuthTables.updatedUser
  split_ifs
  · cases same with
    | intro earlier isRow => exact ⟨columns, by rw [isRow]⟩
  · exact same

/-- Writes make and remove no account, and change its login columns at most. -/
theorem sameAccount_apply
    {first store : AuthStore}
    {id : UUID}
    (same : Option.Rel SameAccount (first.user id) (store.user id))
    (write : Write) :
    Option.Rel SameAccount (first.user id) ((store.apply write).user id) := by
  have ofOther : (∀ userId columns, write ≠ .updateLogin userId columns) →
      Option.Rel SameAccount (first.user id) ((store.apply write).user id) := by
    intro notUpdate
    rw [AuthStore.user_apply_of_other notUpdate]
    exact same
  cases write with
  | updateLogin userId columns =>
      rw [AuthStore.user_updateLogin]
      generalize first.user id = wasFound at same ⊢
      generalize store.user id = found at same ⊢
      cases same with
      | none => exact .none
      | some same => exact .some (same.updated userId columns)
  | insertToken token => exact ofOther fun _ _ isUpdate => Write.noConfusion isUpdate
  | revokeToken tokenId revokedAt => exact ofOther fun _ _ isUpdate => Write.noConfusion isUpdate

/-- The accounts are the same along a history. -/
theorem sameAccount_replay
    {platform : Platform}
    (initial : AuthStore)
    (log events : List (Event Key Write))
    (id : UUID) :
    Option.Rel SameAccount ((replay (schema platform) initial log).user id)
      ((replay (schema platform) initial (log ++ events)).user id) := by
  have kept : ∀ store write,
      Option.Rel SameAccount ((replay (schema platform) initial log).user id) (store.user id) →
      Option.Rel SameAccount ((replay (schema platform) initial log).user id)
        (((schema platform).apply store write).user id) :=
    fun _ write same => sameAccount_apply same write
  apply replay_kept kept
  cases (replay (schema platform) initial log).user id with
  | none => exact .none
  | some user => exact .some (.refl user)

section Runs

variable
    {reader : TokenReader}
    {settings : Settings}
    {platform : Platform}
    {initial : AuthStore}
    {clock : Nat}
    {config : Config AuthError (SessionAnswer Answer) AuthCall AuthDb AuthResponse}

/-- Whoever has been seen had an account at first. -/
theorem SeenUser.account
    {log : List (Event Key Write)}
    {user : User}
    (seen : SeenUser platform initial log user) :
    ∃ first ∈ initial.users, SameAccount first user := by
  obtain ⟨moment, _, isSeen⟩ := seen
  have isAccount : Option.Rel SameAccount (initial.user user.id)
      ((replay (schema platform) initial moment).user user.id) :=
    sameAccount_replay initial [] moment user.id
  rw [isSeen] at isAccount
  cases wasFound : initial.user user.id with
  | none =>
      rw [wasFound] at isAccount
      cases isAccount
  | some first =>
      rw [wasFound] at isAccount
      cases isAccount with
      | some same => exact ⟨first, List.mem_of_find?_eq_some wasFound, same⟩

/-- In every run of any number of requests, the access token of a pair that has been returned
carries the claims of one account, which was active when the request has read it, and
authenticates it: from then on `get_current_user` gives the row that the account has at that
time, until the token expires, and 401 afterwards.  The refresh token of the pair descends, for
the same account, from one that was there at first or that was issued in exchange for the
password. -/
theorem access_tokens_authenticate
    (reads : reader.Reads settings platform)
    (isText : ∀ user ∈ initial.users, ∀ c ∈ user.roleName, isSurrogate c = false)
    (reachable : Reachable (sessionMachine platform) (serve settings platform)
      (Db.start initial clock) config)
    {pid : ProcId}
    {call : AuthCall}
    {pair : TokenPair}
    (returned : HasReturned config pid call (.pair pair)) :
    ∃ draw user issuedAt token, call.draw = some draw ∧
      pair = tokenPair settings (platform.encode
        (accessClaims settings user.id user.roleName draw.jti issuedAt) settings.jwtPrivateKey)
        draw.rawToken ∧
      SeenUser platform initial config.shared.log user ∧ user.isActive = true ∧
      token.userId = user.id ∧ token.tokenHash = hashRefreshToken platform pair.refreshToken ∧
      Traced platform config token ∧ issuedAt ≤ config.shared.clock ∧
      ∀ later, Steps (sessionMachine platform) (serve settings platform) config later →
        ∃ row, (later.shared.committed (schema platform)).user user.id = some row ∧
          SameAccount user row ∧
          authenticated reader settings platform (some pair.accessToken) later.shared.clock
              (later.shared.committed (schema platform)) =
            (.ok (.ok (if later.shared.clock < expiry settings issuedAt ∧
                strip user.roleName ≠ [] then .ok row
              else .error (.http Orm.genericUnauthorized))),
              later.shared.committed (schema platform)) := by
  have isInitial : config.shared.initial = initial := (log_extends reachable).1
  obtain ⟨draw, user, isDraw, isPairOf⟩ := pair_of_returned reachable returned
  obtain ⟨issuedAt, isIssued, isTokens⟩ := isPairOf.pair
  obtain ⟨token, issued, isOwner, isHash, _⟩ := isPairOf.refreshToken
  have seen : SeenUser platform initial config.shared.log user := isInitial ▸ isPairOf.seen
  have isTraced : Traced platform config token :=
    traced_of_stored reachable List.prefix_rfl (issued.stored reachable)
  refine ⟨draw, user, issuedAt, token, isDraw, isTokens, seen, isPairOf.isActive, isOwner, ?_,
    isTraced, isIssued, ?_⟩
  · rw [isHash, isTokens]
    rfl
  intro later steps
  obtain ⟨moment, ⟨events, isBefore⟩, isSeen⟩ := seen
  obtain ⟨sameInitial, events', isLog⟩ := log_extends steps
  have isAccount : Option.Rel SameAccount (some user)
      ((later.shared.committed (schema platform)).user user.id) := by
    rw [← isSeen, Db.committed, isLog, ← isBefore, sameInitial, isInitial, List.append_assoc]
    exact sameAccount_replay initial moment (events ++ events') user.id
  have isPlain : ∀ c ∈ user.roleName, isSurrogate c = false := by
    obtain ⟨first, isFirst, columns, isUser⟩ := isPairOf.seen.account
    rw [isUser]
    exact isText first (isInitial ▸ isFirst)
  cases isFound : (later.shared.committed (schema platform)).user user.id with
  | none =>
      rw [isFound] at isAccount
      cases isAccount
  | some row =>
      rw [isFound] at isAccount
      cases isAccount with
      | some same =>
          have isActive : row.isActive = true := by
            cases same with
            | intro columns isRow => rw [isRow, isPairOf.isActive]
          have isRow : activeUser (later.shared.committed (schema platform)) (some user.id) =
              .ok row := by
            rw [activeUser, Option.bind_some, isFound]
            exact if_pos isActive
          refine ⟨row, rfl, same, ?_⟩
          rw [isTokens, ← isRow]
          exact authenticated_issued reads isPlain user.id draw.jti
            (isIssued.trans (clock_along steps)) _

end Runs

/-! ## A reader of tokens -/

/-- A text for a number. -/
def textOf (number : Nat) : Str := (Nat.digits 0x110000 number).map (Fin.ofNat 0x110000)

/-- The number that a text stands for. -/
def numberOf (text : Str) : Nat := Nat.ofDigits 0x110000 (text.map Fin.val)

theorem numberOf_textOf (number : Nat) : numberOf (textOf number) = number := by
  have sameDigits : ((Nat.digits 0x110000 number).map (Fin.ofNat 0x110000)).map Fin.val =
      (Nat.digits 0x110000 number).map id := by
    rw [List.map_map]
    apply List.map_congr_left
    intro digit isDigit
    exact Nat.mod_eq_of_lt (Nat.digits_lt_base (by decide) isDigit)
  rw [numberOf, textOf, sameDigits, List.map_id, Nat.ofDigits_digits]

/-- A platform with another way to encode tokens. -/
def Platform.encoding (encode : AccessClaims → Str → Str) : Platform :=
  { Platform.plain with encode }

theorem encoding_encode
    (encode : AccessClaims → Str → Str)
    (claims : AccessClaims)
    (key : Str) :
    (Platform.encoding encode).encode claims key = encode claims key := rfl

/-- A token is the number of its claims. -/
def numbered (claims : AccessClaims) (_ : Str) : Str :=
  textOf (Encodable.encode
    (claims.sub, claims.role, claims.jti, claims.iat, claims.exp, claims.iss, claims.type))

/-- The claims of a token. -/
def claimsOf (token : Str) : Option AccessClaims :=
  (Encodable.decode (numberOf token) : Option (Str × Str × Str × Nat × Nat × Str × Str)).map
    fun (sub, role, jti, iat, exp, iss, type) => ⟨sub, role, jti, iat, exp, iss, type⟩

theorem claimsOf_numbered (claims : AccessClaims) (key : Str) :
    claimsOf (numbered claims key) = some claims := by
  rw [claimsOf, numbered, numberOf_textOf, Encodable.encodek]
  rfl

/-- A reader of these tokens. -/
def TokenReader.numbering : TokenReader where
  jwtPublicKey := []
  decode token _ issuer now :=
    match claimsOf token with
    | none => none
    | some claims =>
        if claims.iss = issuer ∧ claims.iat * 1000000 ≤ now ∧ now < claims.exp * 1000000 then
          some claims.members
        else none
  decimal _ := none

theorem numbering_decode
    {token : Str}
    {claims : AccessClaims}
    (isToken : claimsOf token = some claims)
    (key issuer : Str)
    (now : Nat) :
    TokenReader.numbering.decode token key issuer now =
      if claims.iss = issuer ∧ claims.iat * 1000000 ≤ now ∧ now < claims.exp * 1000000 then
        some claims.members
      else none := by
  simp only [TokenReader.numbering, isToken]

theorem numbering_reads (settings : Settings) :
    TokenReader.numbering.Reads settings (.encoding numbered) := by
  intro userId role jti issuedAt now _
  have isIssuer : (accessClaims settings userId role jti issuedAt).iss = settings.jwtIssuer := rfl
  generalize accessClaims settings userId role jti issuedAt = claims at isIssuer ⊢
  rw [encoding_encode, numbering_decode (claimsOf_numbered claims settings.jwtPrivateKey)]
  exact if_congr (and_iff_right isIssuer) rfl rfl

/-- The pair of the first login. -/
def TokenPair.encoded (encode : AccessClaims → Str → Str) : TokenPair :=
  tokenPair (Settings.sample 0) (encode
    (accessClaims (Settings.sample 0) 1 (User.sample 1).roleName (Draw.sample 1).jti 0)
    (Settings.sample 0).jwtPrivateKey) (Draw.sample 1).rawToken

/-- However tokens are encoded, a login returns a pair. -/
theorem login_returns (encode : AccessClaims → Str → Str) :
    ∃ config : Config AuthError (SessionAnswer Answer) AuthCall AuthDb AuthResponse,
      Reachable (sessionMachine (.encoding encode)) (serve (Settings.sample 0) (.encoding encode))
        (Db.start AuthStore.sample 0) config ∧
      HasReturned config 0 (.sample (lit "right") 1) (.pair (.encoded encode)) ∧
      config.shared.clock = 0 := by
  have start : InTurn (schema (.encoding encode)) AuthError.database
      (serve (Settings.sample 0) (.encoding encode)) AuthStore.sample 0 0 0
      (.initial (Db.start AuthStore.sample 0)) := inTurn_start _ _ _ _ _
  have isServed : alone (schema (.encoding encode)) AuthError.database 0
      (serve (Settings.sample 0) (.encoding encode) (.sample (lit "right") 1)) AuthStore.sample =
        (_, _) := (Prod.eta _).symm
  obtain ⟨config, _, served, isProcess, _⟩ := start.serve rfl isServed
  exact ⟨config, served.reachable, ⟨_, isProcess, rfl⟩, served.isClock⟩

theorem sample_access_tokens_authenticate :
    ∃ config : Config AuthError (SessionAnswer Answer) AuthCall AuthDb AuthResponse,
      Reachable (sessionMachine (.encoding numbered))
        (serve (Settings.sample 0) (.encoding numbered)) (Db.start AuthStore.sample 0) config ∧
      HasReturned config 0 (.sample (lit "right") 1) (.pair (.encoded numbered)) ∧
      ∃ row, row.email = lit "user@corp.com" ∧
        (authenticated .numbering (Settings.sample 0) (.encoding numbered)
          (some (TokenPair.encoded numbered).accessToken) config.shared.clock
          (config.shared.committed (schema (.encoding numbered)))).1 = .ok (.ok (.ok row)) := by
  obtain ⟨config, steps, returned, isClock⟩ := login_returns numbered
  have onlySample : ∀ user ∈ AuthStore.sample.users, user = User.sample 1 := by
    intro user isUser
    exact List.mem_singleton.mp isUser
  have isText : ∀ user ∈ AuthStore.sample.users, ∀ c ∈ user.roleName, isSurrogate c = false := by
    intro user isUser
    have isPlain : (lit "detection_engineer").all (fun c => !isSurrogate c) = true := by decide
    intro c isIn
    rw [onlySample user isUser] at isIn
    simpa using List.all_eq_true.mp isPlain c isIn
  obtain ⟨_, user, issuedAt, _, _, _, seen, _, _, _, _, isIssued, later⟩ :=
    access_tokens_authenticate (numbering_reads _) isText steps returned
  obtain ⟨row, _, ⟨columns, isRow⟩, isAnswer⟩ := later config .refl
  obtain ⟨first, isFirst, columns', isUser⟩ := seen.account
  rw [onlySample first isFirst] at isUser
  subst isUser
  have isVisible : strip (lit "detection_engineer") ≠ [] := by decide
  have isFresh : config.shared.clock < expiry (Settings.sample 0) issuedAt := by
    have isZero : issuedAt = 0 := Nat.le_zero.mp (isIssued.trans isClock.le)
    rw [isClock, isZero]
    decide
  refine ⟨config, steps, returned, row, by rw [isRow]; rfl, ?_⟩
  rw [isAnswer, if_pos ⟨isFresh, isVisible⟩]

end Auth
end SigmaForge
