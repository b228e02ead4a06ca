import SigmaForge.Foundation.Columns

/-!
# Passwords and tokens

The settings of authentication, and the functions on passwords and tokens.  What
the libraries and the database compute is a parameter.  Times are microseconds.
-/

namespace SigmaForge
namespace Auth

open Text

/-- `timedelta(seconds=…)`.  Its sum with a time is a `datetime` up to `datetimeMax`; later
ones are an `OverflowError` in the source, and here only numbers. -/
def seconds (count : Nat) : Nat := count * 1000000

/-- `datetime.max`, the last microsecond of the year 9999. -/
def datetimeMax : Nat := 253402300799999999

/-- `Settings`, as far as authentication reads them. -/
structure Settings where
  maxFailedLoginAttempts : Int
  lockoutDurationSeconds : Nat
  jwtAccessTokenTtlSeconds : Nat
  jwtRefreshTokenTtlSeconds : Nat
  jwtIssuer : Str
  jwtPrivateKey : Str
  maxFailedLoginAttempts_pos : 0 < maxFailedLoginAttempts
  lockoutDurationSeconds_pos : 0 < lockoutDurationSeconds

/-- At the given time, no sum with a duration of the settings overflows. -/
structure Settings.FitAt (settings : Settings) (time : Nat) : Prop where
  lockout : time + seconds settings.lockoutDurationSeconds ≤ datetimeMax
  accessToken : time + seconds settings.jwtAccessTokenTtlSeconds ≤ datetimeMax
  refreshToken : time + seconds settings.jwtRefreshTokenTtlSeconds ≤ datetimeMax

/-- The claims of an access token. -/
structure AccessClaims where
  sub : Str
  role : Str
  jti : Str
  iat : Nat
  exp : Nat
  iss : Str
  type : Str
  deriving DecidableEq

/-- What PostgreSQL and the libraries compute: `CITEXT` folds case, argon2
verifies passwords, SHA-256 hashes tokens and RS256 signs claims. -/
structure Platform where
  citext : Str → Str
  verify : Str → Str → Bool
  dummyHash : Str
  sha256 : Str → Str
  encode : AccessClaims → Str → Str

/-- What `secrets` and `uuid4` draw for a pair of tokens. -/
structure Draw where
  rawToken : Str
  tokenId : UUID
  jti : UUID

/-- The claims of `create_access_token`. -/
def accessClaims (settings : Settings) (userId : UUID) (role : Str) (jti : UUID) (now : Nat) :
    AccessClaims where
  sub := userId.str
  role := role
  jti := jti.str
  iat := now / 1000000
  exp := (now + seconds settings.jwtAccessTokenTtlSeconds) / 1000000
  iss := settings.jwtIssuer
  type := lit "access"

/-- `hash_refresh_token`. -/
def hashRefreshToken (platform : Platform) (rawToken : Str) : Str := platform.sha256 rawToken

end Auth
end SigmaForge
