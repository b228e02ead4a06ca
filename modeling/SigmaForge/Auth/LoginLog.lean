import SigmaForge.Core.RequestRuns
import SigmaForge.Auth.Enumeration

/-!
# The log of logins

The endpoint of logins, in front of the service and behind the middleware.  It logs how a
login has failed, and no field of the request's body.
-/

namespace SigmaForge
namespace Auth

open Text Json SigmaForge.Core

/-! ## The endpoint -/

section Endpoint

variable
    (settings : Settings)
    (platform : Platform)
    (traceback : AuthError → Str)

end Endpoint

/-! ## What the endpoint logs -/

section Follows

variable
    {settings : Settings}
    {platform : Platform}
    {traceback : AuthError → Str}

end Follows

/-! ## Runs of logins -/

section Runs

variable
    {stopwatch : Stopwatch}
    {request : Core.Request}
    {id : UUID}

end Runs

/-! ### A login alone -/

end Auth
end SigmaForge
