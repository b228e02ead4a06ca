import SigmaForge.Auth.Sequential

/-!
# The tables after each call

What the calls of the repositories leave in the tables, row by row, when they run alone.
-/

namespace SigmaForge
namespace Auth

open Text ReadCommitted

section Calls

variable
    {platform : Platform}
    {store : AuthStore}
    {time : Nat}

end Calls

end Auth
end SigmaForge
