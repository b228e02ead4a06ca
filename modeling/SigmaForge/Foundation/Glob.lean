import SigmaForge.Foundation.Text

/-!
# Wildcard patterns

`fnmatch.fnmatchcase` for patterns in which `*` is the only special character.
-/

namespace SigmaForge
namespace Text

/-- `fnmatchcase(name, pattern)`: `*` matches any text, every other character
itself. -/
def fnmatchcase (name : Str) : Str → Bool
  | [] => name.isEmpty
  | c :: pattern =>
      if c = chr '*' then name.tails.any fun rest => fnmatchcase rest pattern
      else
        match name with
        | [] => false
        | d :: rest => d == c && fnmatchcase rest pattern

/-- A pattern without `*` matches itself only. -/
theorem fnmatchcase_of_not_mem
    (name pattern : Str)
    (literal : chr '*' ∉ pattern) :
    fnmatchcase name pattern = true ↔ name = pattern := by
  induction pattern generalizing name with
  | nil => simp [fnmatchcase]
  | cons c pattern inductionHypothesis =>
      simp only [List.mem_cons, not_or] at literal
      have notStar : c ≠ chr '*' := fun isStar => literal.1 isStar.symm
      cases name with
      | nil => simp [fnmatchcase, notStar]
      | cons d rest => simp [fnmatchcase, notStar, inductionHypothesis rest literal.2]

end Text
end SigmaForge
