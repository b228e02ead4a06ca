import SigmaForge.Foundation.Scanner
import SigmaForge.Foundation.SepBy

/-!
# The condition scanner and parser of the rule preflight

`_well_formed_boolean_condition` and the patterns it uses.  The parser keeps a
token position in the source; here each procedure takes the remaining tokens
and returns what is left of them.  A procedure that returns `False` in the
source makes every caller return `False`, so the position it leaves behind is
never read and is not modelled.
-/

namespace SigmaForge
namespace Detection

open Text Scanner SepBy

/-- `_MAX_CONDITION_NESTING`. -/
def maxConditionNesting : Nat := 64

/-- `[A-Za-z0-9_]`. -/
def isNameChar (c : CodePoint) : Bool :=
  isLetter c || isDigit c || c == chr '_'

/-- `[A-Za-z0-9_*]`. -/
def isWordChar (c : CodePoint) : Bool := isNameChar c || c == chr '*'

/-- `_SELECTOR_NAME.fullmatch`. -/
def selectorName : Str → Bool
  | [] => false
  | c :: rest => isLetter c && rest.all isNameChar

/-- `_CONDITION_PATTERN.fullmatch`. -/
def conditionPattern : Str → Bool
  | [] => false
  | c :: rest => isLetter c && rest.all isWordChar

/-- `_CONDITION_IDENTIFIERS`. -/
def conditionIdentifiers : TokenClass := fun c =>
  if isLetter c then some isWordChar else none

/-- `_CONDITION_TOKENS`. -/
def conditionTokens : TokenClass := fun c =>
  if isLetter c then some isWordChar
  else if isDigit c then some isDigit
  else if c = chr '(' ∨ c = chr ')' then some fun _ => false
  else none

/-- `_CONDITION_KEYWORDS`. -/
def conditionKeywords : List Str :=
  [lit "and", lit "or", lit "not", lit "of", lit "all", lit "them"]

/-- The loop over the characters that bounds the nesting of parentheses. -/
def withinNesting : Nat → Str → Bool
  | depth, [] => depth == 0
  | depth, c :: rest =>
      if c = chr '(' then
        if depth + 1 > maxConditionNesting then false else withinNesting (depth + 1) rest
      else if c = chr ')' then
        match depth with
        | 0 => false
        | depth + 1 => withinNesting depth rest
      else withinNesting depth rest

/-- The three consecutive tokens at every position that has two more. -/
def windows {τ : Type} : List τ → List (τ × τ × τ)
  | first :: operator :: target :: rest =>
      (first, operator, target) :: windows (operator :: target :: rest)
  | _ => []

/-- A window that the separator check rejects: a quantifier whose `of` touches
a neighbour. -/
def concatenatedQuantifier : Match × Match × Match → Bool
  | (first, operator, target) =>
      (isdigit first.group || lower first.group == lit "all") &&
        lower operator.group == lit "of" &&
        (operator.skipped.isEmpty || target.skipped.isEmpty)

/-- Why a parser procedure did not return `True`. -/
inductive Stop
  /-- It returned `False`. -/
  | rejected
  /-- The calls nest deeper than the budget. -/
  | recursionError
  deriving DecidableEq

/-- Whether the next token is the given keyword, in any case. -/
def isKeyword (keyword : Str) (token : Match) : Bool := lower token.group == keyword

mutual

/-- `atom`.  The first argument bounds how deep calls may nest. -/
def atom : Nat → List Match → Except Stop (List Match)
  | 0, _ => .error .recursionError
  | _ + 1, [] => .error .rejected
  | depth + 1, token :: rest =>
      if lower token.group = lit "not" then atom depth rest
      else if token.group = lit "(" then
        match disjunction depth rest with
        | .error failure => .error failure
        | .ok [] => .error .rejected
        | .ok (closing :: rest) =>
            if closing.group = lit ")" then .ok rest else .error .rejected
      else if lower token.group = lit "all" ∨ isdigit token.group = true then
        if isdigit token.group = true ∧ int token.group < 1 then .error .rejected
        else
          match rest with
          | operator :: target :: rest =>
              if lower operator.group ≠ lit "of" then .error .rejected
              else if lower target.group = lit "them" ∨
                  conditionPattern target.group = true then .ok rest
              else .error .rejected
          | _ => .error .rejected
      else if lower token.group ∈ conditionKeywords ∨ token.group = lit ")" ∨
          chr '*' ∈ token.group then .error .rejected
      else if selectorName token.group then .ok rest
      else .error .rejected

/-- `conjunction`. -/
def conjunction : Nat → List Match → Except Stop (List Match)
  | 0, _ => .error .recursionError
  | depth + 1, tokens => sepBy1 (isKeyword (lit "and")) (atom depth) tokens

/-- `disjunction`. -/
def disjunction : Nat → List Match → Except Stop (List Match)
  | 0, _ => .error .recursionError
  | depth + 1, tokens => sepBy1 (isKeyword (lit "or")) (conjunction depth) tokens

end

/-- A nesting of calls that no token list of this length exceeds. -/
def callBudget (tokens : List Match) : Nat := 3 * tokens.length + 3

/-- `disjunction() and index == len(tokens)`, with nothing bounding the calls. -/
def parsesAll (tokens : List Match) : Bool :=
  match disjunction (callBudget tokens) tokens with
  | .ok [] => true
  | _ => false

/-- `_well_formed_boolean_condition`. -/
def wellFormedBooleanCondition (condition : Str) : Bool :=
  let expression := beforeFirst (chr '|') condition
  if withinNesting 0 expression = false then false
  else
    let found := finditer conditionTokens expression
    if found.1.isEmpty then false
    else if found.1.any fun token => !(strip token.skipped).isEmpty then false
    else if !(strip found.2).isEmpty then false
    else if (windows found.1).any concatenatedQuantifier then false
    else parsesAll found.1

example : wellFormedBooleanCondition (lit "(1\tof sel_*) and not other | count() > 3") = true := by
  decide +kernel

example : wellFormedBooleanCondition (lit "2of them") = false := by
  decide +kernel

end Detection
end SigmaForge
