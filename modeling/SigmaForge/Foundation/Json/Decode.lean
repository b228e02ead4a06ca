import SigmaForge.Foundation.Json.Encode

/-!
# `json.loads`

The scanner behind `json.loads` with an `object_pairs_hook` and a
`parse_constant`.  A procedure takes the text from its position on and returns
what it read together with the text after it.
-/

namespace SigmaForge
namespace Json

open Text

/-- What `json.loads` raises. -/
inductive LoadError
  /-- `JSONDecodeError`, a number that `int` refuses, or a `ValueError` of a
  hook. -/
  | valueError
  /-- The calls nest deeper than the budget. -/
  | recursionError
  deriving DecidableEq

/-- The hooks given to `json.loads`.  A hook that returns nothing has raised
`ValueError`. -/
structure Hooks where
  objectPairs : List Member → Option Value
  parseConstant : Str → Option Value

/-! ## Strings -/

/-- The value of a hexadecimal digit. -/
def hexValue (c : CodePoint) : Option Nat :=
  if isDigit c then some (c.val - 0x30)
  else if 0x61 ≤ c.val ∧ c.val ≤ 0x66 then some (c.val - 0x61 + 10)
  else if 0x41 ≤ c.val ∧ c.val ≤ 0x46 then some (c.val - 0x41 + 10)
  else none

/-- The value of the four digits of a `\uXXXX` escape. -/
def codeUnit (a b c d : CodePoint) : Option Nat :=
  match hexValue a, hexValue b, hexValue c, hexValue d with
  | some a, some b, some c, some d => some (((a * 16 + b) * 16 + c) * 16 + d)
  | _, _, _, _ => none

/-- The low surrogate that the text starts with, as an escape. -/
def lowSurrogate : Str → Option Nat
  | backslash :: u :: a :: b :: c :: d :: _ =>
      if backslash = chr '\\' ∧ u = chr 'u' then
        match codeUnit a b c d with
        | some unit => if 0xdc00 ≤ unit ∧ unit ≤ 0xdfff then some unit else none
        | none => none
      else none
  | _ => none

/-- `BACKSLASH`: the character that a one-letter escape stands for. -/
def unescape (c : CodePoint) : Option CodePoint :=
  if c = chr '"' ∨ c = chr '\\' ∨ c = chr '/' then some c
  else if c = chr 'b' then some 0x08
  else if c = chr 'f' then some 0x0c
  else if c = chr 'n' then some 0x0a
  else if c = chr 'r' then some 0x0d
  else if c = chr 't' then some 0x09
  else none

/-- One more character in front of the string that was read. -/
def prepend (c : CodePoint) : Option (Str × Str) → Option (Str × Str)
  | some (text, rest) => some (c :: text, rest)
  | none => none

/-- `scanstring`, from after the opening quote.  A low surrogate escape joins
the high one in front of it. -/
def scanString : Str → Option (Str × Str)
  | [] => none
  | c :: rest =>
      if c = chr '"' then some ([], rest)
      else if c.val < 0x20 then none
      else if c ≠ chr '\\' then prepend c (scanString rest)
      else
        match rest with
        | [] => none
        | u :: rest =>
            if u ≠ chr 'u' then
              match unescape u with
              | some c => prepend c (scanString rest)
              | none => none
            else
              match rest with
              | a :: b :: c :: d :: rest =>
                  match codeUnit a b c d with
                  | none => none
                  | some unit =>
                      match
                        if 0xd800 ≤ unit ∧ unit ≤ 0xdbff then lowSurrogate rest else none,
                        rest
                      with
                      | some low, _ :: _ :: _ :: _ :: _ :: _ :: rest =>
                          prepend
                            (Fin.ofNat 0x110000
                              (0x10000 + (unit - 0xd800) * 0x400 + (low - 0xdc00)))
                            (scanString rest)
                      | _, rest => prepend (Fin.ofNat 0x110000 unit) (scanString rest)
              | _ => none

/-! ## Numbers -/

/-- The sign of a number, and the text after it. -/
def takeSign : Str → Str × Str
  | [] => ([], [])
  | c :: rest => if c = chr '-' then ([c], rest) else ([], c :: rest)

/-- The whole part of a number: `0`, or digits that do not start with `0`. -/
def takeWhole : Str → Option (Str × Str)
  | [] => none
  | c :: rest =>
      if c = chr '0' then some ([c], rest)
      else if isDigit c then some (c :: rest.takeWhile isDigit, rest.dropWhile isDigit)
      else none

/-- The fraction of a number, if there is one. -/
def takeFraction : Str → Str × Str
  | point :: c :: rest =>
      if point = chr '.' ∧ isDigit c = true then
        (point :: c :: rest.takeWhile isDigit, rest.dropWhile isDigit)
      else ([], point :: c :: rest)
  | text => ([], text)

/-- The sign of an exponent, and the text after it. -/
def takeExponentSign : Str → Str × Str
  | [] => ([], [])
  | c :: rest => if c = chr '-' ∨ c = chr '+' then ([c], rest) else ([], c :: rest)

/-- The exponent of a number, if there is one. -/
def takeExponent : Str → Str × Str
  | [] => ([], [])
  | e :: text =>
      if e = chr 'e' ∨ e = chr 'E' then
        let (sign, rest) := takeExponentSign text
        let digits := rest.takeWhile isDigit
        if digits.isEmpty then ([], e :: text)
        else (e :: (sign ++ digits), rest.dropWhile isDigit)
      else ([], e :: text)

/-- `sys.int_info.default_max_str_digits`. -/
def maxStrDigits : Nat := 4300

/-- `_match_number_unicode`. -/
def scanNumber (floats : FloatText) (text : Str) : Except LoadError (Scalar × Str) :=
  let (sign, unsigned) := takeSign text
  match takeWhole unsigned with
  | none => .error .valueError
  | some (whole, rest) =>
      let (fraction, rest) := takeFraction rest
      let (exponent, rest) := takeExponent rest
      if fraction ++ exponent ≠ [] then
        .ok (.float (floats.parse (sign ++ whole ++ (fraction ++ exponent))), rest)
      else if whole.length > maxStrDigits then .error .valueError
      else if sign ≠ [] then .ok (.int (-(int whole : Int)), rest)
      else .ok (.int (int whole), rest)

/-! ## Values -/

/-- `WHITESPACE`. -/
def isWhitespace (c : CodePoint) : Bool :=
  c == chr ' ' || c == chr '\t' || c == chr '\n' || c == chr '\r'

/-- The text after its leading white space. -/
def skipWhitespace (text : Str) : Str := text.dropWhile isWhitespace

/-- The result of a hook, in front of the remaining text. -/
def hooked (result : Option Value) (rest : Str) : Except LoadError (Value × Str) :=
  match result with
  | some value => .ok (value, rest)
  | none => .error .valueError

/-- The values that are not objects, lists or strings. -/
def scanLiteral (floats : FloatText) (hooks : Hooks) (text : Str) :
    Except LoadError (Value × Str) :=
  if (lit "null").isPrefixOf text then .ok (.scalar .null, text.drop 4)
  else if (lit "true").isPrefixOf text then .ok (.scalar (.bool true), text.drop 4)
  else if (lit "false").isPrefixOf text then .ok (.scalar (.bool false), text.drop 5)
  else if (lit "NaN").isPrefixOf text then hooked (hooks.parseConstant (lit "NaN")) (text.drop 3)
  else if (lit "Infinity").isPrefixOf text then
    hooked (hooks.parseConstant (lit "Infinity")) (text.drop 8)
  else if (lit "-Infinity").isPrefixOf text then
    hooked (hooks.parseConstant (lit "-Infinity")) (text.drop 9)
  else
    match scanNumber floats text with
    | .error failure => .error failure
    | .ok (number, rest) => .ok (.scalar number, rest)

mutual

/-- `scan_once`.  The first argument bounds how deep calls may nest. -/
def scanOnce (floats : FloatText) (hooks : Hooks) :
    Nat → Str → Except LoadError (Value × Str)
  | 0, _ => .error .recursionError
  | _ + 1, [] => .error .valueError
  | depth + 1, c :: rest =>
      if c = chr '"' then
        match scanString rest with
        | none => .error .valueError
        | some (text, rest) => .ok (.scalar (.str text), rest)
      else if c = chr '\x7b' then
        match skipWhitespace rest with
        | [] => .error .valueError
        | d :: rest =>
            if d = chr '\x7d' then hooked (hooks.objectPairs []) rest
            else
              match scanMembers floats hooks depth (d :: rest) with
              | .error failure => .error failure
              | .ok (members, rest) => hooked (hooks.objectPairs members) rest
      else if c = chr '[' then
        match skipWhitespace rest with
        | [] => .error .valueError
        | d :: rest =>
            if d = chr ']' then .ok (.list [], rest)
            else
              match scanItems floats hooks depth (d :: rest) with
              | .error failure => .error failure
              | .ok (items, rest) => .ok (.list items, rest)
      else scanLiteral floats hooks (c :: rest)

/-- The loop of `_parse_array_unicode`. -/
def scanItems (floats : FloatText) (hooks : Hooks) :
    Nat → Str → Except LoadError (List Value × Str)
  | 0, _ => .error .recursionError
  | depth + 1, text =>
      match scanOnce floats hooks depth text with
      | .error failure => .error failure
      | .ok (item, rest) =>
          match skipWhitespace rest with
          | [] => .error .valueError
          | c :: rest =>
              if c = chr ']' then .ok ([item], rest)
              else if c = chr ',' then
                match scanItems floats hooks depth (skipWhitespace rest) with
                | .error failure => .error failure
                | .ok (items, rest) => .ok (item :: items, rest)
              else .error .valueError

/-- The loop of `_parse_object_unicode`. -/
def scanMembers (floats : FloatText) (hooks : Hooks) :
    Nat → Str → Except LoadError (List Member × Str)
  | 0, _ => .error .recursionError
  | _ + 1, [] => .error .valueError
  | depth + 1, quote :: text =>
      if quote ≠ chr '"' then .error .valueError
      else
        match scanString text with
        | none => .error .valueError
        | some (key, rest) =>
            match skipWhitespace rest with
            | [] => .error .valueError
            | colon :: rest =>
                if colon ≠ chr ':' then .error .valueError
                else
                  match scanOnce floats hooks depth (skipWhitespace rest) with
                  | .error failure => .error failure
                  | .ok (value, rest) =>
                      match skipWhitespace rest with
                      | [] => .error .valueError
                      | c :: rest =>
                          if c = chr '\x7d' then .ok ([(key, value)], rest)
                          else if c = chr ',' then
                            match scanMembers floats hooks depth (skipWhitespace rest) with
                            | .error failure => .error failure
                            | .ok (members, rest) => .ok ((key, value) :: members, rest)
                          else .error .valueError

end

/-- A nesting of calls that no text of this length exceeds. -/
def scanBudget (text : Str) : Nat := 2 * text.length + 2

/-- `json.loads(text, object_pairs_hook=…, parse_constant=…)`, with nothing
bounding the calls. -/
def loads (floats : FloatText) (hooks : Hooks) (text : Str) : Except LoadError Value :=
  if text.head? = some 0xfeff then .error .valueError
  else
    match scanOnce floats hooks (scanBudget text) (skipWhitespace text) with
    | .error failure => .error failure
    | .ok (value, rest) =>
        match skipWhitespace rest with
        | [] => .ok value
        | _ :: _ => .error .valueError

end Json
end SigmaForge
