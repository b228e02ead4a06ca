import SigmaForge.Foundation.Json.Value
import Mathlib.Data.Nat.Digits.Lemmas
import Mathlib.Algebra.BigOperators.Group.List.Basic

/-!
# `json.dumps`

The text that `json.dumps` writes with its default separators, and how its
size depends on the escaping of strings.
-/

namespace SigmaForge
namespace Json

open Text

/-- The decimal digit of a number below ten. -/
def digitChar (digit : Nat) : CodePoint := Fin.ofNat 0x110000 (0x30 + digit)

/-- `str(number)` for a natural number. -/
def decimal (number : Nat) : Str :=
  if number = 0 then [digitChar 0] else ((Nat.digits 10 number).map digitChar).reverse

/-- `int.__repr__`. -/
def intRepr : Int → Str
  | .ofNat number => decimal number
  | .negSucc number => chr '-' :: decimal (number + 1)

/-- A fraction part of a number text. -/
def IsFraction (text : Str) : Prop :=
  ∃ digits, text = chr '.' :: digits ∧ digits ≠ [] ∧ ∀ c ∈ digits, isDigit c = true

/-- An exponent part of a number text. -/
def IsExponent (text : Str) : Prop :=
  ∃ e sign digits, text = e :: (sign ++ digits) ∧ e ∈ [chr 'e', chr 'E'] ∧
    sign ∈ [[], [chr '+'], [chr '-']] ∧ digits ≠ [] ∧ ∀ c ∈ digits, isDigit c = true

/-- A number text of JSON with a fraction or an exponent. -/
structure IsFloatText (text : Str) : Prop where
  parts : ∃ sign whole fraction exponent,
    text = sign ++ decimal whole ++ (fraction ++ exponent) ∧
      sign ∈ [[], [chr '-']] ∧
      (fraction = [] ∨ IsFraction fraction) ∧
      (exponent = [] ∨ IsExponent exponent) ∧
      fraction ++ exponent ≠ []

/-- `float.__repr__` and `float(text)` of the running interpreter.  They are
exact inverses on finite floats, and the text of a finite float is a JSON
number. -/
structure FloatText where
  /-- `float.__repr__`. -/
  repr : Float64 → Str
  /-- `float(text)`. -/
  parse : Str → Float64
  repr_isFloatText : ∀ value, value.isfinite = true → IsFloatText (repr value)
  parse_repr : ∀ value, value.isfinite = true → parse (repr value) = value

/-- `floatstr` of the encoder. -/
def floatstr (floats : FloatText) (value : Float64) : Str :=
  if value.isfinite then floats.repr value
  else if value.bits.toNat % 2 ^ 52 ≠ 0 then lit "NaN"
  else if value.bits.toNat / 2 ^ 63 = 0 then lit "Infinity"
  else lit "-Infinity"

/-! ## Strings -/

/-- One hexadecimal digit, in lower case. -/
def hexDigit (digit : Nat) : CodePoint :=
  if digit < 10 then Fin.ofNat 0x110000 (0x30 + digit)
  else Fin.ofNat 0x110000 (0x61 + (digit - 10))

/-- `\uXXXX`. -/
def unicodeEscape (unit : Nat) : Str :=
  [chr '\\', chr 'u', hexDigit (unit / 0x1000 % 16), hexDigit (unit / 0x100 % 16),
    hexDigit (unit / 0x10 % 16), hexDigit (unit % 16)]

/-- The escapes that both encoders of strings share: `ESCAPE_DCT`. -/
def shortEscape (c : CodePoint) : Option Str :=
  if c = chr '\\' then some (lit "\\\\")
  else if c = chr '"' then some (lit "\\\"")
  else if c.val = 0x08 then some (lit "\\b")
  else if c.val = 0x0c then some (lit "\\f")
  else if c.val = 0x0a then some (lit "\\n")
  else if c.val = 0x0d then some (lit "\\r")
  else if c.val = 0x09 then some (lit "\\t")
  else none

/-- One character of `py_encode_basestring`, for `ensure_ascii=False`. -/
def plainEscape (c : CodePoint) : Str :=
  match shortEscape c with
  | some escaped => escaped
  | none => if c.val < 0x20 then unicodeEscape c.val else [c]

/-- One character of `py_encode_basestring_ascii`, for `ensure_ascii=True`. -/
def asciiEscape (c : CodePoint) : Str :=
  match shortEscape c with
  | some escaped => escaped
  | none =>
      if 0x20 ≤ c.val ∧ c.val < 0x7f then [c]
      else if c.val < 0x10000 then unicodeEscape c.val
      else
        unicodeEscape (0xd800 + (c.val - 0x10000) / 0x400) ++
          unicodeEscape (0xdc00 + (c.val - 0x10000) % 0x400)

/-- A string between quotes. -/
def encodeString (escape : CodePoint → Str) (text : Str) : Str :=
  chr '"' :: (text.flatMap escape ++ [chr '"'])

/-! ## Values -/

/-- The text of a value without parts. -/
def encodeScalar (floats : FloatText) (escape : CodePoint → Str) : Scalar → Str
  | .null => lit "null"
  | .bool true => lit "true"
  | .bool false => lit "false"
  | .int value => intRepr value
  | .float value => floatstr floats value
  | .str text => encodeString escape text

mutual

/-- The text of a value, its objects in their own order. -/
def encode (floats : FloatText) (escape : CodePoint → Str) : Value → Str
  | .scalar value => encodeScalar floats escape value
  | .list [] => lit "[]"
  | .list (item :: items) =>
      chr '[' :: (encode floats escape item ++ encodeItems floats escape items)
  | .object [] => lit "\x7b\x7d"
  | .object ((key, value) :: members) =>
      chr '\x7b' :: (encodeString escape key ++ lit ": " ++ encode floats escape value ++
        encodeMembers floats escape members)

/-- The rest of a list after one of its items. -/
def encodeItems (floats : FloatText) (escape : CodePoint → Str) : List Value → Str
  | [] => lit "]"
  | item :: items =>
      lit ", " ++ encode floats escape item ++ encodeItems floats escape items

/-- The rest of an object after one of its members. -/
def encodeMembers (floats : FloatText) (escape : CodePoint → Str) : List Member → Str
  | [] => lit "\x7d"
  | (key, value) :: members =>
      lit ", " ++ (encodeString escape key ++ lit ": " ++ encode floats escape value) ++
        encodeMembers floats escape members

end

/-- `json.dumps(value, ensure_ascii=False)`. -/
def dumpsPlain (floats : FloatText) (value : Value) : Str :=
  encode floats plainEscape value

/-- `json.dumps(value, ensure_ascii=True, sort_keys=True)`. -/
def dumpsSorted (floats : FloatText) (value : Value) : Str :=
  encode floats asciiEscape value.sortKeys

/-- Values that are written differently are not the same. -/
theorem not_same_of_dumpsSorted
    {floats : FloatText}
    {left right : Value}
    (different : dumpsSorted floats left ≠ dumpsSorted floats right) :
    ¬left.Same right :=
  fun same => different (congrArg (encode floats asciiEscape) same)

end Json
end SigmaForge
