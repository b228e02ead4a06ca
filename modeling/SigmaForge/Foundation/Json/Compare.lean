import SigmaForge.Foundation.Json.Value

/-!
# Python equality of JSON values

`==` compares numbers by value, whatever their types: `True == 1 == 1.0`.
Dictionaries are equal if they have the same keys with equal values.
-/

namespace SigmaForge
namespace Json

/-- A number as Python compares it.  A finite number is scaled by `2 ^ 1074`,
which makes every finite float an integer. -/
inductive Number
  | finite (scaled : Int)
  | infinite (negative : Bool)
  | nan
  deriving DecidableEq

/-- The number that a float stands for. -/
def Float64.number (value : Float64) : Number :=
  let negative := value.bits.toNat / 2 ^ 63 == 1
  let exponent := value.bits.toNat / 2 ^ 52 % 2 ^ 11
  let mantissa := value.bits.toNat % 2 ^ 52
  if exponent = 2 ^ 11 - 1 then
    if mantissa = 0 then .infinite negative else .nan
  else
    let magnitude : Nat :=
      if exponent = 0 then mantissa else (2 ^ 52 + mantissa) * 2 ^ (exponent - 1)
    .finite (if negative then -magnitude else magnitude)

/-- The number that a scalar stands for, if it is one. -/
def Scalar.number : Scalar → Option Number
  | .bool value => some (.finite (if value then 2 ^ 1074 else 0))
  | .int value => some (.finite (value * 2 ^ 1074))
  | .float value => some value.number
  | .null => none
  | .str _ => none

/-- `==` on values without parts. -/
def Scalar.pyEq (left right : Scalar) : Bool :=
  match left.number, right.number with
  | some .nan, some _ => false
  | some left, some right => left == right
  | none, none => left == right
  | _, _ => false

namespace Value

mutual

/-- `==`. -/
def pyEq : Value → Value → Bool
  | .scalar left, .scalar right => left.pyEq right
  | .list left, .list right => pyEqItems left right
  | .object left, .object right => left.length == right.length && pyEqMembers left right
  | _, _ => false

/-- `==` on the items of lists. -/
def pyEqItems : List Value → List Value → Bool
  | [], [] => true
  | left :: lefts, right :: rights => pyEq left right && pyEqItems lefts rights
  | _, _ => false

/-- Whether every member is in the dictionary with an equal value. -/
def pyEqMembers : List Member → List Member → Bool
  | [], _ => true
  | (key, left) :: lefts, members =>
      (match lookup key members with
        | some right => pyEq left right
        | none => false) && pyEqMembers lefts members

end

example : pyEq (.list [.scalar (.bool true)]) (.list [.scalar (.int 1)]) = true := by
  decide +kernel

end Value

end Json
end SigmaForge
