/-!
# Hexadecimal digits

Bytes as pairs of hexadecimal digits, in small letters or capitals.
-/

namespace CoverageAccess

namespace Hex

def smallDigits : List Char := "0123456789abcdef".toList

def capitalDigits : List Char := "0123456789ABCDEF".toList

/-- The digit of value `n`, from the given alphabet. -/
def digit (alphabet : List Char) (n : Nat) : Char :=
  alphabet.getD n '0'

def ofByte (alphabet : List Char) (b : UInt8) : List Char :=
  [digit alphabet (b.toNat / 16), digit alphabet (b.toNat % 16)]

/-- The digits of a list of bytes, in small letters. -/
def ofBytes (bs : List UInt8) : String :=
  String.ofList (bs.flatMap (ofByte smallDigits))

def value? (c : Char) : Option Nat :=
  if '0' ≤ c ∧ c ≤ '9' then some (c.toNat - '0'.toNat)
  else if 'a' ≤ c ∧ c ≤ 'f' then some (c.toNat - 'a'.toNat + 10)
  else if 'A' ≤ c ∧ c ≤ 'F' then some (c.toNat - 'A'.toNat + 10)
  else none

/-- The bytes that pairs of digits stand for. -/
def toBytes? : List Char → Option (List UInt8)
  | [] => some []
  | [_] => none
  | a :: b :: r => do
    let hi ← value? a
    let lo ← value? b
    let rest ← toBytes? r
    return UInt8.ofNat (16 * hi + lo) :: rest

end Hex

end CoverageAccess
