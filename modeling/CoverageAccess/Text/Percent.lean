import CoverageAccess.Text.Hex
import CoverageAccess.Text.Utf8
/-!
# Percent-encoding

`encode` writes a text with ASCII letters, digits, `-`, `_`, `.` and `*` only; every other byte of
its UTF-8 form becomes a percent sign and two hexadecimal digits. `decode?` reads such a text; a
percent sign without two digits after it stands for itself. The answer is `none` if the bytes are
not UTF-8.
-/

namespace CoverageAccess

namespace Percent

def isFree (b : UInt8) : Bool :=
  let c := Char.ofNat b.toNat
  b.toNat < 128 && (c.isAlphanum || c == '-' || c == '_' || c == '.' || c == '*')

def encodeByte (b : UInt8) : List Char :=
  if isFree b then [Char.ofNat b.toNat] else '%' :: Hex.ofByte Hex.capitalDigits b

def encode (s : String) : String :=
  String.ofList ((Utf8.encode s).flatMap encodeByte)

/-- The bytes of an encoded text. -/
def decodeBytes : List Char → List UInt8
  | [] => []
  | '%' :: a :: b :: s =>
    match Hex.value? a, Hex.value? b with
    | some hi, some lo => UInt8.ofNat (16 * hi + lo) :: decodeBytes s
    | _, _ => String.utf8EncodeChar '%' ++ decodeBytes (a :: b :: s)
  | c :: s => String.utf8EncodeChar c ++ decodeBytes s

def decode? (s : List Char) : Option String :=
  Utf8.decode? (decodeBytes s)

end Percent

end CoverageAccess
