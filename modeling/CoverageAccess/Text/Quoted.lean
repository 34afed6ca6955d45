import CoverageAccess.Text.Hex
import CoverageAccess.Text.Shown
/-!
# Quoted text

Texts between double quotes, in two dialects: for descriptions, where all characters that are not
shown are escaped by their code points, and for JSON, where only control characters are.
-/

namespace CoverageAccess

namespace Text

/-- The characters of a text in double quotes, each one written by `write`. -/
def quotedBy (write : Char → List Char) (s : String) : String :=
  String.ofList ('"' :: s.toList.flatMap write ++ ['"'])

def hexDigits (n : Nat) : List Char :=
  Nat.toDigits 16 n

/-- A character in a description. -/
def describedChar (c : Char) : List Char :=
  match c with
  | '"' => ['\\', '"']
  | '\\' => ['\\', '\\']
  | '\t' => ['\\', 't']
  | '\n' => ['\\', 'n']
  | '\r' => ['\\', 'r']
  | '\x00' => ['\\', '0']
  | c => if isShown c then [c] else ['\\', 'u', '\x7b'] ++ hexDigits c.toNat ++ ['\x7d']

/-- A text in quotes, as in descriptions. -/
def described (s : String) : String :=
  quotedBy describedChar s

/-- A character in a JSON text. -/
def jsonChar (c : Char) : List Char :=
  match c with
  | '"' => ['\\', '"']
  | '\\' => ['\\', '\\']
  | '\x08' => ['\\', 'b']
  | '\x0c' => ['\\', 'f']
  | '\t' => ['\\', 't']
  | '\n' => ['\\', 'n']
  | '\r' => ['\\', 'r']
  | c =>
    if c < ' ' then "\\u00".toList ++ Hex.ofByte Hex.smallDigits (UInt8.ofNat c.toNat)
    else [c]

/-- A text in quotes, as in JSON. -/
def json (s : String) : String :=
  quotedBy jsonChar s

end Text

end CoverageAccess
