/-!
# UTF-8

`scan` reads a list of bytes as UTF-8, one byte after the other. It answers a list whose members
are the characters, and `none` for each piece that is not the start of a character: a stray byte,
or the longest beginning of a character that its next byte breaks off. The strict reading
`decode?` wants no such piece; the lenient reading `decodeReplacing` puts U+FFFD for each.
-/

namespace CoverageAccess

namespace Utf8

/-- What the bytes read so far still ask for: nothing, or `count` more bytes, the next one from
`low` to `high`, which complete `code`. -/
inductive Pending where
  | start
  | more (count low high code : Nat)
  deriving DecidableEq, Repr

/-- What the first byte of a character says. -/
inductive Lead where
  | char (c : Char)
  | open (p : Pending)
  | stray
  deriving DecidableEq, Repr

/-- The leading bytes of UTF-8. The second byte's bounds keep out overlong forms, surrogates and
code points beyond U+10FFFF. -/
def lead (b : Nat) : Lead :=
  if b < 0x80 then .char (Char.ofNat b)
  else if b < 0xC2 then .stray
  else if b < 0xE0 then .open (.more 1 0x80 0xBF (b - 0xC0))
  else if b = 0xE0 then .open (.more 2 0xA0 0xBF 0)
  else if b = 0xED then .open (.more 2 0x80 0x9F 0xD)
  else if b < 0xF0 then .open (.more 2 0x80 0xBF (b - 0xE0))
  else if b = 0xF0 then .open (.more 3 0x90 0xBF 0)
  else if b < 0xF4 then .open (.more 3 0x80 0xBF (b - 0xF0))
  else if b = 0xF4 then .open (.more 3 0x80 0x8F 4)
  else .stray

/-- The pieces that a first byte completes, and what it leaves open. -/
def Lead.pieces : Lead → List (Option Char) × Pending
  | .char c => ([some c], .start)
  | .open p => ([], p)
  | .stray => ([none], .start)

/-- The pieces that one more byte completes, and what it leaves open. -/
def feed : Pending → UInt8 → List (Option Char) × Pending
  | .start, b => (lead b.toNat).pieces
  | .more count low high code, b =>
    if low ≤ b.toNat ∧ b.toNat ≤ high then
      let code := code * 64 + (b.toNat - 0x80)
      match count with
      | 0 | 1 => ([some (Char.ofNat code)], .start)
      | n + 2 => ([], .more (n + 1) 0x80 0xBF code)
    else
      let r := (lead b.toNat).pieces
      (none :: r.1, r.2)

/-- The pieces of the bytes from the state `p` on. -/
def scanFrom : Pending → List UInt8 → List (Option Char)
  | .start, [] => []
  | .more .., [] => [none]
  | p, b :: bs =>
    let r := feed p b
    r.1 ++ scanFrom r.2 bs

/-- The pieces of a list of bytes. -/
def scan (bs : List UInt8) : List (Option Char) :=
  scanFrom .start bs

/-- The text, if the bytes are UTF-8. -/
def decode? (bs : List UInt8) : Option String :=
  ((scan bs).mapM id).map String.ofList

/-- The text, with U+FFFD for each piece that is not UTF-8. -/
def decodeReplacing (bs : List UInt8) : String :=
  String.ofList ((scan bs).map fun c => c.getD '\uFFFD')

/-- The bytes of a list of characters. -/
def encodeChars (s : List Char) : List UInt8 :=
  s.flatMap String.utf8EncodeChar

/-- The bytes of a text. -/
def encode (s : String) : List UInt8 :=
  encodeChars s.toList

@[simp] theorem scan_nil : scan [] = [] := rfl

@[simp] theorem encodeChars_nil : encodeChars [] = [] := rfl

theorem encodeChars_append (s t : List Char) :
    encodeChars (s ++ t) = encodeChars s ++ encodeChars t := by
  simp [encodeChars]

end Utf8

end CoverageAccess
