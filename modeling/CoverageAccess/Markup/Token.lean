import CoverageAccess.Markup.Escape
import CoverageAccess.Text.Split
/-!
# Tokens of markup

`tokens` cuts a document into start tags, empty tags, end tags and runs of text. Comments,
instructions, declarations and the document type leave no token. The reader is a machine that looks
at one character after the other; its state (`Mode`) is the kind of markup it is in and the
characters read of it, the latest first. What breaks the rules of markup becomes a last token
`broken`, after which nothing is read.

Runs of text are trimmed of line blanks and vanish when nothing is left of them; their references
are resolved later, because text outside the root element is never looked at. Attribute values are
resolved here, and attributes that declare namespaces are dropped.
-/

namespace CoverageAccess

namespace Markup

/-- What is wrong with a document. -/
inductive Malformed where
  | reference
  | attribute
  | openTag
  | openDeclaration
  | declaration
  | instruction
  | endTag (expected found : String)
  | openElement
  | noRoot
  | severalRoots
  deriving DecidableEq, Repr

/-- The wording of what is wrong with a document. -/
def Malformed.text : Malformed → String
  | .reference => "bad character reference"
  | .attribute => "bad attribute"
  | .openTag => "unclosed tag"
  | .openDeclaration => "unclosed comment, data section or document type"
  | .declaration => "bad declaration"
  | .instruction => "bad processing instruction"
  | .endTag expected found => s!"expected the end tag of '{expected}', found '{found}'"
  | .openElement => "unexpected end of document"
  | .noRoot => "document has no root element"
  | .severalRoots => "multiple root elements"

/-- An attribute: its full name and its value. -/
abbrev RawAttribute := List Char × List Char

/-- One piece of markup. -/
inductive Token where
  | start (tag : List Char) (attributes : List RawAttribute)
  | empty (tag : List Char) (attributes : List RawAttribute)
  | close (tag : List Char)
  | text (s : List Char)
  | data (s : List Char)
  | broken (cause : Malformed)
  deriving DecidableEq, Repr

/-- Where the reader of attributes stands: between two of them, in a name, between a name and its
equals sign, between that and the quote, or in a value. Read characters are kept in reverse. -/
inductive AttributeMode where
  | gap
  | name (read : List Char)
  | named (name : List Char)
  | equals (name : List Char)
  | value (name : List Char) (quote : Char) (read : List Char)
  deriving DecidableEq, Repr

/-- The attributes in what follows the name of a tag, as they are written. Every attribute has a
name, an equals sign and a value in quotes of one kind. -/
def attributesFrom? : AttributeMode → List Char → Option (List RawAttribute)
  | .gap, [] => some []
  | _, [] => none
  | .gap, c :: s =>
    if Text.isLineBlank c then attributesFrom? .gap s else attributesFrom? (.name [c]) s
  | .name read, c :: s =>
    if c = '=' then attributesFrom? (.equals read.reverse) s
    else if Text.isLineBlank c then attributesFrom? (.named read.reverse) s
    else attributesFrom? (.name (c :: read)) s
  | .named name, c :: s =>
    if Text.isLineBlank c then attributesFrom? (.named name) s
    else if c = '=' then attributesFrom? (.equals name) s
    else none
  | .equals name, c :: s =>
    if Text.isLineBlank c then attributesFrom? (.equals name) s
    else if c = '"' ∨ c = '\'' then attributesFrom? (.value name c []) s
    else none
  | .value name quote read, c :: s =>
    if c = quote then (attributesFrom? .gap s).map ((name, read.reverse) :: ·)
    else attributesFrom? (.value name quote (c :: read)) s

def declaresNamespace (name : List Char) : Bool :=
  name == "xmlns".toList || (Text.dropStart? "xmlns:".toList name).isSome

/-- The attributes of a tag with their values resolved. No name stands twice. Those that declare
namespaces are left out, whatever their values are. -/
def attributes (s : List Char) : Except Malformed (List RawAttribute) :=
  match attributesFrom? .gap s with
  | none => .error .attribute
  | some as =>
    if (as.map Prod.fst).Nodup then
      match (as.filter fun a => !declaresNamespace a.1).mapM fun a =>
          (unescape? a.2).map fun v => (a.1, v) with
      | none => .error .reference
      | some bs => .ok bs
    else .error .attribute

/-- The token of what stands between `<` and `>`, when it starts an element. -/
def tagToken (content : List Char) : Token :=
  let make (token : List Char → List RawAttribute → Token) (body : List Char) : Token :=
    let name := body.takeWhile fun c => !Text.isLineBlank c
    match attributes (body.drop name.length) with
    | .ok as => token name as
    | .error e => .broken e
  if content.getLast? = some '/' then make .empty content.dropLast else make .start content

/-- The token of what stands between `</` and `>`. Blanks may follow the name. -/
def closeToken (content : List Char) : Token :=
  .close (if content.all Text.isLineBlank then content else Text.trimEnd Text.isLineBlank content)

/-- The token of a run of text, if anything is left of it. -/
def textTokens (run : List Char) : List Token :=
  match Text.trimBy Text.isLineBlank run with
  | [] => []
  | s => [.text s]

/-- The kinds of markup that start with `<!`. -/
inductive Bang where
  | comment
  | data
  | type
  deriving DecidableEq, Repr

/-- The kind that the character after `<!` announces. -/
def Bang.ofChar? (c : Char) : Option Bang :=
  if c = '[' then some .data
  else if c = '-' then some .comment
  else if c = 'D' ∨ c = 'd' then some .type
  else none

/-- A closing angle bracket ends the markup, of which `read` are the characters after `<!` in
reverse: a comment ends after two hyphens that are not its opening ones, a data section after two
brackets, and a document type when its own angle brackets are in pairs. -/
def Bang.endsAt (read : List Char) : Bang → Bool
  | .comment => 4 ≤ read.length && read.take 2 == "--".toList
  | .data => read.take 2 == "]]".toList
  | .type => read.count '<' == read.count '>'

/-- The text begins with `start`, whatever the case of its letters. -/
def startsUncased (start : String) (s : List Char) : Bool :=
  (Text.dropStart? (start.toList.map Char.toLower) (s.map Char.toLower)).isSome

/-- The tokens of finished markup that started with `<!`; `content` are the characters after that.
-/
def Bang.tokens (content : List Char) : Bang → List Token
  | .comment =>
    if "--".toList.isPrefixOf content then [] else [.broken .declaration]
  | .data =>
    if startsUncased "[CDATA[" content then
      [.data ((content.drop 7).take (content.length - 9))]
    else [.broken .declaration]
  | .type =>
    if startsUncased "DOCTYPE" content && !(content.drop 7).all Text.isLineBlank then []
    else [.broken .declaration]

/-- The tokens of an instruction; `content` stands between `<?` and `>`. -/
def instructionTokens (content : List Char) : List Token :=
  if 2 ≤ content.length ∧ content.getLast? = some '?' then [] else [.broken .instruction]

/-- Where the reader stands. Read characters are kept in reverse. -/
inductive Mode where
  | text (read : List Char)
  | opened
  | tag (quote : Option Char) (read : List Char)
  | close (read : List Char)
  | instruction (read : List Char)
  | bang
  | banged (kind : Bang) (read : List Char)
  deriving DecidableEq, Repr

/-- The quote that is open after `c`. -/
def quoteAfter (quote : Option Char) (c : Char) : Option Char :=
  match quote with
  | none => if c = '"' ∨ c = '\'' then some c else none
  | some q => if c = q then none else quote

/-- The tokens that remain, from a mode on. The second clause of each kind of markup says what the
end of the document means in it: an end tag and an instruction need no closing bracket there, and a
lone `<` is nothing. -/
def tokensFrom : Mode → List Char → List Token
  | .text read, [] => textTokens read.reverse
  | .text read, c :: s =>
    if c = '<' then textTokens read.reverse ++ tokensFrom .opened s
    else tokensFrom (.text (c :: read)) s
  | .opened, [] => []
  | .opened, c :: s =>
    if c = '!' then tokensFrom .bang s
    else if c = '/' then tokensFrom (.close []) s
    else if c = '?' then tokensFrom (.instruction []) s
    else if c = '>' then tagToken [] :: tokensFrom (.text []) s
    else tokensFrom (.tag (quoteAfter none c) [c]) s
  | .tag _ _, [] => [.broken .openTag]
  | .tag quote read, c :: s =>
    if quote = none ∧ c = '>' then tagToken read.reverse :: tokensFrom (.text []) s
    else tokensFrom (.tag (quoteAfter quote c) (c :: read)) s
  | .close read, [] => [closeToken read.reverse]
  | .close read, c :: s =>
    if c = '>' then closeToken read.reverse :: tokensFrom (.text []) s
    else tokensFrom (.close (c :: read)) s
  | .instruction read, [] => instructionTokens read.reverse
  | .instruction read, c :: s =>
    if c = '>' then instructionTokens read.reverse ++ tokensFrom (.text []) s
    else tokensFrom (.instruction (c :: read)) s
  | .bang, [] => [.broken .openDeclaration]
  | .bang, c :: s =>
    match Bang.ofChar? c with
    | some kind => tokensFrom (.banged kind [c]) s
    | none => [.broken .declaration]
  | .banged _ _, [] => [.broken .openDeclaration]
  | .banged kind read, c :: s =>
    if c = '>' ∧ kind.endsAt read then
      kind.tokens read.reverse ++ tokensFrom (.text []) s
    else tokensFrom (.banged kind (c :: read)) s

/-- The tokens of a document. A byte order mark at its beginning is passed over. -/
def tokens : List Char → List Token
  | '\uFEFF' :: s => tokensFrom (.text []) s
  | s => tokensFrom (.text []) s

end Markup

end CoverageAccess
