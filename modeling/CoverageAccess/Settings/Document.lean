import CoverageAccess.Settings.Token
import CoverageAccess.Settings.Value
/-!
# Settings documents

A settings document is written in a subset of YAML: lists and maps are written in brackets, as in
JSON, or in indented lines. There are comments, but no tags, anchors, directives or block scalars.
`Value.ofDocument?` answers the value of a document; an empty one has an empty scalar.

The readers recurse on fuel; every step takes a token or begins a value, so twice the number of
tokens is enough.
-/

namespace CoverageAccess

namespace Settings

/-- Where a value stands, which says how it may be written. -/
inductive Setting where
  /-- In brackets: lists and maps are in brackets too. -/
  | within
  /-- Under a minus, or at the beginning of a document. -/
  | item
  /-- Under a key, where the items of a list need no indentation. -/
  | entry
  deriving DecidableEq, Repr

def Value.empty : Value := plain ""

def stopsAt (stops : List Token) : List Token → Bool
  | [] => false
  | t :: _ => stops.contains t

mutual

/-- The value at the beginning of some tokens, and the tokens after it. -/
def value : Nat → Setting → List Token → Option (Value × List Token)
  | 0, _, _ => none
  | n + 1, w, ts =>
    match ts with
    | .plain s :: ts => some (.plain s, ts)
    | .quoted s :: ts => some (.quoted s, ts)
    | .openList :: ts => (bracketItems n ts).map fun e => (.list e.1, e.2)
    | .openMap :: ts => (bracketEntries n ts).map fun e => (.map e.1, e.2)
    | .listStart :: ts =>
      if w = .within then none else (lineItems n ts).map fun e => (.list e.1, e.2)
    | .mapStart :: ts =>
      if w = .within then none else (lineEntries n ts).map fun e => (.map e.1, e.2)
    | .item :: _ =>
      if w = .entry then (entryItems n ts).map fun e => (.list e.1, e.2) else none
    | _ => none

/-- A value, or an empty scalar if one of the given tokens follows. -/
def optionalValue : Nat → Setting → List Token → List Token → Option (Value × List Token)
  | 0, _, _, _ => none
  | n + 1, w, stops, ts => if stopsAt stops ts then some (.empty, ts) else value n w ts

/-- The items of a list in lines. -/
def lineItems : Nat → List Token → Option (List Value × List Token)
  | 0, _ => none
  | n + 1, ts =>
    match ts with
    | .item :: ts => do
      let (v, ts) ← optionalValue n .item [.item, .blockEnd] ts
      let (vs, ts) ← lineItems n ts
      return (v :: vs, ts)
    | .blockEnd :: ts => some ([], ts)
    | _ => none

/-- The items of a list under a key, in the column of the key. -/
def entryItems : Nat → List Token → Option (List Value × List Token)
  | 0, _ => none
  | n + 1, ts =>
    match ts with
    | .item :: ts => do
      let (v, ts) ← optionalValue n .item [.item, .key, .value, .blockEnd] ts
      let (vs, ts) ← entryItems n ts
      return (v :: vs, ts)
    | ts => some ([], ts)

/-- The entries of a map in lines. -/
def lineEntries : Nat → List Token → Option (List (Value × Value) × List Token)
  | 0, _ => none
  | n + 1, ts =>
    match ts with
    | .key :: ts => do
      let (k, ts) ← optionalValue n .entry [.key, .value, .blockEnd] ts
      let (v, ts) ← keyValue n .entry [.key, .value, .blockEnd] ts
      let (es, ts) ← lineEntries n ts
      return ((k, v) :: es, ts)
    | .blockEnd :: ts => some ([], ts)
    | _ => none

/-- The value of a key, which is empty if there is no colon. -/
def keyValue : Nat → Setting → List Token → List Token → Option (Value × List Token)
  | 0, _, _, _ => none
  | n + 1, w, stops, ts =>
    match ts with
    | .value :: ts => optionalValue n w stops ts
    | ts => some (.empty, ts)

/-- The items of a list in brackets, from the begin of an item on. One with a colon is a map with
one entry. -/
def bracketItems : Nat → List Token → Option (List Value × List Token)
  | 0, _ => none
  | n + 1, ts =>
    match ts with
    | .closeList :: ts => some ([], ts)
    | .key :: ts => do
      let (k, ts) ← pairKey n ts
      let (v, ts) ← keyValue n .within [.comma, .closeList] ts
      let (vs, ts) ← moreItems n ts
      return (.map [(k, v)] :: vs, ts)
    | ts => do
      let (v, ts) ← value n .within ts
      let (vs, ts) ← moreItems n ts
      return (v :: vs, ts)

/-- The items of a list in brackets after an item. -/
def moreItems : Nat → List Token → Option (List Value × List Token)
  | 0, _ => none
  | n + 1, ts =>
    match ts with
    | .comma :: ts => bracketItems n ts
    | .closeList :: ts => some ([], ts)
    | _ => none

/-- The key of an item that is an entry. If it is empty, the token that shows this is passed over.
-/
def pairKey : Nat → List Token → Option (Value × List Token)
  | 0, _ => none
  | n + 1, ts =>
    if stopsAt [.value, .comma, .closeList] ts then some (.empty, ts.tail) else value n .within ts

/-- The entries of a map in brackets, from the begin of an entry on. -/
def bracketEntries : Nat → List Token → Option (List (Value × Value) × List Token)
  | 0, _ => none
  | n + 1, ts =>
    match ts with
    | .closeMap :: ts => some ([], ts)
    | .key :: ts => do
      let (k, ts) ← optionalValue n .within [.value, .comma, .closeMap] ts
      let (v, ts) ← keyValue n .within [.comma, .closeMap] ts
      let (es, ts) ← moreEntries n ts
      return ((k, v) :: es, ts)
    | ts => do
      let (k, ts) ← value n .within ts
      let (es, ts) ← moreEntries n ts
      return ((k, .empty) :: es, ts)

/-- The entries of a map in brackets after an entry. -/
def moreEntries : Nat → List Token → Option (List (Value × Value) × List Token)
  | 0, _ => none
  | n + 1, ts =>
    match ts with
    | .comma :: ts => bracketEntries n ts
    | .closeMap :: ts => some ([], ts)
    | _ => none

end

def documentValue (n : Nat) (ts : List Token) : Option (Value × List Token) :=
  if ts = [] then some (.empty, [])
  else optionalValue n .item [.documentStart, .documentEnd] ts

/-- The value of the tokens of a single document. -/
def Value.ofTokens? (ts : List Token) : Option Value := do
  let n := 2 * ts.length + 2
  let (v, rest) ← match ts with
    | [] => some (.empty, [])
    | .documentStart :: ts => documentValue n ts
    | ts => value n .item ts
  if rest.all (· = .documentEnd) then some v else none

def Value.ofDocument? (s : String) : Option Value := do
  ofTokens? (← tokens? (← Placed.ofText? s))

end Settings

end CoverageAccess
