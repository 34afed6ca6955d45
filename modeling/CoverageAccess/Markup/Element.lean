import CoverageAccess.Text.Blank
/-!
# Elements

An `Element` is what remains of an element of a document once it has been read: its local name, its
attributes in order, its child elements in order, and its text with the runs between the children
joined. The look-ups go by local name; `descendants` are listed parents first, in document order.
-/

namespace CoverageAccess

namespace Markup

/-- An element that has been read. -/
structure Element where
  name : String
  attributes : List (String × String)
  children : List Element
  text : String
  deriving Repr, Inhabited

namespace Element

/-- An element with nothing but a name. -/
def named (name : String) : Element :=
  ⟨name, [], [], ""⟩

def attribute? (e : Element) (name : String) : Option String :=
  (e.attributes.find? fun a => a.1 == name).map Prod.snd

/-- The attributes with `value` for the first one of that name, which is added at the end when there
is none. -/
def setIn (name value : String) : List (String × String) → List (String × String)
  | [] => [(name, value)]
  | a :: r => if a.1 = name then (a.1, value) :: r else a :: setIn name value r

def setAttribute (e : Element) (name value : String) : Element :=
  { e with attributes := setIn name value e.attributes }

def childrenNamed (e : Element) (name : String) : List Element :=
  e.children.filter fun c => c.name == name

def child? (e : Element) (name : String) : Option Element :=
  e.children.find? fun c => c.name == name

/-- The text of the first child of that name, trimmed. -/
def childText? (e : Element) (name : String) : Option String :=
  (e.child? name).map fun c => Text.trim c.text

mutual

/-- The descendants of that name: parents before their children, in document order. The element
itself is not among them. -/
def descendants (name : String) : Element → List Element
  | ⟨_, _, children, _⟩ => descendantsAll name children

def descendantsAll (name : String) : List Element → List Element
  | [] => []
  | e :: es =>
    (if e.name = name then [e] else []) ++ descendants name e ++ descendantsAll name es

end

theorem descendants_eq (name : String) (e : Element) :
    descendants name e = descendantsAll name e.children := by
  cases e
  rfl

@[simp] theorem descendantsAll_nil (name : String) : descendantsAll name [] = [] := rfl

theorem descendantsAll_cons (name : String) (e : Element) (es : List Element) :
    descendantsAll name (e :: es) =
      (if e.name = name then [e] else []) ++ e.descendants name ++ descendantsAll name es := rfl

theorem descendantsAll_append (name : String) (es fs : List Element) :
    descendantsAll name (es ++ fs) = descendantsAll name es ++ descendantsAll name fs := by
  induction es with
  | nil => rfl
  | cons e es ih => simp [descendantsAll_cons, ih]

/-- Setting an attribute leaves those of other names as they were. -/
theorem attribute?_setAttribute_of_ne (e : Element) {name other : String} (value : String)
    (h : other ≠ name) : (e.setAttribute name value).attribute? other = e.attribute? other := by
  obtain ⟨n, as, cs, t⟩ := e
  simp only [setAttribute, attribute?]
  induction as with
  | nil => simp [setIn, h.symm]
  | cons a as ih =>
    by_cases ha : a.1 = name
    · simp [setIn, ha, h.symm]
    · by_cases ho : a.1 = other
      · simp [setIn, ho, h]
      · simp [setIn, ha, ho, ih]

end Element

end Markup

end CoverageAccess
