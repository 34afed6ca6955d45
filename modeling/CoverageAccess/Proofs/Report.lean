import CoverageAccess.Proofs.Markup.Lookup
/-!
# Reports of faults

The report of a fault is read back as an element of a fixed shape, in which the code, the locator
and the message stand in their places and nothing else does, whatever characters locator and message
are made of (`report_intact`). Of the message only the blanks of markup at its end are lost. These
are the four characters of `isLineBlank`; a form feed, which is white space in ASCII as well, stays
(`trailingFormFeed_kept`).
-/

namespace CoverageAccess

namespace Fault

open Markup Text

/-- The attributes of the exception in a report: the code, and the locator if there is one. -/
def exceptionAttributes (f : Fault) : List (String × String) :=
  ("exceptionCode", f.code) :: f.locator?.toList.map fun l => ("locator", l)

/-- The root of a report with the given attributes of the exception and the given text in it. -/
def reportElement (attributes : List (String × String)) (text : String) : Element :=
  ⟨"ExceptionReport", [("version", "2.0.0")],
    [⟨"Exception", attributes, [⟨"ExceptionText", [], [], text⟩], ""⟩], ""⟩

variable (f : Fault)

theorem reportRoot_eq :
    f.reportRoot = .element "ows:ExceptionReport"
      [("xmlns:ows", "http://www.opengis.net/ows/2.0"), ("version", "2.0.0")]
      [.text "\n  ", .element "ows:Exception" f.exceptionAttributes
        [.text "\n    ", .leaf "ows:ExceptionText" f.message, .text "\n  "], .text "\n"] := by
  cases f <;> rfl

theorem fst_exceptionAttributes :
    (f.exceptionAttributes.map Prod.fst).Sublist ["exceptionCode", "locator"] := by
  rw [exceptionAttributes]
  cases f.locator? with
  | none => exact List.sublist_append_left ["exceptionCode"] _
  | some l => exact List.Sublist.refl _

theorem areAttributes_exception : AreAttributes f.exceptionAttributes where
  names a ha := by
    have hnames : ∀ n ∈ ["exceptionCode", "locator"], IsName n := by decide
    exact hnames _ (f.fst_exceptionAttributes.mem (List.mem_map_of_mem ha))
  nodup := f.fst_exceptionAttributes.nodup (by decide)

theorem wellNamed_reportRoot : f.reportRoot.WellNamed := by
  have hleaf : (Node.leaf "ows:ExceptionText" f.message).WellNamed :=
    Node.wellNamed_leaf (by decide) _
  rw [reportRoot_eq]
  refine ⟨by decide, by decide, trivial, ⟨by decide, f.areAttributes_exception, ?_⟩, trivial, trivial⟩
  exact ⟨trivial, hleaf, trivial, trivial⟩

theorem head?_toList_append {s : String} {c : Char} (h : s.toList.head? = some c) (t : String) :
    (s ++ t).toList.head? = some c := by
  rw [String.toList_append, List.head?_append, h]
  rfl

/-- No message begins with a blank, whatever the client wrote. -/
theorem head?_message : ∃ c, f.message.toList.head? = some c ∧ isLineBlank c = false := by
  cases f with
  | missing l t =>
      exact ⟨'M', head?_toList_append (head?_toList_append (head?_toList_append rfl l) _) t, rfl⟩
  | invalid l t =>
      exact ⟨'I', head?_toList_append (head?_toList_append (head?_toList_append rfl l) _) t, rfl⟩
  | unsupported l t =>
      exact ⟨'O', head?_toList_append (head?_toList_append (head?_toList_append rfl l) _) t, rfl⟩
  | notFound t => exact ⟨'N', head?_toList_append rfl t, rfl⟩
  | internal t => exact ⟨'I', head?_toList_append rfl t, rfl⟩

theorem trimBy_message :
    trimBy isLineBlank f.message.toList = trimEnd isLineBlank f.message.toList := by
  obtain ⟨c, hc, hblank⟩ := f.head?_message
  obtain ⟨s, hs⟩ := List.head?_eq_some_iff.1 hc
  rw [trimBy, trimStart, hs, List.dropWhile_cons_of_neg (by simp [hblank])]

theorem element?_reportRoot :
    f.reportRoot.element? = some (reportElement f.exceptionAttributes
      (String.ofList (trimEnd isLineBlank f.message.toList))) := by
  have hattributes : ∀ n ∈ ["exceptionCode", "locator"],
      declaresNamespace n.toList = false ∧ localName n.toList = n.toList := by decide
  have hread := map_withoutNamespaces fun a ha => hattributes _
    (f.fst_exceptionAttributes.mem (List.mem_map_of_mem ha))
  have hexception : (Node.element "ows:Exception" f.exceptionAttributes
      [.text "\n    ", .leaf "ows:ExceptionText" f.message, .text "\n  "]).element? =
        some ⟨"Exception", f.exceptionAttributes, [.leaf "ExceptionText" f.message], ""⟩ := by
    rw [Node.element?, hread]
    rfl
  rw [reportRoot_eq, Node.element?, Node.elements, Node.elements, hexception, ← trimBy_message]
  rfl

theorem parse_report :
    Element.parse f.report = .ok (reportElement f.exceptionAttributes
      (String.ofList (trimEnd isLineBlank f.message.toList))) :=
  parse_document f.wellNamed_reportRoot f.element?_reportRoot

/-- The report of every fault is read as one exception, with its code, its locator if it has one, and
its message up to the blanks of markup at the end. No locator and no message adds, closes or changes
an element or an attribute. -/
theorem report_intact :
    ∃ exception : Element,
      Element.parse f.report =
        .ok ⟨"ExceptionReport", [("version", "2.0.0")], [exception], ""⟩ ∧
      exception.name = "Exception" ∧ exception.text = "" ∧
      exception.attributes =
        ("exceptionCode", f.code) :: f.locator?.toList.map (fun l => ("locator", l)) ∧
      exception.attribute? "exceptionCode" = some f.code ∧
      exception.attribute? "locator" = f.locator? ∧
      exception.children =
        [⟨"ExceptionText", [], [], String.ofList (trimEnd isLineBlank f.message.toList)⟩] := by
  refine ⟨_, f.parse_report, rfl, rfl, rfl, rfl, ?_, rfl⟩
  -- The locator stands behind the code, which has another name.
  cases f <;> rfl

/-- White space in ASCII: the blanks of markup and the form feed. -/
def isAsciiBlank (c : Char) : Bool :=
  isLineBlank c || c == '\x0c'

/-- A form feed at the end of a message is read back, although it is white space in ASCII. -/
theorem trailingFormFeed_kept :
    let f := internal "boom\x0c"
    ∃ root, Element.parse f.report = .ok root ∧
      (root.descendants "ExceptionText").map Element.text = [f.message] ∧
      f.message ≠ String.ofList (trimEnd isAsciiBlank f.message.toList) := by
  intro f
  exact ⟨_, f.parse_report, by decide, by decide⟩

end Fault

end CoverageAccess
