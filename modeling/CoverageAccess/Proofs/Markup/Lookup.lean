import CoverageAccess.Proofs.Markup.Written
/-!
# Looking into elements that were written

Most elements of the documents here are leaves, which hold running text only, or lists of elements
of one kind. The lemmas say what the look-ups find in them. The descendants of a name are, in any
element, those of that name that lie within it (`Element.mem_descendants_iff`).
-/

namespace CoverageAccess

namespace Markup

open Text

/-- The element that a leaf is read as. -/
def Element.leaf (name s : String) : Element :=
  ⟨name, [], [], String.ofList (trimBy isLineBlank s.toList)⟩

@[simp] theorem Element.trim_text_leaf (name s : String) :
    trim (Element.leaf name s).text = trim s := by
  rw [trim, leaf, String.toList_ofList,
    trimBy_trimBy_of_imp (fun _ hc => isBlank_of_isLineBlank hc)]
  rfl

@[simp] theorem Element.name_leaf (name s : String) : (Element.leaf name s).name = name := rfl

@[simp] theorem Element.children_leaf (name s : String) : (Element.leaf name s).children = [] :=
  rfl

@[simp] theorem Element.descendants_leaf (name other s : String) :
    (Element.leaf name s).descendants other = [] := rfl

theorem Node.element?_leaf (tag s : String) :
    (Node.leaf tag s).element? = some (.leaf (String.ofList (localName tag.toList)) s) := rfl

theorem Node.elements_map {α : Type} {l : List α} {write : α → Node} {read : α → Element}
    (h : ∀ a ∈ l, (write a).element? = some (read a)) :
    Node.elements (l.map write) = l.map read := by
  induction l with
  | nil => rfl
  | cons a l ih =>
      rw [List.map_cons, Node.elements, h a List.mem_cons_self,
        ih fun b hb => h b (List.mem_cons_of_mem _ hb)]
      rfl

/-- Between elements there is no text. -/
theorem Node.runText_of_elements {ns : List Node} (h : ∀ n ∈ ns, n.element?.isSome) :
    Node.runText [] ns = [] := by
  induction ns with
  | nil => rfl
  | cons n ns ih =>
      have hrest := ih fun m hm => h m (List.mem_cons_of_mem _ hm)
      have hn := h n List.mem_cons_self
      cases n with
      | text => cases hn
      | element tag as cs => simpa [Node.runText] using hrest

theorem Node.element?_branch {tag : String} {as : List (String × String)} {ns : List Node}
    (h : ∀ n ∈ ns, n.element?.isSome) :
    (Node.element tag as ns).element? =
      some ⟨String.ofList (localName tag.toList), (withoutNamespaces as).map fun a =>
        (String.ofList (localName a.1.toList), a.2), Node.elements ns, ""⟩ := by
  rw [Node.element?, Node.runText_of_elements h]

theorem Node.element?_map {α : Type} {tag : String} {l : List α} {write : α → Node}
    {read : α → Element} (h : ∀ a ∈ l, (write a).element? = some (read a)) :
    (Node.element tag [] (l.map write)).element? =
      some ⟨String.ofList (localName tag.toList), [], l.map read, ""⟩ := by
  have hread : ∀ n ∈ l.map write, n.element?.isSome := by
    intro n hn
    obtain ⟨a, ha, rfl⟩ := List.mem_map.1 hn
    rw [h a ha]
    rfl
  rw [Node.element?_branch hread, Node.elements_map h]
  rfl

/-- Attributes whose names have no namespace part are read as they were written. -/
theorem map_withoutNamespaces {as : List (String × String)}
    (h : ∀ a ∈ as, declaresNamespace a.1.toList = false ∧ localName a.1.toList = a.1.toList) :
    (withoutNamespaces as).map (fun a => (String.ofList (localName a.1.toList), a.2)) = as := by
  have hall : withoutNamespaces as = as := by
    refine List.filter_eq_self.2 fun a ha => ?_
    rw [(h a ha).1]
    rfl
  rw [hall]
  refine (List.map_congr_left fun a ha => ?_).trans (List.map_id as)
  rw [(h a ha).2, String.ofList_toList]
  rfl

/-- The second element lies within the first one, at some depth. -/
inductive Element.Within : Element → Element → Prop
  | child {e d : Element} (h : d ∈ e.children) : Within e d
  | deeper {e c d : Element} (hc : c ∈ e.children) (h : Within c d) : Within e d

theorem Element.mem_descendantsAll_iff {name : String} {es : List Element} {d : Element} :
    d ∈ descendantsAll name es ↔ ∃ e ∈ es, d = e ∧ d.name = name ∨ d ∈ e.descendants name := by
  induction es with
  | nil => simp
  | cons e es ih =>
      have hself : d ∈ (if e.name = name then [e] else []) ↔ d = e ∧ d.name = name := by
        split
        next he => simpa using fun hd => hd ▸ he
        next he => simpa using fun hd => hd ▸ he
      simp only [descendantsAll_cons, List.mem_append, hself, ih, List.exists_mem_cons_iff]

theorem Element.within_of_mem_descendants {name : String} {e d : Element}
    (h : d ∈ e.descendants name) : e.Within d ∧ d.name = name := by
  rw [descendants_eq, mem_descendantsAll_iff] at h
  obtain ⟨c, hc, ⟨rfl, hname⟩ | h⟩ := h
  · exact ⟨.child hc, hname⟩
  · obtain ⟨hwithin, hname⟩ := within_of_mem_descendants h
    exact ⟨.deeper hc hwithin, hname⟩
termination_by e
decreasing_by
  obtain ⟨tag, attributes, children, text⟩ := e
  have hchild : sizeOf c < sizeOf children := List.sizeOf_lt_of_mem hc
  simp only [Element.mk.sizeOf_spec]
  omega

/-- Every element of the name is found, however deep it lies, and nothing else. -/
theorem Element.mem_descendants_iff {name : String} {e d : Element} :
    d ∈ e.descendants name ↔ e.Within d ∧ d.name = name := by
  constructor
  · exact within_of_mem_descendants
  · rintro ⟨h, hname⟩
    induction h with
    | child h =>
        rw [descendants_eq]
        exact mem_descendantsAll_iff.2 ⟨_, h, .inl ⟨rfl, hname⟩⟩
    | deeper hc _ ih =>
        rw [descendants_eq]
        exact mem_descendantsAll_iff.2 ⟨_, hc, .inr (ih hname)⟩

/-- A list of elements that neither have a name nor hold elements of it has no descendants of that
name. -/
theorem Element.descendantsAll_eq_nil {name : String} {es : List Element}
    (h : ∀ e ∈ es, e.name ≠ name ∧ e.descendants name = []) :
    Element.descendantsAll name es = [] := by
  induction es with
  | nil => rfl
  | cons e es ih =>
      obtain ⟨hname, hdescendants⟩ := h e List.mem_cons_self
      rw [descendantsAll_cons, if_neg hname, hdescendants,
        ih fun d hd => h d (List.mem_cons_of_mem _ hd)]
      rfl

theorem Element.descendantsAll_leaves {tag name : String} (h : tag ≠ name) (l : List String) :
    Element.descendantsAll name (l.map (.leaf tag)) = [] := by
  apply Element.descendantsAll_eq_nil
  intro e he
  obtain ⟨s, -, rfl⟩ := List.mem_map.1 he
  exact ⟨h, rfl⟩

end Markup

end CoverageAccess
