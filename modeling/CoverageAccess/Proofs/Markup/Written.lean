import CoverageAccess.Markup.Document
import CoverageAccess.Proofs.Markup.Tag
import CoverageAccess.Proofs.Outcome
/-!
# Reading what was written

A written node is read as the element `Node.element?` says: names without their namespace part,
attributes without those that declare namespaces, and the runs of text trimmed of the blanks of
markup. The main result, `parse_document`, holds for every node whose names can stand in tags; the
texts and values in it are arbitrary.
-/

namespace CoverageAccess

namespace Markup

open Text

namespace Node

/-- The text of written nodes, given what has been written of the run before them: every run is
trimmed, and the elements between the runs leave nothing. -/
def runText (run : List Char) : List Node → List Char
  | [] => trimBy isLineBlank run
  | .text s :: ns => runText (run ++ s.toList) ns
  | .element _ _ _ :: ns => trimBy isLineBlank run ++ runText [] ns

mutual

/-- The element that a written node is read as. -/
def element? : Node → Option Element
  | .text _ => none
  | .element tag attributes children => some
    { name := String.ofList (localName tag.toList)
      attributes := (withoutNamespaces attributes).map fun a =>
        (String.ofList (localName a.1.toList), a.2)
      children := elements children
      text := String.ofList (runText [] children) }

/-- The elements among written nodes. -/
def elements : List Node → List Element
  | [] => []
  | n :: ns => n.element?.toList ++ elements ns

end

mutual

/-- The names in a node can stand in tags. -/
def WellNamed : Node → Prop
  | .text _ => True
  | .element tag attributes children =>
    IsName tag ∧ AreAttributes attributes ∧ AllWellNamed children

/-- The names in all the nodes can stand in tags. -/
def AllWellNamed : List Node → Prop
  | [] => True
  | n :: ns => WellNamed n ∧ AllWellNamed ns

end

theorem allWellNamed_iff {ns : List Node} : AllWellNamed ns ↔ ∀ n ∈ ns, WellNamed n := by
  induction ns with
  | nil => simp [AllWellNamed]
  | cons n ns ih => rw [AllWellNamed, ih, List.forall_mem_cons]

theorem wellNamed_leaf {tag : String} (h : IsName tag) (s : String) : WellNamed (leaf tag s) := by
  simp [leaf, WellNamed, AllWellNamed, h, AreAttributes.mk]

theorem elements_append (ns ms : List Node) : elements (ns ++ ms) = elements ns ++ elements ms := by
  induction ns with
  | nil => rfl
  | cons n ns ih => rw [List.cons_append, elements, elements, ih, List.append_assoc]

end Node

/-- The frame after more children and more text. -/
def Frame.grown (f : Frame) (children : List Element) (s : List Char) : Frame :=
  { f with element :=
    { f.element with
      children := f.element.children ++ children
      text := f.element.text ++ String.ofList s } }

theorem Frame.grown_nil (f : Frame) : f.grown [] [] = f := by
  obtain ⟨tag, name, attributes, children, text⟩ := f
  simp [grown]

theorem Frame.grown_grown (f : Frame) (es es' : List Element) (s t : List Char) :
    (f.grown es s).grown es' t = f.grown (es ++ es') (s ++ t) := by
  simp [grown, String.append_assoc]

namespace Builder

/-- The tokens one after the other. -/
def feedAll (b : Builder) (ts : List Token) : Except Malformed Builder :=
  ts.foldlM feed b

variable {f : Frame} {fs : List Frame} {root : Option Element}

theorem feedAll_cons (b : Builder) (t : Token) (ts : List Token) :
    b.feedAll (t :: ts) = b.feed t >>= fun c => c.feedAll ts := by
  rw [feedAll, List.foldlM_cons]
  rfl

/-- A run of text goes to the innermost open element, trimmed. -/
theorem feedAll_textTokens (run : List Char) (ts : List Token) :
    feedAll ⟨f :: fs, root⟩ (textTokens (escape run) ++ ts) =
      feedAll ⟨f.grown [] (trimBy isLineBlank run) :: fs, root⟩ ts := by
  unfold textTokens
  rw [trimBy_escape]
  split
  next h =>
    have hnil : trimBy isLineBlank run = [] := by
      have := unescape?_escape (trimBy isLineBlank run)
      rw [h] at this
      exact (Option.some.inj this).symm
    rw [hnil, Frame.grown_nil]
    rfl
  next =>
    have hfeed : feed ⟨f :: fs, root⟩ (.text (escape (trimBy isLineBlank run))) =
        .ok ⟨f.grown [] (trimBy isLineBlank run) :: fs, root⟩ := by
      simp [feed, unescape?_escape, write, Frame.grown]
    rw [List.cons_append, List.nil_append, feedAll_cons, hfeed, ok_bind]

theorem attach_cons (e : Element) :
    attach ⟨f :: fs, root⟩ e = .ok ⟨f.grown [e] [] :: fs, root⟩ := by
  simp [attach, Frame.grown]

theorem feed_close (f : Frame) (fs : List Frame) (root : Option Element) :
    feed ⟨f :: fs, root⟩ (.close f.tag) = attach ⟨fs, root⟩ f.element := by
  simp [feed]

mutual

theorem feedAll_chars (n : Node) (hn : n.WellNamed) (e : Element) (he : n.element? = some e)
    (b : Builder) (rest : List Char) :
    b.feedAll (tokensFrom (.text []) (n.chars ++ rest)) =
      b.attach e >>= fun c => c.feedAll (tokensFrom (.text []) rest) := by
  match n, hn, he with
  | .element tag as cs, ⟨htag, has, hcs⟩, he =>
      have hsplit : (Node.element tag as cs).chars ++ rest =
          '<' :: (tag.toList ++ as.flatMap Node.attributeChars ++
            '>' :: (Node.charsAll cs ++ '<' :: '/' :: (tag.toList ++ '>' :: rest))) := by
        simp [Node.chars]
      have hcontent := feedAll_charsAll cs hcs [] ('/' :: (tag.toList ++ '>' :: rest))
        ⟨tag.toList, .ofTag tag.toList ((withoutNamespaces as).map rawAttribute)⟩ b.frames b.root
      have hread : (Frame.grown
          ⟨tag.toList, .ofTag tag.toList ((withoutNamespaces as).map rawAttribute)⟩
            (Node.elements cs) (Node.runText [] cs)).element = e := by
        rw [← Option.some.inj he]
        simp [Frame.grown, Element.ofTag, rawAttribute, Function.comp_def]
      rw [hsplit, tokensFrom_startTag htag has, feedAll_cons, feed, ok_bind]
      refine hcontent.trans ?_
      rw [tokensFrom_endTag htag, feedAll_cons, ← hread]
      exact congrArg (· >>= _) (feed_close (Frame.grown _ _ _) b.frames b.root)

/-- Written nodes add their elements and their text to the innermost open element. -/
theorem feedAll_charsAll (ns : List Node) (hns : Node.AllWellNamed ns) (run rest : List Char)
    (f : Frame) (fs : List Frame) (root : Option Element) :
    feedAll ⟨f :: fs, root⟩
        (tokensFrom (.text (escape run).reverse) (Node.charsAll ns ++ '<' :: rest)) =
      feedAll ⟨f.grown (Node.elements ns) (Node.runText run ns) :: fs, root⟩
        (tokensFrom .opened rest) := by
  match ns, hns with
  | [], _ =>
      rw [Node.charsAll_nil, List.nil_append, tokensFrom, if_pos rfl, List.reverse_reverse,
        feedAll_textTokens]
      rfl
  | .text s :: ns, hns =>
      have hlt : '<' ∉ escape s.toList := by
        intro h
        exact absurd (not_isDelimiter_of_mem_escape h) (by decide)
      have hrun : (escape s.toList).reverse ++ (escape run).reverse =
          (escape (run ++ s.toList)).reverse := by
        rw [escape_append, List.reverse_append]
      rw [Node.charsAll_cons, Node.chars, List.append_assoc, tokensFrom_text hlt, hrun,
        feedAll_charsAll ns hns.2]
      rfl
  | .element tag as cs :: ns, hns =>
      obtain ⟨e, he⟩ : ∃ e, (Node.element tag as cs).element? = some e := ⟨_, rfl⟩
      obtain ⟨t, ht⟩ : ∃ t, (Node.element tag as cs).chars = '<' :: t := ⟨_, rfl⟩
      -- The angle bracket ends the run before the element; after it a new run begins.
      have hnode := feedAll_chars (.element tag as cs) hns.1 e he
        ⟨f.grown [] (trimBy isLineBlank run) :: fs, root⟩ (Node.charsAll ns ++ '<' :: rest)
      have hrest := feedAll_charsAll ns hns.2 [] rest
        (f.grown [e] (trimBy isLineBlank run)) fs root
      have hgrown : (f.grown [e] (trimBy isLineBlank run)).grown (Node.elements ns)
          (Node.runText [] ns) =
            f.grown (Node.elements (.element tag as cs :: ns))
              (Node.runText run (.element tag as cs :: ns)) := by
        rw [Frame.grown_grown, Node.elements, he, Node.runText]
        rfl
      rw [attach_cons, ok_bind, Frame.grown_grown, List.nil_append, List.append_nil] at hnode
      rw [ht, List.cons_append] at hnode
      rw [Node.charsAll_cons, List.append_assoc, ht, List.cons_append, tokensFrom_text_open,
        List.reverse_reverse, feedAll_textTokens, hnode, ← hgrown]
      exact hrest

end

end Builder

/-- An element that is written begins with an angle bracket. -/
theorem Node.exists_chars_eq {n : Node} {e : Element} (he : n.element? = some e) :
    ∃ t, n.chars = '<' :: t := by
  cases n with
  | text => cases he
  | element => exact ⟨_, rfl⟩

/-- The declaration leaves no token, and neither does the line end after it. -/
theorem tokens_document {n : Node} {e : Element} (he : n.element? = some e) :
    tokens (Node.document n).toList = tokensFrom (.text []) n.chars := by
  obtain ⟨t, ht⟩ := Node.exists_chars_eq he
  rw [Node.document, String.toList_append, Node.toList_render, ht]
  rfl

theorem tokens_render {n : Node} {e : Element} (he : n.element? = some e) :
    tokens n.render.toList = tokensFrom (.text []) n.chars := by
  obtain ⟨t, ht⟩ := Node.exists_chars_eq he
  rw [Node.toList_render, ht]
  rfl

/-- What has the tokens of a written node is read as its element. -/
theorem parse_of_tokens {n : Node} {e : Element} {s : String} (hn : n.WellNamed)
    (he : n.element? = some e) (hs : tokens s.toList = tokensFrom (.text []) n.chars) :
    Element.parse s = .ok e := by
  have hfeed := Builder.feedAll_chars n hn e he Builder.empty []
  rw [List.append_nil] at hfeed
  rw [Element.parse, Element.parseChars, hs, mapError_eq_ok_iff]
  refine bind_eq_ok_iff.2 ⟨⟨[], some e⟩, ?_, rfl⟩
  exact hfeed

/-- A document is read as the element of its root. -/
theorem parse_document {n : Node} {e : Element} (hn : n.WellNamed) (he : n.element? = some e) :
    Element.parse (Node.document n) = .ok e :=
  parse_of_tokens hn he (tokens_document he)

/-- A written node is read as its element, without a declaration before it. -/
theorem parse_render {n : Node} {e : Element} (hn : n.WellNamed) (he : n.element? = some e) :
    Element.parse n.render = .ok e :=
  parse_of_tokens hn he (tokens_render he)

end Markup

end CoverageAccess
