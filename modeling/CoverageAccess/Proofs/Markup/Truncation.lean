import CoverageAccess.Proofs.Markup.Written
/-!
# Documents that are cut off

The reader of tokens never looks ahead, so the part of a document before a cut leads it to the same
tokens and the same mode, whatever follows (`Leads`). The end of the part can complete no more than
a run of text or an end tag, and an end tag that closes the root adds nothing to it. So a document
and a part of it have the same root if both have one (`parseChars_append_unique`).
-/

namespace CoverageAccess

namespace Markup

section Reading

/-- Where a text leads from a mode: to some tokens and another mode, or to broken markup. -/
inductive Leads (m : Mode) (s : List Char) : Prop
  | on (read : List Token) (n : Mode)
      (h : ∀ rest, tokensFrom m (s ++ rest) = read ++ tokensFrom n rest)
  | off (read : List Token) (cause : Malformed)
      (h : ∀ rest, tokensFrom m (s ++ rest) = read ++ [.broken cause])

theorem leads_char (m : Mode) (c : Char) : Leads m [c] := by
  cases m with
  | text read =>
      by_cases hc : c = '<'
      · exact .on (textTokens read.reverse) .opened fun rest => if_pos hc
      · exact .on [] (.text (c :: read)) fun rest => if_neg hc
  | opened =>
      by_cases hbang : c = '!'
      · exact .on [] .bang fun rest => if_pos hbang
      by_cases hslash : c = '/'
      · exact .on [] (.close []) fun rest => (if_neg hbang).trans (if_pos hslash)
      by_cases hquestion : c = '?'
      · exact .on [] (.instruction []) fun rest =>
          (if_neg hbang).trans ((if_neg hslash).trans (if_pos hquestion))
      by_cases hend : c = '>'
      · exact .on [tagToken []] (.text []) fun rest =>
          (if_neg hbang).trans ((if_neg hslash).trans ((if_neg hquestion).trans (if_pos hend)))
      · exact .on [] (.tag (quoteAfter none c) [c]) fun rest =>
          (if_neg hbang).trans ((if_neg hslash).trans ((if_neg hquestion).trans (if_neg hend)))
  | tag quote read =>
      by_cases hc : quote = none ∧ c = '>'
      · exact .on [tagToken read.reverse] (.text []) fun rest => if_pos hc
      · exact .on [] (.tag (quoteAfter quote c) (c :: read)) fun rest => if_neg hc
  | close read =>
      by_cases hc : c = '>'
      · exact .on [closeToken read.reverse] (.text []) fun rest => if_pos hc
      · exact .on [] (.close (c :: read)) fun rest => if_neg hc
  | instruction read =>
      by_cases hc : c = '>'
      · exact .on (instructionTokens read.reverse) (.text []) fun rest => if_pos hc
      · exact .on [] (.instruction (c :: read)) fun rest => if_neg hc
  | bang =>
      cases hkind : Bang.ofChar? c with
      | some kind => exact .on [] (.banged kind [c]) fun rest => by simp [tokensFrom, hkind]
      | none => exact .off [] .declaration fun rest => by simp [tokensFrom, hkind]
  | banged kind read =>
      by_cases hc : c = '>' ∧ kind.endsAt read
      · exact .on (kind.tokens read.reverse) (.text []) fun rest => if_pos hc
      · exact .on [] (.banged kind (c :: read)) fun rest => if_neg hc

/-- Every text leads somewhere, and what follows it does not matter. -/
theorem leads (m : Mode) (s : List Char) : Leads m s := by
  induction s generalizing m with
  | nil => exact .on [] m fun rest => rfl
  | cons c s ih =>
      cases leads_char m c with
      | off read cause h => exact .off read cause fun rest => h (s ++ rest)
      | on read n h =>
          have hcons (rest : List Char) :
              tokensFrom m (c :: s ++ rest) = read ++ tokensFrom n (s ++ rest) := h (s ++ rest)
          cases ih n with
          | on more n' h' =>
              exact .on (read ++ more) n' fun rest => by
                rw [hcons, h', List.append_assoc]
          | off more cause h' =>
              exact .off (read ++ more) cause fun rest => by
                rw [hcons, h', List.append_assoc]

/-- What a cut leaves of the text after it: nothing, or a replaced character. -/
def IsStub (s : List Char) : Prop :=
  s = [] ∨ s = ['\uFFFD']

/-- What the end of a text can complete: text, broken markup, or an end tag that is being read. -/
inductive Completes (m : Mode) : List Token → Prop
  | nothing : Completes m []
  | text (s : List Char) : Completes m [.text s]
  | broken (cause : Malformed) : Completes m [.broken cause]
  | close (read : List Char) (tag : List Char) (h : m = .close read) : Completes m [.close tag]

theorem completes_textTokens (m : Mode) (run : List Char) : Completes m (textTokens run) := by
  unfold textTokens
  split
  · exact .nothing
  · exact .text _

theorem completes_instructionTokens (m : Mode) (content : List Char) :
    Completes m (instructionTokens content) := by
  unfold instructionTokens
  split
  · exact .nothing
  · exact .broken _

theorem completes_stub (m : Mode) {s : List Char} (h : IsStub s) :
    Completes m (tokensFrom m s) := by
  rcases h with rfl | rfl
  · cases m with
    | text read => exact completes_textTokens _ _
    | opened => exact .nothing
    | tag | bang | banged => exact .broken _
    | close read => exact .close read _ rfl
    | instruction read => exact completes_instructionTokens _ _
  · cases m with
    | text read => exact completes_textTokens (.text read) ('\uFFFD' :: read).reverse
    | opened => exact .broken _
    | tag quote read =>
        have hstep : tokensFrom (.tag quote read) ['\uFFFD'] = [.broken .openTag] :=
          if_neg fun h => absurd h.2 (by decide)
        exact hstep ▸ .broken _
    | bang => exact .broken _
    | banged kind read =>
        have hstep : tokensFrom (.banged kind read) ['\uFFFD'] = [.broken .openDeclaration] :=
          if_neg fun h => absurd h.1 (by decide)
        exact hstep ▸ .broken _
    | close read => exact .close read _ rfl
    | instruction read =>
        exact completes_instructionTokens (.instruction read) ('\uFFFD' :: read).reverse

end Reading

namespace Builder

variable {b b' : Builder} {e x : Element} {t : Token} {ts : List Token}

theorem feedAll_append (b : Builder) (ts us : List Token) :
    b.feedAll (ts ++ us) = b.feedAll ts >>= fun c => c.feedAll us :=
  List.foldlM_append

/-- A root that has been completed stays the root. -/
theorem root_of_attach (hb : b.root = some e) (h : b.attach x = .ok b') : b'.root = some e := by
  unfold attach at h
  split at h
  · cases h
    exact hb
  next hroot =>
    rw [hb] at hroot
    cases hroot
  · cases h

theorem root_write (b : Builder) (s : List Char) : (b.write s).root = b.root := by
  unfold write
  split <;> rfl

/-- Text does not touch the root. -/
theorem root_of_feed_text {s : List Char} (h : b.feed (.text s) = .ok b') : b'.root = b.root := by
  simp only [feed] at h
  split at h
  · cases h
    rfl
  · split at h
    · cases h
      exact root_write b _
    · cases h

theorem root_of_feed (hb : b.root = some e) (h : b.feed t = .ok b') : b'.root = some e := by
  cases t with
  | start tag attributes =>
      cases h
      exact hb
  | empty tag attributes => exact root_of_attach hb h
  | close tag =>
      simp only [feed] at h
      split at h
      · cases h
      · split at h
        · exact root_of_attach (by exact hb) h
        · cases h
  | text s => rw [root_of_feed_text h, hb]
  | data s =>
      cases h
      rw [root_write, hb]
  | broken cause => cases h

theorem root_of_feedAll (hb : b.root = some e) (h : b.feedAll ts = .ok b') :
    b'.root = some e := by
  induction ts generalizing b with
  | nil =>
      cases h
      exact hb
  | cons t ts ih =>
      rw [feedAll_cons] at h
      obtain ⟨c, hc, h⟩ := bind_eq_ok_iff.1 h
      exact ih (root_of_feed hb hc) h

theorem finish_eq_ok_iff : b.finish = .ok e ↔ b.frames = [] ∧ b.root = some e := by
  obtain ⟨frames, root⟩ := b
  cases frames <;> cases root <;> simp [finish]

/-- An end tag completes the root exactly if the root is the only open element. -/
theorem exists_frame_of_close {tag : List Char} (hb : b.root = none)
    (h : b.feed (.close tag) = .ok b') (hfinish : b'.finish = .ok e) :
    ∃ f, b.frames = [f] ∧ f.element = e := by
  obtain ⟨frames, root⟩ := b
  obtain ⟨hframes, hroot⟩ := finish_eq_ok_iff.1 hfinish
  cases hb
  cases frames with
  | nil => cases h
  | cons f fs =>
      simp only [feed] at h
      split at h
      next =>
        cases fs with
        | nil =>
            cases h
            exact ⟨f, rfl, Option.some.inj hroot⟩
        | cons g gs =>
            cases h
            cases hframes
      next => cases h

theorem root_of_close {f : Frame} {tag : List Char} (hb : b.root = none) (hf : b.frames = [f])
    (h : b.feed (.close tag) = .ok b') : b'.root = some f.element := by
  obtain ⟨frames, root⟩ := b
  cases hb
  cases hf
  simp only [feed] at h
  split at h
  · cases h
    rfl
  · cases h

end Builder

section Parsing

open Builder

variable {front back stub : List Char} {e x : Element}

theorem exists_tokensFrom_close (read s : List Char) :
    ∃ tag ts, tokensFrom (.close read) s = .close tag :: ts := by
  induction s generalizing read with
  | nil => exact ⟨_, _, rfl⟩
  | cons c s ih =>
      by_cases hc : c = '>'
      · exact ⟨_, _, if_pos hc⟩
      · obtain ⟨tag, ts, h⟩ := ih (c :: read)
        exact ⟨tag, ts, (if_neg hc).trans h⟩

/-- A text that ends after a part of another, and that other one: where the part has left no root
yet, only an end tag that the part begins can complete one, and it does so in both. -/
theorem finish_unique {b b₁ b₂ : Builder} {m : Mode} (hstub : IsStub stub)
    (hpart : b.feedAll (tokensFrom m stub) = .ok b₁) (hx : b₁.finish = .ok x)
    (hall : b.feedAll (tokensFrom m back) = .ok b₂) (he : b₂.finish = .ok e) : x = e := by
  have hroot₁ := (finish_eq_ok_iff.1 hx).2
  have hroot₂ := (finish_eq_ok_iff.1 he).2
  cases hb : b.root with
  | some r =>
      rw [root_of_feedAll hb hpart] at hroot₁
      rw [root_of_feedAll hb hall] at hroot₂
      exact Option.some.inj (hroot₁.symm.trans hroot₂)
  | none =>
      have hcompletes := completes_stub m hstub
      generalize tokensFrom m stub = ts at hcompletes hpart
      cases hcompletes with
      | nothing =>
          cases hpart
          rw [hb] at hroot₁
          cases hroot₁
      | text s =>
          obtain ⟨c, hc, ⟨⟩⟩ := bind_eq_ok_iff.1 (feedAll_cons b _ _ ▸ hpart)
          rw [root_of_feed_text hc, hb] at hroot₁
          cases hroot₁
      | broken cause => cases hpart
      | close read tag hm =>
          obtain ⟨c, hc, ⟨⟩⟩ := bind_eq_ok_iff.1 (feedAll_cons b _ _ ▸ hpart)
          obtain ⟨f, hframes, rfl⟩ := exists_frame_of_close hb hc hx
          obtain ⟨tag', ts, htokens⟩ := exists_tokensFrom_close read back
          rw [hm, htokens, feedAll_cons] at hall
          obtain ⟨d, hd, hall⟩ := bind_eq_ok_iff.1 hall
          rw [root_of_feedAll (root_of_close hb hframes hd) hall] at hroot₂
          exact Option.some.inj hroot₂

theorem tokens_cons (c : Char) (s : List Char) :
    tokens (c :: s) = tokensFrom (.text []) (if c = '\uFEFF' then s else c :: s) := by
  unfold tokens
  split <;> simp_all

/-- Characters that are there lead to the same text without a byte order mark, whatever follows. -/
theorem exists_tokens_append (c : Char) (s : List Char) :
    ∃ t, ∀ rest, tokens (c :: s ++ rest) = tokensFrom (.text []) (t ++ rest) := by
  by_cases hc : c = '\uFEFF'
  · exact ⟨s, fun rest => by rw [List.cons_append, tokens_cons, if_pos hc]⟩
  · exact ⟨c :: s, fun rest => by rw [List.cons_append, tokens_cons, if_neg hc]⟩

theorem parseChars_eq_ok_iff {s : List Char} :
    Element.parseChars s = .ok e ↔
      ∃ b, Builder.empty.feedAll (tokens s) = .ok b ∧ b.finish = .ok e :=
  bind_eq_ok_iff

theorem parseChars_stub_ne_ok (h : IsStub stub) : Element.parseChars stub ≠ .ok e := by
  rcases h with rfl | rfl
  · exact fun h => nomatch h
  · exact fun h => nomatch h

/-- A document and a part of it that is cut off have the same root, if both have one. -/
theorem parseChars_append_unique (hstub : IsStub stub)
    (hpart : Element.parseChars (front ++ stub) = .ok x)
    (hall : Element.parseChars (front ++ back) = .ok e) : x = e := by
  cases front with
  | nil => exact absurd hpart (parseChars_stub_ne_ok hstub)
  | cons c s =>
      obtain ⟨t, ht⟩ := exists_tokens_append c s
      obtain ⟨b₁, hpart, hx⟩ := parseChars_eq_ok_iff.1 hpart
      obtain ⟨b₂, hall, he⟩ := parseChars_eq_ok_iff.1 hall
      rw [ht] at hpart hall
      cases leads (.text []) t with
      | on read m h =>
          rw [h, feedAll_append] at hpart hall
          obtain ⟨b, hread, hpart⟩ := bind_eq_ok_iff.1 hpart
          obtain ⟨b', hread', hall⟩ := bind_eq_ok_iff.1 hall
          obtain rfl := Except.ok.inj (hread.symm.trans hread')
          exact finish_unique hstub hpart hx hall he
      | off read cause h =>
          rw [h, feedAll_append] at hall
          obtain ⟨b, -, hall⟩ := bind_eq_ok_iff.1 hall
          cases hall

end Parsing

end Markup

end CoverageAccess
