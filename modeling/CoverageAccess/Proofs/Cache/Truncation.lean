import CoverageAccess.Proofs.Cache.Visits
import CoverageAccess.Proofs.Markup.Truncation
import CoverageAccess.Proofs.Text.Utf8
/-!
# Files that are cut off

A body is written into its place, so an interruption leaves a part of it from the beginning, which
may end within a character. Such a part is either no metadata document or the same one as the whole
body (`decode_of_isPrefix`); so a look-up that finds it answers with the document of the body, or
removes the file.
-/

namespace CoverageAccess

open Markup Metadata

namespace Metadata

variable {body part : List UInt8} {root : Element}

theorem decode_eq_ok_iff :
    decode body = .ok root ↔
      Element.parseChars (Utf8.decodeReplacing body).toList = .ok root ∧ root.name = "Dataset" := by
  simp only [decode, bind_eq_ok_iff, mapError_eq_ok_iff, Element.parse]
  constructor
  · rintro ⟨e, he, h⟩
    split at h
    next hname =>
      cases pure_eq_ok_iff.1 h
      exact ⟨he, hname⟩
    next => cases h
  · rintro ⟨he, hname⟩
    exact ⟨root, he, if_pos hname⟩

/-- A body and a part of it from the beginning are the same document, if both are one. -/
theorem decode_unique {root' : Element} (h : decode body = .ok root) (hpart : part <+: body)
    (h' : decode part = .ok root') : root' = root := by
  obtain ⟨rest, rfl⟩ := hpart
  obtain ⟨front, back, hbody, hfront⟩ := Utf8.exists_decodeReplacing_append part rest
  obtain ⟨stub, hstub, hpart⟩ :
      ∃ stub, IsStub stub ∧ (Utf8.decodeReplacing part).toList = front ++ stub := by
    rcases hfront with hfront | hfront
    · exact ⟨[], .inl rfl, by rw [hfront, List.append_nil]⟩
    · exact ⟨_, .inr rfl, hfront⟩
  have hall := (decode_eq_ok_iff.1 h).1
  have hcut := (decode_eq_ok_iff.1 h').1
  rw [hbody] at hall
  rw [hpart] at hcut
  exact parseChars_append_unique hstub hcut hall

/-- A part of a metadata document from its beginning is no such document or is the same one. A
look-up that finds the part in place of the document answers with the document or removes the
part. -/
theorem decode_of_isPrefix (h : decode body = .ok root) (hpart : part <+: body) :
    (decode part = .ok root ∨ ∃ cause, decode part = .error cause) ∧
      ∀ (source : Source) (c : Cache) (id dataset : String),
        c.slots (key (address dataset)) = .file part →
        (c.get source id dataset).1 = .ok (named id root) ∨
          (c.get source id dataset).1 = .error (Cache.unreadable id) ∧
            (c.get source id dataset).2.slots (key (address dataset)) = .vacant := by
  have hdecode : decode part = .ok root ∨ ∃ cause, decode part = .error cause := by
    cases hp : decode part with
    | ok root' => exact .inl (by rw [decode_unique h hpart hp])
    | error cause => exact .inr ⟨cause, rfl⟩
  refine ⟨hdecode, fun source c id dataset hslot => ?_⟩
  have hgot := Cache.got source c id dataset
  generalize (c.get source id dataset).1 = answer, (c.get source id dataset).2 = after at hgot ⊢
  cases hgot with
  | hit found fit =>
      cases hslot.symm.trans found
      exact .inl (by rw [decode_unique h hpart fit])
  | evicted found unfit => exact .inr ⟨rfl, Cache.place_self _ _ _⟩
  | stored found =>
      rw [hslot] at found
      cases found
  | failed found =>
      rw [hslot] at found
      cases found
  | blocked found =>
      rw [hslot] at found
      cases found

/-- A document with a word after its root that ends in a character of two bytes. -/
def annotated : List UInt8 :=
  Utf8.encode "<Dataset name=\"sst\"><Int16 name=\"lat\"/></Dataset><!-- --> né"

/-- The root of that document. -/
def annotatedRoot : Element :=
  ⟨"Dataset", [("name", "sst")], [⟨"Int16", [("name", "lat")], [], ""⟩], ""⟩

theorem decode_of_isPrefix_annotated :
    decode annotated = .ok annotatedRoot ∧ annotated.dropLast <+: annotated ∧
      decode annotated.dropLast = .ok annotatedRoot ∧
      ((Cache.ofSlots "cache" fun _ => .file annotated.dropLast).get offline "sst" "/sst").1 =
        .ok (named "sst" annotatedRoot) := by
  have hdecode : decode annotated = .ok annotatedRoot := by rfl
  have hpart : annotated.dropLast <+: annotated := List.dropLast_prefix _
  obtain ⟨hcut, hget⟩ := decode_of_isPrefix hdecode hpart
  have hread : decode annotated.dropLast = .ok annotatedRoot := by
    refine hcut.resolve_right ?_
    rintro ⟨cause, h⟩
    have hok : (decode annotated.dropLast).isOk = true := by rfl
    rw [h] at hok
    cases hok
  refine ⟨hdecode, hpart, hread, ?_⟩
  refine (hget offline _ "sst" "/sst" rfl).resolve_right ?_
  rintro ⟨h, -⟩
  have hok : ((Cache.ofSlots "cache" fun _ => .file annotated.dropLast).get offline "sst"
      "/sst").1.isOk = true := by rfl
  rw [h] at hok
  cases hok

end Metadata

end CoverageAccess
