import CoverageAccess.Proofs.Outcome
import CoverageAccess.Request.Markup
import CoverageAccess.Request.Query
/-!
# The parts of a request

Both readers take a request part by part, and every part is read from the whole query or document.
So a request is read exactly if each of its parts is. The order of the parts matters only to the
fault that is told.
-/

namespace CoverageAccess

namespace Request

open Markup

variable {q : Query} {root : Element} {r : Request}

/-- What the parameters of a query have to be for its request to be `r`. -/
structure IsOfQuery (q : Query) (r : Request) : Prop where
  protocol : checkProtocol q = .ok ()
  coverage : queryCoverage q = .ok r.coverageId
  allowed : checkMediaType (q.get? "mediatype") = .ok ()
  format : r.format = q.get? "format"
  mediaType : r.mediaType = q.get? "mediatype"
  fields : queryFields q = .ok r.fields
  subsets : enterAll Subset.ofQuery ∅ (q.getAll "subset") = .ok r.subsets
  scaling : Scaling.ofQuery q = .ok r.scaling

theorem ofQuery_eq_ok_iff : ofQuery q = .ok r ↔ IsOfQuery q r := by
  constructor
  · intro h
    obtain ⟨⟨⟩, hprotocol, h⟩ := bind_eq_ok_iff.1 h
    obtain ⟨id, hid, h⟩ := bind_eq_ok_iff.1 h
    obtain ⟨⟨⟩, hmedia, h⟩ := bind_eq_ok_iff.1 h
    obtain ⟨subsets, hsubsets, h⟩ := bind_eq_ok_iff.1 h
    obtain ⟨fields, hfields, h⟩ := bind_eq_ok_iff.1 h
    obtain ⟨scaling, hscaling, h⟩ := bind_eq_ok_iff.1 h
    cases pure_eq_ok_iff.1 h
    exact {
      protocol := mapError_eq_ok_iff.1 hprotocol
      coverage := mapError_eq_ok_iff.1 hid
      allowed := mapError_eq_ok_iff.1 hmedia
      format := rfl
      mediaType := rfl
      fields := mapError_eq_ok_iff.1 hfields
      subsets := hsubsets
      scaling := mapError_eq_ok_iff.1 hscaling }
  · intro h
    obtain ⟨id, format, mediaType, fields, subsets, scaling⟩ := r
    obtain ⟨hprotocol, hid, hmedia, hformat, htype, hfields, hsubsets, hscaling⟩ := h
    dsimp only at *
    subst hformat htype
    simp only [ofQuery, hprotocol, hid, hmedia, hsubsets, hfields, hscaling, mapError_ok, ok_bind]
    rfl

/-- What the elements of a document have to be for its request to be `r`. -/
structure IsOfElement (root : Element) (r : Request) : Prop where
  kind : checkRoot root = .ok ()
  coverage : elementCoverage root = .ok r.coverageId
  allowed : checkMediaType (root.childText? "mediaType") = .ok ()
  format : r.format = root.childText? "format"
  mediaType : r.mediaType = root.childText? "mediaType"
  fields : elementFields root = .ok r.fields
  subsets : enterAll Subset.ofElement ∅ (dimensionElements root) = .ok r.subsets
  scaling : Scaling.ofElement root = .ok r.scaling

theorem ofElement_eq_ok_iff : ofElement root = .ok r ↔ IsOfElement root r := by
  constructor
  · intro h
    obtain ⟨⟨⟩, hroot, h⟩ := bind_eq_ok_iff.1 h
    obtain ⟨id, hid, h⟩ := bind_eq_ok_iff.1 h
    obtain ⟨⟨⟩, hmedia, h⟩ := bind_eq_ok_iff.1 h
    obtain ⟨subsets, hsubsets, h⟩ := bind_eq_ok_iff.1 h
    obtain ⟨fields, hfields, h⟩ := bind_eq_ok_iff.1 h
    obtain ⟨scaling, hscaling, h⟩ := bind_eq_ok_iff.1 h
    cases pure_eq_ok_iff.1 h
    exact {
      kind := mapError_eq_ok_iff.1 hroot
      coverage := mapError_eq_ok_iff.1 hid
      allowed := mapError_eq_ok_iff.1 hmedia
      format := rfl
      mediaType := rfl
      fields := mapError_eq_ok_iff.1 hfields
      subsets := hsubsets
      scaling := mapError_eq_ok_iff.1 hscaling }
  · intro h
    obtain ⟨id, format, mediaType, fields, subsets, scaling⟩ := r
    obtain ⟨hroot, hid, hmedia, hformat, htype, hfields, hsubsets, hscaling⟩ := h
    dsimp only at *
    subst hformat htype
    simp only [ofElement, hroot, hid, hmedia, hsubsets, hfields, hscaling, mapError_ok, ok_bind]
    rfl

end Request

end CoverageAccess
