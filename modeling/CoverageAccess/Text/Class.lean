/-!
# Classes of characters

A class of characters is given by its bounds: the first code points at which the class begins and
ends, in turn.
-/

namespace CoverageAccess

namespace Text

/-- The code point lies in the class with the given bounds: it is not less than an odd number of
them. -/
def within (bounds : List Nat) (n : Nat) : Bool :=
  bounds.countP (fun b => b ≤ n) % 2 = 1

@[simp] theorem within_nil (n : Nat) : within [] n = false := rfl

/-- Bounds beyond the code point make no difference. -/
theorem within_append_of_forall_lt {bounds beyond : List Nat} {n : Nat} (h : ∀ b ∈ beyond, n < b) :
    within (bounds ++ beyond) n = within bounds n := by
  have hc : beyond.countP (fun b => b ≤ n) = 0 :=
    List.countP_eq_zero.2 fun b hb => by simpa using h b hb
  simp [within, hc]

end Text

end CoverageAccess
