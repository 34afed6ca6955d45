import CoverageAccess.Text.Utf8
/-!
# Reading UTF-8

What has been encoded is read again (`decode?_encode`), because the bytes of a character lead the
reader from its start back to its start. And the reader never looks ahead: a part of the bytes that
is cut off anywhere gives the same characters, except that a character which the cut goes through
becomes one piece that is no character (`exists_decodeReplacing_append`).
-/

namespace CoverageAccess

namespace Utf8

theorem scanFrom_cons (p : Pending) (b : UInt8) (bs : List UInt8) :
    scanFrom p (b :: bs) = (feed p b).1 ++ scanFrom (feed p b).2 bs := by
  cases p <;> rfl

section Encoding

variable {bs : List UInt8} {n k d low high code : Nat}

theorem toNat_ofNat (h : n < 256) : (UInt8.ofNat n).toNat = n :=
  UInt8.toNat_ofNat_of_lt' h

theorem scanFrom_lead (h : n < 256) :
    scanFrom .start (UInt8.ofNat n :: bs) =
      (lead n).pieces.1 ++ scanFrom (lead n).pieces.2 bs := by
  rw [scanFrom_cons, feed, toNat_ofNat h]

/-- The last byte of a character. -/
theorem scanFrom_last (hd : d < 64) (hlow : low ≤ d + 128) (hhigh : d + 128 ≤ high) :
    scanFrom (.more 1 low high code) (UInt8.ofNat (d + 128) :: bs) =
      some (Char.ofNat (code * 64 + d)) :: scanFrom .start bs := by
  rw [scanFrom_cons, feed, toNat_ofNat (by omega), if_pos ⟨hlow, hhigh⟩, Nat.add_sub_cancel]
  rfl

/-- A byte of a character that is not the last. -/
theorem scanFrom_next (hd : d < 64) (hlow : low ≤ d + 128) (hhigh : d + 128 ≤ high) :
    scanFrom (.more (n + 2) low high code) (UInt8.ofNat (d + 128) :: bs) =
      scanFrom (.more (n + 1) 0x80 0xBF (code * 64 + d)) bs := by
  rw [scanFrom_cons, feed, toNat_ofNat (by omega), if_pos ⟨hlow, hhigh⟩, Nat.add_sub_cancel]
  rfl

theorem lead_one (h : n < 0x80) : lead n = .char (Char.ofNat n) :=
  if_pos h

theorem lead_two (hk : 2 ≤ k) (hk' : k < 32) : lead (k + 192) = .open (.more 1 0x80 0xBF k) := by
  rw [lead, if_neg (by omega), if_neg (by omega), if_pos (by omega), Nat.add_sub_cancel]

/-- The first byte of three bounds the second one so that nothing overlong and no surrogate gets
through. -/
theorem exists_lead_three (hk : k < 16) (hd : d < 64) (hshort : k = 0 → 32 ≤ d)
    (hsurrogate : k = 13 → d < 32) :
    ∃ low high, lead (k + 224) = .open (.more 2 low high k) ∧ low ≤ d + 128 ∧
      d + 128 ≤ high := by
  unfold lead
  rw [if_neg (by omega), if_neg (by omega), if_neg (by omega), Nat.add_sub_cancel]
  by_cases h0 : k = 0
  · exact ⟨0xA0, 0xBF, by rw [if_pos (by omega), h0], by omega, by omega⟩
  · rw [if_neg (by omega)]
    by_cases h13 : k = 13
    · exact ⟨0x80, 0x9F, by rw [if_pos (by omega), h13], by omega, by omega⟩
    · exact ⟨0x80, 0xBF, by rw [if_neg (by omega), if_pos (by omega)], by omega, by omega⟩

/-- The first byte of four bounds the second one so that nothing overlong and nothing beyond the
last code point gets through. -/
theorem exists_lead_four (hk : k < 5) (hd : d < 64) (hshort : k = 0 → 16 ≤ d)
    (hlast : k = 4 → d < 16) :
    ∃ low high, lead (k + 240) = .open (.more 3 low high k) ∧ low ≤ d + 128 ∧
      d + 128 ≤ high := by
  unfold lead
  rw [if_neg (by omega), if_neg (by omega), if_neg (by omega), if_neg (by omega),
    if_neg (by omega), if_neg (by omega), Nat.add_sub_cancel]
  by_cases h0 : k = 0
  · exact ⟨0x90, 0xBF, by rw [if_pos (by omega), h0], by omega, by omega⟩
  · rw [if_neg (by omega)]
    by_cases h4 : k = 4
    · exact ⟨0x80, 0x8F, by rw [if_neg (by omega), if_pos (by omega), h4], by omega, by omega⟩
    · exact ⟨0x80, 0xBF, by rw [if_pos (by omega)], by omega, by omega⟩

/-- The bytes of a character are read as that character. -/
theorem scanFrom_utf8EncodeChar (c : Char) (bs : List UInt8) :
    scanFrom .start (String.utf8EncodeChar c ++ bs) = some c :: scanFrom .start bs := by
  have hvalid : c.val.toNat < 0xD800 ∨ 0xDFFF < c.val.toNat ∧ c.val.toNat < 0x110000 := c.valid
  have hchar : Char.ofNat c.val.toNat = c := Char.ofNat_toNat c
  rw [String.utf8EncodeChar]
  generalize c.val.toNat = v at hvalid hchar
  split
  next hone =>
    rw [List.singleton_append, scanFrom_lead (by omega), lead_one (by omega), hchar]
    rfl
  next hone =>
    split
    next htwo =>
      have hcode : v / 64 % 32 * 64 + v % 64 = v := by omega
      rw [List.cons_append, scanFrom_lead (by omega), lead_two (by omega) (by omega)]
      rw [List.singleton_append, Lead.pieces, List.nil_append,
        scanFrom_last (by omega) (by omega) (by omega), hcode, hchar]
    next htwo =>
      split
      next hthree =>
        have hcode : (v / 4096 % 16 * 64 + v / 64 % 64) * 64 + v % 64 = v := by omega
        obtain ⟨low, high, hlead, hlow, hhigh⟩ :=
          exists_lead_three (k := v / 4096 % 16) (d := v / 64 % 64) (by omega) (by omega)
            (by omega) (by omega)
        rw [List.cons_append, scanFrom_lead (by omega), hlead, Lead.pieces, List.nil_append,
          List.cons_append, scanFrom_next (by omega) hlow hhigh, List.singleton_append,
          scanFrom_last (by omega) (by omega) (by omega), hcode, hchar]
      next hthree =>
        have hcode : ((v / 262144 % 8 * 64 + v / 4096 % 64) * 64 + v / 64 % 64) * 64 + v % 64 =
            v := by omega
        obtain ⟨low, high, hlead, hlow, hhigh⟩ :=
          exists_lead_four (k := v / 262144 % 8) (d := v / 4096 % 64) (by omega) (by omega)
            (by omega) (by omega)
        rw [List.cons_append, scanFrom_lead (by omega), hlead, Lead.pieces, List.nil_append,
          List.cons_append, scanFrom_next (by omega) hlow hhigh, List.cons_append,
          scanFrom_next (by omega) (by omega) (by omega), List.singleton_append,
          scanFrom_last (by omega) (by omega) (by omega), hcode, hchar]

/-- The bytes of a text are read as its characters, whatever bytes follow. -/
theorem scan_encodeChars_append (s : List Char) (bs : List UInt8) :
    scan (encodeChars s ++ bs) = s.map some ++ scan bs := by
  induction s with
  | nil => rfl
  | cons c s ih =>
      rw [scan, encodeChars, List.flatMap_cons, List.append_assoc, scanFrom_utf8EncodeChar,
        List.map_cons, List.cons_append, ← ih]
      rfl

theorem scan_encodeChars (s : List Char) : scan (encodeChars s) = s.map some := by
  have h := scan_encodeChars_append s []
  rwa [List.append_nil, scan_nil, List.append_nil] at h

/-- What has been encoded is read again. -/
theorem decode?_encode (s : String) : decode? (encode s) = some s := by
  have hall : (s.toList.map some).mapM id = some s.toList := by
    rw [List.mapM_map]
    have h := List.mapM_pure (m := Option) (l := s.toList) (f := fun c => c)
    rwa [List.map_id'] at h
  rw [decode?, encode, scan_encodeChars, hall, Option.map_some, String.ofList_toList]

/-- The bytes of a text begin with the bytes of another one exactly if the text begins with that
one. -/
theorem encode_isPrefix_encode_iff {s t : String} :
    encode s <+: encode t ↔ s.toList <+: t.toList := by
  constructor
  · rintro ⟨bs, hbs⟩
    have hscan := scan_encodeChars_append s.toList bs
    change scan (encode s ++ bs) = _ at hscan
    rw [hbs, encode, scan_encodeChars] at hscan
    exact (List.prefix_map_iff_of_injective fun _ _ => Option.some.inj).1 ⟨_, hscan.symm⟩
  · rintro ⟨rest, hrest⟩
    rw [encode, encode, ← hrest, encodeChars_append]
    exact List.prefix_append _ _

end Encoding

section Cutting

/-- The reader goes through a part of the bytes in the same way, whatever follows. -/
theorem exists_scanFrom_append (p : Pending) (part : List UInt8) :
    ∃ pieces q, ∀ rest, scanFrom p (part ++ rest) = pieces ++ scanFrom q rest := by
  induction part generalizing p with
  | nil => exact ⟨[], p, fun rest => rfl⟩
  | cons b part ih =>
      obtain ⟨pieces, q, h⟩ := ih (feed p b).2
      refine ⟨(feed p b).1 ++ pieces, q, fun rest => ?_⟩
      rw [List.cons_append, scanFrom_cons, h, List.append_assoc]

theorem scanFrom_nil (p : Pending) : scanFrom p [] = [] ∨ scanFrom p [] = [none] := by
  cases p with
  | start => exact .inl rfl
  | more => exact .inr rfl

/-- Bytes that are cut off give the characters of the part, and one replacement if the cut goes
through a character. -/
theorem exists_decodeReplacing_append (part rest : List UInt8) :
    ∃ front back, (decodeReplacing (part ++ rest)).toList = front ++ back ∧
      ((decodeReplacing part).toList = front ∨
        (decodeReplacing part).toList = front ++ ['\uFFFD']) := by
  obtain ⟨pieces, q, h⟩ := exists_scanFrom_append .start part
  have hpart : scan part = pieces ++ scanFrom q [] := by
    rw [scan, ← h, List.append_nil]
  refine ⟨pieces.map fun c => c.getD '\uFFFD', (scanFrom q rest).map fun c => c.getD '\uFFFD',
    ?_, ?_⟩
  · rw [decodeReplacing, String.toList_ofList, scan, h, List.map_append]
  · rw [decodeReplacing, String.toList_ofList, hpart, List.map_append]
    rcases scanFrom_nil q with hq | hq
    · exact .inl (by rw [hq, List.map_nil, List.append_nil])
    · exact .inr (by rw [hq]; rfl)

end Cutting

end Utf8

end CoverageAccess
