import StatusBoard.Proofs.Json5.Members
import StatusBoard.Store.Cell
set_option autoImplicit false

/-!
# Store: texts are ordered by their bytes

The table compares texts byte by byte, in UTF-8.  That encoding keeps the order of characters:
one with a smaller number has bytes that come first.  So the order of the bytes of texts is
that of their characters.
-/

namespace StatusBoard

/-- The bytes of a text. -/
def bytesOf (s : String) : List UInt8 :=
  s.toUTF8.data.toList

theorem bytesOf_eq (s : String) : bytesOf s = s.toList.flatMap String.utf8EncodeChar := by
  rw [bytesOf, String.toUTF8_eq_toByteArray, ← String.utf8Encode_toList, List.utf8Encode,
    List.toList_data_toByteArray]

namespace Cell

/-! ## Bytes -/

theorem compareBytes_append (x y z : List UInt8) :
    compareBytes (x ++ y) (x ++ z) = compareBytes y z := by
  induction x with
  | nil => rfl
  | cons a x ih =>
      rw [List.cons_append, List.cons_append, compareBytes, Std.ReflOrd.compare_self, ih]
      rfl

theorem compareBytes_swap (x y : List UInt8) : (compareBytes x y).swap = compareBytes y x := by
  induction x generalizing y with
  | nil => cases y <;> rfl
  | cons a x ih =>
      cases y with
      | nil => rfl
      | cons b y =>
          rw [compareBytes, compareBytes, Ordering.swap_then, ih, ← Std.OrientedOrd.eq_swap]

/-- Which of two lists of bytes comes first is settled by their first bytes,
unless these are the same. -/
theorem compareBytes_eq_lt {a b : Nat} (ha : a < 256) (hb : b < 256) {x y : List UInt8}
    (h : a < b ∨ a = b ∧ compareBytes x y = .lt) :
    compareBytes (UInt8.ofNat a :: x) (UInt8.ofNat b :: y) = .lt := by
  obtain hlt | ⟨rfl, hrest⟩ := h
  · have hbytes : UInt8.ofNat a < UInt8.ofNat b := by
      rw [UInt8.lt_iff_toNat_lt, UInt8.toNat_ofNat_of_lt' ha, UInt8.toNat_ofNat_of_lt' hb]
      exact hlt
    rw [compareBytes, Std.compare_eq_lt.mpr hbytes]
    rfl
  · rw [compareBytes, Std.ReflOrd.compare_self, hrest]
    rfl

/-! ## Characters -/

/-- The bytes of a character with a smaller number come first: a longer encoding starts with a
larger byte, and encodings of one length are the digits of the numbers to the base of sixty-four. -/
theorem compareBytes_encodeChar {c d : Char} (h : c.toNat < d.toNat) (x y : List UInt8) :
    compareBytes (String.utf8EncodeChar c ++ x) (String.utf8EncodeChar d ++ y) = .lt := by
  have hlimit : d.val.toNat < 0x110000 := by
    have hvalid := d.valid
    simp only [UInt32.isValidChar, Nat.isValidChar] at hvalid
    omega
  change c.val.toNat < d.val.toNat at h
  unfold String.utf8EncodeChar
  generalize c.val.toNat = v at h
  generalize d.val.toNat = w at h hlimit
  have hlonger : ∀ {a b : Nat} (_ : a < 256) (_ : b < 256) (_ : a < b) (x y : List UInt8),
      compareBytes (UInt8.ofNat a :: x) (UInt8.ofNat b :: y) = .lt := by
    intro a b ha hb hlt _ _
    exact compareBytes_eq_lt ha hb (.inl hlt)
  simp only
  -- First by the length of the encoding of `c`, then by that of `d`, which is no shorter.
  split
  · split
    · exact hlonger (by omega) (by omega) h _ _
    split
    · exact hlonger (by omega) (by omega) (by omega) _ _
    split
    · exact hlonger (by omega) (by omega) (by omega) _ _
    · exact hlonger (by omega) (by omega) (by omega) _ _
  split
  · split
    · omega
    split
    · apply compareBytes_eq_lt (by omega) (by omega)
      by_cases hfirst : v / 64 < w / 64
      · exact .inl (by omega)
      exact .inr ⟨by omega, hlonger (by omega) (by omega) (by omega) _ _⟩
    split
    · exact hlonger (by omega) (by omega) (by omega) _ _
    · exact hlonger (by omega) (by omega) (by omega) _ _
  split
  · split
    · omega
    split
    · omega
    split
    · apply compareBytes_eq_lt (by omega) (by omega)
      by_cases hfirst : v / 4096 < w / 4096
      · exact .inl (by omega)
      refine .inr ⟨by omega, compareBytes_eq_lt (by omega) (by omega) ?_⟩
      by_cases hsecond : v / 64 < w / 64
      · exact .inl (by omega)
      exact .inr ⟨by omega, hlonger (by omega) (by omega) (by omega) _ _⟩
    · exact hlonger (by omega) (by omega) (by omega) _ _
  · split
    · omega
    split
    · omega
    split
    · omega
    · apply compareBytes_eq_lt (by omega) (by omega)
      by_cases hfirst : v / 262144 < w / 262144
      · exact .inl (by omega)
      refine .inr ⟨by omega, compareBytes_eq_lt (by omega) (by omega) ?_⟩
      by_cases hsecond : v / 4096 < w / 4096
      · exact .inl (by omega)
      refine .inr ⟨by omega, compareBytes_eq_lt (by omega) (by omega) ?_⟩
      by_cases hthird : v / 64 < w / 64
      · exact .inl (by omega)
      exact .inr ⟨by omega, hlonger (by omega) (by omega) (by omega) _ _⟩

/-! ## Texts -/

theorem compareBytes_encode (s t : List Char) :
    compareBytes (s.flatMap String.utf8EncodeChar) (t.flatMap String.utf8EncodeChar) =
      compare (s.map Char.toNat) (t.map Char.toNat) := by
  induction s generalizing t with
  | nil =>
      cases t with
      | nil => rfl
      | cons d t =>
          obtain ⟨a, rest, hbytes⟩ :=
            List.exists_cons_of_ne_nil (String.utf8EncodeChar_ne_nil (c := d))
          rw [List.flatMap_cons, hbytes]
          rfl
  | cons c s ih =>
      cases t with
      | nil =>
          obtain ⟨a, rest, hbytes⟩ :=
            List.exists_cons_of_ne_nil (String.utf8EncodeChar_ne_nil (c := c))
          rw [List.flatMap_cons, hbytes]
          rfl
      | cons d t =>
          rw [List.flatMap_cons, List.flatMap_cons, List.map_cons, List.map_cons,
            List.compare_cons_cons]
          obtain hlt | heq | hgt := Nat.lt_trichotomy c.toNat d.toNat
          · rw [compareBytes_encodeChar hlt, Nat.compare_eq_lt.mpr hlt]
            rfl
          · rw [Char.toNat_inj.mp heq, compareBytes_append, ih, Nat.compare_eq_eq.mpr rfl]
            rfl
          · rw [← compareBytes_swap, compareBytes_encodeChar hgt, Nat.compare_eq_gt.mpr hgt]
            rfl

/-- Texts are ordered by their bytes. -/
theorem order_text (a b : String) :
    order (.text a) (.text b) = compareBytes (bytesOf a) (bytesOf b) := by
  rw [bytesOf_eq, bytesOf_eq, compareBytes_encode]
  exact (Json5.compare_codesOf a b).symm

end Cell
end StatusBoard
