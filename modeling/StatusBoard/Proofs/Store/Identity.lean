import StatusBoard.Uuid
set_option autoImplicit false

/-!
# Store: identities read back

An identity is read back from its written form, so that two rows with one written identity have one
identity.
-/

namespace StatusBoard.Uuid

@[simp] theorem digitOf?_digitText (d : Fin 16) : digitOf? (digitText d) = some d := by
  revert d
  decide

@[simp] theorem length_toChars (u : Uuid) : u.toChars.length = 36 := by
  simp [toChars, hyphenate, u.length_digits]

theorem mapM_digitOf? (digits : List (Fin 16)) :
    (digits.map digitText).mapM digitOf? = some digits := by
  induction digits with
  | nil => rfl
  | cons d digits ih => simp [ih]

theorem parseSimple?_digits (u : Uuid) : parseSimple? (u.digits.map digitText) = some u := by
  rw [parseSimple?, mapM_digitOf?, Option.bind_some, ofDigits?, dif_pos u.length_digits]

/-- Thirty-two digits fall into the five groups. -/
theorem exists_groups {s : List Char} (h : s.length = 32) :
    ∃ a b c d e : List Char, s = a ++ (b ++ (c ++ (d ++ e))) ∧
      a.length = 8 ∧ b.length = 4 ∧ c.length = 4 ∧ d.length = 4 ∧ e.length = 12 := by
  refine ⟨s.take 8, (s.drop 8).take 4, (s.drop 12).take 4, (s.drop 16).take 4, s.drop 20,
    ?_, by simp [h]⟩
  have hlast : (s.drop 16).take 4 ++ s.drop 20 = s.drop 16 := by
    rw [← List.drop_drop (i := 4) (j := 16), List.take_append_drop]
  have hthird : (s.drop 12).take 4 ++ s.drop 16 = s.drop 12 := by
    rw [← List.drop_drop (i := 4) (j := 12), List.take_append_drop]
  have hsecond : (s.drop 8).take 4 ++ s.drop 12 = s.drop 8 := by
    rw [← List.drop_drop (i := 4) (j := 8), List.take_append_drop]
  rw [hlast, hthird, hsecond, List.take_append_drop]

/-- The hyphens are taken away again. -/
theorem parseHyphenated?_hyphenate {s : List Char} (h : s.length = 32) :
    parseHyphenated? (hyphenate '-' s) = parseSimple? s := by
  obtain ⟨a, b, c, d, e, rfl, ha, hb, hc, hd, -⟩ := exists_groups h
  simp [hyphenate, parseHyphenated?, List.getElem?_append, List.drop_append,
    List.drop_eq_nil_of_le, ha, hb, hc, hd]

@[simp] theorem parse?_toText (u : Uuid) : parse? u.toText = some u := by
  unfold parse?
  simp only [toText, String.toList_ofList, length_toChars]
  rw [toChars, parseHyphenated?_hyphenate (by simp [u.length_digits]), parseSimple?_digits]

end StatusBoard.Uuid
