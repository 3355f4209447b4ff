import Mathlib.Data.List.TakeWhile
import StatusBoard.Text.Blank
import StatusBoard.Text.Decimal
set_option autoImplicit false

/-!
# Text: blanks at the ends, and parts

Trimming takes the blanks at the two ends of a text away, and no other character.  A text is cut at its
separators in one way only.
-/

namespace StatusBoard.Text

variable {s t : List Char}

theorem isBlank_of_isDigit {c : Char} (h : isDigit c = true) : isBlank c = false := by
  simp only [isDigit, Bool.and_eq_true, decide_eq_true_eq] at h
  have hlow : 48 ≤ c.toNat := h.1
  have hhigh : c.toNat ≤ 57 := h.2
  simp only [isBlank, Bool.or_eq_false_iff, Bool.and_eq_false_iff, decide_eq_false_iff_not,
    beq_eq_false_iff_ne]
  omega

/-! ## Trimming -/

theorem trimLeft_of_head (h : ∀ c ∈ s.head?, isBlank c = false) : trimLeft s = s := by
  cases s with
  | nil => rfl
  | cons c s =>
      have hc : isBlank c = false := h c rfl
      simp [trimLeft, hc]

theorem trimLeft_append {blanks : List Char} (h : ∀ c ∈ blanks, isBlank c = true) :
    trimLeft (blanks ++ s) = trimLeft s :=
  List.dropWhile_append_of_pos h

theorem head_trimLeft : ∀ c ∈ (trimLeft s).head?, isBlank c = false := by
  intro c hc
  have hhead := List.head?_dropWhile_not isBlank s
  rwa [show (s.dropWhile isBlank).head? = some c from hc] at hhead

theorem exists_blanks_append_trimLeft (s : List Char) :
    ∃ blanks, s = blanks ++ trimLeft s ∧ ∀ c ∈ blanks, isBlank c = true :=
  ⟨s.takeWhile isBlank, List.takeWhile_append_dropWhile.symm, fun _ hc => List.mem_takeWhile_imp hc⟩

/-- The text is another one with blanks around it, and has none at its own ends. -/
structure IsTrimOf (t s : List Char) : Prop where
  around : ∃ left right, s = left ++ t ++ right ∧ ∀ c ∈ left ++ right, isBlank c = true
  head : ∀ c ∈ t.head?, isBlank c = false
  last : ∀ c ∈ t.getLast?, isBlank c = false

theorem isTrimOf_trimChars (s : List Char) : IsTrimOf (trimChars s) s := by
  obtain ⟨left, hleft, hblank⟩ := exists_blanks_append_trimLeft s
  obtain ⟨right, hright, hblank'⟩ := exists_blanks_append_trimLeft (trimLeft s).reverse
  have hsplit : trimLeft s = trimChars s ++ right.reverse := by
    rw [← List.reverse_reverse (trimLeft s), hright, List.reverse_append]
    rfl
  refine ⟨⟨left, right.reverse, ?_, ?_⟩, ?_, ?_⟩
  · rw [List.append_assoc, ← hsplit, ← hleft]
  · intro c hc
    rcases List.mem_append.mp hc with hc | hc
    · exact hblank c hc
    · exact hblank' c (List.mem_reverse.mp hc)
  · intro c hc
    apply head_trimLeft (s := s) c
    rw [hsplit, List.head?_append, hc]
    rfl
  · intro c hc
    rw [trimChars, List.getLast?_reverse] at hc
    exact head_trimLeft c hc

theorem trimChars_of_isTrimOf (h : IsTrimOf t s) : trimChars s = t := by
  obtain ⟨⟨left, right, rfl, hblank⟩, hhead, hlast⟩ := h
  obtain ⟨hleft, hright⟩ := List.forall_mem_append.mp hblank
  have hreverse : ∀ c ∈ right.reverse, isBlank c = true := fun c hc =>
    hright c (List.mem_reverse.mp hc)
  rw [trimChars, List.append_assoc, trimLeft_append hleft]
  cases t with
  | nil =>
      rw [List.nil_append, ← List.append_nil right, trimLeft_append hright]
      rfl
  | cons c t =>
      rw [trimLeft_of_head (s := c :: t ++ right) hhead, List.reverse_append, trimLeft_append hreverse,
        trimLeft_of_head fun c hc => hlast c (by rwa [List.head?_reverse] at hc), List.reverse_reverse]

/-- Trimming takes the blanks at the two ends away, and nothing else. -/
theorem trimChars_eq_iff : trimChars s = t ↔ IsTrimOf t s :=
  ⟨fun h => h ▸ isTrimOf_trimChars s, trimChars_of_isTrimOf⟩

/-! ## Cutting -/

theorem splitAt_eq_splitOn (separator : Char) (s : List Char) :
    splitAt separator s = s.splitOn separator := by
  induction s with
  | nil => rw [splitAt, List.splitOn_nil]
  | cons c s ih =>
      rw [splitAt, ih, List.splitOn_cons_eq_if_modifyHead]
      by_cases hc : c = separator
      · simp [hc]
      · rw [if_neg hc, if_neg (by simpa using hc)]
        cases hparts : s.splitOn separator with
        | nil => exact absurd hparts (List.splitOn_ne_nil separator s)
        | cons part parts => rfl

theorem not_mem_of_mem_splitAt {separator : Char} {part : List Char}
    (h : part ∈ splitAt separator s) : separator ∉ part := by
  induction s generalizing part with
  | nil => simp_all [splitAt]
  | cons c s ih =>
      rw [splitAt] at h
      split at h
      · rcases List.mem_cons.mp h with rfl | h
        · exact List.not_mem_nil
        · exact ih h
      · rename_i hc
        have hne : separator ≠ c := fun heq => hc heq.symm
        split at h
        · simp_all
        · rename_i first parts hparts
          rw [hparts] at ih
          rcases List.mem_cons.mp h with rfl | h
          · exact List.not_mem_cons_of_ne_of_not_mem hne (ih List.mem_cons_self)
          · exact ih (List.mem_cons_of_mem _ h)

/-- The parts of a text, at least one: they hold no separator, and are the text with one between any two
of them. -/
structure IsCut (separator : Char) (s : List Char) (parts : List (List Char)) : Prop where
  nonempty : parts ≠ []
  free : ∀ part ∈ parts, separator ∉ part
  joined : [separator].intercalate parts = s

/-- A text is cut in one way only. -/
theorem splitAt_eq_iff {separator : Char} {parts : List (List Char)} :
    splitAt separator s = parts ↔ IsCut separator s parts := by
  constructor
  · rintro rfl
    refine ⟨?_, fun part hpart => not_mem_of_mem_splitAt hpart, ?_⟩
    · rw [splitAt_eq_splitOn]
      exact List.splitOn_ne_nil separator s
    · rw [splitAt_eq_splitOn]
      exact List.intercalate_splitOn separator
  · rintro ⟨hnonempty, hfree, rfl⟩
    rw [splitAt_eq_splitOn]
    exact List.splitOn_intercalate separator hfree hnonempty

end StatusBoard.Text
