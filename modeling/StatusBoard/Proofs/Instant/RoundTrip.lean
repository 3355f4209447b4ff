import StatusBoard.Instant.Reading
import StatusBoard.Instant.Writing
import StatusBoard.Proofs.Text.Blank
import StatusBoard.Proofs.Text.Digits
set_option autoImplicit false

/-!
# Instant: timestamps read back

The text that JSON holds of an instant is read back as that instant, whatever its year.  The
text that rows hold is read back to the microsecond for the years 0 to 9999, and is no
timestamp at all for other years.
-/

namespace StatusBoard.Instant
open Text (fixedDigits paddedDigits readNumber takeDigits trimLeft numberOf EndsDigits
  trimLeft_of_head isBlank_of_isDigit)

/-! ## Fields -/

theorem head_fixedDigits {width n : Nat} {rest : List Char} (hwidth : 0 < width) {c : Char}
    (h : c ∈ (fixedDigits width n ++ rest).head?) : Text.isDigit c = true := by
  have hlength := Text.length_fixedDigits width n
  cases hdigits : fixedDigits width n with
  | nil => rw [hdigits] at hlength; simp at hlength; omega
  | cons d digits =>
      rw [hdigits] at h
      have hc : c = d := by simpa using h.symm
      have hmember : c ∈ fixedDigits width n := by
        rw [hdigits, hc]
        exact List.mem_cons_self
      exact Text.isDigit_of_mem_fixedDigits hmember

theorem trimLeft_fixedDigits {width n : Nat} (rest : List Char) (hwidth : 0 < width) :
    trimLeft (fixedDigits width n ++ rest) = fixedDigits width n ++ rest :=
  trimLeft_of_head fun _ hc => isBlank_of_isDigit (head_fixedDigits hwidth hc)

/-- A two-digit field is read by the strict reader. -/
theorem readNumber_pair {n : Nat} (h : n < 100) (rest : List Char) :
    readNumber 2 2 (fixedDigits 2 n ++ rest) = some (n, rest) := by
  have hsmall : n % 10 ^ 2 = n := Nat.mod_eq_of_lt h
  rw [Text.readNumber_fixedDigits 2 n 2 (Nat.le_refl 2), hsmall]

/-- A two-digit field is read by the relaxed reader. -/
theorem readShort_pair {n : Nat} (h : n < 100) (rest : List Char) :
    readShort (fixedDigits 2 n ++ rest) = some (n, rest) := by
  have hsmall : n % 10 ^ 2 = n := Nat.mod_eq_of_lt h
  rw [readShort, trimLeft_fixedDigits rest (by decide),
    Text.readNumber_fixedDigits 2 n 1 (by decide), hsmall]

theorem expectLoosely_self {c : Char} (h : Text.isBlank c = false) (rest : List Char) :
    expectLoosely c (c :: rest) = some rest := by
  have htrim : trimLeft (c :: rest) = c :: rest :=
    trimLeft_of_head fun d hd => by
      have hdc : c = d := by simpa using hd
      rw [← hdc, h]
  rw [expectLoosely, htrim]
  simp [expect]

/-! ## Years -/

theorem readYear_of_isDigit {s : List Char} (h : ∀ c ∈ s.head?, Text.isDigit c = true) :
    readYear s = (readNumber 1 4 s).map fun (n, s) => ((n : Int), s) := by
  have htrim : trimLeft s = s := trimLeft_of_head fun c hc => isBlank_of_isDigit (h c hc)
  rw [readYear, htrim]
  split
  · exact absurd (h '-' rfl) (by decide)
  · exact absurd (h '+' rfl) (by decide)
  · rfl

/-- The relaxed reader reads every year. -/
theorem readYear_yearText (year : Int) {rest : List Char} (hrest : EndsDigits rest) :
    readYear (yearText year ++ rest) = some (year, rest) := by
  unfold yearText
  split
  · rename_i hrange
    simp only [Bool.and_eq_true, decide_eq_true_eq] at hrange
    rw [readYear_of_isDigit fun c hc => head_fixedDigits (by decide) hc,
      Text.readNumber_fixedDigits 4 _ 1 (by decide),
      Nat.mod_eq_of_lt (show year.toNat < 10 ^ 4 by omega)]
    simp only [Option.map_some, Int.toNat_of_nonneg hrange.1]
  · have hread : readNumber 1 (paddedDigits 4 year.natAbs ++ rest).length
        (paddedDigits 4 year.natAbs ++ rest) = some (year.natAbs, rest) :=
      Text.readNumber_paddedDigits 4 year.natAbs (by simp) hrest
    split
    · rename_i hneg
      have habs : -(year.natAbs : Int) = year := by omega
      rw [readYear, List.cons_append, trimLeft_of_head (by simp; decide)]
      simp only [hread, Option.map_some, habs]
    · rename_i hrange hneg
      have habs : (year.natAbs : Int) = year := by omega
      rw [readYear, List.cons_append, trimLeft_of_head (by simp; decide)]
      simp only [hread, Option.map_some, habs]

/-- The strict reader reads the years 0 to 9999. -/
theorem readNumber_yearText {year : Int} (h : 0 ≤ year ∧ year ≤ 9999) (rest : List Char) :
    readNumber 4 4 (yearText year ++ rest) = some (year.toNat, rest) := by
  have hrange : (decide (0 ≤ year) && decide (year ≤ 9999)) = true := by simp [h]
  rw [yearText, if_pos hrange, Text.readNumber_fixedDigits 4 _ 4 (by decide),
    Nat.mod_eq_of_lt (show year.toNat < 10 ^ 4 by omega)]

/-- Other years are no numbers of four digits. -/
theorem readNumber_yearText_eq_none {year : Int} (h : ¬ (0 ≤ year ∧ year ≤ 9999))
    (rest : List Char) : readNumber 4 4 (yearText year ++ rest) = none := by
  have hrange : ¬ (decide (0 ≤ year) && decide (year ≤ 9999)) = true := by simpa using h
  have hsign : Text.isDigit (if year < 0 then '-' else '+') = false := by split <;> decide
  rw [yearText, if_neg hrange]
  simp [readNumber, takeDigits, hsign]

/-! ## Fractions -/

theorem endsDigits_cons {c : Char} (h : Text.isDigit c = false) (rest : List Char) :
    EndsDigits (c :: rest) := by
  intro d hd
  have hcd : c = d := by simpa using hd
  rw [← hcd, h]

/-- A fraction of some width is read in nanoseconds. -/
theorem readFraction_fixedDigits {width n : Nat} (hpos : 0 < width) (hwidth : width ≤ 9)
    (hn : n < 10 ^ width) {rest : List Char} (hrest : EndsDigits rest) :
    readFraction ('.' :: (fixedDigits width n ++ rest)) = some (n * 10 ^ (9 - width), rest) := by
  have htake : takeDigits 9 (fixedDigits width n ++ rest) = (fixedDigits width n, rest) :=
    Text.takeDigits_free (fun c hc => Text.isDigit_of_mem_fixedDigits hc)
    (by simpa using hwidth) hrest
  have hne : (fixedDigits width n).isEmpty = false := by
    rw [List.isEmpty_eq_false_iff, ← List.length_pos_iff, Text.length_fixedDigits]
    exact hpos
  have hdrop : rest.dropWhile Text.isDigit = rest := by
    cases rest with
    | nil => rfl
    | cons c rest =>
        have hc : Text.isDigit c = false := hrest c rfl
        simp [hc]
  simp only [readFraction, htake, hne, hdrop, Text.length_fixedDigits, Text.numberOf_fixedDigits,
    Nat.mod_eq_of_lt hn]
  simp

theorem readFraction_fractionText {nano : Nat} (h : nano < 1000000000) {rest : List Char}
    (hrest : EndsDigits rest) (hdot : ∀ c ∈ rest.head?, c ≠ '.') :
    readFraction (fractionText nano ++ rest) = some (nano, rest) := by
  unfold fractionText
  split
  · rename_i hzero
    cases rest with
    | nil => simp [readFraction, hzero]
    | cons c rest =>
        have hc : c ≠ '.' := hdot c rfl
        simp [readFraction, hc, hzero]
  · split
    · rename_i hmod
      rw [List.cons_append, readFraction_fixedDigits (by decide) (by decide) (by omega) hrest]
      congr 2
      omega
    · split
      · rename_i hmod
        rw [List.cons_append, readFraction_fixedDigits (by decide) (by decide) (by omega) hrest]
        congr 2
        omega
      · rw [List.cons_append, readFraction_fixedDigits (by decide) (by decide) (by omega) hrest]
        simp

/-! ## All fields together -/

theorem day_le (d : Date) : d.day ≤ 31 := by
  have hmonth : daysInMonth d.year d.month ≤ 31 := by
    unfold daysInMonth
    repeat' split
    all_goals decide
  exact Nat.le_trans d.day_mem.2 hmonth

theorem day_lt (d : Date) : d.day < 100 :=
  Nat.lt_of_le_of_lt (day_le d) (by decide)

theorem month_lt (d : Date) : d.month < 100 :=
  Nat.lt_of_le_of_lt d.month_mem.2 (by decide)

theorem ofLocal?_zero (t : Instant) : ofLocal? t.date t.second t.nano 0 = some t := by
  have hsecond := t.second_lt
  have hlow : ¬ ((t.second : Int) - 0 * 60 < 0) := by omega
  have hhigh : (t.second : Int) - 0 * 60 < 86400 := by omega
  have hsame : ((t.second : Int) - 0 * 60).toNat = t.second := by omega
  simp only [ofLocal?, if_neg hlow, if_pos hhigh, hsame, of?_self]

theorem ofFields?_minute {year : Int} {month day hour minute second nano : Nat} {offset : Int}
    (hhour : hour < 24) (hminute : minute < 60) (hsecond : second < 60) :
    ofFields? year month day hour minute second nano offset =
      (Date.of? year month day).bind fun date =>
        ofLocal? date (3600 * hour + 60 * minute + second) nano offset := by
  simp only [ofFields?, Option.bind_eq_bind, hhour, hminute, hsecond, decide_true,
    Bool.and_true, if_true]

theorem ofFields?_leap {year : Int} {month day hour minute nano : Nat} {offset : Int}
    (hhour : hour < 24) (hminute : minute < 60) :
    ofFields? year month day hour minute 60 nano offset =
      (Date.of? year month day).bind fun date =>
        ofLocal? date (3600 * hour + 60 * minute + 59) (nano + 1000000000) offset := by
  have hsixty : ¬ 60 < 60 := by decide
  simp only [ofFields?, Option.bind_eq_bind, hhour, hminute, hsixty, decide_true, decide_false,
    Bool.and_true, Bool.and_false, if_true, Bool.false_eq_true, if_false]

/-- The fields that are written make up the instant; second sixty is a leap second. -/
theorem ofFields?_fields (t : Instant) :
    ofFields? t.date.year t.date.month t.date.day (t.second / 3600) (t.second / 60 % 60)
      (t.second % 60 + t.nano / 1000000000) (t.nano % 1000000000) 0 = some t := by
  have hlimit := t.second_lt
  have hnano := t.nano_lt
  have hhour : t.second / 3600 < 24 := by omega
  have hminute : t.second / 60 % 60 < 60 := Nat.mod_lt _ (by decide)
  by_cases hleap : 1000000000 ≤ t.nano
  · have hlast := t.leap hleap
    have hsixty : t.second % 60 + t.nano / 1000000000 = 60 := by omega
    have hsecond : 3600 * (t.second / 3600) + 60 * (t.second / 60 % 60) + 59 = t.second := by omega
    have hrest : t.nano % 1000000000 + 1000000000 = t.nano := by omega
    rw [hsixty, ofFields?_leap hhour hminute, Date.of?_self, Option.bind_some, hsecond, hrest,
      ofLocal?_zero]
  · have hsum : t.second % 60 + t.nano / 1000000000 = t.second % 60 := by omega
    have hsecond : 3600 * (t.second / 3600) + 60 * (t.second / 60 % 60) + t.second % 60 =
        t.second := by
      omega
    have hrest : t.nano % 1000000000 = t.nano := by omega
    rw [hsum, ofFields?_minute hhour hminute (Nat.mod_lt _ (by decide)), Date.of?_self,
      Option.bind_some, hsecond, hrest, ofLocal?_zero]

theorem second_field_lt (t : Instant) : t.second % 60 + t.nano / 1000000000 < 100 := by
  have hnano := t.nano_lt
  omega

/-! ## The text in JSON -/

theorem parseRelaxedChars?_wholeText (t : Instant) {fraction : List Char}
    (hfraction : readFraction (fraction ++ ['Z']) = some (t.nano % 1000000000, ['Z'])) :
    parseRelaxedChars? (wholeText t ++ fraction ++ ['Z']) = some t := by
  have hmonth := readShort_pair (month_lt t.date)
  have hday := readShort_pair (day_lt t.date)
  have hhour := readShort_pair (show t.second / 3600 < 100 by have := t.second_lt; omega)
  have hminute := readShort_pair (show t.second / 60 % 60 < 100 by omega)
  have hsecond := readShort_pair (second_field_lt t)
  have hyear := fun rest =>
    readYear_yearText t.date.year (endsDigits_cons (c := '-') (by decide) rest)
  have hoffset : readLooseOffset (trimLeft ['Z']) = some (0, []) := by decide
  have hend : (trimLeft []).isEmpty = true := rfl
  simp only [wholeText, List.append_assoc, List.cons_append, parseRelaxedChars?, hyear,
    expectLoosely_self (c := '-') (by decide), expectLoosely_self (c := ':') (by decide),
    hmonth, hday, hhour, hminute, hsecond, expectTimeMark, hfraction, hoffset, hend,
    Option.bind_eq_bind, Option.bind_some, decide_true, Bool.true_or, if_true]
  exact ofFields?_fields t

/-- What JSON holds of an instant is read back as it was. -/
@[simp] theorem parseRelaxed?_toText (t : Instant) : parseRelaxed? t.toText = some t := by
  rw [parseRelaxed?, toText, String.toList_ofList]
  apply parseRelaxedChars?_wholeText
  exact readFraction_fractionText (Nat.mod_lt _ (by decide))
    (endsDigits_cons (by decide) _) (by simp)

/-! ## The text in rows -/

theorem parseStrictChars?_wholeText (t : Instant) (hyears : 0 ≤ t.date.year ∧ t.date.year ≤ 9999)
    {fraction : List Char}
    (hfraction : readFraction (fraction ++ ['Z']) = some (t.nano % 1000000000, ['Z'])) :
    parseStrictChars? (wholeText t ++ fraction ++ ['Z']) = some t := by
  have hmonth := readNumber_pair (month_lt t.date)
  have hday := readNumber_pair (day_lt t.date)
  have hhour := readNumber_pair (show t.second / 3600 < 100 by have := t.second_lt; omega)
  have hminute := readNumber_pair (show t.second / 60 % 60 < 100 by omega)
  have hsecond := readNumber_pair (second_field_lt t)
  have hyear := readNumber_yearText hyears
  have hback : ((t.date.year.toNat : Nat) : Int) = t.date.year := Int.toNat_of_nonneg hyears.1
  have hoffset : readOffset (expect ':') ['Z'] = some (0, []) := by decide
  simp only [wholeText, List.append_assoc, List.cons_append, parseStrictChars?, hyear, expect,
    hmonth, hday, hhour, hminute, hsecond, expectTimeMark, hfraction, Option.bind_eq_bind,
    Option.bind_some, decide_true, Bool.true_or, if_true, hoffset, hback,
    List.isEmpty_nil]
  exact ofFields?_fields t

theorem toStorageText_truncateMicros (t : Instant) :
    t.truncateMicros.toStorageText = t.toStorageText := by
  have hnano := t.nano_lt
  have hwhole : (t.nano - t.nano % 1000) / 1000000000 = t.nano / 1000000000 := by omega
  have hmicros : (t.nano - t.nano % 1000) % 1000000000 / 1000 =
      t.nano % 1000000000 / 1000 := by omega
  simp only [toStorageText, toStorageChars, wholeText, truncateMicros, hwhole, hmicros]

/-- Six digits are enough for a fraction of whole microseconds. -/
theorem readFraction_truncateMicros (t : Instant) :
    readFraction ('.' :: fixedDigits 6 (t.truncateMicros.nano % 1000000000 / 1000) ++ ['Z']) =
      some (t.truncateMicros.nano % 1000000000, ['Z']) := by
  rw [List.cons_append, readFraction_fixedDigits (by decide) (by decide) (by omega)
    (endsDigits_cons (by decide) _)]
  congr 2
  simp only [truncateMicros]
  omega

/-- What a row holds of an instant of the years 0 to 9999 is read back to the microsecond. -/
theorem parseStrict?_toStorageText {t : Instant} (h : 0 ≤ t.date.year ∧ t.date.year ≤ 9999) :
    parseStrict? t.toStorageText = some t.truncateMicros := by
  rw [← toStorageText_truncateMicros, parseStrict?, toStorageText, String.toList_ofList]
  exact parseStrictChars?_wholeText t.truncateMicros h (readFraction_truncateMicros t)

/-- The relaxed reader reads what a row holds of an instant, whatever the year. -/
theorem parseRelaxed?_toStorageText (t : Instant) :
    parseRelaxed? t.toStorageText = some t.truncateMicros := by
  rw [← toStorageText_truncateMicros, parseRelaxed?, toStorageText, String.toList_ofList]
  exact parseRelaxedChars?_wholeText t.truncateMicros (readFraction_truncateMicros t)

/-- What a row holds of an instant of another year is no timestamp. -/
theorem parseStrict?_toStorageText_eq_none {t : Instant}
    (h : ¬ (0 ≤ t.date.year ∧ t.date.year ≤ 9999)) : parseStrict? t.toStorageText = none := by
  rw [parseStrict?, toStorageText, String.toList_ofList, toStorageChars, wholeText]
  simp only [List.append_assoc, parseStrictChars?, readNumber_yearText_eq_none h,
    Option.bind_eq_bind, Option.bind_none]

/-- Whatever is read from a row's text is what was written, to the microsecond. -/
theorem eq_truncateMicros_of_parseStrict? {t u : Instant}
    (h : parseStrict? t.toStorageText = some u) : u = t.truncateMicros := by
  by_cases hyears : 0 ≤ t.date.year ∧ t.date.year ≤ 9999
  · rw [parseStrict?_toStorageText hyears] at h
    exact (Option.some.inj h).symm
  · rw [parseStrict?_toStorageText_eq_none hyears] at h
    cases h

/-- Whatever is read from a row's text is of the years that rows have room for. -/
theorem years_of_parseStrict? {t u : Instant} (h : parseStrict? t.toStorageText = some u) :
    0 ≤ u.date.year ∧ u.date.year ≤ 9999 := by
  rw [eq_truncateMicros_of_parseStrict? h]
  refine Decidable.byContradiction fun hyears => ?_
  have hnone : parseStrict? t.toStorageText = none := parseStrict?_toStorageText_eq_none hyears
  rw [hnone] at h
  cases h

/-- Whatever is read from a row's text is written as that text again. -/
theorem toStorageText_of_parseStrict? {t u : Instant} (h : parseStrict? t.toStorageText = some u) :
    u.toStorageText = t.toStorageText := by
  rw [eq_truncateMicros_of_parseStrict? h, toStorageText_truncateMicros]

end StatusBoard.Instant
