import Mathlib.Data.List.TakeWhile
import StatusBoard.Json5.Lookup
import StatusBoard.Proofs.Json.TreeOfText
set_option autoImplicit false

/-!
# Json5: texts that are strict

The database reads its columns with more patience than it takes for what the library writes there.
A written value is read as a node that can be told from the value alone; the node is written again
as the same text, and its strings stand for the texts that were written.
-/

namespace StatusBoard.Json5

open Json (Value escapeChar isSpelling_escapeChar stringChars itemsChars membersChars)

/-! ## Strings -/

/-- The character is written as it is. -/
def isPlain (c : Char) : Bool :=
  escapeChar c = [c]

/-- The form of a string in progress when some characters have joined it. -/
def TextForm.after (form : TextForm) (s : List Char) : TextForm :=
  if s.all isPlain then form else form.withEscape

/-- A character of a string that stands for itself. -/
theorem readString_plain {c : Char} (hquote : c ≠ '"') (hslash : c ≠ '\\') (hlow : 0x20 ≤ c.toNat)
    (draft : Draft) (rest : List Char) :
    readString '"' draft (c :: rest) = readString '"' (draft.1, c :: draft.2) rest := by
  rw [readString.eq_def]
  split
  · rename_i heq; cases heq
  · rename_i heq; cases heq; exact absurd rfl hslash
  · rename_i heq; cases heq; exact absurd rfl hslash
  · rename_i heq; cases heq; exact absurd rfl hslash
  · rename_i heq; cases heq; exact absurd rfl hslash
  · rename_i heq
    cases heq
    have hread : ¬ (c.toNat < 0x20 || decide (c = '\\')) = true := by
      simp only [hslash, decide_false, Bool.or_false, decide_eq_true_eq]
      omega
    rw [if_neg hquote, if_neg hread, if_neg hquote]

/-- A character behind a backslash. -/
theorem readString_escaped {e : Char} (h : e ∈ ['"', '\\', '/', 'b', 'f', 'n', 'r', 't'])
    (draft : Draft) (rest : List Char) :
    readString '"' draft ('\\' :: e :: rest) =
      readString '"' (draft.1.withEscape, e :: '\\' :: draft.2) rest := by
  rw [readString.eq_def]
  split
  · rename_i heq; cases heq
  · rename_i heq; cases heq; exact absurd h (by decide)
  · rename_i heq; cases heq; exact absurd h (by decide)
  · rename_i heq; cases heq; exact absurd h (by decide)
  · rename_i heq
    cases heq
    rw [if_pos h]
  · rename_i hother heq
    cases heq
    exact (hother e rest rfl rfl).elim

/-- A character written by its code. -/
theorem readString_unit {a b c d : Char}
    (h : (isHexDigit a && isHexDigit b && isHexDigit c && isHexDigit d) = true) (draft : Draft)
    (rest : List Char) :
    readString '"' draft ('\\' :: 'u' :: a :: b :: c :: d :: rest) =
      readString '"' (draft.1.withEscape, d :: c :: b :: a :: 'u' :: '\\' :: draft.2) rest := by
  rw [readString, if_pos h]

theorem isHexDigit_control {n : Nat} (h : n < 0x20) :
    (isHexDigit '0' && isHexDigit '0' && isHexDigit (Nat.digitChar (n / 16)) &&
      isHexDigit (Nat.digitChar (n % 16))) = true := by
  have hcases : ∀ k : Fin 0x20,
      (isHexDigit '0' && isHexDigit '0' && isHexDigit (Nat.digitChar (k.val / 16)) &&
        isHexDigit (Nat.digitChar (k.val % 16))) = true := by decide
  exact hcases ⟨n, h⟩

theorem TextForm.after_singleton (form : TextForm) (c : Char) :
    form.after [c] = if isPlain c then form else form.withEscape := by
  simp [after]

/-- Each written character joins the string. -/
theorem readString_escapeChar (c : Char) (draft : Draft) (rest : List Char) :
    readString '"' draft (escapeChar c ++ rest) =
      readString '"' (draft.1.after [c], (escapeChar c).reverse ++ draft.2) rest := by
  rw [TextForm.after_singleton, isPlain]
  have hspelling := isSpelling_escapeChar c
  generalize escapeChar c = s at hspelling
  cases hspelling with
  | letter h => cases h <;> exact readString_escaped (by decide) draft rest
  | code hlow hnone =>
      have hnot : ¬ decide (['\\', 'u', '0', '0', Nat.digitChar (c.toNat / 16),
          Nat.digitChar (c.toNat % 16)] = [c]) = true := by simp
      rw [if_neg hnot]
      exact readString_unit (isHexDigit_control hlow) draft rest
  | plain hquote hslash hlow => simpa using readString_plain hquote hslash hlow draft rest

theorem TextForm.after_cons (form : TextForm) (c : Char) (s : List Char) :
    (form.after [c]).after s = form.after (c :: s) := by
  simp only [after, List.all_cons, List.all_nil, Bool.and_true]
  by_cases hc : isPlain c = true
  · simp [hc]
  · by_cases hs : s.all isPlain = true
    · simp [hc, hs]
    · simp only [hc, hs, Bool.false_and, Bool.false_eq_true, if_false]
      cases form <;> rfl

theorem readString_written (s : List Char) (draft : Draft) (rest : List Char) :
    readString '"' draft (s.flatMap escapeChar ++ '"' :: rest) =
      some (.text (draft.1.after s) (draft.2.reverse ++ s.flatMap escapeChar), rest) := by
  induction s generalizing draft with
  | nil => simp [readString, TextForm.after]
  | cons c s ih =>
      rw [List.flatMap_cons, List.append_assoc, readString_escapeChar, ih, TextForm.after_cons]
      simp

/-- The form in which a text is written. -/
def formOf (s : List Char) : TextForm :=
  TextForm.plain.after s

/-- A written string is read as it is written. -/
theorem readString_stringChars (s : String) (rest : List Char) :
    readString '"' (.plain, []) (s.toList.flatMap escapeChar ++ '"' :: rest) =
      some (.text (formOf s.toList) (s.toList.flatMap escapeChar), rest) := by
  rw [readString_written]
  rfl

/-! ## Codes -/

theorem skipContinuations_of_ne {e : Char} (hn : e ≠ '\n') (hr : e ≠ '\r')
    (hseparator : isSeparator e = false) (s : List Char) :
    skipContinuations ('\\' :: e :: s) = '\\' :: e :: s := by
  rw [skipContinuations.eq_def]
  split
  · rename_i heq; cases heq; exact absurd rfl hn
  · rename_i heq; cases heq; exact absurd rfl hr
  · rename_i heq; cases heq; exact absurd rfl hr
  · rename_i heq
    cases heq
    simp [hseparator]
  · rfl

/-- An escape that is no line break is taken by itself. -/
theorem unescape_escaped {e : Char} (hn : e ≠ '\n') (hr : e ≠ '\r')
    (hseparator : isSeparator e = false) (s : List Char) :
    unescape ('\\' :: e :: s) = unescapeSimple (e :: s) := by
  rw [unescape]
  simp only [skipContinuations_of_ne hn hr hseparator, if_true, List.drop_succ_cons, List.drop_zero]

theorem decode_escaped {e : Char} {code : Nat} {s rest : List Char} (hn : e ≠ '\n') (hr : e ≠ '\r')
    (hseparator : isSeparator e = false) (hsimple : unescapeSimple (e :: s) = (code, rest))
    (hcode : code ≠ noCode) : decode ('\\' :: e :: s) = code :: decode rest := by
  rw [decode]
  simp only [unescape_escaped hn hr hseparator, hsimple, hcode, decide_false, Bool.and_false,
    Bool.false_eq_true, if_false]

theorem decode_plain {c : Char} (h : c ≠ '\\') (s : List Char) :
    decode (c :: s) = c.toNat :: decode s := by
  have hunescape : unescape (c :: s) = (c.toNat, s) := by
    rw [unescape.eq_def]
    split
    · rename_i heq; cases heq; exact absurd rfl h
    · rename_i heq; cases heq; rfl
    · rename_i heq; cases heq
  rw [decode]
  simp only [hunescape, h, decide_false, Bool.false_and, Bool.false_eq_true, if_false]

/-- A code that is no half of a pair stands for itself, whatever follows. -/
theorem unescapeSimple_unit {n : Nat} (h : n < 0x20) (s : List Char) :
    unescapeSimple ('u' :: '0' :: '0' :: Nat.digitChar (n / 16) :: Nat.digitChar (n % 16) :: s) =
      (n, s) := by
  have hcases : ∀ k : Fin 0x20,
      hexUnit '0' '0' (Nat.digitChar (k.val / 16)) (Nat.digitChar (k.val % 16)) = k.val := by decide
  have hvalue := hcases ⟨n, h⟩
  simp only at hvalue
  have hlow : decide (0xD800 ≤ n) = false := by
    rw [decide_eq_false_iff_not]
    omega
  rw [unescapeSimple.eq_def]
  simp only [hvalue]
  split
  · simp [hlow]
  · rfl

/-- Each written character stands for itself. -/
theorem decode_escapeChar (c : Char) (s : List Char) :
    decode (escapeChar c ++ s) = c.toNat :: decode s := by
  have hspelling := isSpelling_escapeChar c
  generalize escapeChar c = written at hspelling
  cases hspelling with
  | letter h => cases h <;> exact decode_escaped (by decide) (by decide) (by decide) rfl (by decide)
  | code hlow hnone =>
      apply decode_escaped (by decide) (by decide) (by decide) (unescapeSimple_unit hlow s)
      rw [noCode]
      omega
  | plain hquote hslash hlow => exact decode_plain hslash s

theorem decode_written (s : List Char) : decode (s.flatMap escapeChar) = s.map Char.toNat := by
  induction s with
  | nil => rw [List.flatMap_nil, decode, List.map_nil]
  | cons c s ih => rw [List.flatMap_cons, decode_escapeChar, ih, List.map_cons]

theorem flatMap_escapeChar_of_plain {s : List Char} (h : s.all isPlain = true) :
    s.flatMap escapeChar = s := by
  induction s with
  | nil => rfl
  | cons c s ih =>
      simp only [List.all_cons, Bool.and_eq_true, isPlain, decide_eq_true_eq] at h
      rw [List.flatMap_cons, h.1, ih h.2]
      rfl

/-- A written string stands for the text that was written. -/
theorem codes_formOf (s : List Char) :
    (formOf s).codes (s.flatMap escapeChar) = s.map Char.toNat := by
  unfold formOf TextForm.after
  split
  · rename_i hplain
    rw [flatMap_escapeChar_of_plain hplain]
    rfl
  · exact decode_written s

/-! ## Numbers -/

theorem isBlank_of_toNat_lt {c : Char} (hlow : 0x20 < c.toNat) (hhigh : c.toNat < 0xA0) :
    isBlank c = false := by
  have hspace : c ≠ ' ' := by
    rintro rfl
    exact absurd hlow (by decide)
  simp only [isBlank, isSeparator, hspace, decide_false, Bool.false_or, Bool.or_eq_false_iff,
    Bool.and_eq_false_iff, decide_eq_false_iff_not]
  omega

/-- The character is no blank, and starts no comment. -/
def isSolid (c : Char) : Bool :=
  !isBlank c && c ≠ '/'

theorem skipBlanks_cons {c : Char} (h : isSolid c = true) (s : List Char) :
    skipBlanks (c :: s) = c :: s := by
  simp only [isSolid, Bool.and_eq_true, Bool.not_eq_true', decide_eq_true_eq] at h
  obtain ⟨hblank, hslash⟩ := h
  rw [skipBlanks, List.length_cons, skipBlanksWithin.eq_def]
  split
  · rfl
  · rename_i heq
    cases heq
    split
    · rename_i heq; cases heq; exact absurd rfl hslash
    · rename_i heq; cases heq; exact absurd rfl hslash
    · rename_i heq
      cases heq
      rw [hblank, if_neg (by decide)]
    · rename_i heq; cases heq

theorem takeExponent_closes {rest : List Char} (h : Json.Closes rest) :
    takeExponent rest = ([], rest) := by
  cases rest with
  | nil => rfl
  | cons c rest =>
      have hlow : c ≠ 'e' := h.ne (c := c) rfl (by decide)
      have hhigh : c ≠ 'E' := h.ne (c := c) rfl (by decide)
      cases rest with
      | nil => simp [takeExponent]
      | cons sign rest =>
          by_cases hsign : sign = '+' ∨ sign = '-' <;> simp [takeExponent, hlow, hhigh, hsign]

/-- The digits of a whole number are read as such. -/
theorem readDecimal_digits (sign : List Char) (n : Nat) {rest : List Char} (h : Json.Closes rest) :
    readDecimal sign (Nat.toDigits 10 n ++ rest) =
      some (.number .whole (sign ++ Nat.toDigits 10 n), rest) := by
  have hdigits : ∀ c ∈ Nat.toDigits 10 n, Json.isDigit c = true := by
    intro c hc
    exact Text.isDigit_of_mem_toDigits hc
  have htake : (Nat.toDigits 10 n ++ rest).takeWhile (fun c => '0' ≤ c && c ≤ '9') =
      Nat.toDigits 10 n :=
    Json.takeWhile_digits hdigits h.endsDigits
  have hdrop : (Nat.toDigits 10 n ++ rest).dropWhile (fun c => '0' ≤ c && c ≤ '9') = rest :=
    Json.dropWhile_digits hdigits h.endsDigits
  have hempty : (Nat.toDigits 10 n).isEmpty = false := by simp
  have hexponent := takeExponent_closes h
  unfold readDecimal
  simp only [htake, hdrop]
  cases rest with
  | nil => simp [hexponent, hempty, Json.no_leading_zero]
  | cons c rest =>
      have hpoint : c ≠ '.' := h.ne rfl (by decide)
      simp [hpoint, hexponent, hempty, Json.no_leading_zero]

theorem toLower_of_isDigit {c : Char} (h : Json.isDigit c = true) : c.toLower = c := by
  simp only [Json.isDigit, Bool.and_eq_true, decide_eq_true_eq] at h
  have hhigh : c.toNat ≤ 57 := h.2
  apply dif_neg
  rintro ⟨hupper, -⟩
  have hupper : 65 ≤ c.toNat := hupper
  omega

theorem startsWithWord_of_isDigit {c : Char} (h : Json.isDigit c = true) (s : List Char) :
    startsWithWord "infinity" (c :: s) = false ∧ startsWithWord "inf" (c :: s) = false := by
  have hletter : c ≠ 'i' := Json.ne_of_isDigit h rfl
  have hlong : "infinity".toList = ['i', 'n', 'f', 'i', 'n', 'i', 't', 'y'] := rfl
  have hshort : "inf".toList = ['i', 'n', 'f'] := rfl
  have hlength : "infinity".length = 8 ∧ "inf".length = 3 := ⟨rfl, rfl⟩
  simp [startsWithWord, hlong, hshort, hlength, toLower_of_isDigit h, hletter]

/-- A whole number without its sign. -/
theorem readMagnitude_digits (sign : List Char) (n : Nat) {rest : List Char}
    (h : Json.Closes rest) :
    readMagnitude sign (Nat.toDigits 10 n ++ rest) =
      some (.number .whole (sign ++ Nat.toDigits 10 n), rest) := by
  rw [readMagnitude.eq_def]
  split
  · rename_i x d t heq
    have hx : x ≠ 'x' ∧ x ≠ 'X' := by
      cases hdigits : Nat.toDigits 10 n with
      | nil => exact absurd hdigits Nat.toDigits_ne_nil
      | cons c s =>
          rw [hdigits] at heq
          cases s with
          | nil =>
              cases heq
              exact ⟨h.ne rfl (by decide), h.ne rfl (by decide)⟩
          | cons e s =>
              simp only [List.cons_append, List.cons.injEq] at heq
              obtain ⟨-, hsecond, -⟩ := heq
              have hdigit : Json.isDigit x = true := by
                apply Text.isDigit_of_mem_toDigits (n := n)
                rw [hdigits, ← hsecond]
                simp
              exact ⟨Json.ne_of_isDigit hdigit rfl, Json.ne_of_isDigit hdigit rfl⟩
    simp only [hx.1, hx.2, decide_false, Bool.or_self, Bool.false_and, Bool.false_eq_true, if_false]
    exact readDecimal_digits sign n h
  · exact readDecimal_digits sign n h

/-- A whole number at the start of a text is read as it is written. -/
theorem readScalar_ofInt (i : Int) {rest : List Char} (h : Json.Closes rest) :
    readScalar (Text.ofInt i ++ rest) = some (.number .whole (Text.ofInt i), rest) := by
  obtain ⟨c, s, hdigits⟩ :=
    List.exists_cons_of_ne_nil (Nat.toDigits_ne_nil (n := i.natAbs) (b := 10))
  have hdigit : Json.isDigit c = true := by
    apply Text.isDigit_of_mem_toDigits (n := i.natAbs)
    rw [hdigits]
    exact List.mem_cons_self
  unfold Text.ofInt
  split
  · have hread := readMagnitude_digits ['-'] i.natAbs h
    obtain ⟨hlong, hshort⟩ := startsWithWord_of_isDigit hdigit (s ++ rest)
    simp only [hdigits, List.cons_append] at hread ⊢
    simp only [readScalar, readSigned, hlong, hshort, Bool.false_eq_true, if_false, hread,
      List.nil_append]
  · have hread := readMagnitude_digits [] i.natAbs h
    rw [hdigits] at hread ⊢
    rw [List.cons_append] at hread ⊢
    rw [readScalar.eq_def]
    split
    · rename_i heq; cases heq; exact absurd hdigit (by decide)
    · rename_i heq; cases heq; exact absurd hdigit (by decide)
    · rename_i heq; cases heq; exact absurd hdigit (by decide)
    · rename_i heq; cases heq; exact absurd hdigit (by decide)
    · rename_i heq
      cases heq
      have hnumber : (c = '.' || ('0' ≤ c && c ≤ '9')) = true := by
        rw [Bool.or_eq_true]
        exact .inr hdigit
      rw [if_pos hnumber]
      simpa using hread
    · rename_i heq; cases heq

/-! ## Values -/

/-- The node of a written string. -/
def Node.ofText (s : String) : Node :=
  .text (formOf s.toList) (s.toList.flatMap escapeChar)

mutual

/-- The node that the text of a value is read as.  Numbers with a fraction have
none; null stands in. -/
def Node.ofValue : Value → Node
  | .null => .null
  | .bool value => .bool value
  | .number (.whole i) => .number .whole (Text.ofInt i)
  | .number (.binary _) => .null
  | .text s => .ofText s
  | .array items => .array (nodesOf items)
  | .object members => .object (memberNodes members)

/-- The nodes of several values. -/
def nodesOf : List Value → List Node
  | [] => []
  | item :: items => .ofValue item :: nodesOf items

/-- The nodes of members. -/
def memberNodes : List (String × Value) → List (Node × Node)
  | [] => []
  | (key, value) :: members => (.ofText key, .ofValue value) :: memberNodes members

end

mutual

/-- How deep containers are nested in a value. -/
def nesting : Value → Nat
  | .array items => nestingOfAll items + 1
  | .object members => nestingOfMembers members + 1
  | _ => 0

/-- How deep containers are nested in several values. -/
def nestingOfAll : List Value → Nat
  | [] => 0
  | item :: items => max (nesting item) (nestingOfAll items)

/-- How deep containers are nested in the values of members. -/
def nestingOfMembers : List (String × Value) → Nat
  | [] => 0
  | (_, value) :: members => max (nesting value) (nestingOfMembers members)

end

theorem nodesOf_eq_map (items : List Value) : nodesOf items = items.map Node.ofValue := by
  induction items with
  | nil => rfl
  | cons item items ih => rw [nodesOf, ih, List.map_cons]

/-- What starts with none of these is no container. -/
theorem readNode_scalar {c : Char} (hsolid : isSolid c = true) (hbracket : c ≠ '[')
    (hbrace : c ≠ '\x7b') (steps depth : Nat) (s : List Char) :
    readNode (steps + 1) depth (c :: s) = readScalar (c :: s) := by
  rw [readNode, skipBlanks_cons hsolid]
  split
  · rename_i heq; cases heq; exact absurd rfl hbracket
  · rename_i heq; cases heq; exact absurd rfl hbrace
  · rfl

/-- A digit or a minus sign is none of the characters that matter before a value. -/
theorem ne_of_number {c : Char} (h : c = '-' ∨ Json.isDigit c = true) :
    isSolid c = true ∧ c ≠ '[' ∧ c ≠ '\x7b' ∧ c ≠ ']' := by
  rcases h with rfl | h
  · decide
  · have hne {d : Char} (hd : Json.isDigit d = false) : c ≠ d := Json.ne_of_isDigit h hd
    simp only [Json.isDigit, Bool.and_eq_true, decide_eq_true_eq] at h
    have hlow : 48 ≤ c.toNat := h.1
    have hhigh : c.toNat ≤ 57 := h.2
    have hblank : isBlank c = false := isBlank_of_toNat_lt (by omega) (by omega)
    have hslash : c ≠ '/' := hne rfl
    exact ⟨by simp [isSolid, hblank, hslash], hne rfl, hne rfl, hne rfl⟩

theorem readNode_ofInt (i : Int) (steps depth : Nat) {rest : List Char} (h : Json.Closes rest) :
    readNode (steps + 1) depth (Text.ofInt i ++ rest) =
      some (.number .whole (Text.ofInt i), rest) := by
  have hread := readScalar_ofInt i h
  obtain ⟨c, s, hchars⟩ := List.exists_cons_of_ne_nil (Json.ofInt_ne_nil i)
  obtain ⟨hsolid, hbracket, hbrace, -⟩ := ne_of_number (Json.head_ofInt hchars)
  rw [hchars] at hread ⊢
  rw [List.cons_append, readNode_scalar hsolid hbracket hbrace, ← List.cons_append, hread]

theorem readScalar_stringChars (s : String) (rest : List Char) :
    readScalar (stringChars s ++ rest) = some (.ofText s, rest) := by
  simp only [stringChars, List.cons_append, List.append_assoc, List.nil_append, readScalar,
    readString_stringChars, Node.ofText]

theorem readKey_stringChars (s : String) (rest : List Char) :
    readKey (stringChars s ++ rest) = some (.ofText s, rest) := by
  rw [readKey, readScalar_stringChars]
  rfl

/-- The text of a value is not empty, and starts with no blank and no closing bracket. -/
theorem head_toChars (v : Value) (hwhole : v.isWhole = true) :
    ∃ c s, v.toChars = c :: s ∧ isSolid c = true ∧ c ≠ ']' := by
  cases v with
  | null => exact ⟨'n', _, rfl, rfl, by decide⟩
  | bool b => cases b <;> exact ⟨_, _, rfl, rfl, by decide⟩
  | number n =>
      cases n with
      | binary x => simp [Value.isWhole] at hwhole
      | whole i =>
          obtain ⟨c, s, hchars⟩ := List.exists_cons_of_ne_nil (Json.ofInt_ne_nil i)
          obtain ⟨hsolid, -, -, hbracket⟩ := ne_of_number (Json.head_ofInt hchars)
          exact ⟨c, s, hchars, hsolid, hbracket⟩
  | text s => exact ⟨'"', _, rfl, rfl, by decide⟩
  | array items => exact ⟨'[', _, rfl, rfl, by decide⟩
  | object members => exact ⟨'\x7b', _, rfl, rfl, by decide⟩

theorem skipBlanks_mark {c : Char} (h : c = ',' ∨ c = ':' ∨ c = ']' ∨ c = '\x7d' ∨ c = '"')
    (s : List Char) : skipBlanks (c :: s) = c :: s := by
  apply skipBlanks_cons
  rcases h with rfl | rfl | rfl | rfl | rfl <;> rfl

theorem skipBlanks_stringChars (s : String) (rest : List Char) :
    skipBlanks (stringChars s ++ rest) = stringChars s ++ rest :=
  skipBlanks_mark (c := '"') (by simp) _

theorem head_itemsChars (item : Value) (items : List Value)
    (h : (Value.array (item :: items)).isWhole = true) :
    ∃ c t, itemsChars (item :: items) = c :: t ∧ isSolid c = true ∧ c ≠ ']' := by
  simp only [Value.isWhole, Json.allWhole, Bool.and_eq_true] at h
  obtain ⟨c, s, hchars, hhead⟩ := head_toChars item h.1
  cases items with
  | nil => exact ⟨c, s, hchars, hhead⟩
  | cons next items =>
      exact ⟨c, s ++ ',' :: itemsChars (next :: items), by simp [itemsChars, hchars], hhead⟩

theorem head_membersChars (key : String) (value : Value) (members : List (String × Value)) :
    ∃ t, membersChars ((key, value) :: members) = '"' :: t := by
  cases members with
  | nil => exact ⟨_, rfl⟩
  | cons next members => exact ⟨_, rfl⟩

theorem readWord_closes {rest : List Char} (h : Json.Closes rest) :
    readWord ('n' :: 'u' :: 'l' :: 'l' :: rest) = some (.null, rest) ∧
      readWord ('t' :: 'r' :: 'u' :: 'e' :: rest) = some (.bool true, rest) ∧
      readWord ('f' :: 'a' :: 'l' :: 's' :: 'e' :: rest) = some (.bool false, rest) := by
  have hend : rest.head?.any isAlphanumeric = false := by
    cases rest with
    | nil => rfl
    | cons c rest =>
        rcases h c rfl with rfl | rfl | rfl <;> rfl
  have hnull : "null".toList = ['n', 'u', 'l', 'l'] := rfl
  have htrue : "true".toList = ['t', 'r', 'u', 'e'] := rfl
  have hfalse : "false".toList = ['f', 'a', 'l', 's', 'e'] := rfl
  have hlength : "null".length = 4 ∧ "true".length = 4 ∧ "false".length = 5 := ⟨rfl, rfl, rfl⟩
  have hlower : Char.toLower 'n' = 'n' ∧ Char.toLower 'u' = 'u' ∧ Char.toLower 'l' = 'l' ∧
      Char.toLower 't' = 't' ∧ Char.toLower 'r' = 'r' ∧ Char.toLower 'e' = 'e' ∧
      Char.toLower 'f' = 'f' ∧ Char.toLower 'a' = 'a' ∧ Char.toLower 's' = 's' := by decide
  refine ⟨?_, ?_, ?_⟩
  · simp [readWord, afterWord?, startsWithWord, hnull, htrue, hfalse, hlength, hlower, hend]
  · simp [readWord, afterWord?, startsWithWord, hnull, htrue, hfalse, hlength, hlower, hend]
  · simp [readWord, afterWord?, startsWithWord, hnull, htrue, hfalse, hlength, hlower, hend]

theorem readNode_word {c : Char} {s : List Char} (hc : c = 'n' ∨ c = 't' ∨ c = 'f')
    (steps depth : Nat) : readNode (steps + 1) depth (c :: s) = readWord (c :: s) := by
  rcases hc with rfl | rfl | rfl
  · rw [readNode_scalar rfl (by decide) (by decide)]
    rfl
  · rw [readNode_scalar rfl (by decide) (by decide)]
    rfl
  · rw [readNode_scalar rfl (by decide) (by decide)]
    rfl

mutual

/-- The text of a value is read as its node, and no further. -/
theorem readNode_toChars : ∀ (v : Value), v.isWhole = true →
    ∀ (steps depth : Nat) (rest : List Char),
    2 * v.toChars.length ≤ steps → nesting v ≤ depth → Json.Closes rest →
    readNode steps depth (v.toChars ++ rest) = some (.ofValue v, rest)
  | .null, _, steps + 1, depth, rest, _, _, hrest => by
      simp only [Value.toChars, List.cons_append, List.nil_append,
        readNode_word (c := 'n') (by simp), (readWord_closes hrest).1, Node.ofValue]
  | .bool true, _, steps + 1, depth, rest, _, _, hrest => by
      simp only [Value.toChars, List.cons_append, List.nil_append,
        readNode_word (c := 't') (by simp), (readWord_closes hrest).2.1, Node.ofValue]
  | .bool false, _, steps + 1, depth, rest, _, _, hrest => by
      simp only [Value.toChars, List.cons_append, List.nil_append,
        readNode_word (c := 'f') (by simp), (readWord_closes hrest).2.2, Node.ofValue]
  | .number (.whole i), _, steps + 1, depth, rest, _, _, hrest => readNode_ofInt i steps depth hrest
  | .number (.binary x), hwhole, _, _, _, _, _, _ => by simp [Value.isWhole] at hwhole
  | .text s, _, steps + 1, depth, rest, _, _, _ => by
      have hread := readScalar_stringChars s rest
      simp only [Value.toChars, Node.ofValue]
      rw [← hread]
      exact readNode_scalar rfl (by decide) (by decide) steps depth _
  | .array [], _, steps + 1, depth + 1, rest, _, _, _ => by
      simp only [Value.toChars, itemsChars, List.nil_append, List.cons_append, readNode,
        skipBlanks_cons (c := '[') rfl,
        skipBlanks_mark (c := ']') (by simp), Node.ofValue, nodesOf]
  | .array (item :: items), hwhole, steps + 1, depth + 1, rest, hsteps, hdepth, _ => by
      have hread := readItems_itemsChars item items hwhole steps depth rest (by
        simp only [Value.toChars, List.length_cons, List.length_append, List.length_nil] at hsteps
        omega) (by simpa [nesting] using hdepth)
      obtain ⟨c, t, htext, hsolid, hbracket⟩ := head_itemsChars item items hwhole
      simp only [Value.toChars, Node.ofValue, List.cons_append, List.append_assoc,
        List.nil_append, readNode]
      rw [skipBlanks_cons rfl]
      simp only []
      rw [htext, List.cons_append, skipBlanks_cons hsolid]
      split
      · rename_i heq; cases heq; exact absurd rfl hbracket
      · rw [htext, List.cons_append] at hread
        rw [hread]
        rfl
  | .object [], _, steps + 1, depth + 1, rest, _, _, _ => by
      simp only [Value.toChars, membersChars, List.nil_append, List.cons_append, readNode,
        skipBlanks_cons (c := '\x7b') rfl,
        skipBlanks_mark (c := '\x7d') (by simp), Node.ofValue, memberNodes]
  | .object ((key, value) :: members), hwhole, steps + 1, depth + 1, rest, hsteps, hdepth, _ => by
      have hread := readMembers_membersChars key value members hwhole steps depth rest (by
        simp only [Value.toChars, List.length_cons, List.length_append, List.length_nil] at hsteps
        omega) (by simpa [nesting] using hdepth)
      obtain ⟨t, htext⟩ := head_membersChars key value members
      simp only [Value.toChars, Node.ofValue, List.cons_append, List.append_assoc,
        List.nil_append, readNode]
      rw [skipBlanks_cons rfl]
      simp only []
      rw [htext, List.cons_append, skipBlanks_cons rfl]
      split
      · rename_i heq; simp at heq
      · rw [htext, List.cons_append] at hread
        rw [hread]
        rfl
  | v, _, 0, _, _, hsteps, _, _ => by
      have hpos : 0 < v.toChars.length := by
        cases v with
        | number n =>
            cases n with
            | whole i => exact List.length_pos_iff.mpr (Json.ofInt_ne_nil i)
            | binary x => simp_all [Value.isWhole]
        | bool b => cases b <;> simp [Value.toChars]
        | _ => simp [Value.toChars, stringChars]
      omega
  | .array _, _, _ + 1, 0, _, _, hdepth, _ => by simp [nesting] at hdepth
  | .object _, _, _ + 1, 0, _, _, hdepth, _ => by simp [nesting] at hdepth

/-- The texts of items are read up to the closing bracket. -/
theorem readItems_itemsChars : ∀ (item : Value) (items : List Value),
    (Value.array (item :: items)).isWhole = true → ∀ (steps depth : Nat) (rest : List Char),
    2 * (itemsChars (item :: items)).length + 1 ≤ steps → nestingOfAll (item :: items) ≤ depth →
    readItems steps depth (itemsChars (item :: items) ++ ']' :: rest) =
      some (nodesOf (item :: items), rest)
  | item, [], hwhole, steps + 1, depth, rest, hsteps, hdepth => by
      have hread := readNode_toChars item (by simpa [Value.isWhole, Json.allWhole] using hwhole)
        steps depth (']' :: rest) (by simp only [itemsChars] at hsteps; omega)
        (by simpa [nestingOfAll] using hdepth) (Json.closes_cons (by simp) _)
      simp only [itemsChars, nodesOf, readItems, hread, Option.bind_eq_bind, Option.bind_some,
        skipBlanks_mark (c := ']') (by simp)]
  | item, next :: items, hwhole, steps + 1, depth, rest, hsteps, hdepth => by
      simp only [itemsChars, List.length_append, List.length_cons] at hsteps
      rw [nestingOfAll, Nat.max_le] at hdepth
      have hparts : item.isWhole = true ∧ (Value.array (next :: items)).isWhole = true := by
        simpa [Value.isWhole, Json.allWhole] using hwhole
      have hitem := readNode_toChars item hparts.1 steps depth
        (',' :: (itemsChars (next :: items) ++ ']' :: rest)) (by omega) hdepth.1
        (Json.closes_cons (by simp) _)
      have hitems := readItems_itemsChars next items hparts.2 steps depth rest (by omega) hdepth.2
      obtain ⟨c, t, htext, hsolid, hbracket⟩ := head_itemsChars next items hparts.2
      rw [htext, List.cons_append] at hitem hitems
      simp only [itemsChars, List.append_assoc, List.cons_append, htext, readItems, hitem,
        Option.bind_eq_bind, Option.bind_some, skipBlanks_mark (c := ',') (by simp),
        skipBlanks_cons hsolid]
      split
      · rename_i heq; cases heq; exact absurd rfl hbracket
      · rw [hitems]
        rfl
  | _, _, _, 0, _, _, hsteps, _ => by omega

/-- The texts of members are read up to the closing brace. -/
theorem readMembers_membersChars : ∀ (key : String) (value : Value)
    (members : List (String × Value)), (Value.object ((key, value) :: members)).isWhole = true →
    ∀ (steps depth : Nat) (rest : List Char),
    2 * (membersChars ((key, value) :: members)).length + 1 ≤ steps →
    nestingOfMembers ((key, value) :: members) ≤ depth →
    readMembers steps depth (membersChars ((key, value) :: members) ++ '\x7d' :: rest) =
      some (memberNodes ((key, value) :: members), rest)
  | key, value, [], hwhole, steps + 1, depth, rest, hsteps, hdepth => by
      simp only [membersChars, List.length_append, List.length_cons] at hsteps
      have hkey := readKey_stringChars key (':' :: (value.toChars ++ '\x7d' :: rest))
      have hwholeValue : value.isWhole = true := by
        simpa [Value.isWhole, Json.membersWhole] using hwhole
      have hvalue := readNode_toChars value hwholeValue steps depth ('\x7d' :: rest) (by omega)
        (by simpa [nestingOfMembers] using hdepth) (Json.closes_cons (by simp) _)
      simp only [membersChars, memberNodes, List.append_assoc, List.cons_append, readMembers]
      rw [skipBlanks_stringChars]
      simp only [hkey, hvalue, Option.bind_eq_bind, Option.bind_some,
        skipBlanks_mark (c := ':') (by simp), skipBlanks_mark (c := '\x7d') (by simp)]
  | key, value, (nextKey, nextValue) :: members, hwhole, steps + 1, depth, rest, hsteps,
      hdepth => by
      simp only [membersChars, List.length_append, List.length_cons] at hsteps
      rw [nestingOfMembers, Nat.max_le] at hdepth
      have hparts : value.isWhole = true ∧
          (Value.object ((nextKey, nextValue) :: members)).isWhole = true := by
        simpa [Value.isWhole, Json.membersWhole] using hwhole
      have hkey := readKey_stringChars key
        (':' :: (value.toChars ++ ',' :: (membersChars ((nextKey, nextValue) :: members) ++
        '\x7d' :: rest)))
      have hvalue := readNode_toChars value hparts.1 steps depth
        (',' :: (membersChars ((nextKey, nextValue) :: members) ++ '\x7d' :: rest))
        (by omega) hdepth.1 (Json.closes_cons (by simp) _)
      have hmembers := readMembers_membersChars nextKey nextValue members hparts.2 steps
        depth rest (by omega) hdepth.2
      obtain ⟨t, htext⟩ := head_membersChars nextKey nextValue members
      rw [htext, List.cons_append] at hkey hvalue hmembers
      simp only [membersChars, List.append_assoc, List.cons_append, readMembers]
      rw [skipBlanks_stringChars, htext, List.cons_append]
      simp only [hkey, hvalue, Option.bind_eq_bind, Option.bind_some,
        skipBlanks_mark (c := ':') (by simp), skipBlanks_mark (c := ',') (by simp),
        skipBlanks_mark (c := '"') (by simp)]
      split
      · rename_i heq; simp at heq
      · rw [hmembers]
        rfl
  | _, _, _, _, 0, _, _, hsteps, _ => by omega

end

/-- No written character is the character zero. -/
theorem ne_zero_of_mem_escapeChar {c d : Char} (h : d ∈ escapeChar c) : d ≠ '\x00' := by
  have hspelling := isSpelling_escapeChar c
  generalize escapeChar c = s at hspelling h
  cases hspelling with
  | letter hletter => cases hletter <;> exact ne_of_mem_of_not_mem h (by decide)
  | code hlow hnone =>
      have hhex : ∀ k : Fin 0x20,
          '\x00' ∉ ['\\', 'u', '0', '0', Nat.digitChar (k.val / 16),
          Nat.digitChar (k.val % 16)] := by decide
      exact ne_of_mem_of_not_mem h (hhex ⟨c.toNat, hlow⟩)
  | plain hquote hslash hlow =>
      rw [List.mem_singleton.mp h]
      rintro rfl
      exact absurd hlow (by decide)

theorem ne_zero_of_mem_stringChars {s : String} {d : Char} (h : d ∈ stringChars s) :
    d ≠ '\x00' := by
  simp only [stringChars, List.cons_append, List.mem_cons, List.mem_append, List.mem_flatMap,
    List.not_mem_nil, or_false] at h
  rcases h with rfl | ⟨c, -, hd⟩ | rfl
  · decide
  · exact ne_zero_of_mem_escapeChar hd
  · decide

theorem ne_zero_of_mem_ofInt {i : Int} {d : Char} (h : d ∈ Text.ofInt i) : d ≠ '\x00' := by
  have hdigits : ∀ d ∈ Nat.toDigits 10 i.natAbs, d ≠ '\x00' := by
    rintro d hd rfl
    exact absurd (Text.isDigit_of_mem_toDigits hd) (by decide)
  unfold Text.ofInt at h
  split at h
  · rcases List.mem_cons.mp h with rfl | hd
    · decide
    · exact hdigits d hd
  · exact hdigits d h

mutual

/-- No character of a written value is the character zero. -/
theorem ne_zero_of_mem_toChars : ∀ (v : Value), v.isWhole = true → ∀ d ∈ v.toChars, d ≠ '\x00'
  | .null, _ => by
      intro d hd
      rw [Value.toChars] at hd
      exact ne_of_mem_of_not_mem hd (by decide)
  | .bool true, _ => by
      intro d hd
      rw [Value.toChars] at hd
      exact ne_of_mem_of_not_mem hd (by decide)
  | .bool false, _ => by
      intro d hd
      rw [Value.toChars] at hd
      exact ne_of_mem_of_not_mem hd (by decide)
  | .number (.whole i), _ => fun d hd => ne_zero_of_mem_ofInt hd
  | .number (.binary x), hwhole => by simp [Value.isWhole] at hwhole
  | .text s, _ => fun d hd => ne_zero_of_mem_stringChars hd
  | .array items, hwhole => by
      intro d hd
      simp only [Value.toChars, List.cons_append, List.mem_cons, List.mem_append,
        List.not_mem_nil, or_false] at hd
      rcases hd with rfl | hd | rfl
      · decide
      · exact ne_zero_of_mem_itemsChars items hwhole d hd
      · decide
  | .object members, hwhole => by
      intro d hd
      simp only [Value.toChars, List.cons_append, List.mem_cons, List.mem_append,
        List.not_mem_nil, or_false] at hd
      rcases hd with rfl | hd | rfl
      · decide
      · exact ne_zero_of_mem_membersChars members hwhole d hd
      · decide

theorem ne_zero_of_mem_itemsChars : ∀ (items : List Value), (Value.array items).isWhole = true →
    ∀ d ∈ itemsChars items, d ≠ '\x00'
  | [], _ => by simp [itemsChars]
  | [item], hwhole => ne_zero_of_mem_toChars item
      (by simpa [Value.isWhole, Json.allWhole] using hwhole)
  | item :: next :: items, hwhole => by
      have hparts : item.isWhole = true ∧ (Value.array (next :: items)).isWhole = true := by
        simpa [Value.isWhole, Json.allWhole] using hwhole
      intro d hd
      simp only [itemsChars, List.mem_append, List.mem_cons] at hd
      rcases hd with hd | rfl | hd
      · exact ne_zero_of_mem_toChars item hparts.1 d hd
      · decide
      · exact ne_zero_of_mem_itemsChars (next :: items) hparts.2 d hd

theorem ne_zero_of_mem_membersChars : ∀ (members : List (String × Value)),
    (Value.object members).isWhole = true → ∀ d ∈ membersChars members, d ≠ '\x00'
  | [], _ => by simp [membersChars]
  | [(key, value)], hwhole => by
      intro d hd
      simp only [membersChars, List.mem_append, List.mem_cons] at hd
      rcases hd with hd | rfl | hd
      · exact ne_zero_of_mem_stringChars hd
      · decide
      · have hwholeValue : value.isWhole = true := by
          simpa [Value.isWhole, Json.membersWhole] using hwhole
        exact ne_zero_of_mem_toChars value hwholeValue d hd
  | (key, value) :: next :: members, hwhole => by
      have hparts : value.isWhole = true ∧ (Value.object (next :: members)).isWhole = true := by
        simpa [Value.isWhole, Json.membersWhole] using hwhole
      intro d hd
      simp only [membersChars, List.mem_append, List.mem_cons, List.append_assoc,
        List.cons_append] at hd
      rcases hd with hd | rfl | hd | rfl | hd
      · exact ne_zero_of_mem_stringChars hd
      · decide
      · exact ne_zero_of_mem_toChars value hparts.1 d hd
      · decide
      · exact ne_zero_of_mem_membersChars (next :: members) hparts.2 d hd

end

/-- The text of a value is parsed as its node. -/
theorem parse?_toChars {v : Value} (hwhole : v.isWhole = true) (hnesting : nesting v ≤ depthLimit) :
    Node.parse? v.toChars = some (.ofValue v) := by
  have hread := readNode_toChars v hwhole (2 * v.toChars.length + 2) depthLimit []
    (by omega) hnesting Json.closes_nil
  have hwritten : v.toChars.takeWhile (· ≠ '\x00') = v.toChars := by
    rw [List.takeWhile_eq_self_iff]
    intro d hd
    simpa using ne_zero_of_mem_toChars v hwhole d hd
  rw [List.append_nil] at hread
  simp only [Node.parse?, hwritten, hread]
  rfl

/-! ## Writing again -/

theorem render_ofText (s : String) : (Node.ofText s).render = some (stringChars s) := by
  unfold Node.ofText formOf TextForm.after
  split <;> rfl

/-- Texts with commas between them are the items of an array. -/
theorem intercalate_items (items : List Value) :
    List.intercalate [','] (items.map Value.toChars) = itemsChars items := by
  induction items with
  | nil => rfl
  | cons item items ih =>
      cases items with
      | nil => simp [itemsChars]
      | cons next items =>
          rw [List.map_cons] at ih
          rw [List.map_cons, List.map_cons, List.intercalate_cons_cons, ih]
          simp [itemsChars]

theorem intercalate_members (members : List (String × Value)) :
    List.intercalate [','] (members.map fun m => stringChars m.1 ++ ':' :: m.2.toChars) =
      membersChars members := by
  induction members with
  | nil => rfl
  | cons member members ih =>
      cases members with
      | nil => simp [membersChars]
      | cons next members =>
          rw [List.map_cons] at ih
          rw [List.map_cons, List.map_cons, List.intercalate_cons_cons, ih]
          simp [membersChars]

mutual

/-- The node of a value is written again as the text of the value. -/
theorem render_ofValue : ∀ (v : Value), v.isWhole = true → (Node.ofValue v).render = some v.toChars
  | .null, _ => rfl
  | .bool true, _ => rfl
  | .bool false, _ => rfl
  | .number (.whole i), _ => by
      have hempty : (Text.ofInt i).isEmpty = false := by simpa using Json.ofInt_ne_nil i
      simp only [Node.ofValue, Node.render, renderNumber, hempty, Bool.false_eq_true,
        if_false, Value.toChars, Json.Number.toChars]
  | .number (.binary x), hwhole => by simp [Value.isWhole] at hwhole
  | .text s, _ => render_ofText s
  | .array items, hwhole => by
      simp only [Node.ofValue, Node.render, renderAll_nodesOf items hwhole, Option.bind_eq_bind,
        Option.bind_some, intercalate_items, Value.toChars, List.cons_append]
  | .object members, hwhole => by
      simp only [Node.ofValue, Node.render, renderMembers_memberNodes members hwhole,
        Option.bind_eq_bind, Option.bind_some, intercalate_members, Value.toChars, List.cons_append]

theorem renderAll_nodesOf : ∀ (items : List Value), (Value.array items).isWhole = true →
    Node.renderAll (nodesOf items) = some (items.map Value.toChars)
  | [], _ => rfl
  | item :: items, hwhole => by
      have hparts : item.isWhole = true ∧ (Value.array items).isWhole = true := by
        simpa [Value.isWhole, Json.allWhole] using hwhole
      simp only [nodesOf, Node.renderAll, render_ofValue item hparts.1,
        renderAll_nodesOf items hparts.2, Option.bind_eq_bind, Option.bind_some, List.map_cons]

theorem renderMembers_memberNodes : ∀ (members : List (String × Value)),
    (Value.object members).isWhole = true →
    Node.renderMembers (memberNodes members) =
      some (members.map fun m => stringChars m.1 ++ ':' :: m.2.toChars)
  | [], _ => rfl
  | (key, value) :: members, hwhole => by
      have hparts : value.isWhole = true ∧ (Value.object members).isWhole = true := by
        simpa [Value.isWhole, Json.membersWhole] using hwhole
      simp only [memberNodes, Node.renderMembers, render_ofText key, render_ofValue value hparts.1,
        renderMembers_memberNodes members hparts.2, Option.bind_eq_bind,
        Option.bind_some, List.map_cons]

end

end StatusBoard.Json5
