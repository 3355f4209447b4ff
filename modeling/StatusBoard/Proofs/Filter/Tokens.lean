import StatusBoard.Filter.Token
import StatusBoard.Proofs.Text.Digits
set_option autoImplicit false

/-!
# Filter: the tokens of a text

Each kind of token is found where it is written, if what follows cannot make it longer.  `Spells`
says which tokens a text has, wherever it stands; fields that are found in a text have names that
are words and none of the words that are known otherwise.
-/

namespace StatusBoard.Filter

/-! ## Blanks and marks -/

theorem tokensFrom_nil (offset : Nat) : tokensFrom offset [] = .ok [] := by
  unfold tokensFrom
  rfl

theorem tokensFrom_blank (offset : Nat) {c : Char} (hblank : Text.isBlank c = true)
    (rest : List Char) :
    tokensFrom offset (c :: rest) = tokensFrom (offset + c.utf8Size) rest := by
  conv => lhs; unfold tokensFrom
  simp only [if_pos hblank]

/-- A character that is not blank starts a token, or there is none. -/
theorem tokensFrom_mark (offset : Nat) {c : Char} (hmark : Text.isBlank c = false)
    (rest : List Char) :
    tokensFrom offset (c :: rest) =
      match Lexeme.scan c rest with
      | .error fault => .error ⟨offset, fault⟩
      | .ok lexeme =>
        match tokensFrom (offset + c.utf8Size + byteLength (rest.take lexeme.extra))
            (rest.drop lexeme.extra) with
        | .error fault => .error fault
        | .ok tokens => .ok (⟨offset, lexeme.token⟩ :: tokens) := by
  conv => lhs; unfold tokensFrom
  exact if_neg (Bool.eq_false_iff.mp hmark)

/-- Where a character is not blank, the tokens are the one that it starts and those after it. -/
theorem tokensFrom_mark_eq_ok_iff {offset : Nat} {c : Char} (hmark : Text.isBlank c = false)
    {rest : List Char} {ts : List (Located Token)} :
    tokensFrom offset (c :: rest) = .ok ts ↔ ∃ lexeme more, Lexeme.scan c rest = .ok lexeme ∧
      tokensFrom (offset + c.utf8Size + byteLength (rest.take lexeme.extra))
        (rest.drop lexeme.extra) = .ok more ∧ ts = ⟨offset, lexeme.token⟩ :: more := by
  rw [tokensFrom_mark offset hmark]
  cases hscan : Lexeme.scan c rest with
  | error fault => simp
  | ok lexeme =>
      simp only [Except.ok.injEq, exists_and_left, exists_eq_left']
      split
      · rename_i hmore
        simp [hmore]
      · rename_i hmore
        simp [hmore, eq_comm]

/-- No token is found in blanks, and in blanks only. -/
theorem tokensFrom_eq_nil_iff (offset : Nat) {s : List Char} :
    tokensFrom offset s = .ok [] ↔ ∀ c ∈ s, Text.isBlank c = true := by
  induction s generalizing offset with
  | nil => simp [tokensFrom_nil]
  | cons c s ih =>
      rw [List.forall_mem_cons]
      cases hblank : Text.isBlank c with
      | true => simp [tokensFrom_blank offset hblank, ih]
      | false => simp [tokensFrom_mark_eq_ok_iff hblank]

/-! ## Names of fields -/

/-- The words that name no field, in any letter case. -/
def keywords : List String := ["and", "or", "not", "true", "false"]

/-- A word that names a field. -/
def isFieldName (name : String) : Bool :=
  match name.toList with
  | [] => false
  | c :: rest =>
    isWordStart c && rest.all isWordChar &&
      !keywords.contains (String.ofList ((c :: rest).map lowerCase))

theorem Token.ofWord_of_not_keyword {word : List Char}
    (h : keywords.contains (String.ofList (word.map lowerCase)) = false) :
    Token.ofWord word = .field (String.ofList word) := by
  unfold ofWord
  split <;> simp_all [keywords]

theorem Token.of_ofWord_eq_field {word : List Char} {name : String}
    (h : Token.ofWord word = .field name) : name = String.ofList word ∧
      keywords.contains (String.ofList (word.map lowerCase)) = false := by
  unfold ofWord at h
  split at h <;> simp_all [keywords]

/-- A token that is a field has its name. -/
theorem Lexeme.isFieldName_of_scan {c : Char} {rest : List Char} {name : String} {extra : Nat}
    (h : Lexeme.scan c rest = .ok ⟨.field name, extra⟩) : isFieldName name = true := by
  unfold scan at h
  dsimp only at h
  repeat' split at h
  all_goals try cases h
  rename_i hstart
  obtain ⟨hword, rfl⟩ := Lexeme.mk.inj (Except.ok.inj h)
  obtain ⟨rfl, hkeyword⟩ := Token.of_ofWord_eq_field hword
  have hchars : (rest.takeWhile isWordChar).all isWordChar = true := List.all_takeWhile
  simp only [isFieldName, String.toList_ofList, hstart, hchars, hkeyword]
  rfl

/-- All fields that are found in a text have their names. -/
theorem isFieldName_of_tokensFrom {offset : Nat} {s : List Char} {ts : List (Located Token)}
    (h : tokensFrom offset s = .ok ts) {name : String} (hname : .field name ∈ ts.map (·.item)) :
    isFieldName name = true := by
  induction hlength : s.length using Nat.strongRecOn generalizing offset s ts with
  | ind n ih =>
      cases s with
      | nil =>
          rw [tokensFrom_nil] at h
          cases h
          cases hname
      | cons c rest =>
          rw [List.length_cons] at hlength
          cases hblank : Text.isBlank c with
          | true =>
              rw [tokensFrom_blank offset hblank] at h
              exact ih rest.length (by omega) h hname rfl
          | false =>
              obtain ⟨⟨token, extra⟩, more, hscan, hmore, rfl⟩ :=
                (tokensFrom_mark_eq_ok_iff hblank).mp h
              rcases List.mem_cons.mp hname with hfirst | hname
              · simp only at hfirst
                subst hfirst
                exact Lexeme.isFieldName_of_scan hscan
              · exact ih _ (by rw [List.length_drop]; omega) hmore hname rfl

/-! ## Tokens as they are written -/

/-- A text has these tokens, wherever it stands. -/
def Spells (s : List Char) (ts : List Token) : Prop :=
  ∀ offset, ∃ located, tokensFrom offset s = .ok located ∧ located.map (·.item) = ts

/-- What follows does not go on with a word, a number or a text before it. -/
def EndsToken (rest : List Char) : Prop :=
  ∀ c ∈ rest.head?, c = ' ' ∨ c = ')'

theorem endsToken_nil : EndsToken [] := by
  intro c hc
  cases hc

theorem endsToken_space (rest : List Char) : EndsToken (' ' :: rest) := by
  rintro c ⟨⟩
  exact .inl rfl

theorem endsToken_closing (rest : List Char) : EndsToken (')' :: rest) := by
  rintro c ⟨⟩
  exact .inr rfl

/-- A run of characters is taken up to the first that is none of its kind. -/
theorem takeWhile_of_stops {p : Char → Bool} {run rest : List Char} (hrun : ∀ c ∈ run, p c = true)
    (hstops : ∀ c ∈ rest.head?, p c = false) : (run ++ rest).takeWhile p = run := by
  rw [List.takeWhile_append_of_pos hrun]
  cases rest with
  | nil => exact List.append_nil run
  | cons c rest =>
      rw [List.takeWhile_cons_of_neg (by simp [hstops c rfl]), List.append_nil]

/-- A run of characters stops at a space, a parenthesis or the end. -/
theorem EndsToken.stops {rest : List Char} (h : EndsToken rest) {p : Char → Bool}
    (hspace : p ' ' = false) (hclosing : p ')' = false) : ∀ c ∈ rest.head?, p c = false := by
  intro c hc
  obtain rfl | rfl := h c hc
  · exact hspace
  · exact hclosing

theorem toNat_of_isWordStart {c : Char} (h : isWordStart c = true) :
    65 ≤ c.toNat ∧ c.toNat ≤ 122 := by
  simp only [isWordStart, isUpper, isLower, Bool.or_eq_true, Bool.and_eq_true,
    decide_eq_true_eq] at h
  obtain (⟨hlow, hhigh⟩ | ⟨hlow, hhigh⟩) | rfl := h
  · have hlow : 65 ≤ c.toNat := hlow
    have hhigh : c.toNat ≤ 90 := hhigh
    omega
  · have hlow : 97 ≤ c.toNat := hlow
    have hhigh : c.toNat ≤ 122 := hhigh
    omega
  · decide

theorem isBlank_of_toNat {c : Char} (hlow : 32 < c.toNat) (hhigh : c.toNat < 133) :
    Text.isBlank c = false := by
  rw [Bool.eq_false_iff]
  simp only [Text.isBlank, ne_eq, Bool.or_eq_true, Bool.and_eq_true, decide_eq_true_eq, beq_iff_eq]
  omega

theorem Lexeme.scan_word {c : Char} (h : isWordStart c = true) (rest : List Char) :
    scan c rest =
      .ok ⟨Token.ofWord (c :: rest.takeWhile isWordChar), (rest.takeWhile isWordChar).length⟩ := by
  obtain ⟨hlow, hhigh⟩ := toNat_of_isWordStart h
  have hne : ∀ d : Char, d.toNat < 65 → c ≠ d := by
    rintro d hd rfl
    omega
  have hdigit : Text.isDigit c = false := by
    rw [Bool.eq_false_iff]
    intro hdigit
    simp only [Text.isDigit, Bool.and_eq_true, decide_eq_true_eq] at hdigit
    have hnine : c.toNat ≤ 57 := hdigit.2
    omega
  unfold scan
  simp only [hne '(' (by decide), hne ')' (by decide), hne '\'' (by decide), hne '=' (by decide),
    hne '!' (by decide), hne '<' (by decide), hne '>' (by decide), hne '-' (by decide), hdigit, h,
    if_false, if_true, decide_false, Bool.or_self, Bool.false_eq_true]

namespace Spells

theorem nil : Spells [] [] :=
  fun offset => ⟨[], tokensFrom_nil offset, rfl⟩

variable {s rest : List Char} {ts : List Token}

theorem space (h : Spells s ts) : Spells (' ' :: s) ts := by
  intro offset
  rw [tokensFrom_blank offset rfl]
  exact h _

/-- A token, and what follows it. -/
theorem mark {c : Char} (more : List Char) (hmark : Text.isBlank c = false) {t : Token}
    (hscan : Lexeme.scan c (more ++ rest) = .ok ⟨t, more.length⟩) (h : Spells rest ts) :
    Spells (c :: (more ++ rest)) (t :: ts) := by
  intro offset
  obtain ⟨located, htokens, hitems⟩ := h (offset + c.utf8Size + byteLength more)
  refine ⟨⟨offset, t⟩ :: located, (tokensFrom_mark_eq_ok_iff hmark).mpr
    ⟨⟨t, more.length⟩, located, hscan, ?_, rfl⟩, ?_⟩
  · rw [List.take_left, List.drop_left]
    exact htokens
  · rw [List.map_cons, hitems]

theorem word {c : Char} (more : List Char) (hstart : isWordStart c = true)
    (hmore : more.all isWordChar = true) (hstops : ∀ d ∈ rest.head?, isWordChar d = false)
    (h : Spells rest ts) : Spells (c :: (more ++ rest)) (Token.ofWord (c :: more) :: ts) := by
  obtain ⟨hlow, hhigh⟩ := toNat_of_isWordStart hstart
  refine mark more (isBlank_of_toNat (by omega) (by omega)) ?_ h
  rw [Lexeme.scan_word hstart, takeWhile_of_stops (List.all_eq_true.mp hmore) hstops]

theorem field {name : String} (hname : isFieldName name = true)
    (hstops : ∀ d ∈ rest.head?, isWordChar d = false) (h : Spells rest ts) :
    Spells (name.toList ++ rest) (.field name :: ts) := by
  unfold isFieldName at hname
  split at hname
  · cases hname
  · rename_i c more hchars
    simp only [Bool.and_eq_true, Bool.not_eq_true'] at hname
    obtain ⟨⟨hstart, hmore⟩, hkeyword⟩ := hname
    have hword := word more hstart hmore hstops h
    rwa [Token.ofWord_of_not_keyword hkeyword, ← hchars, String.ofList_toList,
      ← List.cons_append, ← hchars] at hword

theorem opening (h : Spells rest ts) : Spells ('(' :: rest) (.opening :: ts) :=
  mark [] rfl rfl h

theorem closing (h : Spells rest ts) : Spells (')' :: rest) (.closing :: ts) :=
  mark [] rfl rfl h

theorem notWord (h : Spells rest ts) :
    Spells ("NOT".toList ++ ' ' :: rest) (.notWord :: ts) :=
  word ['O', 'T'] rfl rfl ((endsToken_space rest).stops rfl rfl) h.space

theorem andWord (h : Spells rest ts) :
    Spells ("AND".toList ++ ' ' :: rest) (.andWord :: ts) :=
  word ['N', 'D'] rfl rfl ((endsToken_space rest).stops rfl rfl) h.space

theorem orWord (h : Spells rest ts) :
    Spells ("OR".toList ++ ' ' :: rest) (.orWord :: ts) :=
  word ['R'] rfl rfl ((endsToken_space rest).stops rfl rfl) h.space

/-- The sign of a relation is followed by a space, which ends it. -/
theorem relation (r : Relation) (h : Spells rest ts) :
    Spells (r.text.toList ++ ' ' :: rest) (.relation r :: ts) := by
  cases r with
  | eq => exact mark [] rfl rfl h.space
  | ne => exact mark ['='] rfl rfl h.space
  | lt => exact mark [] rfl rfl h.space
  | le => exact mark ['='] rfl rfl h.space
  | gt => exact mark [] rfl rfl h.space
  | ge => exact mark ['='] rfl rfl h.space

/-- The sign of equality may also be followed by anything that is not the same sign. -/
theorem equality (hother : rest.head? ≠ some '=') (h : Spells rest ts) :
    Spells ('=' :: rest) (.relation .eq :: ts) :=
  mark [] rfl (by simp [Lexeme.scan, hother]) h

end Spells

/-! ## Literals as they are written -/

/-- A text ends at the first quotation mark that no other one follows. -/
theorem quotedText?_doubleQuotes (s : List Char) {rest : List Char}
    (hother : rest.head? ≠ some '\'') :
    quotedText? (Literal.doubleQuotes s ++ '\'' :: rest) =
      some (s, (Literal.doubleQuotes s ++ ['\'']).length) := by
  induction s with
  | nil =>
      rw [Literal.doubleQuotes, List.flatMap_nil, List.nil_append]
      unfold quotedText?
      split
      · rename_i heq
        cases heq
      · rename_i heq
        cases heq
        exact absurd rfl hother
      · rename_i heq
        cases heq
        rfl
  | cons c s ih =>
      rw [Literal.doubleQuotes, List.flatMap_cons, ← Literal.doubleQuotes]
      split
      · rename_i hquote
        rw [List.append_assoc, List.cons_append, List.cons_append, List.nil_append, quotedText?, ih]
        simp [hquote]
      · rename_i hplain
        rw [List.append_assoc, List.cons_append, List.nil_append]
        unfold quotedText?
        split
        · rename_i heq
          cases heq
        · rename_i heq
          exact absurd (List.cons.inj heq).1 hplain
        · rename_i heq
          obtain ⟨rfl, rfl⟩ := List.cons.inj heq
          rw [if_neg hplain, ih]
          simp

/-- What is found in quotation marks stands there, up to a mark that no other one follows. -/
theorem exists_of_quotedText? {rest text : List Char} {width : Nat}
    (h : quotedText? rest = some (text, width)) :
    ∃ after, rest = Literal.doubleQuotes text ++ '\'' :: after ∧ after.head? ≠ some '\'' := by
  fun_induction quotedText? rest generalizing text width with
  | case1 => cases h
  | case2 rest ih =>
      obtain ⟨⟨found, count⟩, hfound, hpair⟩ := Option.map_eq_some_iff.mp h
      cases hpair
      obtain ⟨after, rfl, hother⟩ := ih hfound
      exact ⟨after, by simp [Literal.doubleQuotes], hother⟩
  | case3 rest hsingle =>
      cases h
      refine ⟨rest, rfl, fun hquote => ?_⟩
      obtain ⟨after, rfl⟩ := List.head?_eq_some_iff.mp hquote
      exact hsingle after rfl rfl
  | case4 c rest hsingle hplain ih =>
      obtain ⟨⟨found, count⟩, hfound, hpair⟩ := Option.map_eq_some_iff.mp h
      cases hpair
      obtain ⟨after, rfl, hother⟩ := ih hfound
      exact ⟨after, by simp [Literal.doubleQuotes, hplain], hother⟩

/-- A number is read back from its text. -/
theorem parseInt64?_ofInt (value : Int64) :
    Text.parseInt64? (Text.ofInt value.toInt) = some value := by
  have hlow := value.minValue_le_toInt
  have hhigh := value.toInt_le
  have hdigits : ∀ c ∈ Nat.toDigits 10 value.toInt.natAbs, Text.isDigit c = true := by
    intro c hc
    exact Text.isDigit_of_mem_toDigits hc
  have hall := List.all_eq_true.mpr hdigits
  have hsome : (Nat.toDigits 10 value.toInt.natAbs).isEmpty = false := by
    rw [List.isEmpty_eq_false_iff, ← List.length_pos_iff]
    exact Nat.length_toDigits_pos
  unfold Text.parseInt64? Text.ofInt
  by_cases hneg : value.toInt < 0
  · have hvalue : -(value.toInt.natAbs : Int) = value.toInt := by omega
    simp only [if_pos hneg, hsome, hall, Text.numberOf_toDigits, if_true, hvalue, hlow, hhigh,
      decide_true, Bool.not_false, Bool.and_self, Int64.ofInt_toInt]
  · have hvalue : (value.toInt.natAbs : Int) = value.toInt := by omega
    rw [if_neg hneg]
    split
    rename_i heq
    split at heq
    · rename_i hchars
      have hminus := hdigits '-' (by rw [hchars]; exact List.mem_cons_self)
      cases hminus
    · rename_i hchars
      have hplus := hdigits '+' (by rw [hchars]; exact List.mem_cons_self)
      cases hplus
    · cases heq
      simp only [hsome, hall, Text.numberOf_toDigits, Bool.false_eq_true, if_false, hvalue, hlow,
        hhigh, decide_true, Bool.not_false, Bool.and_self, if_true, Int64.ofInt_toInt]

/-- A number starts with a digit or a minus, and digits follow. -/
theorem exists_ofInt (i : Int) : ∃ c more, Text.ofInt i = c :: more ∧
    (Text.isDigit c = true ∨ c = '-') ∧ ∀ d ∈ more, Text.isDigit d = true := by
  have hdigits : ∀ c ∈ Nat.toDigits 10 i.natAbs, Text.isDigit c = true := by
    intro c hc
    exact Text.isDigit_of_mem_toDigits hc
  unfold Text.ofInt
  split
  · exact ⟨_, _, rfl, .inr rfl, hdigits⟩
  · obtain ⟨c, more, hchars⟩ := List.exists_cons_of_ne_nil
      (List.ne_nil_of_length_pos (Nat.length_toDigits_pos (b := 10) (n := i.natAbs)))
    rw [hchars] at hdigits ⊢
    exact ⟨c, more, rfl, .inl (hdigits c List.mem_cons_self),
      fun d hd => hdigits d (List.mem_cons_of_mem c hd)⟩

theorem toNat_of_number {c : Char} (hstart : Text.isDigit c = true ∨ c = '-') :
    45 ≤ c.toNat ∧ c.toNat ≤ 57 := by
  obtain hdigit | rfl := hstart
  · simp only [Text.isDigit, Bool.and_eq_true, decide_eq_true_eq] at hdigit
    have hlow : 48 ≤ c.toNat := hdigit.1
    have hhigh : c.toNat ≤ 57 := hdigit.2
    omega
  · decide

/-- A digit or a minus starts a number, whatever follows it. -/
theorem Lexeme.scan_number {c : Char} (hstart : Text.isDigit c = true ∨ c = '-')
    (rest : List Char) :
    scan c rest = (Text.parseInt64? (c :: rest.takeWhile Text.isDigit)).elim
      (.error (.invalidNumber (String.ofList (c :: rest.takeWhile Text.isDigit))))
      fun value => .ok ⟨.literal (.int value), (rest.takeWhile Text.isDigit).length⟩ := by
  obtain ⟨hlow, hhigh⟩ := toNat_of_number hstart
  have hne : ∀ d : Char, d.toNat < 45 ∨ 57 < d.toNat → c ≠ d := by
    rintro d hd rfl
    omega
  have hnumber : (Text.isDigit c || decide (c = '-')) = true := by
    simpa only [Bool.or_eq_true, decide_eq_true_eq] using hstart
  unfold scan
  simp only [hne '(' (by decide), hne ')' (by decide), hne '\'' (by decide), hne '=' (by decide),
    hne '!' (by decide), hne '<' (by decide), hne '>' (by decide), hnumber, if_false, if_true]
  cases Text.parseInt64? (c :: rest.takeWhile Text.isDigit) <;> rfl

theorem Lexeme.scan_int {c : Char} {more rest : List Char} {value : Int64}
    (hvalue : Text.parseInt64? (c :: more) = some value)
    (hstart : Text.isDigit c = true ∨ c = '-') (hmore : ∀ d ∈ more, Text.isDigit d = true)
    (hends : EndsToken rest) :
    Text.isBlank c = false ∧
      scan c (more ++ rest) = .ok ⟨.literal (.int value), more.length⟩ := by
  obtain ⟨hlow, hhigh⟩ := toNat_of_number hstart
  refine ⟨isBlank_of_toNat (by omega) (by omega), ?_⟩
  rw [scan_number hstart, takeWhile_of_stops hmore (hends.stops rfl rfl), hvalue]
  rfl

theorem Spells.literal (value : Literal) {rest : List Char} {ts : List Token}
    (hends : EndsToken rest) (h : Spells rest ts) :
    Spells (value.toChars ++ rest) (.literal value :: ts) := by
  cases value with
  | text value =>
      have hother : rest.head? ≠ some '\'' := by
        intro hquote
        obtain hspace | hclosing := hends '\'' hquote
        · cases hspace
        · cases hclosing
      have hscan : Lexeme.scan '\'' ((Literal.doubleQuotes value.toList ++ ['\'']) ++ rest) =
          .ok ⟨.literal (.text value), (Literal.doubleQuotes value.toList ++ ['\'']).length⟩ := by
        have hread := quotedText?_doubleQuotes value.toList hother
        rw [List.append_assoc, List.singleton_append]
        simp [Lexeme.scan, hread]
      exact mark _ rfl hscan h
  | int value =>
      obtain ⟨c, more, hchars, hstart, hmore⟩ := exists_ofInt value.toInt
      have hvalue := parseInt64?_ofInt value
      rw [hchars] at hvalue
      obtain ⟨hmark, hscan⟩ := Lexeme.scan_int hvalue hstart hmore hends
      rw [Literal.toChars, hchars]
      exact mark more hmark hscan h
  | bool value =>
      cases value with
      | true => exact word ['r', 'u', 'e'] rfl rfl (hends.stops rfl rfl) h
      | false => exact word ['a', 'l', 's', 'e'] rfl rfl (hends.stops rfl rfl) h

end StatusBoard.Filter
