import StatusBoard.Proofs.Filter.Tokens
set_option autoImplicit false

/-!
# Filter: where tokens stand

A text is cut into tokens from left to right.  Every token is found at the number of bytes before its
first character, and so is the place where no token can be formed.  `Formless` says, without the
function that looks for tokens, of which texts no token can be formed at the start.
-/

namespace StatusBoard.Filter

/-! ## Bytes -/

theorem byteLength_append (s more : List Char) :
    byteLength (s ++ more) = byteLength s + byteLength more := by
  induction s with
  | nil => rw [List.nil_append, byteLength, Nat.zero_add]
  | cons c s ih => rw [List.cons_append, byteLength, byteLength, ih, Nat.add_assoc]

theorem byteLength_pos {s : List Char} (h : s ≠ []) : 0 < byteLength s := by
  cases s with
  | nil => exact absurd rfl h
  | cons c s => exact Nat.add_pos_left c.utf8Size_pos _

/-- So many bytes from the start of the text a character starts, or the text ends. -/
def IsBoundary (s : List Char) (offset : Nat) : Prop :=
  ∃ before after, s = before ++ after ∧ offset = byteLength before

/-! ## Texts of which no token can be formed -/

/-- The character starts a token, if what follows it is as it should be. -/
def startsToken (c : Char) : Bool :=
  ['(', ')', '\'', '=', '!', '<', '>', '-'].contains c || Text.isDigit c || isWordStart c

/-- No token can be formed at the start of the text, for a reason. -/
inductive Formless : List Char → TokenFault → Prop where
  /-- Every quotation mark that could end the text is followed by another one. -/
  | text {rest : List Char}
      (hopen : ∀ s after, rest = Literal.doubleQuotes s ++ '\'' :: after → after.head? = some '\'') :
      Formless ('\'' :: rest) .unterminatedText
  | exclamation {rest : List Char} (halone : rest.head? ≠ some '=') :
      Formless ('!' :: rest) .loneExclamation
  /-- The digits, all of them, are no number that there is room for. -/
  | number {c : Char} {rest : List Char} (hstart : Text.isDigit c = true ∨ c = '-')
      (hrange : Text.parseInt64? (c :: rest.takeWhile Text.isDigit) = none) :
      Formless (c :: rest) (.invalidNumber (String.ofList (c :: rest.takeWhile Text.isDigit)))
  | character {c : Char} {rest : List Char} (hother : startsToken c = false) :
      Formless (c :: rest) (.unexpectedCharacter c)

/-- A text is not ended if no quotation mark ends it. -/
theorem quotedText?_eq_none_iff {rest : List Char} :
    quotedText? rest = none ↔
      ∀ s after, rest = Literal.doubleQuotes s ++ '\'' :: after → after.head? = some '\'' := by
  constructor
  · intro hnone s after hsplit
    refine Decidable.byContradiction fun hother => ?_
    rw [hsplit, quotedText?_doubleQuotes s hother] at hnone
    cases hnone
  · intro hopen
    cases hfound : quotedText? rest with
    | none => rfl
    | some found =>
        obtain ⟨after, hsplit, hother⟩ := exists_of_quotedText? hfound
        exact absurd (hopen _ after hsplit) hother

namespace Lexeme

variable {c : Char} {rest : List Char} {fault : TokenFault}

/-- The search for a token fails just where none can be formed, and for the same reason. -/
theorem scan_eq_error_iff : scan c rest = .error fault ↔ Formless (c :: rest) fault := by
  constructor
  · intro h
    unfold scan at h
    dsimp only at h
    repeat' split at h
    all_goals try cases h
    · rename_i hquote _ hnone
      rw [hquote]
      exact .text (quotedText?_eq_none_iff.mp hnone)
    · rename_i hexclamation halone
      rw [hexclamation]
      exact .exclamation halone
    · rename_i hstart _ hnone
      exact .number (by simpa using hstart) hnone
    · rename_i hopening hclosing hquote heq hexclamation hlt hgt hnumber hword
      simp only [Bool.not_eq_true, Bool.or_eq_false_iff, decide_eq_false_iff_not] at hnumber hword
      refine .character ?_
      simp [startsToken, *]
  · intro h
    cases h with
    | text hopen => simp [scan, quotedText?_eq_none_iff.mpr hopen]
    | exclamation halone => simp [scan, halone]
    | number hstart hrange =>
        rw [scan_number hstart, hrange]
        rfl
    | character hother =>
        simp only [startsToken, Bool.or_eq_false_iff] at hother
        simp_all [scan]

end Lexeme

/-! ## Cutting -/

/-- The text starts with tokens, up to what is left of it. -/
inductive Cut : List Char → List Token → List Char → Prop where
  | done (rest : List Char) : Cut rest [] rest
  | blank {c : Char} {s rest : List Char} {ts : List Token} (hblank : Text.isBlank c = true)
      (hmore : Cut s ts rest) : Cut (c :: s) ts rest
  | token {c : Char} {s rest : List Char} {lexeme : Lexeme} {ts : List Token}
      (hmark : Text.isBlank c = false) (hscan : Lexeme.scan c s = .ok lexeme)
      (hmore : Cut (s.drop lexeme.extra) ts rest) : Cut (c :: s) (lexeme.token :: ts) rest

/-- Where no token can be formed, the text up to there has been cut into tokens and blanks, and its
bytes have been counted. -/
theorem tokensFrom_error {offset : Nat} {s : List Char} {fault : Located TokenFault}
    (h : tokensFrom offset s = .error fault) :
    ∃ before ts c rest, s = before ++ c :: rest ∧ fault.offset = offset + byteLength before ∧
      Cut s ts (c :: rest) ∧ Text.isBlank c = false ∧ Formless (c :: rest) fault.item := by
  fun_induction tokensFrom offset s with
  | case1 offset => cases h
  | case2 offset c s hblank ih =>
      obtain ⟨before, ts, d, rest, rfl, hoffset, hcut, hmark, hfault⟩ := ih h
      refine ⟨c :: before, ts, d, rest, rfl, ?_, .blank hblank hcut, hmark, hfault⟩
      rw [hoffset, byteLength, Nat.add_assoc]
  | case3 offset c s hmark found hscan =>
      cases h
      exact ⟨[], [], c, s, rfl, rfl, .done _, eq_false_of_ne_true hmark,
        Lexeme.scan_eq_error_iff.mp hscan⟩
  | case4 offset c s hmark lexeme hscan found hfound ih =>
      cases h
      obtain ⟨before, ts, d, rest, hrest, hoffset, hcut, hother, hfault⟩ := ih hfound
      refine ⟨c :: (s.take lexeme.extra ++ before), lexeme.token :: ts, d, rest, ?_, ?_,
        .token (eq_false_of_ne_true hmark) hscan hcut, hother, hfault⟩
      · rw [List.cons_append, List.append_assoc, ← hrest, List.take_append_drop]
      · rw [hoffset, byteLength, byteLength_append]
        omega
  | case5 => cases h

/-- Every token stands where its first character does. -/
theorem tokensFrom_ok {offset : Nat} {s : List Char} {ts : List (Located Token)}
    (h : tokensFrom offset s = .ok ts) :
    ts.Pairwise (·.offset < ·.offset) ∧ ∀ t ∈ ts, ∃ before c rest extra, s = before ++ c :: rest ∧
      t.offset = offset + byteLength before ∧ Lexeme.scan c rest = .ok ⟨t.item, extra⟩ := by
  fun_induction tokensFrom offset s generalizing ts with
  | case1 offset =>
      cases h
      exact ⟨.nil, fun t ht => nomatch ht⟩
  | case2 offset c s hblank ih =>
      obtain ⟨hsorted, hplaces⟩ := ih h
      refine ⟨hsorted, fun t ht => ?_⟩
      obtain ⟨before, d, rest, extra, rfl, hoffset, hscan⟩ := hplaces t ht
      refine ⟨c :: before, d, rest, extra, rfl, ?_, hscan⟩
      rw [hoffset, byteLength, Nat.add_assoc]
  | case3 => cases h
  | case4 => cases h
  | case5 offset c s hmark lexeme hscan more hmore ih =>
      cases h
      obtain ⟨hsorted, hplaces⟩ := ih hmore
      have hplaces : ∀ t ∈ more, ∃ before d rest extra, c :: s = c :: before ++ d :: rest ∧
          t.offset = offset + byteLength (c :: before) ∧
          Lexeme.scan d rest = .ok ⟨t.item, extra⟩ := by
        intro t ht
        obtain ⟨before, d, rest, extra, hrest, hoffset, hfound⟩ := hplaces t ht
        refine ⟨s.take lexeme.extra ++ before, d, rest, extra, ?_, ?_, hfound⟩
        · rw [List.cons_append, List.append_assoc, ← hrest, List.take_append_drop]
        · rw [hoffset, byteLength, byteLength_append]
          omega
      refine ⟨List.pairwise_cons.mpr ⟨fun t ht => ?_, hsorted⟩, List.forall_mem_cons.mpr ⟨?_, ?_⟩⟩
      · obtain ⟨before, _, _, _, _, hoffset, _⟩ := hplaces t ht
        rw [hoffset]
        exact Nat.lt_add_of_pos_right (byteLength_pos (List.cons_ne_nil c before))
      · exact ⟨[], c, s, lexeme.extra, rfl, rfl, hscan⟩
      · intro t ht
        obtain ⟨before, hplace⟩ := hplaces t ht
        exact ⟨c :: before, hplace⟩

end StatusBoard.Filter
