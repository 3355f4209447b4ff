import StatusBoard.Proofs.Json.Numeral
set_option autoImplicit false

/-!
# Json: the tree of a written value

The text of a value is read as a tree that can be told from the value alone.
-/

namespace StatusBoard.Json

/-! ## Strings -/

/-- The piece that a written character is read as. -/
def pieceOf (c : Char) : Piece :=
  if c.toNat < 0x20 && !(c ∈ ['\n', '\r', '\t', '\x08', '\x0c']) then .unit c.toNat else .char c

/-- The characters that are written as a letter behind a backslash, each with its letter. -/
inductive HasLetter : Char → Char → Prop
  | quotation : HasLetter '"' '"'
  | backslash : HasLetter '\\' '\\'
  | newline : HasLetter '\n' 'n'
  | carriageReturn : HasLetter '\r' 'r'
  | tab : HasLetter '\t' 't'
  | backspace : HasLetter '\x08' 'b'
  | formFeed : HasLetter '\x0c' 'f'

/-- The ways to write a character: by its letter, by its code, or as it is. -/
inductive IsSpelling (c : Char) : List Char → Prop
  | letter {e : Char} (h : HasLetter c e) : IsSpelling c ['\\', e]
  | code (hlow : c.toNat < 0x20) (hnone : ∀ e, ¬ HasLetter c e) :
      IsSpelling c ['\\', 'u', '0', '0', Nat.digitChar (c.toNat / 16), Nat.digitChar (c.toNat % 16)]
  | plain (hquote : c ≠ '"') (hslash : c ≠ '\\') (hlow : 0x20 ≤ c.toNat) : IsSpelling c [c]

theorem isSpelling_escapeChar (c : Char) : IsSpelling c (escapeChar c) := by
  unfold escapeChar
  split
  · subst_vars; exact .letter .quotation
  split
  · subst_vars; exact .letter .backslash
  split
  · subst_vars; exact .letter .newline
  split
  · subst_vars; exact .letter .carriageReturn
  split
  · subst_vars; exact .letter .tab
  split
  · subst_vars; exact .letter .backspace
  split
  · subst_vars; exact .letter .formFeed
  split
  · rename_i hquote hslash hn hr ht hb hf hlow
    apply IsSpelling.code hlow
    intro e h
    cases h <;> contradiction
  · rename_i hquote hslash hn hr ht hb hf hlow
    exact .plain hquote hslash (Nat.not_lt.mp hlow)

theorem hexUnit?_control {n : Nat} (h : n < 0x20) :
    hexUnit? '0' '0' (Nat.digitChar (n / 16)) (Nat.digitChar (n % 16)) = some n := by
  have hcases : ∀ k : Fin 0x20,
      hexUnit? '0' '0' (Nat.digitChar (k.val / 16)) (Nat.digitChar (k.val % 16)) = some k.val := by
    decide
  exact hcases ⟨n, h⟩

/-- A character of a string that stands for itself. -/
theorem readPieces_plain {c : Char} (hquote : c ≠ '"') (hslash : c ≠ '\\') (hlow : 0x20 ≤ c.toNat)
    (rest : List Char) :
    readPieces (c :: rest) = (readPieces rest).map fun p => (.char c :: p.1, p.2) := by
  rw [readPieces.eq_def]
  split
  · rename_i heq; cases heq
  · rename_i heq; cases heq; exact absurd rfl hquote
  · rename_i heq; cases heq; exact absurd rfl hslash
  · rename_i heq; cases heq; exact absurd rfl hslash
  · rename_i heq
    cases heq
    have hread : ¬ (c.toNat < 0x20 || decide (c = '\\')) = true := by
      simp only [hslash, decide_false, Bool.or_false, decide_eq_true_eq]
      omega
    rw [if_neg hread]
    cases readPieces rest <;> rfl

/-- A character behind a backslash. -/
theorem readPieces_escaped {e c : Char} (hcode : escapedChar? e = some c) (rest : List Char) :
    readPieces ('\\' :: e :: rest) = (readPieces rest).map fun p => (.char c :: p.1, p.2) := by
  rw [readPieces.eq_def]
  split
  · rename_i heq; cases heq
  · rename_i heq; cases heq
  · rename_i heq
    cases heq
    have hletter : escapedChar? 'u' = none := rfl
    rw [hletter] at hcode
    cases hcode
  · rename_i heq
    cases heq
    rw [hcode]
    cases readPieces rest <;> rfl
  · rename_i hother heq
    cases heq
    exact (hother e rest rfl rfl).elim

/-- A character written by its code. -/
theorem readPieces_unit {a b c d : Char} {code : Nat} (hcode : hexUnit? a b c d = some code)
    (rest : List Char) :
    readPieces ('\\' :: 'u' :: a :: b :: c :: d :: rest) =
      (readPieces rest).map fun p => (.unit code :: p.1, p.2) := by
  rw [readPieces, hcode]
  cases readPieces rest <;> rfl

/-- Each written character is read as one piece. -/
theorem readPieces_escapeChar (c : Char) (rest : List Char) :
    readPieces (escapeChar c ++ rest) = (readPieces rest).map fun p => (pieceOf c :: p.1, p.2) := by
  have hspelling := isSpelling_escapeChar c
  generalize escapeChar c = s at hspelling
  cases hspelling with
  | @letter e h =>
      have hcode : escapedChar? e = some c := by cases h <;> rfl
      have hpiece : pieceOf c = .char c := by cases h <;> rfl
      rw [hpiece]
      exact readPieces_escaped hcode rest
  | code hlow hnone =>
      have hother : c ∉ ['\n', '\r', '\t', '\x08', '\x0c'] := by
        intro h
        simp only [List.mem_cons, List.not_mem_nil, or_false] at h
        rcases h with rfl | rfl | rfl | rfl | rfl
        · exact hnone 'n' .newline
        · exact hnone 'r' .carriageReturn
        · exact hnone 't' .tab
        · exact hnone 'b' .backspace
        · exact hnone 'f' .formFeed
      have hpiece : pieceOf c = .unit c.toNat := by simp [pieceOf, hlow, hother]
      rw [hpiece]
      exact readPieces_unit (hexUnit?_control hlow) rest
  | plain hquote hslash hlow =>
      have hpiece : pieceOf c = .char c := by simp [pieceOf, Nat.not_lt.mpr hlow]
      rw [hpiece]
      exact readPieces_plain hquote hslash hlow rest

theorem readPieces_string (s rest : List Char) :
    readPieces (s.flatMap escapeChar ++ '"' :: rest) = some (s.map pieceOf, rest) := by
  induction s with
  | nil => simp [readPieces]
  | cons c s ih =>
      rw [List.flatMap_cons, List.append_assoc, readPieces_escapeChar, ih]
      rfl

theorem joinPieces_unit {code : Nat} (h : code < 0xD800) (pieces : List Piece) :
    joinPieces (.unit code :: pieces) = (joinPieces pieces).map (Char.ofNat code :: ·) := by
  have hpair : ¬ (decide (0xD800 ≤ code) && decide (code ≤ 0xDBFF)) = true := by simp; omega
  have hlow : ¬ (decide (0xDC00 ≤ code) && decide (code ≤ 0xDFFF)) = true := by simp; omega
  have hlone : ¬ (decide (0xD800 ≤ code) && decide (code ≤ 0xDFFF)) = true := by simp; omega
  rw [joinPieces.eq_def]
  split
  · rename_i heq; cases heq
  · rename_i heq; cases heq
  · rename_i heq; cases heq; rw [if_neg hpair, if_neg hlow]
  · rename_i heq; cases heq; rw [if_neg hlone]

theorem joinPieces_map_pieceOf (s : List Char) : joinPieces (s.map pieceOf) = some s := by
  induction s with
  | nil => rfl
  | cons c s ih =>
      rw [List.map_cons, pieceOf]
      split
      · rename_i hlow
        simp only [Bool.and_eq_true, decide_eq_true_eq] at hlow
        rw [joinPieces_unit (by omega), ih, Option.map_some, Char.ofNat_toNat]
      · rw [joinPieces, ih, Option.map_some]

/-- A written string is read as the text it writes. -/
theorem readString_stringChars (s : String) (rest : List Char) :
    readString (s.toList.flatMap escapeChar ++ '"' :: rest) = some (some s, rest) := by
  rw [readString, readPieces_string, Option.map_some]
  simp only [joinPieces_map_pieceOf, Option.map_some, String.ofList_toList]

/-! ## Values -/

mutual

/-- All numbers of a value are whole. -/
def Value.isWhole : Value → Bool
  | .number (.binary _) => false
  | .array items => allWhole items
  | .object members => membersWhole members
  | _ => true

/-- All numbers of several values are whole. -/
def allWhole : List Value → Bool
  | [] => true
  | item :: items => item.isWhole && allWhole items

/-- All numbers of the values of members are whole. -/
def membersWhole : List (String × Value) → Bool
  | [] => true
  | (_, value) :: members => value.isWhole && membersWhole members

end

mutual

/-- The tree that the text of a value is read as. -/
def Value.tree : Value → Tree
  | .null => .null
  | .bool value => .bool value
  | .number (.whole i) => .number (numeralOf i)
  | .number (.binary x) => .number (numeralOfBinary x)
  | .text s => .text (some s)
  | .array items => .array (treesOf items)
  | .object members => .object (memberTrees members)

/-- The trees of several values. -/
def treesOf : List Value → List Tree
  | [] => []
  | item :: items => item.tree :: treesOf items

/-- The trees of members. -/
def memberTrees : List (String × Value) → List (Option String × Tree)
  | [] => []
  | (key, value) :: members => (some key, value.tree) :: memberTrees members

end

theorem treesOf_eq_map (items : List Value) : treesOf items = items.map Value.tree := by
  induction items with
  | nil => rfl
  | cons item items ih => rw [treesOf, ih, List.map_cons]

theorem memberTrees_eq_map (members : List (String × Value)) :
    memberTrees members = members.map fun m => (some m.1, m.2.tree) := by
  induction members with
  | nil => rfl
  | cons member members ih => rw [memberTrees, ih, List.map_cons]

theorem allWhole_iff {items : List Value} :
    allWhole items = true ↔ ∀ v ∈ items, v.isWhole = true := by
  induction items with
  | nil => simp [allWhole]
  | cons item items ih => simp [allWhole, ih]

theorem membersWhole_iff {members : List (String × Value)} :
    membersWhole members = true ↔ ∀ m ∈ members, m.2.isWhole = true := by
  induction members with
  | nil => simp [membersWhole]
  | cons member members ih => simp [membersWhole, ih]

/-! ## Reading values -/

theorem skipBlanks_cons {c : Char} (h : isBlank c = false) (s : List Char) :
    skipBlanks (c :: s) = c :: s := by
  simp [skipBlanks, h]

/-- A digit or a minus sign is no blank, closes nothing, and starts no value but a number. -/
theorem ne_of_number {c : Char} (h : c = '-' ∨ isDigit c = true) :
    isBlank c = false ∧ c ≠ ']' ∧ c ≠ 'n' ∧ c ≠ 't' ∧ c ≠ 'f' ∧ c ≠ '"' ∧ c ≠ '[' ∧ c ≠ '\x7b' := by
  rcases h with rfl | h
  · decide
  · have hne {d : Char} (hd : isDigit d = false) : c ≠ d := ne_of_isDigit h hd
    have hblank : isBlank c = false := by simp [isBlank, hne (d := ' ') rfl, hne (d := '\n') rfl,
      hne (d := '\t') rfl, hne (d := '\r') rfl]
    exact ⟨hblank, hne rfl, hne rfl, hne rfl, hne rfl, hne rfl, hne rfl, hne rfl⟩

/-- What starts with a digit or a minus sign is read as a number. -/
theorem readTree_numeral {c : Char} (h : c = '-' ∨ isDigit c = true) (steps : Nat) (s : List Char) :
    readTree (steps + 1) (c :: s) =
      (readNumeral (c :: s)).map fun p => (.number p.1, p.2) := by
  obtain ⟨hblank, -, hn, ht, hf, hquote, hbracket, hbrace⟩ := ne_of_number h
  rw [readTree, skipBlanks_cons hblank]
  split
  · rename_i heq; cases heq; exact absurd rfl hn
  · rename_i heq; cases heq; exact absurd rfl ht
  · rename_i heq; cases heq; exact absurd rfl hf
  · rename_i heq; cases heq; exact absurd rfl hquote
  · rename_i heq; cases heq; exact absurd rfl hbracket
  · rename_i heq; cases heq; exact absurd rfl hbrace
  · rfl

theorem ofInt_ne_nil (i : Int) : Text.ofInt i ≠ [] := by
  unfold Text.ofInt
  split <;> simp

/-- The text of a whole number starts with a digit or a minus sign. -/
theorem head_ofInt {i : Int} {c : Char} {s : List Char} (h : Text.ofInt i = c :: s) :
    c = '-' ∨ isDigit c = true := by
  obtain ⟨d, t, hchars, hd⟩ := (isWritten_numeralOf i).head
  rw [toChars_numeralOf, h] at hchars
  cases hchars
  exact hd

/-- A number is written as a numeral of the grammar, and its tree is that numeral. -/
theorem exists_numeral (n : Number) :
    ∃ numeral : Numeral, numeral.IsWritten ∧ n.toChars = numeral.toChars ∧
      (Value.number n).tree = .number numeral := by
  cases n with
  | whole i => exact ⟨numeralOf i, isWritten_numeralOf i, (toChars_numeralOf i).symm, rfl⟩
  | binary x =>
      exact ⟨numeralOfBinary x, isWritten_numeralOfBinary x, (toChars_numeralOfBinary x).symm, rfl⟩

theorem readTree_number (n : Number) (steps : Nat) {rest : List Char} (h : Closes rest) :
    readTree (steps + 1) (n.toChars ++ rest) = some ((Value.number n).tree, rest) := by
  obtain ⟨numeral, hwritten, hchars, htree⟩ := exists_numeral n
  obtain ⟨c, s, hhead, hstart⟩ := hwritten.head
  have hread := Numeral.readNumeral_toChars hwritten h
  rw [hchars, htree]
  rw [hhead] at hread ⊢
  rw [List.cons_append, readTree_numeral hstart, ← List.cons_append, hread]
  rfl

/-- The text of a value is not empty, and starts with no blank and no closing bracket. -/
theorem head_toChars (v : Value) :
    ∃ c s, v.toChars = c :: s ∧ isBlank c = false ∧ c ≠ ']' := by
  cases v with
  | null => exact ⟨'n', _, rfl, by decide, by decide⟩
  | bool b => cases b <;> exact ⟨_, _, rfl, by decide, by decide⟩
  | number n =>
      obtain ⟨numeral, hwritten, hchars, -⟩ := exists_numeral n
      obtain ⟨c, s, hhead, hstart⟩ := hwritten.head
      obtain ⟨hblank, hbracket, -⟩ := ne_of_number hstart
      exact ⟨c, s, hchars.trans hhead, hblank, hbracket⟩
  | text s => exact ⟨'"', _, rfl, by decide, by decide⟩
  | array items => exact ⟨'[', _, rfl, by decide, by decide⟩
  | object members => exact ⟨'\x7b', _, rfl, by decide, by decide⟩

theorem toChars_length_pos (v : Value) : 0 < v.toChars.length := by
  obtain ⟨c, s, hchars, -⟩ := head_toChars v
  rw [hchars, List.length_cons]
  exact Nat.succ_pos _

theorem skipBlanks_closing {c : Char} (h : c = ',' ∨ c = ':' ∨ c = ']' ∨ c = '\x7d' ∨ c = '"')
    (s : List Char) : skipBlanks (c :: s) = c :: s := by
  apply skipBlanks_cons
  rcases h with rfl | rfl | rfl | rfl | rfl <;> decide

mutual

/-- The text of a value is read as its tree, and no further. -/
theorem readTree_toChars : ∀ (v : Value) (steps : Nat) (rest : List Char),
    2 * v.toChars.length ≤ steps → Closes rest →
    readTree steps (v.toChars ++ rest) = some (v.tree, rest)
  | .null, steps + 1, rest, _, _ => by
      simp [Value.toChars, Value.tree, readTree, skipBlanks, isBlank]
  | .bool true, steps + 1, rest, _, _ => by
      simp [Value.toChars, Value.tree, readTree, skipBlanks, isBlank]
  | .bool false, steps + 1, rest, _, _ => by
      simp [Value.toChars, Value.tree, readTree, skipBlanks, isBlank]
  | .number n, steps + 1, rest, _, hrest => readTree_number n steps hrest
  | .text s, steps + 1, rest, _, _ => by
      have hread := readString_stringChars s rest
      simp only [Value.toChars, Value.tree, stringChars, List.cons_append, List.append_assoc,
        List.nil_append, readTree, skipBlanks_closing (c := '"') (by simp), hread, Option.map_some]
  | .array [], steps + 1, rest, _, _ => by
      simp [Value.toChars, Value.tree, itemsChars, treesOf, readTree, skipBlanks, isBlank]
  | .array (item :: items), steps + 1, rest, hsteps, _ => by
      have hread := readItems_itemsChars item items steps rest (by
        simp only [Value.toChars, List.length_cons, List.length_append, List.length_nil] at hsteps
        omega)
      obtain ⟨c, s, hchars, hblank, hbracket⟩ := head_toChars item
      obtain ⟨t, htext⟩ : ∃ t, itemsChars (item :: items) = c :: t := by
        cases items with
        | nil => exact ⟨s, hchars⟩
        | cons next items =>
            exact ⟨s ++ ',' :: itemsChars (next :: items), by simp [itemsChars, hchars]⟩
      simp only [Value.toChars, Value.tree, List.cons_append, List.append_assoc,
        List.nil_append, readTree]
      rw [skipBlanks_cons (by decide)]
      simp only []
      rw [htext, List.cons_append, skipBlanks_cons hblank]
      split
      · rename_i heq; cases heq; exact absurd rfl hbracket
      · rw [htext, List.cons_append] at hread
        rw [hread]
        rfl
  | .object [], steps + 1, rest, _, _ => by
      simp [Value.toChars, Value.tree, membersChars, memberTrees, readTree, skipBlanks, isBlank]
  | .object ((key, value) :: members), steps + 1, rest, hsteps, _ => by
      have hread := readMembers_membersChars key value members steps rest (by
        simp only [Value.toChars, List.length_cons, List.length_append, List.length_nil] at hsteps
        omega)
      obtain ⟨t, htext⟩ : ∃ t, membersChars ((key, value) :: members) = '"' :: t := by
        cases members with
        | nil => exact ⟨_, rfl⟩
        | cons next members => exact ⟨_, rfl⟩
      simp only [Value.toChars, Value.tree, List.cons_append, List.append_assoc,
        List.nil_append, readTree]
      rw [skipBlanks_cons (by decide)]
      simp only []
      rw [htext, List.cons_append, skipBlanks_cons (by decide)]
      split
      · rename_i heq; simp at heq
      · rw [htext, List.cons_append] at hread
        rw [hread]
        rfl
  | v, 0, _, hsteps, _ => by
      have hpos := toChars_length_pos v
      omega

/-- The texts of items are read up to the closing bracket. -/
theorem readItems_itemsChars : ∀ (item : Value) (items : List Value) (steps : Nat)
    (rest : List Char), 2 * (itemsChars (item :: items)).length + 1 ≤ steps →
    readItems steps (itemsChars (item :: items) ++ ']' :: rest) =
      some (treesOf (item :: items), rest)
  | item, [], steps + 1, rest, hsteps => by
      have hread := readTree_toChars item steps
        (']' :: rest) (by simp only [itemsChars] at hsteps; omega) (closes_cons (by simp) _)
      simp only [itemsChars, treesOf, readItems, hread, Option.bind_eq_bind, Option.bind_some,
        skipBlanks_closing (c := ']') (by simp)]
  | item, next :: items, steps + 1, rest, hsteps => by
      simp only [itemsChars, List.length_append, List.length_cons] at hsteps
      have hitem := readTree_toChars item steps
        (',' :: (itemsChars (next :: items) ++ ']' :: rest)) (by omega) (closes_cons (by simp) _)
      have hitems := readItems_itemsChars next items steps rest (by omega)
      simp only [itemsChars, treesOf, List.append_assoc, List.cons_append, readItems, hitem,
        Option.bind_eq_bind, Option.bind_some, skipBlanks_closing (c := ',') (by simp)]
      rw [hitems]
      rfl
  | _, _, 0, _, hsteps => by omega

/-- The texts of members are read up to the closing brace. -/
theorem readMembers_membersChars : ∀ (key : String) (value : Value)
    (members : List (String × Value)) (steps : Nat) (rest : List Char),
    2 * (membersChars ((key, value) :: members)).length + 1 ≤ steps →
    readMembers steps (membersChars ((key, value) :: members) ++ '\x7d' :: rest) =
      some (memberTrees ((key, value) :: members), rest)
  | key, value, [], steps + 1, rest, hsteps => by
      simp only [membersChars, List.length_append, List.length_cons] at hsteps
      have hkey := readString_stringChars key (':' :: (value.toChars ++ '\x7d' :: rest))
      have hvalue := readTree_toChars value
        steps ('\x7d' :: rest) (by omega) (closes_cons (by simp) _)
      simp only [membersChars, memberTrees, stringChars, List.append_assoc, List.cons_append,
        List.nil_append, readMembers, hkey, hvalue, Option.bind_eq_bind, Option.bind_some,
        skipBlanks_closing (c := '"') (by simp), skipBlanks_closing (c := ':') (by simp),
        skipBlanks_closing (c := '\x7d') (by simp)]
  | key, value, (nextKey, nextValue) :: members, steps + 1, rest, hsteps => by
      simp only [membersChars, List.length_append, List.length_cons] at hsteps
      have hkey := readString_stringChars key
        (':' :: (value.toChars ++ ',' :: (membersChars ((nextKey, nextValue) :: members) ++
        '\x7d' :: rest)))
      have hvalue := readTree_toChars value steps
        (',' :: (membersChars ((nextKey, nextValue) :: members) ++ '\x7d' :: rest)) (by omega)
        (closes_cons (by simp) _)
      have hmembers := readMembers_membersChars nextKey nextValue members steps rest (by omega)
      simp only [membersChars, memberTrees, stringChars, List.append_assoc, List.cons_append,
        List.nil_append, readMembers, hkey, hvalue, Option.bind_eq_bind, Option.bind_some,
        skipBlanks_closing (c := '"') (by simp), skipBlanks_closing (c := ':') (by simp),
        skipBlanks_closing (c := ',') (by simp)]
      rw [hmembers]
      rfl
  | _, _, _, 0, _, hsteps => by omega

end

/-- The text of a value is parsed as its tree. -/
theorem parse?_render (v : Value) : parse? v.render = some v.tree := by
  have hread := readTree_toChars v (2 * v.toChars.length + 2) [] (by omega) closes_nil
  rw [List.append_nil] at hread
  simp only [parse?, Value.render, String.toList_ofList, hread]
  rfl

end StatusBoard.Json
