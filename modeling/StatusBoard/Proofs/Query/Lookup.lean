import StatusBoard.Proofs.Filter.Rendering
import StatusBoard.Proofs.Query.Truth
import StatusBoard.Proofs.Store.Written
import StatusBoard.Query.Size
set_option autoImplicit false

/-!
# Query: looking for what was written

Keys of labels and types of conditions have shapes of their own, which are checked when they are
written.  Filters have a shape for the names of fields, and the fields a shape for what stands
behind their start.  Whatever passes the first passes the others, so that there is a filter for
every label and for every condition, and it asks for just that.
-/

namespace StatusBoard

open StatusBoard.Filter (Expr Comparison Literal Target labelStart conditionStart isWordChar
  isWordStart isFieldName)

/-! ## Texts and their starts -/

theorem Text.afterChars?_append (start s : List Char) : afterChars? start (start ++ s) = some s := by
  induction start with
  | nil => rfl
  | cons c start ih => rw [List.cons_append, afterChars?, if_pos rfl, ih]

/-- What follows a start in a text that was put behind it. -/
theorem Text.after?_append (start s : String) : after? start (start ++ s) = some s := by
  rw [after?, String.toList_append, afterChars?_append, Option.map_some, String.ofList_toList]

namespace Filter

/-! ## Names of fields -/

theorem isWordChar_of_isAlphanumeric {c : Char} (h : isAlphanumeric c = true) :
    isWordChar c = true := by
  simp [isWordChar, h]

/-- A character inside of a label key can be part of a word. -/
theorem isWordChar_of_isLabelChar {c : Char} (h : isLabelChar c = true) : isWordChar c = true := by
  simp only [isLabelChar, Bool.or_eq_true, decide_eq_true_eq] at h
  simp only [isWordChar, Bool.or_eq_true, decide_eq_true_eq]
  tauto

/-- A start that no other word has, and characters that can be part of a word, name a field. -/
theorem isFieldName_append {start s : String} {c : Char} {more : List Char}
    (hstart : start.toList = c :: more) (hword : isWordStart c = true)
    (hmore : more.all isWordChar = true) (hs : ∀ d ∈ s.toList, isWordChar d = true)
    (hother : ∀ keyword ∈ keywords, keyword.toList.head? ≠ some (lowerCase c)) :
    isFieldName (start ++ s) = true := by
  have hkeyword : keywords.contains (String.ofList ((c :: (more ++ s.toList)).map lowerCase)) =
      false := by
    rw [List.contains_eq_mem, decide_eq_false_iff_not]
    intro hmem
    refine hother _ hmem ?_
    rw [String.toList_ofList, List.map_cons, List.head?_cons]
  unfold isFieldName
  rw [String.toList_append, hstart, List.cons_append]
  simp only [hword, hkeyword, List.all_append, hmore, List.all_eq_true.mpr hs, Bool.not_false,
    Bool.and_self]

theorem isFieldName_label {key : String} (h : isLabelKey key = true) :
    isFieldName (labelStart ++ key) = true := by
  have hstart : labelStart.toList = 'l' :: "abels.".toList := rfl
  refine isFieldName_append hstart rfl rfl ?_ (by decide)
  intro d hd
  obtain hends | hbetween := forall_of_isFramed h d hd
  · exact isWordChar_of_isAlphanumeric hends
  · exact isWordChar_of_isLabelChar hbetween

theorem isFieldName_condition {type : String} (h : isPascalCase type = true) :
    isFieldName (conditionStart ++ type) = true := by
  have hstart : conditionStart.toList = 's' :: "tatus.conditions.".toList := rfl
  refine isFieldName_append hstart rfl rfl ?_ (by decide)
  intro d hd
  unfold isPascalCase isPascalCaseChars at h
  split at h
  · rename_i hnone
    rw [hnone] at hd
    cases hd
  · rename_i first rest hchars
    rw [hchars] at hd
    simp only [Bool.and_eq_true, List.all_eq_true] at h
    rcases List.mem_cons.mp hd with rfl | hd
    · exact isWordChar_of_isAlphanumeric (by simp [isAlphanumeric, h.1])
    · exact isWordChar_of_isAlphanumeric (h.2 d hd)

/-! ## Fields -/

/-- No column has a name that starts like this. -/
theorem Column.ofText?_eq_none {s : String} {c : Char} (hs : s.toList.head? = some c)
    (h : c = 'l' ∨ c = 's') : Column.ofText? s = none := by
  rw [ofText?, List.find?_eq_none]
  intro column _ hname
  rw [← of_decide_eq_true hname] at hs
  have hc : column.text.toList.head? ≠ some 'l' ∧ column.text.toList.head? ≠ some 's' := by
    cases column <;> decide
  rw [hs] at hc
  obtain rfl | rfl := h
  · exact hc.1 rfl
  · exact hc.2 rfl

theorem ofField_label {key : String} (h : isLabelKey key = true) :
    Target.ofField (labelStart ++ key) = .ok (.label key) := by
  have hspec : labelStart ++ key ≠ "spec" := by
    intro heq
    have hchars := congrArg (fun s : String => s.toList.head?) heq
    simp [labelStart, String.toList_append] at hchars
  have hinside : Text.after? "spec." (labelStart ++ key) = none := by
    rw [Text.after?, String.toList_append]
    rfl
  have hcolumn : Column.ofText? (labelStart ++ key) = none := by
    refine Column.ofText?_eq_none (c := 'l') ?_ (.inl rfl)
    rw [String.toList_append]
    rfl
  unfold Target.ofField
  simp only [hspec, hinside, hcolumn, Text.after?_append, h, Option.isSome_none, decide_false,
    Bool.or_self, Bool.false_eq_true, if_false, if_true]

theorem ofField_condition (type : String) :
    Target.ofField (conditionStart ++ type) = .ok (.condition type) := by
  have hspec : conditionStart ++ type ≠ "spec" := by
    intro heq
    have hchars := congrArg (fun s : String => s.toList.tail.head?) heq
    simp [conditionStart, String.toList_append] at hchars
  have hinside : Text.after? "spec." (conditionStart ++ type) = none := by
    rw [Text.after?, String.toList_append]
    rfl
  have hcolumn : Column.ofText? (conditionStart ++ type) = none := by
    refine Column.ofText?_eq_none (c := 's') ?_ (.inr rfl)
    rw [String.toList_append]
    rfl
  have hlabel : Text.after? labelStart (conditionStart ++ type) = none := by
    rw [Text.after?, String.toList_append]
    rfl
  unfold Target.ofField
  simp only [hspec, hinside, hcolumn, hlabel, Text.after?_append, Option.isSome_none, decide_false,
    Bool.or_self, Bool.false_eq_true, if_false]

/-! ## Filters -/

/-- A label has a value. -/
def labelComparison (key value : String) : Comparison :=
  ⟨labelStart ++ key, .eq, .text value⟩

/-- A condition has a status. -/
def conditionComparison (type : String) (status : ConditionStatus) : Comparison :=
  ⟨conditionStart ++ type, .eq, .text status.word⟩

/-- The text of a filter that asks for a label, with quotation marks in the value doubled. -/
def labelText (key value : String) : String :=
  "labels." ++ key ++ " = '" ++ String.ofList (Literal.doubleQuotes value.toList) ++ "'"

/-- The text of a filter that asks for a condition, without spaces. -/
def conditionText (type : String) (status : ConditionStatus) : String :=
  "status.conditions." ++ type ++ "='" ++ status.word ++ "'"

/-- The filter that asks for a label is read. -/
theorem parse_labelText {key : String} (h : isLabelKey key = true) (value : String) :
    parse (labelText key value) = .ok (some (.compare (labelComparison key value))) := by
  have hprints : Prints (labelComparison key value).toChars _ :=
    Prints.comparison (isFieldName_label h)
  refine parse_of_spells ?_
  convert hprints.spells using 1
  simp [labelText, labelComparison, Comparison.toChars, labelStart, String.toList_append,
    Relation.text, Literal.toChars]

theorem doubleQuotes_word (status : ConditionStatus) :
    Literal.doubleQuotes status.word.toList = status.word.toList := by
  cases status <;> decide

theorem isWordChar_head?_equality (s : List Char) :
    ∀ d ∈ ('=' :: s).head?, isWordChar d = false := by
  intro d hd
  rw [← Option.some.inj hd]
  rfl

/-- The filter that asks for a condition is read. -/
theorem parse_conditionText {type : String} (h : isPascalCase type = true)
    (status : ConditionStatus) :
    parse (conditionText type status) =
      .ok (some (.compare (conditionComparison type status))) := by
  have hvalue := Spells.literal (.text status.word) endsToken_nil Spells.nil
  have hsign := hvalue.equality (by simp [Literal.toChars])
  have hfield := hsign.field (isFieldName_condition h) (isWordChar_head?_equality _)
  have hchars : (conditionText type status).toList = (conditionStart ++ type).toList ++
      '=' :: ((Literal.text status.word).toChars ++ []) := by
    have htext : conditionText type status =
        conditionStart ++ type ++ "='" ++ status.word ++ "'" := rfl
    rw [Literal.toChars, doubleQuotes_word, htext, String.toList_append, String.toList_append,
      String.toList_append]
    simp only [List.append_assoc, List.append_nil]
    rfl
  refine parse_of_spells ?_
  rw [hchars]
  exact hfield

end Filter

/-! ## Queries -/

open StatusBoard.Filter (labelComparison conditionComparison)

/-- The filter that asks for a label makes a query, which is not too large. -/
theorem Query.ofExpr_label {key : String} (h : isLabelKey key = true) (value : String) :
    ∃ q height, Query.ofExpr (.compare (labelComparison key value)) = .ok q ∧
      q.measure = .ok height := by
  have htarget : Target.ofField (labelStart ++ key) = .ok (.label key) := Filter.ofField_label h
  have hsplit : Split.ofExpr (.compare (labelComparison key value)) =
      .ok ⟨some (.compare (labelComparison key value)), []⟩ := by
    simp only [Split.ofExpr, Split.ofComparison, labelComparison, htarget]
  have hclause : Clause.ofExpr (.compare (labelComparison key value)) =
      .ok (.label .eq, [.text key, .text value]) := by
    simp only [Clause.ofExpr, Clause.ofComparison, labelComparison, htarget]
  refine ⟨⟨[.label .eq], [.text key, .text value]⟩, 6, ?_, rfl⟩
  have hleaves : (Expr.compare (labelComparison key value)).leaves = [labelComparison key value] :=
    rfl
  unfold ofExpr
  simp only [hsplit, hleaves, bind, Except.bind, hclause]
  simp [Expr.hasEmptyGroup, labelComparison, htarget, ofBound, Except.isOk, Except.toBool, pure,
    Except.pure]

/-- The filter that asks for a condition makes a query, which is not too large. -/
theorem Query.ofExpr_condition {type : String} (h : isPascalCase type = true)
    (status : ConditionStatus) :
    ∃ q height, Query.ofExpr (.compare (conditionComparison type status)) = .ok q ∧
      q.measure = .ok height := by
  have htarget : Target.ofField (conditionStart ++ type) = .ok (.condition type) :=
    Filter.ofField_condition type
  have htest : ConditionTest.of type .eq (.text status.word) = .ok ⟨type, status⟩ := by
    simp [ConditionTest.of, h]
  have hsplit : Split.ofExpr (.compare (conditionComparison type status)) =
      .ok ⟨none, [⟨type, status⟩]⟩ := by
    simp only [Split.ofExpr, Split.ofComparison, conditionComparison, htarget, htest]
    rfl
  have hleaves : (Expr.compare (conditionComparison type status)).leaves =
      [conditionComparison type status] := rfl
  refine ⟨⟨[.condition], [.text type, .text status.word]⟩, 7, ?_, rfl⟩
  unfold ofExpr
  simp only [hsplit, hleaves, bind, Except.bind]
  simp [Expr.hasEmptyGroup, conditionComparison, htarget, ofBound, ConditionTest.params,
    Except.isOk, Except.toBool, pure, Except.pure]

/-- The text of a filter that is read makes the query of the filter. -/
theorem Query.ofText_of_parse {s : String} {e : Expr} {q : Query}
    (hparse : Filter.parse s = .ok (some e)) (hquery : Query.ofExpr e = .ok q) :
    Query.ofText s = .ok (some q) := by
  rw [ofText, hparse]
  simp only [hquery]
  rfl

/-! ## Truth -/

theorem Filter.holds_eq_order_text {a b : String} :
    Relation.eq.holds (order (.text a) (.text b)) = true ↔ a = b := by
  rw [order_eq]
  constructor
  · intro h
    have hrelate : Cell.relate .eq (.text a) (.text b) = some true := congrArg some h
    exact Cell.text.inj (Cell.eq_of_relate trivial trivial hrelate)
  · rintro rfl
    simp [Relation.holds, Cell.order, compareOfLessAndEq]

/-- The filter that asks for a label is true of the resources that have it with the value. -/
theorem isTrueOf_label {key : String} (h : isLabelKey key = true) (value : String) (x : Resource) :
    Expr.isTrueOf (.compare (labelComparison key value)) x = true ↔
      x.labels.get? key = some value := by
  have htarget : Target.ofField (labelStart ++ key) = .ok (.label key) := Filter.ofField_label h
  simp only [Expr.isTrueOf, Expr.truth, Comparison.truth, labelComparison, htarget,
    decide_eq_true_eq]
  cases x.labels.get? key with
  | none => simp
  | some found => simp [Filter.holds_eq_order_text]

theorem ConditionStatus.word_inj {a b : ConditionStatus} : a.word = b.word ↔ a = b := by
  constructor
  · intro h
    have hread := congrArg ConditionStatus.ofWord? h
    rw [ofWord?_word, ofWord?_word] at hread
    exact Option.some.inj hread
  · rintro rfl
    rfl

/-- The filter that asks for a condition is true of the resources that have it with the status. -/
theorem isTrueOf_condition (type : String) (status : ConditionStatus) (x : Resource) :
    Expr.isTrueOf (.compare (conditionComparison type status)) x = true ↔
      ∃ c ∈ x.statusConditions.conditions, c.type = type ∧ c.status = status := by
  have htarget : Target.ofField (conditionStart ++ type) = .ok (.condition type) :=
    Filter.ofField_condition type
  simp only [Expr.isTrueOf, Expr.truth, Comparison.truth, conditionComparison, htarget,
    decide_eq_true_eq]
  simp [Document.has, ConditionStatus.word_inj]

end StatusBoard
