import StatusBoard.Proofs.Filter.Parsing
set_option autoImplicit false

/-!
# Filter: filters as they are written

A filter is written with as few parentheses as its grammar allows: around what binds less tightly
than the place where it stands wants it to.  What is read is a filter that joins two parts at least
wherever it joins, and whose fields have their names; and every such filter, if it is not too deep,
is read back from what is written of it.
-/

namespace StatusBoard.Filter

/-! ## Writing -/

/-- The comparison as it is written in a filter. -/
def Comparison.toChars (c : Comparison) : List Char :=
  c.field.toList ++ ' ' :: (c.relation.text.toList ++ ' ' :: c.value.toChars)

namespace Expr

/-- A text, in parentheses if they are wanted. -/
def bracketed (wanted : Bool) (s : List Char) : List Char :=
  if wanted then '(' :: (s ++ [')']) else s

mutual

/-- The filter as it is written at a place: at `0` anything may stand, at `1` no disjunction, and
at `2` no conjunction either. -/
def toChars (place : Nat) : Expr → List Char
  | compare c => c.toChars
  | all parts => bracketed (1 < place) (List.intercalate " AND ".toList (charsOf 2 parts))
  | any parts => bracketed (0 < place) (List.intercalate " OR ".toList (charsOf 1 parts))
  | not part => "NOT ".toList ++ part.toChars 2

/-- Each of several filters as it is written at a place. -/
def charsOf (place : Nat) : List Expr → List (List Char)
  | [] => []
  | part :: parts => part.toChars place :: charsOf place parts

end

/-- The filter as a text. -/
def render (e : Expr) : String :=
  String.ofList (e.toChars 0)

mutual

/-- The greatest number of negations and parentheses over a comparison, where the filter is written
at a place. -/
def nesting (place : Nat) : Expr → Nat
  | compare _ => 0
  | all parts => (if 1 < place then 1 else 0) + nestingOf 2 parts
  | any parts => (if 0 < place then 1 else 0) + nestingOf 1 parts
  | not part => part.nesting 2 + 1

/-- The greatest nesting of several filters. -/
def nestingOf (place : Nat) : List Expr → Nat
  | [] => 0
  | part :: parts => max (part.nesting place) (nestingOf place parts)

end

/-- Wherever the filter joins, it joins two parts at least, and its fields have their names. -/
inductive IsProper : Expr → Prop where
  | compare {c : Comparison} (named : isFieldName c.field = true) : IsProper (.compare c)
  | all {parts : List Expr} (several : 2 ≤ parts.length)
      (proper : ∀ part ∈ parts, IsProper part) : IsProper (.all parts)
  | any {parts : List Expr} (several : 2 ≤ parts.length)
      (proper : ∀ part ∈ parts, IsProper part) : IsProper (.any parts)
  | not {part : Expr} (proper : IsProper part) : IsProper (.not part)

/-- A filter that can be written: it is proper, and less than sixty-four negations and parentheses
stand over each comparison. -/
structure IsWritable (e : Expr) : Prop where
  proper : e.IsProper
  nesting : e.nesting 0 < 64

theorem nestingOf_le_iff {place : Nat} {parts : List Expr} {n : Nat} :
    nestingOf place parts ≤ n ↔ ∀ part ∈ parts, part.nesting place ≤ n := by
  induction parts with
  | nil => simp [nestingOf]
  | cons part parts ih => rw [nestingOf, Nat.max_le, ih, List.forall_mem_cons]

/-- A place that allows less makes the nesting greater, but by the outer parentheses only. -/
theorem nesting_mono (e : Expr) {place tighter : Nat} (h : place ≤ tighter) :
    e.nesting place ≤ e.nesting tighter ∧ e.nesting tighter ≤ e.nesting place + 1 := by
  cases e with
  | compare c => exact ⟨Nat.le_refl _, Nat.zero_le _⟩
  | all parts =>
      simp only [nesting]
      split <;> split <;> omega
  | any parts =>
      simp only [nesting]
      split <;> split <;> omega
  | not part =>
      simp only [nesting]
      omega

end Expr

/-! ## What is written has a derivation -/

/-- A text that has these tokens, and that goes on as anything does which ends a token. -/
def Prints (s : List Char) (ts : List Token) : Prop :=
  ∀ rest more, EndsToken rest → Spells rest more → Spells (s ++ rest) (ts ++ more)

namespace Prints

theorem spells {s : List Char} {ts : List Token} (h : Prints s ts) : Spells s ts := by
  have hspells := h [] [] endsToken_nil Spells.nil
  rwa [List.append_nil, List.append_nil] at hspells

theorem comparison {c : Comparison} (hname : isFieldName c.field = true) :
    Prints c.toChars (Operand.comparison c).tokens := by
  intro rest more hends h
  have hsign := (Spells.literal c.value hends h).relation c.relation
  have hfield := Spells.field hname ((endsToken_space _).stops rfl rfl) hsign.space
  simpa only [Comparison.toChars, Operand.tokens, List.append_assoc, List.cons_append,
    List.nil_append] using hfield

theorem negated {s : List Char} {ts : List Token} (h : Prints s ts) :
    Prints ("NOT ".toList ++ s) (.notWord :: ts) := by
  intro rest more hends hrest
  exact (h rest more hends hrest).notWord

theorem bracketed {s : List Char} {ts : List Token} (h : Prints s ts) :
    Prints ('(' :: (s ++ [')'])) (.opening :: (ts ++ [.closing])) := by
  intro rest more _ hrest
  have hinner := (h _ _ (endsToken_closing rest) hrest.closing).opening
  simpa only [List.append_assoc, List.cons_append, List.nil_append] using hinner

/-- Two texts with a word between them, which stands for itself. -/
theorem joined {s s' : List Char} {ts ts' : List Token} (word : List Char) {t : Token}
    (hword : ∀ {rest more}, Spells rest more → Spells (word ++ ' ' :: rest) (t :: more))
    (h : Prints s ts) (h' : Prints s' ts') :
    Prints (s ++ (' ' :: (word ++ [' '])) ++ s') (ts ++ t :: ts') := by
  intro rest more hends hrest
  have hjoint := hword (h' rest more hends hrest)
  have hwhole := h _ _ (endsToken_space _) hjoint.space
  simpa only [List.append_assoc, List.cons_append, List.nil_append] using hwhole

end Prints

/-- An operand derives a filter from what is written where only an operand may stand. -/
structure Operand.Derives (u : Operand) (e : Expr) : Prop where
  expr : u.expr = e
  height : u.height ≤ e.nesting 2
  prints : Prints (e.toChars 2) u.tokens

/-- A conjunction derives a filter from what is written where no disjunction may stand. -/
structure Conjunction.Derives (c : Conjunction) (e : Expr) : Prop where
  expr : c.expr = e
  height : c.height ≤ e.nesting 1
  prints : Prints (e.toChars 1) c.tokens

/-- A disjunction derives a filter from what is written where anything may stand. -/
structure Disjunction.Derives (d : Disjunction) (e : Expr) : Prop where
  expr : d.expr = e
  height : d.height ≤ e.nesting 0
  prints : Prints (e.toChars 0) d.tokens

theorem Conjunction.exists_parts {parts : List Expr} (hsome : parts ≠ [])
    (h : ∀ e ∈ parts, ∃ u : Operand, u.Derives e) :
    ∃ c : Conjunction, c.parts = parts ∧ c.height ≤ Expr.nestingOf 2 parts ∧
      Prints (List.intercalate " AND ".toList (Expr.charsOf 2 parts)) c.tokens := by
  induction parts with
  | nil => exact absurd rfl hsome
  | cons e parts ih =>
      obtain ⟨⟨u, hu⟩, hparts⟩ := List.forall_mem_cons.mp h
      cases parts with
      | nil =>
          refine ⟨.last u, congrArg (fun e => [e]) hu.expr, ?_, ?_⟩
          · rw [Conjunction.height, Expr.nestingOf]
            exact Nat.le_trans hu.height (Nat.le_max_left ..)
          · simpa [Expr.charsOf, Conjunction.tokens] using hu.prints
      | cons e' parts =>
          obtain ⟨c, hexprs, hheight, hprints⟩ := ih (List.cons_ne_nil _ _) hparts
          refine ⟨.and u c, ?_, ?_, ?_⟩
          · rw [Conjunction.parts, hu.expr, hexprs]
          · rw [Conjunction.height, Expr.nestingOf, Nat.max_le]
            exact ⟨Nat.le_trans hu.height (Nat.le_max_left ..),
              Nat.le_trans hheight (Nat.le_max_right ..)⟩
          · rw [Expr.charsOf, Expr.charsOf, List.intercalate_cons_cons, Conjunction.tokens]
            exact hu.prints.joined "AND".toList Spells.andWord hprints

theorem Disjunction.exists_parts {parts : List Expr} (hsome : parts ≠ [])
    (h : ∀ e ∈ parts, ∃ c : Conjunction, c.Derives e) :
    ∃ d : Disjunction, d.parts = parts ∧ d.height ≤ Expr.nestingOf 1 parts ∧
      Prints (List.intercalate " OR ".toList (Expr.charsOf 1 parts)) d.tokens := by
  induction parts with
  | nil => exact absurd rfl hsome
  | cons e parts ih =>
      obtain ⟨⟨c, hc⟩, hparts⟩ := List.forall_mem_cons.mp h
      cases parts with
      | nil =>
          refine ⟨.last c, congrArg (fun e => [e]) hc.expr, ?_, ?_⟩
          · rw [Disjunction.height, Expr.nestingOf]
            exact Nat.le_trans hc.height (Nat.le_max_left ..)
          · simpa [Expr.charsOf, Disjunction.tokens] using hc.prints
      | cons e' parts =>
          obtain ⟨d, hexprs, hheight, hprints⟩ := ih (List.cons_ne_nil _ _) hparts
          refine ⟨.or c d, ?_, ?_, ?_⟩
          · rw [Disjunction.parts, ← hexprs]
            exact congrArg (· :: d.parts) hc.expr
          · rw [Disjunction.height, Expr.nestingOf, Nat.max_le]
            exact ⟨Nat.le_trans hc.height (Nat.le_max_left ..),
              Nat.le_trans hheight (Nat.le_max_right ..)⟩
          · rw [Expr.charsOf, Expr.charsOf, List.intercalate_cons_cons, Disjunction.tokens]
            exact hc.prints.joined "OR".toList Spells.orWord hprints

theorem Expr.joinAll_of_several {parts : List Expr} (h : 2 ≤ parts.length) :
    joinAll parts = .all parts := by
  unfold joinAll
  split
  · simp at h
  · rfl

theorem Expr.joinAny_of_several {parts : List Expr} (h : 2 ≤ parts.length) :
    joinAny parts = .any parts := by
  unfold joinAny
  split
  · simp at h
  · rfl

theorem ne_nil_of_several {parts : List Expr} (h : 2 ≤ parts.length) : parts ≠ [] := by
  rintro rfl
  simp at h

/-- An operand is a conjunction of one part, where both are written the same. -/
theorem Operand.Derives.conjunction {u : Operand} {e : Expr} (h : u.Derives e)
    (hchars : e.toChars 1 = e.toChars 2) (hnesting : e.nesting 1 = e.nesting 2) :
    Conjunction.Derives (.last u) e where
  expr := h.expr
  height := hnesting ▸ h.height
  prints := hchars ▸ h.prints

/-- A proper filter is derived as an operand and as a conjunction.  Only filters that are joined
by AND are written in different ways at the two places. -/
theorem Expr.IsProper.exists_derives {e : Expr} (h : e.IsProper) :
    (∃ u : Operand, u.Derives e) ∧ ∃ c : Conjunction, c.Derives e := by
  induction h with
  | @compare c named =>
      have hu : Operand.Derives (.comparison c) (.compare c) :=
        ⟨rfl, Nat.zero_le _, Prints.comparison named⟩
      exact ⟨⟨_, hu⟩, _, hu.conjunction rfl rfl⟩
  | @all parts several _ ih =>
      obtain ⟨c, hparts, hheight, hprints⟩ :=
        Conjunction.exists_parts (ne_nil_of_several several) fun e he => (ih e he).1
      have hexpr : c.expr = .all parts := by
        rw [Conjunction.expr, hparts, joinAll_of_several several]
      refine ⟨⟨.grouped (.last c), hexpr, ?_, hprints.bracketed⟩, c, hexpr, ?_, hprints⟩
      · simp only [Operand.height, Disjunction.height, Expr.nesting]
        split <;> omega
      · simp only [Expr.nesting]
        omega
  | @any parts several _ ih =>
      obtain ⟨d, hparts, hheight, hprints⟩ :=
        Disjunction.exists_parts (ne_nil_of_several several) fun e he => (ih e he).2
      have hu : Operand.Derives (.grouped d) (.any parts) := by
        refine ⟨?_, ?_, hprints.bracketed⟩
        · rw [Operand.expr, hparts, joinAny_of_several several]
        · simp only [Operand.height, Expr.nesting]
          split <;> omega
      exact ⟨⟨_, hu⟩, _, hu.conjunction rfl rfl⟩
  | @not part _ ih =>
      obtain ⟨u, hpart⟩ := ih.1
      have hu : Operand.Derives (.negated u) (.not part) :=
        ⟨congrArg Expr.not hpart.expr, Nat.add_le_add_right hpart.height 1, hpart.prints.negated⟩
      exact ⟨⟨_, hu⟩, _, hu.conjunction rfl rfl⟩

/-- A proper filter is derived as a whole.  Only filters that are joined by OR are written in
another way than where no disjunction may stand. -/
theorem Expr.IsProper.exists_disjunction {e : Expr} (h : e.IsProper) :
    ∃ d : Disjunction, d.Derives e := by
  cases h with
  | @any parts several proper =>
      obtain ⟨d, hparts, hheight, hprints⟩ :=
        Disjunction.exists_parts (ne_nil_of_several several)
          fun e he => (proper e he).exists_derives.2
      refine ⟨d, ?_, ?_, hprints⟩
      · rw [Disjunction.expr, hparts, joinAny_of_several several]
      · simp only [Expr.nesting]
        omega
  | compare named =>
      obtain ⟨c, hc⟩ := (IsProper.compare named).exists_derives.2
      exact ⟨.last c, hc.expr, hc.height, hc.prints⟩
  | all several proper =>
      obtain ⟨c, hc⟩ := (IsProper.all several proper).exists_derives.2
      exact ⟨.last c, hc.expr, hc.height, hc.prints⟩
  | not proper =>
      obtain ⟨c, hc⟩ := (IsProper.not proper).exists_derives.2
      exact ⟨.last c, hc.expr, hc.height, hc.prints⟩

/-! ## What is read can be written -/

theorem Expr.IsProper.joinAll {parts : List Expr} {n : Nat} (hsome : parts ≠ [])
    (h : ∀ e ∈ parts, e.IsProper ∧ e.nesting 2 ≤ n) :
    (Expr.joinAll parts).IsProper ∧ (Expr.joinAll parts).nesting 1 ≤ n := by
  match parts, hsome with
  | [e], _ =>
      obtain ⟨hproper, hnesting⟩ := h e List.mem_cons_self
      exact ⟨hproper, Nat.le_trans (e.nesting_mono (by omega)).1 hnesting⟩
  | e :: e' :: parts, _ =>
      refine ⟨.all (by simp) fun part hpart => (h part hpart).1, ?_⟩
      have hparts := nestingOf_le_iff.mpr fun part hpart => (h part hpart).2
      simpa [Expr.joinAll, Expr.nesting] using hparts

theorem Expr.IsProper.joinAny {parts : List Expr} {n : Nat} (hsome : parts ≠ [])
    (h : ∀ e ∈ parts, e.IsProper ∧ e.nesting 1 ≤ n) :
    (Expr.joinAny parts).IsProper ∧ (Expr.joinAny parts).nesting 0 ≤ n := by
  match parts, hsome with
  | [e], _ =>
      obtain ⟨hproper, hnesting⟩ := h e List.mem_cons_self
      exact ⟨hproper, Nat.le_trans (e.nesting_mono (by omega)).1 hnesting⟩
  | e :: e' :: parts, _ =>
      refine ⟨.any (by simp) fun part hpart => (h part hpart).1, ?_⟩
      have hparts := nestingOf_le_iff.mpr fun part hpart => (h part hpart).2
      simpa [Expr.joinAny, Expr.nesting] using hparts

/-- All fields in a row of tokens have their names. -/
def NamesFields (ts : List Token) : Prop :=
  ∀ name, Token.field name ∈ ts → isFieldName name = true

theorem NamesFields.mono {ts more : List Token} (h : NamesFields more) (hsub : ts ⊆ more) :
    NamesFields ts :=
  fun name hname => h name (hsub hname)

theorem Conjunction.parts_ne_nil (c : Conjunction) : c.parts ≠ [] := by
  cases c <;> simp [Conjunction.parts]

theorem Disjunction.parts_ne_nil (d : Disjunction) : d.parts ≠ [] := by
  cases d <;> simp [Disjunction.parts]

mutual

theorem Operand.isProper_expr : ∀ u : Operand, NamesFields u.tokens →
    u.expr.IsProper ∧ u.expr.nesting 2 ≤ u.height
  | .comparison c, h => ⟨.compare (h c.field (by simp [Operand.tokens])), Nat.zero_le _⟩
  | .negated part, h => by
      obtain ⟨hproper, hnesting⟩ := Operand.isProper_expr part (h.mono (by simp [Operand.tokens]))
      exact ⟨.not hproper, Nat.add_le_add_right hnesting 1⟩
  | .grouped inner, h => by
      obtain ⟨hproper, hnesting⟩ := Expr.IsProper.joinAny inner.parts_ne_nil
        (Disjunction.isProper_parts inner (h.mono (by simp [Operand.tokens])))
      have houter := (Expr.nesting_mono (Expr.joinAny inner.parts) (Nat.zero_le 2)).2
      exact ⟨hproper, Nat.le_trans houter (Nat.add_le_add_right hnesting 1)⟩

theorem Conjunction.isProper_parts : ∀ c : Conjunction, NamesFields c.tokens →
    ∀ e ∈ c.parts, e.IsProper ∧ e.nesting 2 ≤ c.height
  | .last part, h, e, he => by
      rw [List.mem_singleton.mp he]
      exact Operand.isProper_expr part h
  | .and part more, h, e, he => by
      rw [Conjunction.height]
      rcases List.mem_cons.mp he with rfl | he
      · obtain ⟨hproper, hnesting⟩ :=
          Operand.isProper_expr part (h.mono (by simp [Conjunction.tokens]))
        exact ⟨hproper, Nat.le_trans hnesting (Nat.le_max_left ..)⟩
      · obtain ⟨hproper, hnesting⟩ := Conjunction.isProper_parts more
          (h.mono (by simp [Conjunction.tokens])) e he
        exact ⟨hproper, Nat.le_trans hnesting (Nat.le_max_right ..)⟩

theorem Disjunction.isProper_parts : ∀ d : Disjunction, NamesFields d.tokens →
    ∀ e ∈ d.parts, e.IsProper ∧ e.nesting 1 ≤ d.height
  | .last part, h, e, he => by
      rw [List.mem_singleton.mp he]
      exact Expr.IsProper.joinAll part.parts_ne_nil (Conjunction.isProper_parts part h)
  | .or part more, h, e, he => by
      rw [Disjunction.height]
      rcases List.mem_cons.mp he with rfl | he
      · obtain ⟨hproper, hnesting⟩ := Expr.IsProper.joinAll part.parts_ne_nil
          (Conjunction.isProper_parts part (h.mono (by simp [Disjunction.tokens])))
        exact ⟨hproper, Nat.le_trans hnesting (Nat.le_max_left ..)⟩
      · obtain ⟨hproper, hnesting⟩ := Disjunction.isProper_parts more
          (h.mono (by simp [Disjunction.tokens])) e he
        exact ⟨hproper, Nat.le_trans hnesting (Nat.le_max_right ..)⟩

end

/-! ## Reading what was written -/

theorem parse_render {e : Expr} (h : e.IsWritable) : parse e.render = .ok (some e) := by
  obtain ⟨d, hd⟩ := h.proper.exists_disjunction
  obtain ⟨located, htokens, hitems⟩ := hd.prints.spells 0
  refine parse_eq_some_iff.mpr ⟨located, ?_, d, hitems.symm, ?_, hd.expr.symm⟩
  · rw [Expr.render, String.toList_ofList]
    exact htokens
  · exact Nat.lt_of_le_of_lt hd.height h.nesting

/-- A text with the tokens of a comparison is read as the comparison. -/
theorem parse_of_spells {s : String} {c : Comparison}
    (h : Spells s.toList (Operand.comparison c).tokens) : parse s = .ok (some (.compare c)) := by
  obtain ⟨located, htokens, hitems⟩ := h 0
  exact parse_eq_some_iff.mpr ⟨located, htokens, .last (.last (.comparison c)), hitems.symm,
    by simp [Disjunction.height, Conjunction.height, Operand.height, State.depthLimit], rfl⟩

theorem isWritable_of_parse {s : String} {e : Expr} (h : parse s = .ok (some e)) :
    e.IsWritable := by
  obtain ⟨located, htokens, d, hitems, hheight, rfl⟩ := parse_eq_some_iff.mp h
  have hnames : NamesFields d.tokens := by
    intro name hname
    rw [hitems] at hname
    exact isFieldName_of_tokensFrom htokens hname
  obtain ⟨hproper, hnesting⟩ :=
    Expr.IsProper.joinAny d.parts_ne_nil (Disjunction.isProper_parts d hnames)
  exact ⟨hproper, Nat.lt_of_le_of_lt hnesting hheight⟩

/-- Every filter that can be written is read back from its text.  What is read from any text can be
written, so that reading what is written of it gives the same filter again. -/
theorem render_inverts_parse :
    (∀ e : Expr, e.IsWritable → parse e.render = .ok (some e)) ∧
    ∀ (s : String) (e : Expr), parse s = .ok (some e) →
      e.IsWritable ∧ parse e.render = .ok (some e) :=
  ⟨fun _ h => parse_render h,
    fun _ _ h => ⟨isWritable_of_parse h, parse_render (isWritable_of_parse h)⟩⟩

/-- One of two comparisons, and not both of two others. -/
def sampleExpr : Expr :=
  .all [.any [.compare ⟨"labels.app", .ne, .text "it's"⟩, .compare ⟨"generation", .le, .int (-2)⟩],
        .not (.all [.compare ⟨"name", .eq, .text ""⟩, .compare ⟨"kind", .gt, .bool true⟩])]

theorem render_inverts_parse_sample : parse sampleExpr.render = .ok (some sampleExpr) := by
  have hproper : sampleExpr.IsProper := by
    refine .all (by decide) ?_
    rintro part (_ | ⟨_, _ | ⟨_, ⟨⟩⟩⟩)
    · refine .any (by decide) ?_
      rintro part (_ | ⟨_, _ | ⟨_, ⟨⟩⟩⟩) <;> exact .compare (by decide)
    · refine .not (.all (by decide) ?_)
      rintro part (_ | ⟨_, _ | ⟨_, ⟨⟩⟩⟩) <;> exact .compare (by decide)
  exact render_inverts_parse.1 sampleExpr ⟨hproper, by decide⟩

end StatusBoard.Filter
