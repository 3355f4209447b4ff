import StatusBoard.Proofs.Filter.Offsets
import StatusBoard.Proofs.Filter.Rendering
set_option autoImplicit false

/-!
# Filter: the first wrong token

The parser looks at every token once and never guesses.  As long as it goes on, what it has taken in
is the start of some filter: a comparison that has begun can be ended, and so can each open group.
Where it stops, no filter goes on with that token.
-/

namespace StatusBoard.Filter

/-! ## Rows of tokens as texts -/

/-- The token as it is written in a filter. -/
def Token.toChars : Token → List Char
  | field name => name.toList
  | literal value => value.toChars
  | relation r => r.text.toList
  | opening => ['(']
  | closing => [')']
  | andWord => "AND".toList
  | orWord => "OR".toList
  | notWord => "NOT".toList

/-- A row of tokens, each with a space after it, has these tokens. -/
theorem NamesFields.spells {ts : List Token} (h : NamesFields ts) :
    Spells (ts.flatMap fun t => t.toChars ++ [' ']) ts := by
  induction ts with
  | nil => exact Spells.nil
  | cons t ts ih =>
      have hts := ih (h.mono (List.subset_cons_self t ts))
      rw [List.flatMap_cons, List.append_assoc, List.singleton_append]
      cases t with
      | field name =>
          exact .field (h name List.mem_cons_self) ((endsToken_space _).stops rfl rfl) hts.space
      | literal value => exact .literal value (endsToken_space _) hts.space
      | relation r => exact .relation r hts
      | opening => exact .opening hts.space
      | closing => exact .closing hts.space
      | andWord => exact .andWord hts
      | orWord => exact .orWord hts
      | notWord => exact .notWord hts

/-! ## Rows of tokens that are accepted -/

/-- A text with these tokens is read, as a filter or, if there are none, as no filter. -/
def Accepted (ts : List Token) : Prop :=
  ∃ s located result,
    tokens s.toList = .ok located ∧ located.map (·.item) = ts ∧ parse s = .ok result

/-- A text is read as a filter if the parser takes in all of its tokens and can end after them. -/
theorem parse_eq_some_iff_after {s : String} {e : Expr} :
    parse s = .ok (some e) ↔ ∃ located, tokens s.toList = .ok located ∧
      ∃ last, State.after {} (located.map (·.item)) = .ok last ∧ last.finish = .ok e := by
  rw [parse_eq_some_iff]
  refine exists_congr fun located => and_congr_right fun _ => ?_
  rw [← State.run_start_eq_ok_iff 0, State.run_eq_ok_iff]

theorem Accepted.of_after {ts : List Token} (hnames : NamesFields ts) {last : State} {e : Expr}
    (hafter : State.after {} ts = .ok last) (hfinish : last.finish = .ok e) : Accepted ts := by
  obtain ⟨located, htokens, hitems⟩ := hnames.spells 0
  rw [← String.toList_ofList (l := ts.flatMap _)] at htokens
  exact ⟨_, located, some e, htokens, hitems,
    parse_eq_some_iff_after.mpr ⟨located, htokens, last, hitems ▸ hafter, hfinish⟩⟩

/-- Nothing is accepted that starts with tokens of which the parser does not take in the last. -/
theorem not_accepted_of_step {ts : List Token} {s : State} (hafter : State.after {} ts = .ok s)
    {t : Token} {fault : ParseFault} (hstep : s.step t = .error fault) (more : List Token) :
    ¬ Accepted (ts ++ t :: more) := by
  rintro ⟨text, located, result, htokens, hitems, hparse⟩
  cases result with
  | none =>
      have hnone := (tokensFrom_eq_nil_iff 0).mpr (parse_eq_none_iff.mp hparse)
      cases htokens.symm.trans hnone
      cases ts <;> cases hitems
  | some e =>
      obtain ⟨found, hfound, last, hlast, _⟩ := parse_eq_some_iff_after.mp hparse
      cases htokens.symm.trans hfound
      rw [hitems, State.after_append, hafter] at hlast
      simp only [bind, Except.bind, State.after_cons, hstep] at hlast
      cases hlast

/-! ## Ending what has begun -/

namespace State

variable {s : State}

/-- Tokens that end the comparison that has begun, or is still to begin, and each open group. -/
def completion (s : State) : List Token :=
  let comparison : List Token :=
    match s.expecting with
    | .operand => [.field "name", .relation .eq, .literal (.text "")]
    | .relation _ => [.relation .eq, .literal (.text "")]
    | .literal _ _ => [.literal (.text "")]
    | .joint => []
  comparison ++ List.replicate s.outer.length .closing

theorem namesFields_completion (s : State) : NamesFields s.completion := by
  intro name hname
  unfold completion at hname
  rcases List.mem_append.mp hname with hname | hname
  · split at hname <;> simp at hname
    subst hname
    decide
  · cases List.eq_of_mem_replicate hname

/-- After a complete part, the open groups can be closed one after the other. -/
theorem after_closings (hjoint : s.expecting = .joint) :
    ∃ last e, s.after (List.replicate s.outer.length .closing) = .ok last ∧
      last.finish = .ok e := by
  obtain ⟨group, outer, expecting⟩ := s
  cases hjoint
  induction outer generalizing group with
  | nil => exact ⟨_, group.toExpr, rfl, rfl⟩
  | cons around outer ih =>
      obtain ⟨last, e, hafter, hfinish⟩ := ih (around.withPart group.toExpr)
      refine ⟨last, e, ?_, hfinish⟩
      rw [List.length_cons, List.replicate_succ, after_cons, step_closing rfl rfl]
      exact hafter

/-- Wherever the parser stands, and not too deep for a comparison if one has to come, it can be led
to an end. -/
theorem after_completion (hdepth : s.expecting = .operand → s.depth < depthLimit) :
    ∃ last e, s.after s.completion = .ok last ∧ last.finish = .ok e := by
  obtain ⟨group, outer, expecting⟩ := s
  unfold completion
  cases expecting with
  | operand =>
      have hcomparison := after_comparison rfl (hdepth rfl) ⟨"name", .eq, .text ""⟩
      rw [after_append, hcomparison]
      exact after_closings rfl
  | relation field =>
      let part : Expr := .compare ⟨field, .eq, .text ""⟩
      exact after_closings (s := ⟨group.withPart part, outer, .joint⟩) rfl
  | literal field relation =>
      let part : Expr := .compare ⟨field, relation, .text ""⟩
      exact after_closings (s := ⟨group.withPart part, outer, .joint⟩) rfl
  | joint => exact after_closings rfl

/-! ## Where the parser stops -/

/-- The parser stops at the end, or at the token after those that it has taken in. -/
theorem run_eq_error {ending : Nat} {ts : List (Located Token)} {fault : Located ParseFault}
    (h : s.run ending ts = .error fault) :
    (∃ last, s.after (ts.map (·.item)) = .ok last ∧ last.finish = .error fault.item ∧
      fault.offset = ending) ∨
    ∃ before t more last, ts = before ++ t :: more ∧
      s.after (before.map (·.item)) = .ok last ∧ last.step t.item = .error fault.item ∧
      fault.offset = t.offset := by
  induction ts generalizing s with
  | nil =>
      rw [run] at h
      split at h
      · cases h
      · rename_i found hfinish
        cases h
        exact .inl ⟨s, rfl, hfinish, rfl⟩
  | cons t ts ih =>
      rw [run] at h
      split at h
      · rename_i next hstep
        obtain ⟨last, hafter, hfinish, hoffset⟩ |
          ⟨before, t', more, last, rfl, hafter, hfault, hoffset⟩ := ih h
        · refine .inl ⟨last, ?_, hfinish, hoffset⟩
          rw [List.map_cons, after_cons, hstep]
          exact hafter
        · refine .inr ⟨t :: before, t', more, last, rfl, ?_, hfault, hoffset⟩
          rw [List.map_cons, after_cons, hstep]
          exact hafter
      · rename_i found hstep
        cases h
        exact .inr ⟨[], t, ts, s, rfl, rfl, hstep, rfl⟩

/-- If it is not the depth that makes the parser stop, it does not stand too deep. -/
theorem depth_lt_of_step {t : Token} {fault : ParseFault} (h : s.step t = .error fault)
    (hother : fault ≠ .nestedTooDeeply) (hready : s.expecting = .operand) :
    s.depth < depthLimit := by
  refine Nat.lt_of_not_le fun hdeep => hother ?_
  simp only [step, hready, if_pos hdeep] at h
  exact (Except.error.inj h).symm

theorem depth_lt_of_finish {fault : ParseFault} (h : s.finish = .error fault)
    (hother : fault ≠ .nestedTooDeeply) (hready : s.expecting = .operand) :
    s.depth < depthLimit := by
  refine Nat.lt_of_not_le fun hdeep => hother ?_
  simp only [finish, hready, if_pos hdeep] at h
  exact (Except.error.inj h).symm

end State

/-- What the parser has taken in can be completed, if the depth does not forbid it. -/
theorem exists_accepted_of_after {ts : List Token} (hnames : NamesFields ts) {s : State}
    (hafter : State.after {} ts = .ok s)
    (hdepth : s.expecting = .operand → s.depth < State.depthLimit) :
    ∃ more, Accepted (ts ++ more) := by
  obtain ⟨last, e, hcompleted, hfinish⟩ := State.after_completion hdepth
  have hextended : State.after {} (ts ++ s.completion) = .ok last := by
    rw [State.after_append, hafter]
    exact hcompleted
  refine ⟨s.completion, .of_after ?_ hextended hfinish⟩
  intro name hname
  exact (List.mem_append.mp hname).elim (hnames name) (s.namesFields_completion name)

/-! ## Faults and offsets -/

/-- The tokens that start before an offset. -/
def tokensBefore (offset : Nat) (ts : List (Located Token)) : List Token :=
  (ts.filter (·.offset < offset)).map (·.item)

theorem tokensBefore_of_sorted {before more : List (Located Token)} {t : Located Token}
    (h : (before ++ t :: more).Pairwise (·.offset < ·.offset)) :
    tokensBefore t.offset (before ++ t :: more) = before.map (·.item) := by
  obtain ⟨-, hmore, hbefore⟩ := List.pairwise_append.mp h
  have hself : before.filter (·.offset < t.offset) = before :=
    List.filter_eq_self.mpr fun t' ht' => decide_eq_true (hbefore t' ht' t List.mem_cons_self)
  have hnone : (t :: more).filter (·.offset < t.offset) = [] := by
    refine List.filter_eq_nil_iff.mpr fun t' ht' => ?_
    obtain rfl | ht' := List.mem_cons.mp ht'
    · simp
    · simpa using Nat.le_of_lt ((List.pairwise_cons.mp hmore).1 t' ht')
  rw [tokensBefore, List.filter_append, hself, hnone, List.append_nil]

theorem tokensBefore_of_forall {ts : List (Located Token)} {offset : Nat}
    (h : ∀ t ∈ ts, t.offset < offset) : tokensBefore offset ts = ts.map (·.item) := by
  rw [tokensBefore, List.filter_eq_self.mpr fun t ht => decide_eq_true (h t ht)]

/-- What is wrong with a text that has tokens is found by the parser. -/
theorem run_of_parse {s : String} {fault : Located ParseFault} {ts : List (Located Token)}
    (h : parse s = .error fault) (htokens : tokens s.toList = .ok ts) :
    State.run {} (byteLength s.toList) ts = .error fault := by
  unfold parse at h
  rw [htokens] at h
  cases ts with
  | nil => cases h
  | cons t ts =>
      dsimp only at h
      split at h
      · cases h
      · rename_i hrun
        cases h
        exact hrun

/-- A text whose tokens are no filter stops being one at the end or at a token; up to there it can
be completed unless that would be too deep. -/
theorem parse_error_of_tokens {s : String} {fault : Located ParseFault} {ts : List (Located Token)}
    (h : parse s = .error fault) (htokens : tokens s.toList = .ok ts) :
    (fault.offset = byteLength s.toList ∨ ∃ t ∈ ts, t.offset = fault.offset ∧
      ∀ more, ¬ Accepted (tokensBefore fault.offset ts ++ t.item :: more)) ∧
    (fault.item ≠ .nestedTooDeeply → ∃ more, Accepted (tokensBefore fault.offset ts ++ more)) := by
  have hnames : NamesFields (ts.map (·.item)) :=
    fun name hname => isFieldName_of_tokensFrom htokens hname
  obtain ⟨hsorted, hplaces⟩ := tokensFrom_ok htokens
  obtain ⟨last, hafter, hfinish, hoffset⟩ |
    ⟨before, t, more, last, rfl, hafter, hstep, hoffset⟩ :=
    State.run_eq_error (run_of_parse h htokens)
  · have hall : ∀ t ∈ ts, t.offset < byteLength s.toList := by
      intro t ht
      obtain ⟨before, c, rest, _, hsplit, hoffset, _⟩ := hplaces t ht
      rw [hoffset, hsplit, byteLength_append, Nat.zero_add]
      exact Nat.lt_add_of_pos_right (byteLength_pos (List.cons_ne_nil c rest))
    refine ⟨.inl hoffset, fun hother => ?_⟩
    rw [hoffset, tokensBefore_of_forall hall]
    exact exists_accepted_of_after hnames hafter (State.depth_lt_of_finish hfinish hother)
  · rw [hoffset, tokensBefore_of_sorted hsorted]
    refine ⟨.inr ⟨t, List.mem_append_right before List.mem_cons_self, rfl,
      not_accepted_of_step hafter hstep⟩, fun hother => ?_⟩
    exact exists_accepted_of_after (hnames.mono (List.map_subset _ (List.subset_append_left ..)))
      hafter (State.depth_lt_of_step hstep hother)

/-- A fault of the parser is found between two characters of the text.  If the text has tokens, and
it is not the depth that is wrong, the tokens before the fault are the start of an accepted row;
and unless the fault is at the end, a token stands there with which no accepted row goes on after
them.  Where the text has no tokens, it has been cut into tokens and blanks up to the fault, and
none can be formed of the text from there on. -/
theorem faults_point_at_first_wrong_token {s : String} {fault : Located ParseFault}
    (h : parse s = .error fault) :
    IsBoundary s.toList fault.offset ∧
    (∀ ts, tokens s.toList = .ok ts → fault.item ≠ .nestedTooDeeply →
      (∃ more, Accepted (tokensBefore fault.offset ts ++ more)) ∧
      (fault.offset ≠ byteLength s.toList → ∃ t ∈ ts, t.offset = fault.offset ∧
        ∀ more, ¬ Accepted (tokensBefore fault.offset ts ++ t.item :: more))) ∧
    ∀ lexical, tokens s.toList = .error lexical →
      fault = ⟨lexical.offset, .token lexical.item⟩ ∧
      ∃ before ts c rest, s.toList = before ++ c :: rest ∧ fault.offset = byteLength before ∧
        Cut s.toList ts (c :: rest) ∧ Text.isBlank c = false ∧
        Formless (c :: rest) lexical.item := by
  cases htokens : tokens s.toList with
  | error lexical =>
      obtain ⟨before, ts, c, rest, hsplit, hoffset, hfault⟩ := tokensFrom_error htokens
      rw [Nat.zero_add] at hoffset
      have hparse : fault = ⟨lexical.offset, .token lexical.item⟩ := by
        unfold parse at h
        rw [htokens] at h
        exact (Except.error.inj h).symm
      subst hparse
      refine ⟨⟨before, c :: rest, hsplit, hoffset⟩, fun _ hts => (by cases hts), ?_⟩
      rintro _ ⟨⟩
      exact ⟨rfl, before, ts, c, rest, hsplit, hoffset, hfault⟩
  | ok ts =>
      obtain ⟨hplace, haccepted⟩ := parse_error_of_tokens h htokens
      refine ⟨?_, ?_, fun _ hlexical => (by cases hlexical)⟩
      · obtain hend | ⟨t, ht, hoffset, -⟩ := hplace
        · exact ⟨s.toList, [], (List.append_nil _).symm, hend⟩
        · obtain ⟨before, c, rest, _, hsplit, hbefore, _⟩ := (tokensFrom_ok htokens).2 t ht
          refine ⟨before, c :: rest, hsplit, ?_⟩
          rw [← hoffset, hbefore, Nat.zero_add]
      · rintro _ ⟨⟩ hother
        exact ⟨haccepted hother, fun hinside => hplace.resolve_left hinside⟩

/-- The letter takes two bytes, so the parenthesis is found at the sixteenth. -/
theorem faults_point_at_first_wrong_token_sample :
    parse "name = 'é' AND )" = .error ⟨16, .expectedField (some .closing)⟩ ∧
    (∃ more, Accepted
      ([.field "name", .relation .eq, .literal (.text "é"), .andWord] ++ more)) ∧
    ∀ more, ¬ Accepted
      ([.field "name", .relation .eq, .literal (.text "é"), .andWord] ++ .closing :: more) := by
  have htokens : tokens "name = 'é' AND )".toList = .ok
      [⟨0, .field "name"⟩, ⟨5, .relation .eq⟩, ⟨7, .literal (.text "é")⟩, ⟨12, .andWord⟩,
        ⟨16, .closing⟩] := by with_unfolding_all rfl
  have hparse : parse "name = 'é' AND )" = .error ⟨16, .expectedField (some .closing)⟩ := by
    rw [parse, htokens]
    rfl
  obtain ⟨-, hfault, -⟩ := faults_point_at_first_wrong_token hparse
  obtain ⟨haccepted, hwrong⟩ := hfault _ htokens (by decide)
  obtain ⟨t, ht, hoffset, hnone⟩ := hwrong (by decide)
  have hitem : t = ⟨16, .closing⟩ := by
    simp only [List.mem_cons, List.not_mem_nil, or_false] at ht
    obtain rfl | rfl | rfl | rfl | rfl := ht <;> simp_all
  subst hitem
  exact ⟨hparse, haccepted, hnone⟩

/-- Where no token can be formed, the text before counts in bytes as well. -/
example : tokens "name = 'é' AND ö".toList = .error ⟨16, .unexpectedCharacter 'ö'⟩ := by
  with_unfolding_all rfl

end StatusBoard.Filter
