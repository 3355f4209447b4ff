import StatusBoard.Proofs.Filter.Grammar
import StatusBoard.Proofs.Filter.Tokens
set_option autoImplicit false

/-!
# Filter: the parser accepts its grammar

The parser reads a derivation token by token, and keeps of it the filters of its complete parts.
What a derivation within the limit of depth derives is read as the filter of the derivation; and
what is read has such a derivation, whose parts the states on the way are made of.
-/

namespace StatusBoard.Filter

namespace State

/-- The state after some tokens. -/
def after (s : State) (ts : List Token) : Except ParseFault State :=
  ts.foldlM step s

@[simp] theorem after_nil (s : State) : s.after [] = .ok s := rfl

theorem after_cons (s : State) (t : Token) (ts : List Token) :
    s.after (t :: ts) = s.step t >>= fun next => next.after ts := by
  rw [after, List.foldlM_cons]
  rfl

theorem after_append (s : State) (ts more : List Token) :
    s.after (ts ++ more) = s.after ts >>= fun next => next.after more := by
  rw [after, List.foldlM_append]
  rfl

/-- A filter is read if all tokens are taken in and it can end after them. -/
theorem run_eq_ok_iff {s : State} {ending : Nat} {ts : List (Located Token)} {e : Expr} :
    s.run ending ts = .ok e ↔
      ∃ last, s.after (ts.map (·.item)) = .ok last ∧ last.finish = .ok e := by
  induction ts generalizing s with
  | nil =>
      simp only [List.map_nil, after_nil, Except.ok.injEq, exists_eq_left', run]
      cases s.finish <;> simp
  | cons t ts ih =>
      rw [List.map_cons, after_cons, run]
      cases s.step t.item with
      | error fault => simp [bind, Except.bind]
      | ok next => exact ih

end State

/-! ## What is derived is read -/

/-- The state after an operand, which takes the waiting negations. -/
def State.withPart (s : State) (part : Expr) : State :=
  { s with group := s.group.withPart part, expecting := .joint }

namespace State

variable {s : State}

theorem step_notWord (hready : s.expecting = .operand) (hdepth : s.depth < depthLimit) :
    s.step .notWord = .ok { s with group.negations := s.group.negations + 1 } := by
  simp only [step, hready, if_neg (Nat.not_le.mpr hdepth)]

theorem step_opening (hready : s.expecting = .operand) (hdepth : s.depth < depthLimit) :
    s.step .opening = .ok { s with group := {}, outer := s.group :: s.outer } := by
  simp only [step, hready, if_neg (Nat.not_le.mpr hdepth)]

theorem after_comparison (hready : s.expecting = .operand) (hdepth : s.depth < depthLimit)
    (c : Comparison) :
    s.after [.field c.field, .relation c.relation, .literal c.value] =
      .ok (s.withPart (.compare c)) := by
  simp only [after_cons, step, hready, if_neg (Nat.not_le.mpr hdepth), bind, Except.bind, after_nil]
  rfl

theorem step_closing {around : Group} {outer : List Group} (hjoint : s.expecting = .joint)
    (houter : s.outer = around :: outer) :
    s.step .closing = .ok { s with group := around.withPart s.group.toExpr, outer } := by
  simp only [step, hjoint, houter]

/-- The depth stays the same if no negation waits. -/
theorem depth_withPart (s : State) (hnone : s.group.negations = 0) (part : Expr)
    (expecting : Expecting) : State.depth { s.withPart part with expecting } = s.depth := by
  simp [depth, State.withPart, Group.withPart, hnone]

end State

mutual

/-- An operand is taken in wherever one is expected and the limit of depth is not reached. -/
theorem Operand.after_tokens : ∀ (u : Operand) (s : State), s.expecting = .operand →
    s.depth + u.height < State.depthLimit → s.after u.tokens = .ok (s.withPart u.expr)
  | .comparison c, s, hready, hdepth => State.after_comparison hready hdepth c
  | .negated part, s, hready, hdepth => by
      rw [Operand.height] at hdepth
      rw [Operand.tokens, State.after_cons, State.step_notWord hready (by omega)]
      refine Operand.after_tokens part _ hready ?_
      simp only [State.depth] at hdepth ⊢
      omega
  | .grouped inner, s, hready, hdepth => by
      rw [Operand.height] at hdepth
      rw [Operand.tokens, State.after_cons, State.step_opening hready (by omega)]
      obtain ⟨g, hinner, hparts⟩ := Disjunction.after_tokens inner
        { s with group := {}, outer := s.group :: s.outer } hready rfl rfl (by
          simp only [State.depth, State.depthInside] at hdepth ⊢
          omega)
      have hexpr : g.toExpr = Expr.joinAny inner.parts := by
        rw [Group.toExpr, hparts]
        simp
      simp only [bind, Except.bind, State.after_append, hinner, State.after_cons,
        State.after_nil]
      rw [State.step_closing rfl rfl]
      simp only [hexpr, Operand.expr, State.withPart]

theorem Conjunction.after_tokens : ∀ (c : Conjunction) (s : State), s.expecting = .operand →
    s.group.negations = 0 → s.depth + c.height < State.depthLimit →
    s.after c.tokens = .ok { s with
      group.conjuncts := c.parts.reverse ++ s.group.conjuncts, expecting := .joint }
  | .last part, s, hready, hnone, hdepth => by
      rw [Conjunction.tokens, Operand.after_tokens part s hready hdepth]
      simp [State.withPart, Group.withPart, hnone, Conjunction.parts, Expr.negate]
  | .and part more, s, hready, hnone, hdepth => by
      rw [Conjunction.height] at hdepth
      let next : State := { s.withPart part.expr with expecting := .operand }
      have hnext : next.depth = s.depth := State.depth_withPart s hnone part.expr .operand
      have hmore := Conjunction.after_tokens more next rfl rfl (by omega)
      rw [Conjunction.tokens, State.after_append,
        Operand.after_tokens part s hready (by omega)]
      refine hmore.trans ?_
      simp [next, State.withPart, Group.withPart, hnone, Conjunction.parts, Expr.negate]

theorem Disjunction.after_tokens : ∀ (d : Disjunction) (s : State), s.expecting = .operand →
    s.group.conjuncts = [] → s.group.negations = 0 → s.depth + d.height < State.depthLimit →
    ∃ g : Group, s.after d.tokens = .ok { s with group := g, expecting := .joint } ∧
      g.endConjunction.disjuncts = d.parts.reverse ++ s.group.disjuncts
  | .last part, s, hready, hempty, hnone, hdepth => by
      refine ⟨_, Conjunction.after_tokens part s hready hnone hdepth, ?_⟩
      simp [Group.endConjunction, hempty, Disjunction.parts]
  | .or part more, s, hready, hempty, hnone, hdepth => by
      rw [Disjunction.height] at hdepth
      let next : State := { s with
        group := { disjuncts := Expr.joinAll part.parts :: s.group.disjuncts } }
      have hnext : next.depth = s.depth := by
        simp [next, State.depth, hnone]
      obtain ⟨g, hmore, hparts⟩ :=
        Disjunction.after_tokens more next hready rfl rfl (by omega)
      refine ⟨g, ?_, ?_⟩
      · rw [Disjunction.tokens, State.after_append,
          Conjunction.after_tokens part s hready hnone (by omega)]
        refine Eq.trans ?_ hmore
        simp [State.after_cons, State.step, bind, Except.bind, Group.endConjunction, hempty, next,
          hready]
      · simp [hparts, next, Disjunction.parts]

end

/-! ## What is read is derived

Between two tokens each open group has complete parts, and negations that wait.  The filters of the
parts are all that the parser keeps, but the parts are there. -/

/-- What has been derived of an open group: the conjunctions before its last OR, the operands from
there to its last AND, and the negations after that. -/
structure Opened where
  disjuncts : List Conjunction := []
  conjuncts : List Operand := []
  negations : Nat := 0

namespace Opened

/-- The tokens of the group so far. -/
def tokens (o : Opened) : List Token :=
  o.disjuncts.flatMap (fun c => c.tokens ++ [.orWord]) ++
    o.conjuncts.flatMap (fun u => u.tokens ++ [.andWord]) ++ List.replicate o.negations .notWord

/-- What the parser keeps of the group. -/
def group (o : Opened) : Group where
  disjuncts := (o.disjuncts.map (·.expr)).reverse
  conjuncts := (o.conjuncts.map (·.expr)).reverse
  negations := o.negations

@[simp] theorem negations_group (o : Opened) : o.group.negations = o.negations := rfl

/-- The disjunction that a group is which has one more operand and ends with it. -/
def closed (disjuncts : List Conjunction) (conjuncts : List Operand) (last : Operand) :
    Disjunction :=
  .chain disjuncts (.chain conjuncts last)

section Closed

variable (disjuncts : List Conjunction) (conjuncts : List Operand) (last : Operand)

theorem tokens_closed :
    tokens ⟨disjuncts, conjuncts, 0⟩ ++ last.tokens =
      (closed disjuncts conjuncts last).tokens := by
  rw [closed, Disjunction.tokens_chain, Conjunction.tokens_chain, tokens]
  simp

theorem expr_chain :
    (Conjunction.chain conjuncts last).expr =
      Expr.joinAll (group ⟨disjuncts, conjuncts ++ [last], 0⟩).conjuncts.reverse := by
  rw [Conjunction.expr, Conjunction.parts_chain, group, List.reverse_reverse]

theorem toExpr_group :
    (group ⟨disjuncts, conjuncts ++ [last], 0⟩).toExpr =
      (closed disjuncts conjuncts last).expr := by
  rw [Group.toExpr, Group.endConjunction, ← expr_chain, closed, Disjunction.expr,
    Disjunction.parts_chain, group]
  simp

end Closed

/-- No comparison of the group is too deep, given the depth at which the group stands. -/
def Fits (o : Opened) (depth : Nat) : Prop :=
  (∀ c ∈ o.disjuncts, c.height < State.depthLimit - depth) ∧
    ∀ u ∈ o.conjuncts, u.height < State.depthLimit - depth

/-- The tokens of groups around others, from the inside to the outside, each with the parenthesis
that opens the next. -/
def tokensAround : List Opened → List Token
  | [] => []
  | o :: outer => tokensAround outer ++ o.tokens ++ [.opening]

/-- The number of negations and parentheses around what stands inside of groups. -/
def depthAround : List Opened → Nat
  | [] => 0
  | o :: outer => o.negations + 1 + depthAround outer

theorem Fits.closed {disjuncts : List Conjunction} {conjuncts : List Operand} {last : Operand}
    {depth : Nat} (h : Fits ⟨disjuncts, conjuncts ++ [last], 0⟩ depth) :
    (Conjunction.chain conjuncts last).height < State.depthLimit - depth ∧
      (closed disjuncts conjuncts last).height < State.depthLimit - depth := by
  have hlast := Conjunction.height_chain_lt.mpr h.2
  refine ⟨hlast, Disjunction.height_chain_lt.mpr ?_⟩
  intro c hc
  rcases List.mem_append.mp hc with hc | hc
  · exact h.1 c hc
  · rw [List.mem_singleton.mp hc]
    exact hlast

/-- No comparison of several groups is too deep. -/
def AllFit : List Opened → Prop
  | [] => True
  | o :: outer => o.Fits (depthAround outer) ∧ AllFit outer

/-- The depth at which the parser stands inside of groups. -/
theorem depth_eq (o : Opened) (outer : List Opened) (expecting : Expecting) :
    State.depth ⟨o.group, outer.map group, expecting⟩ = depthAround outer + o.negations := by
  have hinside : State.depthInside (outer.map group) = depthAround outer := by
    induction outer with
    | nil => rfl
    | cons o outer ih => rw [List.map_cons, State.depthInside, ih, negations_group, depthAround]
  rw [State.depth, hinside, negations_group, Nat.add_comm]

end Opened

/-- What the tokens that were taken in say about the state of the parser. -/
inductive State.Shows : State → List Token → Prop where
  | operand (o : Opened) (outer : List Opened) (hfit : Opened.AllFit (o :: outer)) :
      Shows ⟨o.group, outer.map Opened.group, .operand⟩ (Opened.tokensAround outer ++ o.tokens)
  | relation (o : Opened) (outer : List Opened) (hfit : Opened.AllFit (o :: outer)) (field : String)
      (hdepth : Opened.depthAround outer + o.negations < depthLimit) :
      Shows ⟨o.group, outer.map Opened.group, .relation field⟩
        (Opened.tokensAround outer ++ o.tokens ++ [.field field])
  | literal (o : Opened) (outer : List Opened) (hfit : Opened.AllFit (o :: outer)) (field : String)
      (relation : Relation) (hdepth : Opened.depthAround outer + o.negations < depthLimit) :
      Shows ⟨o.group, outer.map Opened.group, .literal field relation⟩
        (Opened.tokensAround outer ++ o.tokens ++ [.field field, .relation relation])
  | joint (disjuncts : List Conjunction) (conjuncts : List Operand) (last : Operand)
      (outer : List Opened) (hfit : Opened.AllFit (⟨disjuncts, conjuncts ++ [last], 0⟩ :: outer)) :
      Shows ⟨Opened.group ⟨disjuncts, conjuncts ++ [last], 0⟩, outer.map Opened.group, .joint⟩
        (Opened.tokensAround outer ++ Opened.tokens ⟨disjuncts, conjuncts, 0⟩ ++ last.tokens)

namespace State.Shows

theorem start : Shows {} [] :=
  .operand {} [] ⟨⟨by simp, by simp⟩, trivial⟩

/-- One more operand that is complete, and takes the waiting negations. -/
theorem withPart {o : Opened} {outer : List Opened} (hfit : Opened.AllFit (o :: outer))
    {u : Operand} (hu : Opened.depthAround outer + o.negations + u.height < depthLimit) :
    Shows ⟨o.group.withPart u.expr, outer.map Opened.group, .joint⟩
      (Opened.tokensAround outer ++ o.tokens ++ u.tokens) := by
  obtain ⟨disjuncts, conjuncts, negations⟩ := o
  have hall : Opened.AllFit (⟨disjuncts, conjuncts ++ [u.negate negations], 0⟩ :: outer) := by
    refine ⟨⟨hfit.1.1, ?_⟩, hfit.2⟩
    intro v hv
    rcases List.mem_append.mp hv with hv | hv
    · exact hfit.1.2 v hv
    · rw [List.mem_singleton.mp hv, Operand.height_negate]
      simp only at hu
      omega
  have hshows := joint disjuncts conjuncts (u.negate negations) outer hall
  simpa [Opened.group, Group.withPart, Opened.tokens, Operand.expr_negate, Operand.tokens_negate]
    using hshows

/-- Whatever token comes next, what was taken in says about the state what it has to. -/
theorem step {s next : State} {ts : List Token} {t : Token} (h : s.Shows ts)
    (hstep : s.step t = .ok next) : next.Shows (ts ++ [t]) := by
  cases h with
  | operand o outer hfit =>
      simp only [State.step] at hstep
      split at hstep
      · cases hstep
      rename_i hdepth
      rw [Opened.depth_eq, Nat.not_le] at hdepth
      split at hstep
      · cases hstep
        have hshows := operand { o with negations := o.negations + 1 } outer hfit
        simpa [Opened.tokens, Opened.group, List.replicate_succ'] using hshows
      · cases hstep
        have hshows := operand {} (o :: outer) ⟨⟨by simp, by simp⟩, hfit⟩
        simpa [Opened.tokens, Opened.tokensAround, Opened.group] using hshows
      · cases hstep
        exact relation o outer hfit _ hdepth
      · cases hstep
  | relation o outer hfit field hdepth =>
      simp only [State.step] at hstep
      split at hstep
      · rename_i r
        cases hstep
        have hshows := literal o outer hfit field r hdepth
        simpa using hshows
      · cases hstep
  | literal o outer hfit field relation hdepth =>
      simp only [State.step] at hstep
      split at hstep
      · rename_i value
        cases hstep
        have hshows := withPart hfit (u := .comparison ⟨field, relation, value⟩) hdepth
        simpa [Operand.tokens, Operand.expr] using hshows
      · cases hstep
  | joint disjuncts conjuncts last outer hfit =>
      simp only [State.step] at hstep
      split at hstep
      · cases hstep
        have hshows := operand ⟨disjuncts, conjuncts ++ [last], 0⟩ outer hfit
        simpa [Opened.tokens] using hshows
      · cases hstep
        have hfits : Opened.AllFit
            (⟨disjuncts ++ [.chain conjuncts last], [], 0⟩ :: outer) := by
          refine ⟨⟨?_, by simp⟩, hfit.2⟩
          intro c hc
          rcases List.mem_append.mp hc with hc | hc
          · exact hfit.1.1 c hc
          · rw [List.mem_singleton.mp hc]
            exact hfit.1.closed.1
        have hshows := operand _ outer hfits
        rw [Group.endConjunction, ← Opened.expr_chain disjuncts conjuncts last]
        simpa [Opened.group, Opened.tokens, Conjunction.tokens_chain] using hshows
      · rename_i houter
        cases outer with
        | nil => cases houter
        | cons o outer =>
            cases houter
            cases hstep
            have hheight := hfit.1.closed.2
            rw [Opened.depthAround] at hheight
            have hshows := withPart hfit.2
              (u := .grouped (Opened.closed disjuncts conjuncts last)) (by
                rw [Operand.height]
                omega)
            rw [Opened.toExpr_group, List.append_assoc (Opened.tokensAround _),
              Opened.tokens_closed]
            simpa [Opened.tokensAround, Operand.tokens, Operand.expr, Disjunction.expr] using hshows
      · cases hstep
      · cases hstep

/-- What all tokens say of the state after them. -/
theorem after {s last : State} {ts more : List Token} (h : s.Shows ts)
    (hafter : s.after more = .ok last) : last.Shows (ts ++ more) := by
  induction more generalizing s ts with
  | nil =>
      cases hafter
      rwa [List.append_nil]
  | cons t more ih =>
      rw [State.after_cons] at hafter
      cases hstep : s.step t with
      | error fault =>
          rw [hstep] at hafter
          cases hafter
      | ok next =>
          rw [hstep] at hafter
          rw [List.append_cons]
          exact ih (h.step hstep) hafter

/-- Where a filter can end, it has been derived. -/
theorem finish {s : State} {ts : List Token} {e : Expr} (h : s.Shows ts)
    (hfinish : s.finish = .ok e) :
    ∃ d : Disjunction, d.tokens = ts ∧ d.height < depthLimit ∧ e = d.expr := by
  cases h with
  | operand o outer hfit => cases hfinish
  | relation o outer hfit field hdepth => cases hfinish
  | literal o outer hfit field relation hdepth => cases hfinish
  | joint disjuncts conjuncts last outer hfit =>
      cases outer with
      | cons o outer => cases hfinish
      | nil =>
          cases hfinish
          refine ⟨.chain disjuncts (.chain conjuncts last), ?_, hfit.1.closed.2,
            Opened.toExpr_group ..⟩
          exact (Opened.tokens_closed ..).symm

end State.Shows

/-- From the start, a filter is read off its derivation and nothing else. -/
theorem State.run_start_eq_ok_iff (ending : Nat) {ts : List (Located Token)} {e : Expr} :
    State.run {} ending ts = .ok e ↔
      ∃ d : Disjunction, d.tokens = ts.map (·.item) ∧ d.height < depthLimit ∧ e = d.expr := by
  rw [run_eq_ok_iff]
  constructor
  · rintro ⟨last, hafter, hfinish⟩
    exact (Shows.start.after hafter).finish hfinish
  · rintro ⟨d, htokens, hheight, rfl⟩
    obtain ⟨g, hafter, hparts⟩ :=
      Disjunction.after_tokens d {} rfl rfl rfl (by rwa [show depth {} = 0 from rfl, Nat.zero_add])
    refine ⟨_, htokens ▸ hafter, ?_⟩
    simp only [finish, Group.toExpr, hparts, Disjunction.expr]
    simp

/-! ## Filters -/

theorem parse_eq_some_iff {s : String} {e : Expr} :
    parse s = .ok (some e) ↔ ∃ ts, tokens s.toList = .ok ts ∧
      ∃ d : Disjunction, d.tokens = ts.map (·.item) ∧ d.height < State.depthLimit ∧
        e = d.expr := by
  unfold parse
  cases htokens : tokens s.toList with
  | error fault => simp
  | ok ts =>
      simp only [Except.ok.injEq, exists_eq_left']
      cases ts with
      | nil => simp [Disjunction.tokens_ne_nil]
      | cons t ts =>
          rw [← State.run_start_eq_ok_iff (byteLength s.toList)]
          cases hrun : State.run {} (byteLength s.toList) (t :: ts) <;> simp [hrun]

theorem parse_eq_none_iff {s : String} :
    parse s = .ok none ↔ ∀ c ∈ s.toList, Text.isBlank c = true := by
  rw [← tokensFrom_eq_nil_iff 0, ← tokens]
  unfold parse
  split
  · simp [*]
  · simp [*]
  · rename_i htokens
    rw [htokens]
    split <;> simp

/-- A text is read as a filter exactly if its tokens have a derivation in which no comparison
stands under sixty-four negations and parentheses, and then the filter is the one derived; a row
of tokens has no second derivation.  Of blank texts, and of no others, it is said that they hold no
filter. -/
theorem parse_accepts_grammar :
    (∀ (s : String) (e : Expr), parse s = .ok (some e) ↔
      ∃ ts, tokens s.toList = .ok ts ∧
        ∃ d : Disjunction, d.tokens = ts.map (·.item) ∧ d.height < 64 ∧ e = d.expr) ∧
    (∀ d d' : Disjunction, d.tokens = d'.tokens → d = d') ∧
    ∀ s : String, parse s = .ok none ↔ ∀ c ∈ s.toList, Text.isBlank c = true :=
  ⟨fun _ _ => parse_eq_some_iff, Disjunction.tokens_injective, fun _ => parse_eq_none_iff⟩

end StatusBoard.Filter
