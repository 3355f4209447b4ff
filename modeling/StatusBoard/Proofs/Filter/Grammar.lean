import StatusBoard.Filter.Parser
set_option autoImplicit false

/-!
# Filter: the grammar

A filter is a disjunction, that is, conjunctions with OR between them; a conjunction is operands
with AND between them; an operand is a comparison, NOT and an operand, or a disjunction in
parentheses.  A derivation is given as the tree that it makes.  What it derives is the row of its
tokens, and no row of tokens has two derivations.
-/

namespace StatusBoard.Filter

mutual

/-- Conjunctions with OR between them. -/
inductive Disjunction where
  | last (part : Conjunction)
  | or (part : Conjunction) (more : Disjunction)

/-- Operands with AND between them. -/
inductive Conjunction where
  | last (part : Operand)
  | and (part : Operand) (more : Conjunction)

/-- A comparison, a negated operand, or a disjunction in parentheses. -/
inductive Operand where
  | comparison (c : Comparison)
  | negated (part : Operand)
  | grouped (inner : Disjunction)

end

/-! ## What is derived -/

mutual

/-- The tokens from left to right. -/
def Disjunction.tokens : Disjunction → List Token
  | .last part => part.tokens
  | .or part more => part.tokens ++ .orWord :: more.tokens

/-- The tokens from left to right. -/
def Conjunction.tokens : Conjunction → List Token
  | .last part => part.tokens
  | .and part more => part.tokens ++ .andWord :: more.tokens

/-- The tokens from left to right. -/
def Operand.tokens : Operand → List Token
  | .comparison c => [.field c.field, .relation c.relation, .literal c.value]
  | .negated part => .notWord :: part.tokens
  | .grouped inner => .opening :: (inner.tokens ++ [.closing])

end

mutual

/-- The filters of the conjunctions. -/
def Disjunction.parts : Disjunction → List Expr
  | .last part => [Expr.joinAll part.parts]
  | .or part more => Expr.joinAll part.parts :: more.parts

/-- The filters of the operands. -/
def Conjunction.parts : Conjunction → List Expr
  | .last part => [part.expr]
  | .and part more => part.expr :: more.parts

/-- The filter that is derived. -/
def Operand.expr : Operand → Expr
  | .comparison c => .compare c
  | .negated part => .not part.expr
  | .grouped inner => Expr.joinAny inner.parts

end

/-- The filter that is derived: a single operand stands for itself. -/
def Conjunction.expr (c : Conjunction) : Expr :=
  Expr.joinAll c.parts

/-- The filter that is derived: a single conjunction stands for itself. -/
def Disjunction.expr (d : Disjunction) : Expr :=
  Expr.joinAny d.parts

mutual

/-- The greatest number of negations and parentheses over a comparison. -/
def Disjunction.height : Disjunction → Nat
  | .last part => part.height
  | .or part more => max part.height more.height

/-- The greatest number of negations and parentheses over a comparison. -/
def Conjunction.height : Conjunction → Nat
  | .last part => part.height
  | .and part more => max part.height more.height

/-- The greatest number of negations and parentheses over a comparison. -/
def Operand.height : Operand → Nat
  | .comparison _ => 0
  | .negated part => part.height + 1
  | .grouped inner => inner.height + 1

end

theorem Operand.tokens_ne_nil (u : Operand) : u.tokens ≠ [] := by
  cases u <;> simp [tokens]

theorem Conjunction.tokens_ne_nil (c : Conjunction) : c.tokens ≠ [] := by
  cases c <;> simp [tokens, Operand.tokens_ne_nil]

theorem Disjunction.tokens_ne_nil (d : Disjunction) : d.tokens ≠ [] := by
  cases d <;> simp [tokens, Conjunction.tokens_ne_nil]

/-! ## Chains -/

/-- Operands, and a last one, with AND between them. -/
def Conjunction.chain (parts : List Operand) (last : Operand) : Conjunction :=
  parts.foldr .and (.last last)

/-- Conjunctions, and a last one, with OR between them. -/
def Disjunction.chain (parts : List Conjunction) (last : Conjunction) : Disjunction :=
  parts.foldr .or (.last last)

/-- An operand negated a number of times. -/
def Operand.negate : Nat → Operand → Operand
  | 0, part => part
  | n + 1, part => negate n (.negated part)

namespace Conjunction

theorem tokens_chain (parts : List Operand) (last : Operand) :
    (chain parts last).tokens = parts.flatMap (fun u => u.tokens ++ [.andWord]) ++ last.tokens := by
  induction parts with
  | nil => rfl
  | cons part parts ih =>
      rw [chain, List.foldr_cons, ← chain, tokens, ih, List.flatMap_cons]
      simp only [List.append_assoc, List.cons_append, List.nil_append]

theorem parts_chain (parts : List Operand) (last : Operand) :
    (chain parts last).parts = (parts ++ [last]).map (·.expr) := by
  induction parts with
  | nil => rfl
  | cons part parts ih =>
      rw [chain, List.foldr_cons, ← chain, Conjunction.parts, ih]
      rfl

theorem height_chain_lt {parts : List Operand} {last : Operand} {limit : Nat} :
    (chain parts last).height < limit ↔ ∀ u ∈ parts ++ [last], u.height < limit := by
  induction parts with
  | nil => simp [chain, height]
  | cons part parts ih =>
      rw [chain, List.foldr_cons, ← chain, height, Nat.max_lt, ih, List.cons_append,
        List.forall_mem_cons]

end Conjunction

namespace Disjunction

theorem tokens_chain (parts : List Conjunction) (last : Conjunction) :
    (chain parts last).tokens = parts.flatMap (fun c => c.tokens ++ [.orWord]) ++ last.tokens := by
  induction parts with
  | nil => rfl
  | cons part parts ih =>
      rw [chain, List.foldr_cons, ← chain, tokens, ih, List.flatMap_cons]
      simp only [List.append_assoc, List.cons_append, List.nil_append]

theorem parts_chain (parts : List Conjunction) (last : Conjunction) :
    (chain parts last).parts = (parts ++ [last]).map (·.expr) := by
  induction parts with
  | nil => rfl
  | cons part parts ih =>
      rw [chain, List.foldr_cons, ← chain, Disjunction.parts, ih]
      rfl

theorem height_chain_lt {parts : List Conjunction} {last : Conjunction} {limit : Nat} :
    (chain parts last).height < limit ↔ ∀ c ∈ parts ++ [last], c.height < limit := by
  induction parts with
  | nil => simp [chain, height]
  | cons part parts ih =>
      rw [chain, List.foldr_cons, ← chain, height, Nat.max_lt, ih, List.cons_append,
        List.forall_mem_cons]

end Disjunction

namespace Operand

theorem tokens_negate (n : Nat) (u : Operand) :
    (negate n u).tokens = List.replicate n .notWord ++ u.tokens := by
  induction n generalizing u with
  | zero => rfl
  | succ n ih => rw [negate, ih, tokens, List.replicate_succ', List.append_assoc]; rfl

theorem expr_negate (n : Nat) (u : Operand) : (negate n u).expr = Expr.negate n u.expr := by
  induction n generalizing u with
  | zero => rfl
  | succ n ih => rw [negate, ih, expr]; rfl

theorem height_negate (n : Nat) (u : Operand) : (negate n u).height = u.height + n := by
  induction n generalizing u with
  | zero => rfl
  | succ n ih => rw [negate, ih, height, Nat.add_right_comm, Nat.add_assoc]

end Operand

/-! ## One derivation at most

The first token tells which operand it is, and whether a chain goes on is told by the token after
a part.  So a derivation is found again in its tokens, whatever follows them that cannot go on
with it. -/

mutual

theorem Operand.eq_of_tokens : ∀ (u u' : Operand) (r r' : List Token),
    u.tokens ++ r = u'.tokens ++ r' → u = u' ∧ r = r'
  | .comparison c, u', r, r', h => by
      cases u' with
      | comparison c' =>
          obtain ⟨field, relation, value⟩ := c
          simp only [Operand.tokens, List.cons_append, List.nil_append, List.cons.injEq,
            Token.field.injEq, Token.relation.injEq, Token.literal.injEq] at h
          obtain ⟨rfl, rfl, rfl, hrest⟩ := h
          exact ⟨rfl, hrest⟩
      | negated _ => simp [Operand.tokens] at h
      | grouped _ => simp [Operand.tokens] at h
  | .negated part, u', r, r', h => by
      cases u' with
      | comparison _ => simp [Operand.tokens] at h
      | negated part' =>
          simp only [Operand.tokens, List.cons_append, List.cons.injEq, true_and] at h
          obtain ⟨rfl, hrest⟩ := Operand.eq_of_tokens part part' r r' h
          exact ⟨rfl, hrest⟩
      | grouped _ => simp [Operand.tokens] at h
  | .grouped inner, u', r, r', h => by
      cases u' with
      | comparison _ => simp [Operand.tokens] at h
      | negated _ => simp [Operand.tokens] at h
      | grouped inner' =>
          simp only [Operand.tokens, List.cons_append, List.append_assoc, List.nil_append,
            List.cons.injEq, true_and] at h
          obtain ⟨rfl, hrest⟩ := Disjunction.eq_of_tokens inner inner' (.closing :: r)
            (.closing :: r') (by simp) (by simp) (by simp) (by simp) h
          exact ⟨rfl, (List.cons.inj hrest).2⟩

theorem Conjunction.eq_of_tokens : ∀ (c c' : Conjunction) (r r' : List Token),
    r.head? ≠ some .andWord → r'.head? ≠ some .andWord →
    c.tokens ++ r = c'.tokens ++ r' → c = c' ∧ r = r'
  | .last part, c', r, r', hr, _, h => by
      cases c' with
      | last part' =>
          obtain ⟨rfl, hrest⟩ := Operand.eq_of_tokens part part' r r' h
          exact ⟨rfl, hrest⟩
      | and part' more' =>
          simp only [Conjunction.tokens, List.append_assoc, List.cons_append] at h
          obtain ⟨-, hrest⟩ := Operand.eq_of_tokens part part' r _ h
          rw [hrest] at hr
          exact absurd rfl hr
  | .and part more, c', r, r', hr, hr', h => by
      cases c' with
      | last part' =>
          simp only [Conjunction.tokens, List.append_assoc, List.cons_append] at h
          obtain ⟨-, hrest⟩ := Operand.eq_of_tokens part part' _ r' h
          rw [← hrest] at hr'
          exact absurd rfl hr'
      | and part' more' =>
          simp only [Conjunction.tokens, List.append_assoc, List.cons_append] at h
          obtain ⟨rfl, hmore⟩ := Operand.eq_of_tokens part part' _ _ h
          obtain ⟨rfl, hrest⟩ := Conjunction.eq_of_tokens more more' r r' hr hr'
            (List.cons.inj hmore).2
          exact ⟨rfl, hrest⟩

theorem Disjunction.eq_of_tokens : ∀ (d d' : Disjunction) (r r' : List Token),
    r.head? ≠ some .andWord → r'.head? ≠ some .andWord →
    r.head? ≠ some .orWord → r'.head? ≠ some .orWord →
    d.tokens ++ r = d'.tokens ++ r' → d = d' ∧ r = r'
  | .last part, d', r, r', hand, hand', hor, _, h => by
      cases d' with
      | last part' =>
          obtain ⟨rfl, hrest⟩ := Conjunction.eq_of_tokens part part' r r' hand hand' h
          exact ⟨rfl, hrest⟩
      | or part' more' =>
          simp only [Disjunction.tokens, List.append_assoc, List.cons_append] at h
          obtain ⟨-, hrest⟩ := Conjunction.eq_of_tokens part part' r _ hand (by simp) h
          rw [hrest] at hor
          exact absurd rfl hor
  | .or part more, d', r, r', hand, hand', hor, hor', h => by
      cases d' with
      | last part' =>
          simp only [Disjunction.tokens, List.append_assoc, List.cons_append] at h
          obtain ⟨-, hrest⟩ := Conjunction.eq_of_tokens part part' _ r' (by simp) hand' h
          rw [← hrest] at hor'
          exact absurd rfl hor'
      | or part' more' =>
          simp only [Disjunction.tokens, List.append_assoc, List.cons_append] at h
          obtain ⟨rfl, hmore⟩ := Conjunction.eq_of_tokens part part' _ _ (by simp) (by simp) h
          obtain ⟨rfl, hrest⟩ := Disjunction.eq_of_tokens more more' r r' hand hand' hor hor'
            (List.cons.inj hmore).2
          exact ⟨rfl, hrest⟩

end

/-- A row of tokens has one derivation at most. -/
theorem Disjunction.tokens_injective : Function.Injective Disjunction.tokens := by
  intro d d' h
  have hrows : d.tokens ++ [] = d'.tokens ++ [] := by rw [h]
  exact (eq_of_tokens d d' [] [] (by simp) (by simp) (by simp) (by simp) hrows).1

end StatusBoard.Filter
