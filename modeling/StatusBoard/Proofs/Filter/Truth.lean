import StatusBoard.Proofs.Store.ByteOrder
import StatusBoard.Proofs.Store.Contents
import StatusBoard.Query.FromFilter
set_option autoImplicit false

/-!
# Filter: what a filter means

A filter is true, false or not known of a resource.  A comparison with a label that is not there is
not known, and Kleene's connectives carry that through the tree.  This is the meaning that queries
have to agree with; it knows nothing of how they come about.
-/

namespace StatusBoard

open StatusBoard.Filter (Expr Comparison Literal Relation Column Target)

/-! ## Three values -/

/-- A truth value, or none if it is not known. -/
abbrev Truth := Option Bool

namespace Truth

/-- Both hold; one that does not settles it. -/
def and : Truth → Truth → Truth
  | some false, _ => some false
  | some true, b => b
  | none, some false => some false
  | none, _ => none

/-- One of both holds; one that does settles it. -/
def or : Truth → Truth → Truth
  | some true, _ => some true
  | some false, b => b
  | none, some true => some true
  | none, _ => none

/-- The opposite. -/
def not : Truth → Truth
  | some b => some !b
  | none => none

/-- All of several hold. -/
def all (parts : List Truth) : Truth :=
  parts.foldr and (some true)

/-- One of several holds. -/
def any (parts : List Truth) : Truth :=
  parts.foldr or (some false)

/-! With one truth value for all that is not known, the connectives are those of two values. -/

theorem getD_and (a b : Truth) (unknown : Bool) :
    (and a b).getD unknown = (a.getD unknown && b.getD unknown) := by
  rcases a with _ | _ | _ <;> rcases b with _ | _ | _ <;> cases unknown <;> rfl

theorem getD_or (a b : Truth) (unknown : Bool) :
    (or a b).getD unknown = (a.getD unknown || b.getD unknown) := by
  rcases a with _ | _ | _ <;> rcases b with _ | _ | _ <;> cases unknown <;> rfl

theorem getD_not (a : Truth) (unknown : Bool) : (not a).getD unknown = !a.getD !unknown := by
  cases a <;> simp [not]

theorem and_assoc (a b c : Truth) : and (and a b) c = and a (and b c) := by
  rcases a with _ | _ | _ <;> rcases b with _ | _ | _ <;> rcases c with _ | _ | _ <;> rfl

theorem or_assoc (a b c : Truth) : or (or a b) c = or a (or b c) := by
  rcases a with _ | _ | _ <;> rcases b with _ | _ | _ <;> rcases c with _ | _ | _ <;> rfl

theorem all_singleton (a : Truth) : all [a] = a := by
  rcases a with _ | _ | _ <;> rfl

theorem any_singleton (a : Truth) : any [a] = a := by
  rcases a with _ | _ | _ <;> rfl

theorem all_append (parts more : List Truth) :
    all (parts ++ more) = and (all parts) (all more) := by
  induction parts with
  | nil => rfl
  | cons part parts ih =>
      rw [List.cons_append, all, List.foldr_cons, ← all, ih, ← and_assoc]
      rfl

theorem any_append (parts more : List Truth) : any (parts ++ more) = or (any parts) (any more) := by
  induction parts with
  | nil => rfl
  | cons part parts ih =>
      rw [List.cons_append, any, List.foldr_cons, ← any, ih, ← or_assoc]
      rfl

theorem and_eq_true_iff {a b : Truth} : and a b = some true ↔ a = some true ∧ b = some true := by
  rcases a with _ | _ | _ <;> rcases b with _ | _ | _ <;> simp [and]

theorem or_eq_true_iff {a b : Truth} : or a b = some true ↔ a = some true ∨ b = some true := by
  rcases a with _ | _ | _ <;> rcases b with _ | _ | _ <;> simp [or]

theorem all_eq_true_iff {parts : List Truth} :
    all parts = some true ↔ ∀ part ∈ parts, part = some true := by
  induction parts with
  | nil => simp [all]
  | cons part parts ih => rw [all, List.foldr_cons, ← all, and_eq_true_iff, ih,
      List.forall_mem_cons]

theorem any_eq_true_iff {parts : List Truth} :
    any parts = some true ↔ ∃ part ∈ parts, part = some true := by
  induction parts with
  | nil => simp [any]
  | cons part parts ih =>
      rw [any, List.foldr_cons, ← any, or_eq_true_iff, ih]
      simp only [List.mem_cons, exists_eq_or_imp]

end Truth

/-! ## Comparisons -/

/-- What a column of a resource is compared by: times by the text that they are stored as. -/
def Resource.column (x : Resource) : Column → Cell
  | .id => .text x.id.toText
  | .name => .text x.name
  | .kind => .text x.kind
  | .generation => .int x.generation
  | .createdTime => .text x.createdTime.toStorageText
  | .updatedTime => .text x.updatedTime.toStorageText

/-- What a literal stands for in a comparison with a column, if it can be compared with it. -/
def Filter.Column.operand? (column : Column) (value : Literal) : Option Cell :=
  match column.type, value with
  | .text, .text s => some (.text s)
  | .integer, .int i => some (.int i)
  | .timestamp, .text s => (Instant.parseStrict? s).map fun t => .text t.toStorageText
  | _, _ => none

/-- How two values are ordered: texts by their bytes, whole numbers by what they count. -/
def Filter.order : Cell → Cell → Ordering
  | .text a, .text b => Cell.compareBytes (bytesOf a) (bytesOf b)
  | a, b => Cell.order a b

/-- A comparison of a resource's field with a literal. -/
def Filter.Comparison.truth (x : Resource) (c : Comparison) : Truth :=
  match Target.ofField c.field with
  | .ok (.column column) => (column.operand? c.value).map fun v =>
      c.relation.holds (order (x.column column) v)
  | .ok (.label key) =>
    match c.value, x.labels.get? key with
    | .text s, some value => some (c.relation.holds (order (.text value) (.text s)))
    | _, _ => none
  | .ok (.condition type) =>
    match c.relation, c.value with
    | .eq, .text word => some (x.statusConditions.has type word)
    | _, _ => none
  | .error _ => none

/-- The table orders values just so. -/
theorem Filter.order_eq (a b : Cell) : Filter.order a b = Cell.order a b := by
  unfold Filter.order
  split
  · exact (Cell.order_text _ _).symm
  · rfl

/-! ## Filters -/

namespace Filter.Expr

mutual

/-- What a filter is of a resource. -/
def truth (x : Resource) : Expr → Truth
  | compare c => c.truth x
  | all parts => truthOfAll x parts
  | any parts => truthOfAny x parts
  | not part => Truth.not (part.truth x)

/-- All of several filters hold. -/
def truthOfAll (x : Resource) : List Expr → Truth
  | [] => some true
  | part :: parts => Truth.and (part.truth x) (truthOfAll x parts)

/-- One of several filters holds. -/
def truthOfAny (x : Resource) : List Expr → Truth
  | [] => some false
  | part :: parts => Truth.or (part.truth x) (truthOfAny x parts)

end

theorem truthOfAll_eq (x : Resource) (parts : List Expr) :
    truthOfAll x parts = Truth.all (parts.map (truth x)) := by
  induction parts with
  | nil => rfl
  | cons part parts ih => rw [truthOfAll, ih]; rfl

theorem truthOfAny_eq (x : Resource) (parts : List Expr) :
    truthOfAny x parts = Truth.any (parts.map (truth x)) := by
  induction parts with
  | nil => rfl
  | cons part parts ih => rw [truthOfAny, ih]; rfl

/-- The filter is true of the resource. -/
def isTrueOf (e : Expr) (x : Resource) : Bool :=
  e.truth x = some true

end Filter.Expr
end StatusBoard
