import StatusBoard.Kind
import StatusBoard.Proofs.Json.Again
import StatusBoard.Proofs.Store.Decoding
set_option autoImplicit false

/-!
# Kind: mandatory types are in order

A registry keeps the mandatory types of each kind as a set, which is a list in order.  The sets of a
registry that is read are in order, and so are those of the reference.  And a registry in order is read
back as it was written.
-/

namespace StatusBoard
namespace KindRegistry

variable {kinds : KindRegistry} {kind : String}

/-! ## Kinds -/

theorem resolve_eq_ok_iff {spec : KindSpec} :
    kinds.resolve kind = .ok spec ↔ Dict.get? kinds.kinds kind = some spec := by
  unfold resolve
  split <;> simp [*]

theorem resolve_eq_error_iff {e : ValidationError} :
    kinds.resolve kind = .error e ↔ kind ∉ Dict.keys kinds.kinds ∧ e = .unknownKind kind := by
  have hkeys : Dict.get? kinds.kinds kind = none ↔ kind ∉ Dict.keys kinds.kinds := by
    rw [Dict.get?, Option.map_eq_none_iff, List.find?_eq_none, Dict.keys, List.mem_map]
    simp only [decide_eq_true_eq, not_exists, not_and]
  rw [← hkeys]
  unfold resolve
  split
  · simp [*]
  · simp [*, eq_comm]

/-- Reports on the kind have to settle the type. -/
def Mandates (kinds : KindRegistry) (kind type : String) : Prop :=
  ∃ spec, Dict.get? kinds.kinds kind = some spec ∧ type ∈ spec.mandatory

theorem mandates_eq {spec : KindSpec} (h : kinds.resolve kind = .ok spec) :
    kinds.Mandates kind = (· ∈ spec.mandatory) := by
  funext type
  simp [Mandates, resolve_eq_ok_iff.mp h]

/-! ## Order -/

/-- The mandatory types of each kind are in order. -/
def IsSorted (kinds : KindRegistry) : Prop :=
  ∀ entry ∈ kinds.kinds, NameSet.Sorted entry.2.mandatory

theorem IsSorted.of_resolve (h : kinds.IsSorted) {spec : KindSpec}
    (hspec : kinds.resolve kind = .ok spec) : NameSet.Sorted spec.mandatory := by
  obtain ⟨entry, hentry, rfl⟩ := Option.map_eq_some_iff.mp (resolve_eq_ok_iff.mp hspec)
  exact h entry (List.mem_of_find?_eq_some hentry)

theorem isSorted_reference : reference.IsSorted := by
  unfold IsSorted NameSet.Sorted
  decide

theorem sorted_of_read {style : Json.Style} {depth : Nat} {tree : Json.Tree} {spec : KindSpec}
    (h : KindSpec.read style depth tree = some spec) : NameSet.Sorted spec.mandatory := by
  obtain ⟨fields, -, h⟩ := Option.bind_eq_some_iff.mp h
  obtain ⟨names, -, h⟩ := Option.bind_eq_some_iff.mp h
  cases h
  exact NameSet.sorted_ofList names

theorem isSorted_of_read {style : Json.Style} {depth : Nat} {tree : Json.Tree}
    (h : read style depth tree = some kinds) : kinds.IsSorted := by
  obtain ⟨entries, hentries, rfl⟩ := Option.map_eq_some_iff.mp h
  unfold Json.readDict at hentries
  split at hentries
  · rename_i members
    obtain ⟨pairs, hpairs, rfl⟩ := Option.map_eq_some_iff.mp hentries
    intro entry hentry
    obtain ⟨member, -, hmember⟩ :=
      Json.exists_of_mem_mapM hpairs entry (Dict.mem_of_mem_ofPairs hentry)
    obtain ⟨key, -, hmember⟩ := Option.bind_eq_some_iff.mp hmember
    obtain ⟨spec, hspec, hmember⟩ := Option.bind_eq_some_iff.mp hmember
    cases hmember
    exact sorted_of_read hspec
  · cases hentries

end KindRegistry

/-! ## Registries read again -/

/-- What is asked of reports on a kind is read back as it was written. -/
theorem KindSpec.read_write {spec : KindSpec} (h : NameSet.Sorted spec.mandatory)
    (style : Json.Style) (depth : Nat) : read style (depth + 2) spec.write.tree = some spec := by
  let members : List (String × Json.Value) :=
    [("mandatoryConditions", .array (spec.mandatory.map .text))]
  have hfields := Json.readFields_object (show ["mandatoryConditions"].Nodup by decide)
      (List.Sublist.refl (members.map (·.1))) style (depth + 1)
  have hmember : Json.memberOf members "mandatoryConditions" =
      some (.array (spec.mandatory.map .text)) := rfl
  have hlist : Json.readList (Json.readScalarText style) (depth + 1)
      (Json.Value.array (spec.mandatory.map .text)).tree = some spec.mandatory :=
    Json.readList_array fun name _ => by cases style <;> rfl
  rw [read, show spec.write = .object members from rfl]
  change (Json.readFields style ["mandatoryConditions"] _ (Json.Value.object members).tree).bind _ = _
  simp only [hfields, Option.bind_eq_bind, Option.bind_some, Json.default_entries hmember hlist,
    NameSet.ofList_of_sorted h]

namespace KindRegistry

/-- Registries are written with their kinds in order, and are read back so. -/
theorem decode?_render {kinds : KindRegistry} (hkinds : Dict.Sorted kinds.kinds)
    (hsorted : kinds.IsSorted) (style : Json.Style) :
    Json.decode? (read style) kinds.write.render = some kinds := by
  have hread : Json.readDict (KindSpec.read style) 127 kinds.write.tree =
      some (Dict.ofPairs kinds.kinds) :=
    Json.readDict_object fun entry hentry => KindSpec.read_write (hsorted entry hentry) style 124
  rw [Json.decode?_render_eq, read]
  change (Json.readDict (KindSpec.read style) 127 kinds.write.tree).map mk = some kinds
  rw [hread, Dict.ofPairs_of_sorted hkinds, Option.map_some]

theorem isStable (style : Json.Style) : Json.IsStable (read style) write := by
  intro raw kinds h
  obtain ⟨tree, -, hread⟩ := Option.bind_eq_some_iff.mp h
  have hsorted := isSorted_of_read hread
  obtain ⟨entries, hentries, rfl⟩ := Option.map_eq_some_iff.mp hread
  exact .of_eq (decode?_render (Json.sorted_of_readDict hentries) hsorted style)

end KindRegistry
end StatusBoard
