import Mathlib.Data.List.Induction
import StatusBoard.Dict
set_option autoImplicit false

/-!
# Dict: what is in order, and what comes of pairs

Entries and names that are in order stay as they are, and nothing is among entries, or in a set of
names, that was not put there.  A set that names are put into one by one is in order.
-/

namespace StatusBoard

namespace Dict

variable {α : Type}

theorem insert_of_forall_lt {d : Dict α} {key : String}
    (h : ∀ entry ∈ d, entry.1 < key) (value : α) :
    Dict.insert d key value = d ++ [(key, value)] := by
  induction d with
  | nil => rfl
  | cons entry d ih =>
      obtain ⟨k, v⟩ := entry
      have hlt : k < key := h (k, v) List.mem_cons_self
      rw [Dict.insert, if_neg (String.lt_asymm hlt), if_neg (String.ne_of_lt hlt).symm,
        ih fun other hother => h other (List.mem_cons_of_mem _ hother)]
      rfl

theorem foldl_insert_of_sorted {pairs : List (String × α)} {d : Dict α}
    (h : Dict.Sorted (d ++ pairs)) :
    pairs.foldl (fun d p => Dict.insert d p.1 p.2) d = d ++ pairs := by
  induction pairs generalizing d with
  | nil => rw [List.foldl_nil, List.append_nil]
  | cons p pairs ih =>
      have hlt : ∀ entry ∈ d, entry.1 < p.1 := by
        intro entry hentry
        exact (List.pairwise_append.mp h).2.2 entry hentry p List.mem_cons_self
      rw [List.append_cons] at h
      rw [List.foldl_cons, insert_of_forall_lt hlt, ih h, ← List.append_cons]

/-- Entries that are in order stay as they are. -/
theorem ofPairs_of_sorted {d : Dict α} (h : d.Sorted) : ofPairs d = d :=
  foldl_insert_of_sorted h

theorem mem_insert {d : Dict α} {key : String} {value : α} {entry : String × α}
    (h : entry ∈ Dict.insert d key value) : entry = (key, value) ∨ entry ∈ d := by
  induction d with
  | nil => exact .inl (List.mem_singleton.mp h)
  | cons other d ih =>
      obtain ⟨k, v⟩ := other
      rw [Dict.insert] at h
      split at h
      · exact List.mem_cons.mp h
      · split at h
        · exact (List.mem_cons.mp h).imp_right (List.mem_cons_of_mem _)
        · rcases List.mem_cons.mp h with rfl | h
          · exact .inr List.mem_cons_self
          · exact (ih h).imp_right (List.mem_cons_of_mem _)

/-- Whatever the order of pairs, no entry comes of them that is none of them. -/
theorem mem_of_mem_ofPairs {pairs : List (String × α)} {entry : String × α}
    (h : entry ∈ ofPairs pairs) : entry ∈ pairs := by
  induction pairs using List.reverseRecOn with
  | nil => exact h
  | append_singleton pairs p ih =>
      rw [ofPairs, List.foldl_append, List.foldl_cons, List.foldl_nil, ← ofPairs] at h
      rw [List.mem_append]
      rcases mem_insert h with rfl | h
      · exact .inr List.mem_cons_self
      · exact .inl (ih h)

/-- A value that is given to a key takes its place among the others. -/
theorem Sorted.insert {d : Dict α} (h : Dict.Sorted d) (key : String) (value : α) :
    Dict.Sorted (Dict.insert d key value) := by
  induction d with
  | nil => exact List.pairwise_singleton _ _
  | cons entry d ih =>
      obtain ⟨k, v⟩ := entry
      obtain ⟨hfirst, hrest⟩ := List.pairwise_cons.mp h
      rw [Dict.insert]
      split
      · rename_i hbefore
        refine List.pairwise_cons.mpr ⟨?_, h⟩
        intro other hother
        rcases List.mem_cons.mp hother with rfl | hother
        · exact hbefore
        · exact String.lt_trans hbefore (hfirst other hother)
      · split
        · rename_i hsame
          subst hsame
          exact List.pairwise_cons.mpr ⟨hfirst, hrest⟩
        · rename_i hbefore hdiffer
          refine List.pairwise_cons.mpr ⟨?_, ih hrest⟩
          intro other hmem
          rcases mem_insert hmem with rfl | hmem
          · by_contra hafter
            exact hdiffer (String.le_antisymm (String.not_lt.mp hafter) (String.not_lt.mp hbefore))
          · exact hfirst other hmem

/-- Whatever the order of pairs, what comes of them is in order. -/
theorem sorted_ofPairs (pairs : List (String × α)) : Dict.Sorted (ofPairs pairs) := by
  induction pairs using List.reverseRecOn with
  | nil => exact List.Pairwise.nil
  | append_singleton pairs p ih =>
      rw [ofPairs, List.foldl_append]
      exact ih.insert p.1 p.2

/-- Whether entries are in order is a matter of their keys. -/
theorem sorted_of_keys {β : Type} {d : Dict α} {other : Dict β} (hkeys : keys other = keys d)
    (h : Dict.Sorted d) : Dict.Sorted other := by
  have hrising : ((keys d).Pairwise fun k l => k < l) := List.pairwise_map.mpr h
  rw [← hkeys] at hrising
  exact List.pairwise_map.mp hrising

/-- Each key is there once, so that an entry is what is found under its key. -/
theorem get?_of_mem {d : Dict α} (h : d.Sorted) {key : String} {value : α}
    (hmem : (key, value) ∈ d) : d.get? key = some value := by
  induction d with
  | nil => cases hmem
  | cons entry d ih =>
      obtain ⟨hfirst, hrest⟩ := List.pairwise_cons.mp h
      rcases List.mem_cons.mp hmem with rfl | hmem
      · simp [get?]
      · have hother : entry.1 ≠ key := String.ne_of_lt (hfirst _ hmem)
        simpa [get?, hother] using ih hrest hmem

/-- Entries that have one value are told by their keys. -/
theorem eq_map_iff {β : Type} {d : Dict α} {changed : Dict β} {value : β} :
    changed = d.map (fun entry => (entry.1, value)) ↔
      keys changed = keys d ∧ ∀ entry ∈ changed, entry.2 = value := by
  constructor
  · rintro rfl
    refine ⟨by simp [keys], fun entry hentry => ?_⟩
    obtain ⟨other, -, rfl⟩ := List.mem_map.mp hentry
    rfl
  · rintro ⟨hkeys, hvalue⟩
    have hself : changed.map (fun entry => (entry.1, value)) = changed.map fun entry => entry :=
      List.map_congr_left fun entry hentry => by rw [← hvalue entry hentry]
    calc changed
        = changed.map fun entry => (entry.1, value) := by rw [hself, List.map_id']
      _ = (keys changed).map fun key => (key, value) := by simp [keys]
      _ = (keys d).map fun key => (key, value) := by rw [hkeys]
      _ = d.map fun entry => (entry.1, value) := by simp [keys]

theorem mem_keys_of_ofPairs {pairs : List (String × α)} {key : String}
    (h : key ∈ keys (ofPairs pairs)) : key ∈ keys pairs := by
  obtain ⟨entry, hentry, rfl⟩ := List.mem_map.mp h
  exact List.mem_map_of_mem (mem_of_mem_ofPairs hentry)

end Dict

namespace NameSet

theorem mem_insert {s : List String} {name other : String} (h : other ∈ NameSet.insert s name) :
    other = name ∨ other ∈ s := by
  induction s with
  | nil => exact .inl (List.mem_singleton.mp h)
  | cons x s ih =>
      rw [NameSet.insert] at h
      split at h
      · exact List.mem_cons.mp h
      · split at h
        · exact .inr h
        · rcases List.mem_cons.mp h with rfl | h
          · exact .inr List.mem_cons_self
          · exact (ih h).imp_right (List.mem_cons_of_mem _)

theorem Sorted.insert {s : List String} (h : Sorted s) (name : String) :
    Sorted (NameSet.insert s name) := by
  induction s with
  | nil => exact List.pairwise_singleton _ _
  | cons x s ih =>
      have hrest := List.pairwise_cons.mp h
      rw [NameSet.insert]
      split
      · rename_i hbefore
        refine List.pairwise_cons.mpr ⟨?_, h⟩
        intro y hy
        rcases List.mem_cons.mp hy with rfl | hy
        · exact hbefore
        · exact String.lt_trans hbefore (hrest.1 y hy)
      · split
        · exact h
        · rename_i hbefore hother
          refine List.pairwise_cons.mpr ⟨?_, ih hrest.2⟩
          intro y hy
          rcases mem_insert hy with rfl | hy
          · by_contra hafter
            exact hother (String.le_antisymm (String.not_lt.mp hafter) (String.not_lt.mp hbefore))
          · exact hrest.1 y hy

theorem mem_insert_iff {s : List String} {name other : String} :
    other ∈ NameSet.insert s name ↔ other = name ∨ other ∈ s := by
  refine ⟨mem_insert, ?_⟩
  induction s with
  | nil => simp [NameSet.insert]
  | cons x s ih =>
      rw [NameSet.insert]
      split
      · exact List.mem_cons.mpr
      · split
        · rename_i hsame
          rintro (rfl | h)
          · exact hsame ▸ List.mem_cons_self
          · exact h
        · rintro (rfl | h)
          · exact List.mem_cons_of_mem _ (ih (.inl rfl))
          · exact (List.mem_cons.mp h).elim (· ▸ List.mem_cons_self)
              fun h => List.mem_cons_of_mem _ (ih (.inr h))

/-- The names of a set are those that are put into it. -/
theorem mem_ofList_iff {names : List String} {name : String} : name ∈ ofList names ↔ name ∈ names := by
  induction names using List.reverseRecOn with
  | nil => rfl
  | append_singleton names last ih =>
      rw [ofList, List.foldl_append, List.foldl_cons, List.foldl_nil, ← ofList, mem_insert_iff, ih,
        List.mem_append, List.mem_singleton, or_comm]

/-- A set is told by its names. -/
theorem Sorted.eq_of_mem_iff {s t : List String} (hs : Sorted s) (ht : Sorted t)
    (h : ∀ name, name ∈ s ↔ name ∈ t) : s = t :=
  List.Perm.eq_of_pairwise (fun _ _ _ _ hlt hgt => absurd hgt (String.lt_asymm hlt)) hs ht
    ((List.perm_ext_iff_of_nodup (hs.imp String.ne_of_lt) (ht.imp String.ne_of_lt)).mpr h)

/-- Names that are put into a set are in order. -/
theorem sorted_ofList (names : List String) : Sorted (ofList names) := by
  induction names using List.reverseRecOn with
  | nil => exact List.Pairwise.nil
  | append_singleton names name ih =>
      rw [ofList, List.foldl_append]
      exact ih.insert name

theorem insert_of_forall_lt {s : List String} {name : String} (h : ∀ other ∈ s, other < name) :
    NameSet.insert s name = s ++ [name] := by
  induction s with
  | nil => rfl
  | cons x s ih =>
      have hlt : x < name := h x List.mem_cons_self
      rw [NameSet.insert, if_neg (String.lt_asymm hlt), if_neg (String.ne_of_lt hlt).symm,
        ih fun other hother => h other (List.mem_cons_of_mem _ hother)]
      rfl

theorem foldl_insert_of_sorted {names s : List String} (h : Sorted (s ++ names)) :
    names.foldl NameSet.insert s = s ++ names := by
  induction names generalizing s with
  | nil => rw [List.foldl_nil, List.append_nil]
  | cons name names ih =>
      have hlt : ∀ other ∈ s, other < name := by
        intro other hother
        exact (List.pairwise_append.mp h).2.2 other hother name List.mem_cons_self
      rw [List.append_cons] at h
      rw [List.foldl_cons, insert_of_forall_lt hlt, ih h, ← List.append_cons]

/-- Names that are in order stay as they are. -/
theorem ofList_of_sorted {names : List String} (h : Sorted names) : ofList names = names :=
  foldl_insert_of_sorted h

end NameSet
end StatusBoard
