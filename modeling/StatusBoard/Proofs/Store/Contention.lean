import StatusBoard.Proofs.Store.Consistency
import StatusBoard.Store.Edit
set_option autoImplicit false

/-!
# Store: an insertion that loses

If another writer adds a row of the key just before an upsert inserts its own, the upsert starts over
with that row in view: its plan is shown the row, and what the plan says then is written over it.  So
what is written in the end is what the plan says of the row that it is written over.  This holds of
every row whose identity stands in its cell in the written form, damaged as it may be otherwise.
-/

namespace StatusBoard

/-! ## What the schema promises -/

/-- Of items of which no two are to be found, one is found alone. -/
theorem filter_eq_singleton {α : Type} {p : α → Bool} {items : List α} {item : α}
    (halone : items.Pairwise fun a b => p a = true → p b = false) (hitem : item ∈ items)
    (hfound : p item = true) : items.filter p = [item] := by
  obtain ⟨before, after, rfl⟩ := List.append_of_mem hitem
  obtain ⟨-, hafter, hbefore⟩ := List.pairwise_append.mp halone
  have hnoneBefore : before.filter p = [] := by
    refine List.filter_eq_nil_iff.mpr fun a ha hpa => ?_
    rw [hbefore a ha item List.mem_cons_self hpa] at hfound
    cases hfound
  have hnoneAfter : after.filter p = [] := by
    refine List.filter_eq_nil_iff.mpr fun a ha => ?_
    simp [(List.pairwise_cons.mp hafter).1 a ha hfound]
  rw [List.filter_append, List.filter_cons_of_pos hfound, hnoneBefore, hnoneAfter,
    List.nil_append]

/-- Rows of statuses as the schema has them: no two with one identity, and no two live ones with
one key. -/
structure StatusRow.ObeySchema (rows : List StatusRow) : Prop where
  ids : rows.Pairwise fun a b => sameCell a.id b.id = false
  keys : rows.Pairwise fun a b => a.sameKey b = false

namespace StatusRow

/-- A row has the key of a row of a key exactly if it is of that key too. -/
theorem sameKey_iff_isOf {a b : StatusRow} {key : StatusKey} (hb : b.isOf key = true) :
    a.sameKey b = true ↔ a.isOf key = true := by
  obtain ⟨⟨htype, howner, hadapter⟩, hlive⟩ := isOf_iff.mp hb
  rw [isOf_iff, sameKey, htype, howner, hadapter, hlive]
  simp only [sameCell, Bool.and_eq_true, decide_eq_true_eq, Bool.and_true, HasKey, ne_eq]
  grind

namespace ObeySchema

variable {rows : List StatusRow} {key : StatusKey} {old : StatusRow}

/-- A key has one live row at most. -/
theorem filter_isOf (h : ObeySchema rows) (hold : old ∈ rows) (hof : old.isOf key = true) :
    rows.filter (·.isOf key) = [old] := by
  refine filter_eq_singleton (h.keys.imp ?_) hold hof
  intro a b hdiffer ha
  by_contra hb
  rw [Bool.not_eq_false] at hb
  rw [(sameKey_iff_isOf hb).mpr ha] at hdiffer
  cases hdiffer

/-- A key without a row gets one, with an identity of its own. -/
theorem snoc (h : ObeySchema rows) {row : StatusRow} (hof : row.isOf key = true)
    (habsent : ∀ r ∈ rows, ¬ r.isOf key = true)
    (hfresh : ∀ r ∈ rows, sameCell r.id row.id = false) : ObeySchema (rows ++ [row]) := by
  refine ⟨List.pairwise_append.mpr ⟨h.ids, List.pairwise_singleton _ _, ?_⟩,
    List.pairwise_append.mpr ⟨h.keys, List.pairwise_singleton _ _, ?_⟩⟩
  · intro a ha b hb
    rw [List.mem_singleton.mp hb]
    exact hfresh a ha
  · intro a ha b hb
    rw [List.mem_singleton.mp hb, Bool.eq_false_iff, ne_eq, sameKey_iff_isOf hof]
    exact habsent a ha

/-- Rows of one identity are one. -/
theorem eq_of_isNumbered (h : ObeySchema rows) {id : Uuid} {a b : StatusRow} (ha : a ∈ rows)
    (hb : b ∈ rows) (hida : Store.isNumbered id a = true) (hidb : Store.isNumbered id b = true) :
    a = b := by
  have hsymm : Std.Symm fun a b : StatusRow => sameCell a.id b.id = false := by
    refine ⟨?_⟩
    intro x y hxy
    simp only [sameCell, Bool.and_eq_false_iff, decide_eq_false_iff_not, not_not] at hxy ⊢
    grind
  by_contra hne
  have hdiffer := h.ids.forall ha hb hne
  simp only [Store.isNumbered, Bool.and_eq_true, decide_eq_true_eq] at hida hidb
  rw [hida.1, hidb.1] at hdiffer
  simp [sameCell] at hdiffer

end ObeySchema
end StatusRow

namespace Store

/-- What other writers may add while a key is written: rows of the key, with identities of
their own. -/
structure Admits (s : Store) (key : StatusKey) (contention : Nat → Contention) : Prop where
  ofKey : Contests contention key
  fresh : ∀ attempt reason r, contention attempt = .lost reason (some r) →
    ∀ row ∈ s.statuses, sameCell row.id r.id = false

/-- The store that a plan is shown after a number of lost insertions. -/
def contested (s : Store) (contention : Nat → Contention) : Nat → Store
  | 0 => s
  | lost + 1 => s.withRival (contention lost)

/-- A key that had no row has one at most when a rival has come. -/
theorem obeySchema_contested {s : Store} {key : StatusKey} {contention : Nat → Contention}
    (hschema : StatusRow.ObeySchema s.statuses) (hadmits : s.Admits key contention) {lost : Nat}
    (habsent : 0 < lost → s.findStatus? key = none) :
    StatusRow.ObeySchema (s.contested contention lost).statuses := by
  cases lost with
  | zero => exact hschema
  | succ lost =>
      obtain hsame | ⟨reason, r, hlost, hjoined⟩ := s.withRival_cases (contention lost)
      · rw [contested, hsame]
        exact hschema
      · have hof := hadmits.ofKey _ _ _ hlost
        have hnone := List.find?_eq_none.mp (habsent (Nat.succ_pos lost))
        rw [contested, hjoined]
        exact hschema.snoc hof hnone (hadmits.fresh _ _ _ hlost)

/-! ## What the plan is asked -/

/-- A plan is asked again only if it was shown that there is nothing.  Its last answer is about the
store with the rival in it, and is what is written, if anything is. -/
theorem runPlan_asked {key : StatusKey} {id : Uuid} {planner : Planner}
    {contention : Nat → Contention} (hcontests : Contests contention key) (left : Nat) (s : Store)
    (earlier : List (Option StatusRecord)) (cancelled : Bool) (existing : Option StatusRecord)
    (hexisting : s.getStatusForUpdate key = .ok existing) :
    ∃ lost last base, lost ≤ left ∧ (0 < lost → existing = none) ∧
      base = s.contested (fun i => contention (earlier.length + i)) lost ∧
      base.getStatusForUpdate key = .ok last ∧
      (runPlan key id planner contention left s earlier cancelled existing).calls =
        earlier ++ List.replicate lost none ++ [last] ∧
      ∀ draft inserted,
        (runPlan key id planner contention left s earlier cancelled existing).ending =
          .ok (.written draft inserted) →
        Writes (fun _ => planner (earlier ++ List.replicate lost none)) key id base draft
          inserted := by
  induction left using Nat.strongRecOn generalizing s earlier cancelled existing with
  | ind left ih =>
      cases isAsked_runPlan left s earlier cancelled existing hexisting with
      | ended calls ending =>
          exact ⟨0, existing, s, Nat.zero_le _, by simp, rfl, hexisting, by simpa using calls,
            fun draft inserted hrun => absurd hrun (ending draft inserted)⟩
      | written calls ending writes =>
          refine ⟨0, existing, s, Nat.zero_le _, by simp, rfl, hexisting, by simpa using calls, ?_⟩
          intro draft inserted hrun
          cases hrun.symm.trans ending
          simpa using writes
      | @again left' cancelled' next found more absent rival read rest =>
          subst absent
          obtain ⟨lost, last, base, hfew, hnone, hbase, hlast, hcalls, hwrites⟩ :=
            ih left' (by omega) _ _ cancelled' _ read
          have hgrown : earlier ++ [none] ++ List.replicate lost none =
              earlier ++ List.replicate (lost + 1) (none : Option StatusRecord) := by
            rw [List.append_assoc, List.replicate_succ]
            rfl
          rw [hgrown] at hcalls hwrites
          refine ⟨lost + 1, last, base, by omega, fun _ => rfl, ?_, hlast, ?_, ?_⟩
          · cases lost with
            | zero =>
                rw [hbase]
                exact rival
            | succ lost =>
                -- The plan is asked a third time, so the first insertion was lost to nobody.
                have hsame : next = s := by
                  obtain hsame | ⟨reason, r, hlost, hjoined⟩ :=
                    s.withRival_cases (contention earlier.length)
                  · exact rival.trans hsame
                  · rw [rival, hjoined, hnone (Nat.succ_pos lost)] at read
                    exact absurd (isSome_of_getStatusForUpdate read (hcontests _ _ _ hlost))
                      (by simp)
                have hattempt : earlier.length + 1 + lost = earlier.length + (lost + 1) := by omega
                rw [hbase, hsame, contested, contested, List.length_append, List.length_singleton,
                  hattempt]
          · rw [rest]
            exact hcalls
          · intro draft inserted hrun
            rw [rest] at hrun
            exact hwrites draft inserted hrun

/-- What an upsert that wrote was shown and wrote. -/
structure Asked (s : Store) (key : StatusKey) (id : Uuid) (planner : Planner)
    (contention : Nat → Contention) (ans : UpsertAnswer) (inserted : Bool) (r : StatusRecord)
    (lost : Nat) (last : Option StatusRecord) : Prop where
  few : lost < attempts
  absent : 0 < lost → s.findStatus? key = none
  calls : ans.calls = List.replicate lost none ++ [last]
  shown : (s.contested contention lost).getStatusForUpdate key = .ok last
  writes : Writes (fun _ => planner (List.replicate lost none)) key id
    (s.contested contention lost) ans.store inserted
  readBack : ∃ row, ans.store.findStatus? key = some row ∧ StatusRecord.ofRow row = .ok r

theorem exists_asked {s : Store} {cancel : Cancellation} {key : StatusKey} {id : Uuid}
    {planner : Planner} {contention : Nat → Contention} (hcontests : Contests contention key)
    {inserted : Bool} {r : StatusRecord}
    (hresult : (s.upsertStatus cancel key id planner contention).result =
      .ok (writtenOutcome inserted r)) :
    ∃ lost last, Asked s key id planner contention
      (s.upsertStatus cancel key id planner contention) inserted r lost last := by
  obtain ⟨e, hanswer⟩ | hanswer | ⟨existing, draft, isNew, record, hstart, hrun, hanswer, -, hread⟩ :=
    s.upsertStatus_ends cancel key id planner contention
  · rw [hanswer] at hresult
    cases hresult
  · rw [hanswer] at hresult
    cases inserted <;> cases hresult
  · have hsame : isNew = inserted ∧ record = r := by
      rw [hanswer] at hresult
      cases isNew <;> cases inserted <;> cases hresult <;> exact ⟨rfl, rfl⟩
    obtain ⟨rfl, rfl⟩ := hsame
    obtain ⟨-, hexisting⟩ := startUpsert_eq_ok hstart
    obtain ⟨lost, last, base, hfew, habsent, rfl, hlast, hcalls, hwrites⟩ :=
      @runPlan_asked key id planner contention hcontests (attempts - 1) s [] false existing
        hexisting
    simp only [List.length_nil, Nat.zero_add] at hlast hwrites
    rw [hanswer]
    refine ⟨lost, last, Nat.lt_of_le_of_lt hfew (by decide), ?_, hcalls, hlast, hwrites _ _ hrun, hread⟩
    intro hlost
    rw [habsent hlost] at hexisting
    exact absent_of_getStatusForUpdate hexisting

end Store

/-! ## What comes of it -/

/-- What a plan is shown of a row: what its columns say; data and metadata that cannot be read are
shown as absent. -/
structure StatusRow.IsShownAs (row : StatusRow) (shown : StatusRecord) : Prop where
  columns : row.Says shown
  data : ∃ text, row.data = .ofText? text ∧ shown.data = text.bind (Json.decode? Json.readValue)
  metadata : ∃ text, row.metadata = .ofText? text ∧
    shown.metadata = text.bind (Json.decode? ExecutionMetadata.read)

/-- The row holds what is written. -/
structure StatusRow.Carries (row : StatusRow) (w : StatusWrite) : Prop where
  observedGeneration : row.observedGeneration = .int w.observedGeneration
  conditions : row.conditions = .text w.conditions
  data : row.data = w.dataCell
  metadata : row.metadata = w.metadataCell
  lastReportTime : row.lastReportTime = .text w.now.toStorageText

theorem StatusRow.carries_iff {row : StatusRow} {w : StatusWrite} :
    row.Carries w ↔ w.applyTo row = row := by
  constructor
  · rintro ⟨hgeneration, hconditions, hdata, hmetadata, htime⟩
    rw [StatusWrite.applyTo, ← hgeneration, ← hconditions, ← hdata, ← hmetadata, ← htime]
  · intro h
    rw [← h]
    exact ⟨rfl, rfl, rfl, rfl, rfl⟩

theorem tolerated_jsonOf {α : Type} (reader : Json.Reader α) (what : String)
    (text : Option String) :
    StatusRecord.ofRowForUpdate.tolerated (StatusColumns.jsonOf reader what text) =
      text.bind (Json.decode? reader) := by
  cases text with
  | none => rfl
  | some raw =>
      simp only [StatusColumns.jsonOf, decodeJson, Option.bind_some]
      cases Json.decode? reader raw <;> rfl

theorem StatusRecord.isShownAs_of_ofRowForUpdate {row : StatusRow} {record : StatusRecord}
    (h : StatusRecord.ofRowForUpdate row = .ok record) : row.IsShownAs record := by
  have hcolumns := StatusRecord.says_of_ofRowForUpdate h
  simp only [ofRowForUpdate, bind_eq_ok_iff, StatusColumns.ofRow_eq_ok_iff,
    StatusColumns.record_eq_ok_iff] at h
  obtain ⟨c, ⟨-, -, -, -, -, -, hdata, hmetadata, -, -⟩, -, hdata', hmetadata', -⟩ := h
  refine ⟨hcolumns, ⟨_, hdata, ?_⟩, ⟨_, hmetadata, ?_⟩⟩
  · rw [← Except.ok.inj hdata']
    exact tolerated_jsonOf _ _ _
  · rw [← Except.ok.inj hmetadata']
    exact tolerated_jsonOf _ _ _

namespace UpsertAnswer

/-- What an upsert has come to: the one live row of the key holds what the last answer of the plan
says, and that answer was about the row that was overwritten, or about none where a row was
added. -/
structure Merges (ans : UpsertAnswer) (planner : Planner) (key : StatusKey) (base : Store)
    (inserted : Bool) (r : StatusRecord) (earlier : List (Option StatusRecord))
    (shown : Option StatusRecord) (w : StatusWrite) (row : StatusRow) : Prop where
  calls : ans.calls = earlier ++ [shown]
  few : ans.calls.length ≤ 3
  plan : (planner earlier shown).plan = .write w
  only : ans.store.statuses.filter (·.isOf key) = [row]
  read : StatusRecord.ofRow row = .ok r
  carries : row.Carries w
  isNew : inserted = true ↔ base.findStatus? key = none
  added : base.findStatus? key = none → shown = none
  overwritten : ∀ old, base.findStatus? key = some old →
    (∃ previous, shown = some previous ∧ old.IsShownAs previous) ∧
      row.id = old.id ∧ row.createdTime = old.createdTime
  others : ans.store.statuses.filter (!·.isOf key) = base.statuses.filter (!·.isOf key)

/-- An upsert that has missed: the row of the key has its identity not in the written form, so what
the plan says of it was written over another row, which has. -/
structure Misses (ans : UpsertAnswer) (planner : Planner) (key : StatusKey) (base : Store)
    (earlier : List (Option StatusRecord)) (previous : StatusRecord) (w : StatusWrite)
    (row other : StatusRow) : Prop where
  calls : ans.calls = earlier ++ [some previous]
  plan : (planner earlier (some previous)).plan = .write w
  found : base.findStatus? key = some row
  shown : row.IsShownAs previous
  misspelt : row.id ≠ .text previous.id.toText
  hit : other ∈ base.statuses ∧ Store.isNumbered previous.id other = true
  changes : ¬ (row.Carries w ∧ other.Carries w)

/-- The upsert has merged. -/
def HasMerged (ans : UpsertAnswer) (planner : Planner) (key : StatusKey) (base : Store)
    (inserted : Bool) (r : StatusRecord) : Prop :=
  ∃ earlier shown w row, ans.Merges planner key base inserted r earlier shown w row

/-- The upsert has missed. -/
def HasMissed (ans : UpsertAnswer) (planner : Planner) (key : StatusKey) (base : Store) : Prop :=
  ∃ earlier previous w row other, ans.Misses planner key base earlier previous w row other

end UpsertAnswer

namespace Store

/-- The store that the last call of the plan was about. -/
def metBy (s : Store) (contention : Nat → Contention) (ans : UpsertAnswer) : Store :=
  s.contested contention (ans.calls.length - 1)

/-! ## An upsert merges, unless it misses -/

/-- The rows of a key, or all others, are overwritten in place. -/
theorem filter_overwritten (base : Store) (id : Uuid) (w : StatusWrite) (key : StatusKey)
    (p : Bool → Bool) :
    (base.overwritten id w).statuses.filter (fun r => p (r.isOf key)) =
      (base.statuses.filter fun r => p (r.isOf key)).map fun r =>
        if isNumbered id r then w.applyTo r else r := by
  simp only [overwritten, List.filter_map, Function.comp_def, overwritten_same]

namespace Asked

variable {s : Store} {key : StatusKey} {id : Uuid} {planner : Planner}
  {contention : Nat → Contention} {ans : UpsertAnswer} {inserted : Bool} {r : StatusRecord}
  {lost : Nat} {last : Option StatusRecord}

theorem length_calls (h : Asked s key id planner contention ans inserted r lost last) :
    ans.calls.length = lost + 1 := by
  simp [h.calls]

theorem calls_le (h : Asked s key id planner contention ans inserted r lost last) :
    ans.calls.length ≤ 3 := by
  have hfew := h.few
  rw [h.length_calls]
  exact hfew

theorem earlier_eq (h : Asked s key id planner contention ans inserted r lost last)
    {earlier : List (Option StatusRecord)} {shown : Option StatusRecord}
    (hcalls : ans.calls = earlier ++ [shown]) :
    earlier = List.replicate lost none ∧ shown = last := by
  have happend := hcalls.symm.trans h.calls
  have hearlier := List.append_inj_left' happend rfl
  have hshown := List.append_inj_right' happend rfl
  exact ⟨hearlier, List.singleton_inj.mp hshown⟩

/-- A row that was added is what the plan says of nothing. -/
theorem merges_insert (h : Asked s key id planner contention ans inserted r lost last)
    {w : StatusWrite} (hplan : (planner (List.replicate lost none) none).plan = .write w)
    (habsent : (s.contested contention lost).findStatus? key = none) (hinserted : inserted = true)
    (hstore : ans.store = (s.contested contention lost).withStatus (w.toRow id key)) :
    ans.Merges planner key (s.contested contention lost) inserted r (List.replicate lost none) last w
      (w.toRow id key) := by
  have hlast : last = none := by
    obtain ⟨-, hnone⟩ | ⟨row, record, hfind, -⟩ := getStatusForUpdate_eq_ok_iff.mp h.shown
    · exact hnone
    · rw [habsent] at hfind
      cases hfind
  have hnone := List.find?_eq_none.mp habsent
  have hfilter : (s.contested contention lost).statuses.filter (·.isOf key) = [] :=
    List.filter_eq_nil_iff.mpr hnone
  have hof := isOf_toRow w id key
  refine ⟨h.calls, h.calls_le, hlast ▸ hplan, ?_, ?_, ⟨rfl, rfl, rfl, rfl, rfl⟩, ?_, fun _ => hlast,
    ?_, ?_⟩
  · simp [hstore, withStatus, List.filter_append, hfilter, hof]
  · obtain ⟨row, hfind, hread⟩ := h.readBack
    rw [hstore, findStatus?_withStatus habsent] at hfind
    cases hfind
    exact hread
  · simp [hinserted, habsent]
  · intro old hold
    rw [habsent] at hold
    cases hold
  · simp [hstore, withStatus, List.filter_append, hof]

variable {w : StatusWrite} {row : StatusRow} {previous : StatusRecord}

/-- The row of the key, if it is the one that was overwritten, is what the plan says of it. -/
theorem merges_update (h : Asked s key id planner contention ans inserted r lost last)
    (hschema : StatusRow.ObeySchema (s.contested contention lost).statuses)
    (hplan : (planner (List.replicate lost none) (some previous)).plan = .write w)
    (hfound : (s.contested contention lost).findStatus? key = some row)
    (hshown : row.IsShownAs previous) (hlast : last = some previous) (hinserted : inserted = false)
    (hstore : ans.store = (s.contested contention lost).overwritten previous.id w)
    (hnumbered : isNumbered previous.id row = true) :
    ans.Merges planner key (s.contested contention lost) inserted r (List.replicate lost none) last w
      (w.applyTo row) := by
  have hrow := List.mem_of_find?_eq_some hfound
  have hfilter := hschema.filter_isOf hrow (findStatus?_isOf hfound)
  refine ⟨h.calls, h.calls_le, hlast ▸ hplan, ?_, ?_, ⟨rfl, rfl, rfl, rfl, rfl⟩, ?_, ?_, ?_, ?_⟩
  · rw [hstore, filter_overwritten _ _ _ _ fun b => b, hfilter, List.map_singleton,
      if_pos hnumbered]
  · obtain ⟨row', hfind, hread⟩ := h.readBack
    rw [hstore, findStatus?_overwritten_of_isNumbered hfound hnumbered] at hfind
    cases hfind
    exact hread
  · simp [hinserted, hfound]
  · intro habsent
    rw [hfound] at habsent
    cases habsent
  · intro old hold
    cases hfound.symm.trans hold
    exact ⟨⟨previous, hlast, hshown⟩, rfl, rfl⟩
  · rw [hstore, filter_overwritten _ _ _ _ fun b => !b]
    refine (List.map_congr_left ?_).trans (List.map_id _)
    intro other hother
    obtain ⟨hmem, hforeign⟩ := List.mem_filter.mp hother
    have hnot : ¬ isNumbered previous.id other = true := by
      intro hsame
      rw [hschema.eq_of_isNumbered hmem hrow hsame hnumbered, findStatus?_isOf hfound] at hforeign
      cases hforeign
    rw [if_neg hnot]
    rfl

/-- If the row of the key was not the one that was overwritten, all is as it should be only
if both rows were already as they should be. -/
theorem misses_update (h : Asked s key id planner contention ans inserted r lost last)
    (hschema : StatusRow.ObeySchema (s.contested contention lost).statuses)
    (hplan : (planner (List.replicate lost none) (some previous)).plan = .write w)
    (hfound : (s.contested contention lost).findStatus? key = some row)
    (hshown : row.IsShownAs previous) (hlast : last = some previous) (hinserted : inserted = false)
    (hstore : ans.store = (s.contested contention lost).overwritten previous.id w)
    (hany : (s.contested contention lost).statuses.any (isNumbered previous.id) = true)
    (hnumbered : ¬ isNumbered previous.id row = true) :
    ans.HasMerged planner key (s.contested contention lost) inserted r ↔
      ¬ ans.HasMissed planner key (s.contested contention lost) := by
  have hrow := List.mem_of_find?_eq_some hfound
  have hof := findStatus?_isOf hfound
  have hfilter := hschema.filter_isOf hrow hof
  have hmisspelt : row.id ≠ .text previous.id.toText := by
    intro hid
    simp [isNumbered, hid, findStatus?_isLive hfound] at hnumbered
  have hcalls : ans.calls = List.replicate lost none ++ [some previous] := hlast ▸ h.calls
  obtain ⟨other, hother, hhit⟩ := List.any_eq_true.mp hany
  have honly : ans.store.statuses.filter (·.isOf key) = [row] := by
    rw [hstore, filter_overwritten _ _ _ _ fun b => b, hfilter, List.map_singleton, if_neg hnumbered]
  constructor
  · rintro ⟨earlier, shown, w', row', hmerges⟩ ⟨earlier', previous', w'', row'', other', hmisses⟩
    obtain ⟨rfl, rfl⟩ := h.earlier_eq hmerges.calls
    obtain ⟨rfl, hprevious⟩ := h.earlier_eq hmisses.calls
    rw [hlast] at hprevious
    cases hprevious
    have hplan' := hmerges.plan
    rw [hlast, hplan] at hplan'
    cases hplan'
    cases hplan.symm.trans hmisses.plan
    cases hfound.symm.trans hmisses.found
    obtain ⟨hother', hhit'⟩ := hmisses.hit
    have hsame := List.singleton_inj.mp (honly.symm.trans hmerges.only)
    cases hsame
    -- The other row stands where it stood, and has been overwritten with what was there.
    apply hmisses.changes
    refine ⟨hmerges.carries, StatusRow.carries_iff.mpr ?_⟩
    have hothers := hmerges.others
    rw [hstore, filter_overwritten _ _ _ _ fun b => !b] at hothers
    have hforeign : other'.isOf key = false := by
      rw [Bool.eq_false_iff]
      intro hofOther
      have hmem : other' ∈ (s.contested contention lost).statuses.filter (·.isOf key) :=
        List.mem_filter.mpr ⟨hother', hofOther⟩
      rw [hfilter, List.mem_singleton] at hmem
      rw [hmem] at hhit'
      exact hnumbered hhit'
    have hfixed := List.map_inj_left.mp (hothers.trans (List.map_id _).symm) other'
      (List.mem_filter.mpr ⟨hother', by simp [hforeign]⟩)
    rw [if_pos hhit'] at hfixed
    exact hfixed
  · intro hnone
    have hcarries : row.Carries w ∧ other.Carries w := by
      by_contra hchanges
      exact hnone ⟨_, _, _, _, other, hcalls, hplan, hfound, hshown, hmisspelt, ⟨hother, hhit⟩,
        hchanges⟩
    have hsame : (s.contested contention lost).overwritten previous.id w =
        s.contested contention lost := by
      by_contra hchanged
      obtain ⟨hit, hmem, hhit', hchanges⟩ := overwritten_ne_iff.mp hchanged
      rw [hschema.eq_of_isNumbered hmem hother hhit' hhit] at hchanges
      exact hchanges (StatusRow.carries_iff.mp hcarries.2)
    refine ⟨_, last, w, row, h.calls, h.calls_le, hlast ▸ hplan, honly, ?_, hcarries.1, ?_, ?_, ?_,
      ?_⟩
    · obtain ⟨row', hfind, hread⟩ := h.readBack
      rw [hstore, hsame, hfound] at hfind
      cases hfind
      exact hread
    · simp [hinserted, hfound]
    · intro habsent
      rw [hfound] at habsent
      cases habsent
    · intro old hold
      cases hfound.symm.trans hold
      exact ⟨⟨previous, hlast, hshown⟩, rfl, rfl⟩
    · rw [hstore, hsame]

/-- An upsert that wrote has merged, unless it has missed. -/
theorem merges_iff (h : Asked s key id planner contention ans inserted r lost last)
    (hschema : StatusRow.ObeySchema (s.contested contention lost).statuses) :
    ans.HasMerged planner key (s.contested contention lost) inserted r ↔
      ¬ ans.HasMissed planner key (s.contested contention lost) := by
  obtain ⟨draft, hstore⟩ : ∃ draft, ans.store = draft := ⟨_, rfl⟩
  obtain ⟨isNew, hisNew⟩ : ∃ isNew, inserted = isNew := ⟨_, rfl⟩
  have hwrites := h.writes
  rw [hstore, hisNew] at hwrites
  cases hwrites with
  | insert plan fresh absent =>
      refine iff_of_true ⟨_, _, _, _, h.merges_insert plan absent hisNew hstore⟩ ?_
      rintro ⟨_, _, _, _, _, hmisses⟩
      have hfound := hmisses.found
      rw [absent] at hfound
      cases hfound
  | @update _ w row previous plan found read numbered =>
      have hlast : last = some previous := by
        obtain ⟨habsent, -⟩ | ⟨row', record, hfind, hread, hlast⟩ :=
          getStatusForUpdate_eq_ok_iff.mp h.shown
        · rw [found] at habsent
          cases habsent
        · cases found.symm.trans hfind
          cases read.symm.trans hread
          exact hlast
      have hshown := StatusRecord.isShownAs_of_ofRowForUpdate read
      by_cases hown : isNumbered previous.id row = true
      · refine iff_of_true ⟨_, _, _, _, h.merges_update hschema plan found hshown hlast hisNew hstore
          hown⟩ ?_
        rintro ⟨_, previous', _, row', _, hmisses⟩
        obtain ⟨-, hprevious⟩ := h.earlier_eq hmisses.calls
        rw [hlast] at hprevious
        cases hprevious
        cases found.symm.trans hmisses.found
        apply hmisses.misspelt
        simp only [isNumbered, Bool.and_eq_true, decide_eq_true_eq] at hown
        exact hown.1
      · exact h.misses_update hschema plan found hshown hlast hisNew hstore numbered hown

/-- A rival that came before the last call is what that call was about. -/
theorem findStatus?_rival (h : Asked s key id planner contention ans inserted r lost last)
    (hcontests : Contests contention key) {attempt : Nat} {reason : String} {rival : StatusRow}
    (hattempt : lost = attempt + 1) (hrival : contention attempt = .lost reason (some rival)) :
    (s.contested contention lost).findStatus? key = some rival := by
  have habsent : s.statuses.find? (·.isOf key) = none := h.absent (by omega)
  have hof := hcontests _ _ _ hrival
  rw [hattempt, contested, hrival]
  simp [withRival, withWinner, findStatus?, List.find?_append, habsent, hof]

end Asked

/-- An upsert that is answered with a record has merged over the store that the last call of
its plan was about, in which a rival, if one came, has the row of the key; unless it has missed. -/
theorem upsertStatus_merges_iff {s : Store} {key : StatusKey} {contention : Nat → Contention}
    (hschema : StatusRow.ObeySchema s.statuses) (hadmits : s.Admits key contention)
    {cancel : Cancellation} {id : Uuid} {planner : Planner} {inserted : Bool} {r : StatusRecord}
    {ans : UpsertAnswer} (hans : ans = s.upsertStatus cancel key id planner contention)
    (hresult : ans.result = .ok (writtenOutcome inserted r)) :
    (∀ attempt reason rival, ans.calls.length = attempt + 2 →
      contention attempt = .lost reason (some rival) →
        (s.metBy contention ans).findStatus? key = some rival) ∧
    (ans.HasMerged planner key (s.metBy contention ans) inserted r ↔
      ¬ ans.HasMissed planner key (s.metBy contention ans)) := by
  subst hans
  obtain ⟨lost, last, hasked⟩ := exists_asked hadmits.ofKey hresult
  rw [metBy, hasked.length_calls, Nat.add_sub_cancel]
  refine ⟨?_, hasked.merges_iff (obeySchema_contested hschema hadmits hasked.absent)⟩
  intro attempt reason rival hattempt hrival
  exact hasked.findStatus?_rival hadmits.ofKey (by omega) hrival

end Store
end StatusBoard
