import StatusBoard.Proofs.Service.Race
import StatusBoard.Proofs.Store.Independence
set_option autoImplicit false

/-!
# Service: reports for different keys

Reports for different keys do not get in each other's way, in whatever order they come, unless live
rows of the keys are read to have one identity.  That can only be if one of them was edited by hand:
then a report overwrites the row of the other key.
-/

namespace StatusBoard

/-! ## Reports and what they come to -/

/-- The key that a call reports on, if it is a report. -/
def Call.reportKey? (c : Call) : Option StatusKey :=
  match c.request with
  | .report resource r => some (.of resource r.adapter)
  | _ => none

/-- The call with another identity for the row that it may add. -/
def Call.renumber (f : Uuid → Uuid) (c : Call) : Call :=
  { c with freshId := f c.freshId }

/-- The status with the identity that is meant for it. -/
def AdapterStatus.renumber (f : Uuid → Uuid) (status : AdapterStatus) : AdapterStatus :=
  { status with id := f status.id }

/-- The answer to a report with the identity that is meant for the status in it. -/
def Response.renumber (f : Uuid → Uuid) : Response → Response
  | outcome (.stored told isNew) => outcome (.stored (told.renumber f) isNew)
  | response => response

namespace Board

variable {b : Board} {s t : Store} {c : Call} {key : StatusKey} {f : Uuid → Uuid}

/-- A plan asks nothing about the identity of what is stored. -/
theorem planner_renumber (spec : KindSpec) (r : Report) (now : Instant) (record : StatusRecord) :
    planner spec r now [] (some (record.renumber f)) = planner spec r now [] (some record) := rfl

theorem reportOutcome_renumber (spec : KindSpec) (r : Report) (outcome : UpsertOutcome) :
    (reportOutcome spec r (outcome.renumber f)).map Response.outcome =
      ((reportOutcome spec r outcome).map Response.outcome).map (·.renumber f) := by
  have hstatus : ∀ record : StatusRecord, readStatus (record.renumber f) =
      (readStatus record).map (·.renumber f) := by
    intro record
    unfold readStatus StatusRecord.toStatus
    have hsame : (record.renumber f).conditions = record.conditions := rfl
    rw [hsame]
    cases Document.parse record.conditions <;> rfl
  cases outcome with
  | skipped => rfl
  | inserted record | updated record =>
      simp only [UpsertOutcome.renumber, reportOutcome, hstatus]
      cases readStatus record <;> rfl

/-- Two reports on a key that look at the same do the same and are answered alike. -/
theorem exists_effect (hkey : c.reportKey? = some key) (h : Store.Alike f key s t)
    (hf : Function.Injective f) (hunused : s.IsUnused c.freshId)
    (hunused' : t.IsUnused (f c.freshId)) :
    ∃ e result, s.MayDo key c.freshId e ∧ b.answer s c = ⟨e.on s, result⟩ ∧
      b.answer t (c.renumber f) = ⟨(e.renumber f).on t, result.map (·.renumber f)⟩ := by
  unfold Call.reportKey? at hkey
  split at hkey
  · rename_i resource r hrequest
    cases hkey
    have hrequest' : (c.renumber f).request = .report resource r := hrequest
    cases hkind : b.kinds.resolve resource.kind with
    | error e =>
        refine ⟨.nothing, .error (.invalid e), .nothing, ?_, ?_⟩
        · exact answer_report_of_invalid s hrequest (.inl hkind)
        · exact answer_report_of_invalid t hrequest' (.inl hkind)
    | ok spec =>
        cases hvalid : r.validate with
        | error e =>
            refine ⟨.nothing, .error (.invalid e), .nothing, ?_, ?_⟩
            · exact answer_report_of_invalid s hrequest (.inr ⟨⟨spec, hkind⟩, hvalid⟩)
            · exact answer_report_of_invalid t hrequest' (.inr ⟨⟨spec, hkind⟩, hvalid⟩)
        | ok valid =>
            have hspec : b.resolve resource.kind = .ok spec := mapError_eq_ok_iff.mpr hkind
            obtain ⟨e, result, hdo, hs, ht⟩ := Store.exists_effect hf c.cancel
              c.freshId h.sight_eq
              (fun row hfind => h.spelt row (Store.mem_rowsFor_of_findStatus? hfind).1)
              hunused.id_ne hunused'.id_ne (planner_renumber spec r c.now)
            refine ⟨e, (((result.mapError ServiceError.ofStore).bind (reportOutcome spec r)).map
              .outcome), hdo, ?_, ?_⟩
            · rw [answer_report s hrequest hspec hvalid, hs]
              rfl
            · rw [answer_report t hrequest' hspec hvalid]
              change handle.wrap (reply (t.upsertStatus c.cancel (.of resource r.adapter)
                (f c.freshId) (planner spec r c.now) fun _ => .clear).toAnswer _) _ = _
              rw [ht]
              cases result with
              | error e => rfl
              | ok outcome =>
                  simp only [handle.wrap, reply, Except.map, mapError_ok, Except.bind]
                  exact congrArg (Reply.mk _) (reportOutcome_renumber spec r outcome)
  · cases hkey

/-- What a single report does. -/
theorem exists_mayDo (hkey : c.reportKey? = some key) (hunused : s.IsUnused c.freshId) :
    ∃ e, s.MayDo key c.freshId e ∧ (b.answer s c).store = e.on s := by
  have hfixed : s.IsFixedBy fun id => id := fun _ _ _ _ => rfl
  obtain ⟨e, result, hdo, hanswer, -⟩ :=
    exists_effect (b := b) hkey (hfixed.alike key) (fun _ _ h => h) hunused hunused
  exact ⟨e, hdo, by rw [hanswer]⟩

/-! ## Two reports -/

/-- The store after calls, one after the other. -/
def after (b : Board) (s : Store) (calls : List Call) : Store :=
  calls.foldl (fun s c => (b.answer s c).store) s

end Board

namespace Store

/-- The calls are reports, and the identities that are generated for them are those of no row, and
all differ. -/
structure IsReadyFor (s : Store) (calls : List Call) : Prop where
  reports : ∀ c ∈ calls, c.reportKey?.isSome = true
  unused : ∀ c ∈ calls, s.IsUnused c.freshId
  distinct : (calls.map (·.freshId)).Nodup

/-- A key is apart from the other keys that calls report on. -/
def IsApartFrom (s : Store) (key : StatusKey) (calls : List Call) : Prop :=
  ∀ c ∈ calls, ∀ other, c.reportKey? = some other → other ≠ key → s.AreApart key other

variable {s : Store} {c : Call} {calls : List Call} {done : StatusKey} {e : Effect}

theorem IsReadyFor.freshId_ne (h : s.IsReadyFor (c :: calls)) :
    ∀ d ∈ calls, d.freshId ≠ c.freshId := by
  have hdistinct := h.distinct
  rw [List.map_cons, List.nodup_cons] at hdistinct
  exact fun d hd heq => hdistinct.1 (heq ▸ List.mem_map_of_mem hd)

theorem IsReadyFor.on (h : s.IsReadyFor (c :: calls)) (hdo : s.MayDo done c.freshId e) :
    (e.on s).IsReadyFor calls where
  reports := fun d hd => h.reports d (List.mem_cons_of_mem _ hd)
  unused := fun d hd => (h.unused d (List.mem_cons_of_mem _ hd)).on hdo (h.freshId_ne d hd)
  distinct := (List.nodup_cons.mp h.distinct).2

theorem IsApartFrom.on {key : StatusKey} (h : s.IsApartFrom key (c :: calls))
    (hunused : s.IsUnused c.freshId) (hdo : s.MayDo done c.freshId e) :
    (e.on s).IsApartFrom key calls :=
  fun d hd other hother hne =>
    (h d (List.mem_cons_of_mem _ hd) other hother hne).on hne.symm hunused hdo

end Store

namespace Board

variable {b : Board} {s t : Store} {f : Uuid → Uuid}

/-- Two reports for keys that are apart: each is answered as if it came first, and both orders leave
the same rows for every key, but for the identities that are generated. -/
theorem reports_commute (hf : Function.Injective f) (hfixed : s.IsFixedBy f) {c d : Call}
    {keyC keyD : StatusKey} (hc : c.reportKey? = some keyC) (hd : d.reportKey? = some keyD)
    (hkeys : keyC ≠ keyD) (hready : s.IsReadyFor [c, d]) (hapart : s.AreApart keyC keyD) :
    (b.answer (b.answer s (d.renumber f)).store (c.renumber f)).result =
        (b.answer s c).result.map (·.renumber f) ∧
      (b.answer s (d.renumber f)).result =
        (b.answer (b.answer s c).store d).result.map (·.renumber f) ∧
      (b.after s [d.renumber f, c.renumber f]).resources = (b.after s [c, d]).resources ∧
      ∀ key, (b.after s [d.renumber f, c.renumber f]).rowsFor key =
        ((b.after s [c, d]).rowsFor key).map (·.renumber f) := by
  have hunusedC := hready.unused c (by simp)
  have hunusedD := hready.unused d (by simp)
  have hne : c.freshId ≠ d.freshId := by
    have hdistinct := hready.distinct
    simp only [List.map_cons, List.map_nil, List.nodup_cons, List.mem_singleton] at hdistinct
    exact hdistinct.1
  -- What the report for the other key does, in either order, before the one looked at.
  obtain ⟨eC, hdoC, hstoreC⟩ := exists_mayDo (b := b) hc hunusedC
  obtain ⟨eD', hdoD', hstoreD'⟩ :=
    exists_mayDo (b := b) (c := d.renumber f) hd (hunusedD.renumber hf hfixed)
  have hmovedD := hdoC.unmoved hkeys.symm hunusedC hapart.symm
  have hmovedC := hdoD'.unmoved hkeys (hunusedD.renumber hf hfixed) hapart
  have hneF : f c.freshId ≠ f d.freshId := fun h => hne (hf h)
  obtain ⟨a, resultC, hdoA, hanswerC, hanswerC'⟩ :=
    exists_effect (b := b) hc ((hfixed.alike keyC).right hmovedC) hf hunusedC
      ((hunusedC.renumber hf hfixed).on hdoD' hneF)
  obtain ⟨e, resultD, hdoE, hanswerD, hanswerD'⟩ :=
    exists_effect (b := b) hd ((hfixed.alike keyD).left hmovedD) hf (hunusedD.on hdoC hne.symm)
      (hunusedD.renumber hf hfixed)
  have hsame : eC.on s = a.on s := by rw [← hstoreC, hanswerC]
  have hsame' : eD'.on s = (e.renumber f).on s := by rw [← hstoreD', hanswerD']
  rw [hsame] at hanswerD
  rw [hsame'] at hanswerC'
  have hfirst : (b.answer s c).store = a.on s := by rw [hanswerC]
  have hfirst' : (b.answer s (d.renumber f)).store = (e.renumber f).on s := by rw [hanswerD']
  have hboth : b.after s [c, d] = e.on (a.on s) := by
    change (b.answer (b.answer s c).store d).store = _
    rw [hfirst, hanswerD]
  have hboth' : b.after s [d.renumber f, c.renumber f] =
      (a.renumber f).on ((e.renumber f).on s) := by
    change (b.answer (b.answer s (d.renumber f)).store (c.renumber f)).store = _
    rw [hfirst', hanswerC']
  refine ⟨by rw [hfirst', hanswerC', hanswerC], by rw [hanswerD', hfirst, hanswerD], ?_, ?_⟩
  · simp only [hboth, hboth', Effect.resources_on]
  · intro key
    have hspelt := (hfixed.alike key).spelt
    have hdoE' := hmovedD.mayDo hdoE
    rw [hboth, hboth', a.rowsFor_renumber hf (hdoE'.isSpelt_rowsFor hspelt)
      (e.rowsFor_renumber hf hspelt (hfixed.alike key).rows),
      hdoA.rowsFor_comm hdoE' hkeys hapart hunusedC hunusedD key]

/-! ## Many reports -/

/-- The answers to the reports for a key, among calls that come one after the other. -/
def answersFor (b : Board) (key : StatusKey) : Store → List Call → List (Except ServiceError Response)
  | _, [] => []
  | s, c :: calls =>
      let reply := b.answer s c
      if c.reportKey? = some key then reply.result :: answersFor b key reply.store calls
      else answersFor b key reply.store calls

/-- The reports for a key among calls. -/
def reportsFor (key : StatusKey) (calls : List Call) : List Call :=
  calls.filter fun c => c.reportKey? = some key

/-- As long as stores look alike at a key, the reports for the key are answered alike, whether other
reports come between them or not. -/
theorem answersFor_alike (hf : Function.Injective f) {key : StatusKey} {calls : List Call}
    (h : Store.Alike f key s t) (hready : s.IsReadyFor calls)
    (hunused : ∀ c ∈ calls, t.IsUnused (f c.freshId)) (hapart : s.IsApartFrom key calls) :
    b.answersFor key t ((reportsFor key calls).map (·.renumber f)) =
        (b.answersFor key s calls).map (·.map (·.renumber f)) ∧
      Store.Alike f key (b.after s calls)
        (b.after t ((reportsFor key calls).map (·.renumber f))) := by
  induction calls generalizing s t with
  | nil => exact ⟨rfl, h⟩
  | cons c calls ih =>
      have hunusedC := hready.unused c List.mem_cons_self
      obtain ⟨done, hdone⟩ := Option.isSome_iff_exists.mp (hready.reports c List.mem_cons_self)
      by_cases hkey : done = key
      · subst hkey
        obtain ⟨e, result, hdo, hs, ht⟩ :=
          exists_effect (b := b) hdone h hf hunusedC (hunused c List.mem_cons_self)
        have hrest : ∀ d ∈ calls, ((e.renumber f).on t).IsUnused (f d.freshId) := fun d hd =>
          (hunused d (List.mem_cons_of_mem _ hd)).on (h.mayDo hdo)
            fun heq => hready.freshId_ne d hd (hf heq)
        obtain ⟨hanswers, halike⟩ := ih (h.on hf hdo) (hready.on hdo) hrest (hapart.on hunusedC hdo)
        have hdone' : (c.renumber f).reportKey? = some done := hdone
        have hcons : reportsFor done (c :: calls) = c :: reportsFor done calls :=
          List.filter_cons_of_pos (by simp [hdone])
        rw [hcons, List.map_cons]
        constructor
        · simp only [answersFor, hdone, hdone', if_true, hs, ht, hanswers, List.map_cons]
        · simpa only [after, List.foldl_cons, hs, ht] using halike
      · obtain ⟨e, hdo, hstore⟩ := exists_mayDo (b := b) hdone hunusedC
        have hmoved := hdo.unmoved (Ne.symm hkey) hunusedC
          (hapart c List.mem_cons_self done hdone hkey)
        obtain ⟨hanswers, halike⟩ := ih (h.left hmoved) (hready.on hdo)
          (fun d hd => hunused d (List.mem_cons_of_mem _ hd)) (hapart.on hunusedC hdo)
        have hother : ¬ c.reportKey? = some key := by
          rw [hdone, Option.some.injEq]
          exact hkey
        have hcons : reportsFor key (c :: calls) = reportsFor key calls :=
          List.filter_cons_of_neg (by simp [hother])
        rw [hcons]
        constructor
        · simp only [answersFor, if_neg hother, hstore, hanswers]
        · simpa only [after, List.foldl_cons, hstore] using halike

/-- Reports for different keys are independent, whatever the tables hold, as long as no live rows of
the keys are read to have one identity.  Two of them are answered alike in both orders and leave the
same rows for every key.  Of many, in whatever order, those for a key are answered as if they had
come alone, and leave the key the rows that they would have left it alone.  All this is up to the
identities that are generated, for which others may be meant each time. -/
theorem reports_are_independent (b : Board) {s : Store} {f : Uuid → Uuid}
    (hf : Function.Injective f) (hfixed : s.IsFixedBy f) :
    (∀ (c d : Call) (keyC keyD : StatusKey), c.reportKey? = some keyC → d.reportKey? = some keyD →
      keyC ≠ keyD → s.IsReadyFor [c, d] → s.AreApart keyC keyD →
      (b.answer (b.answer s (d.renumber f)).store (c.renumber f)).result =
          (b.answer s c).result.map (·.renumber f) ∧
        (b.answer s (d.renumber f)).result =
          (b.answer (b.answer s c).store d).result.map (·.renumber f) ∧
        (b.after s [d.renumber f, c.renumber f]).resources = (b.after s [c, d]).resources ∧
        ∀ key, (b.after s [d.renumber f, c.renumber f]).rowsFor key =
          ((b.after s [c, d]).rowsFor key).map (·.renumber f)) ∧
    ∀ (calls : List Call) (key : StatusKey), s.IsReadyFor calls → s.IsApartFrom key calls →
      b.answersFor key s ((reportsFor key calls).map (·.renumber f)) =
          (b.answersFor key s calls).map (·.map (·.renumber f)) ∧
        (b.after s ((reportsFor key calls).map (·.renumber f))).rowsFor key =
          ((b.after s calls).rowsFor key).map (·.renumber f) := by
  constructor
  · intro c d keyC keyD hc hd hkeys hready hapart
    exact reports_commute hf hfixed hc hd hkeys hready hapart
  · intro calls key hready hapart
    have hunused : ∀ c ∈ calls, s.IsUnused (f c.freshId) := fun c hc =>
      (hready.unused c hc).renumber hf hfixed
    obtain ⟨hanswers, halike⟩ := answersFor_alike hf (hfixed.alike key) hready hunused hapart
    exact ⟨hanswers, halike.rows⟩

/-- The adapter `a1` has reported, and `a2` has not. -/
def orderlyStore : Store :=
  { strayStore with statuses := [strayRow "00000000-0000-4000-8000-000000abcdef" "a1" "[]"] }

/-- A report by an adapter with all that is mandatory. -/
def plainCall (adapter : String) (generation : Int64) (freshId : Uuid) : Call where
  now := default
  freshId := freshId
  cancel := .never
  request := .report ⟨"Cluster", "00000000-0000-4000-8000-000000000001"⟩ {
    adapter := adapter
    observedGeneration := generation
    conditions := KindRegistry.usualMandatory.map fun type => { type, status := .holds } }

/-- Both adapters report. -/
def plainCalls : List Call :=
  [plainCall "a1" 7 default, plainCall "a2" 8 sampleId]

/-- The key of the adapter `a1`. -/
def rivalKey : StatusKey :=
  { raceKey with adapter := "a1" }

theorem reports_are_independent_sample :
    ((sampleBoard.after orderlyStore plainCalls.reverse).rowsFor rivalKey).map
        (·.observedGeneration) = [.int 7] ∧
      (sampleBoard.after orderlyStore plainCalls).rowsFor raceKey =
        (sampleBoard.after orderlyStore [plainCall "a2" 8 sampleId]).rowsFor raceKey := by
  have hsame : ∀ r : StatusRow, r.renumber (fun id => id) = r := fun r =>
    StatusRow.renumber_of_fixed fun _ _ => rfl
  have hready : orderlyStore.IsReadyFor plainCalls := ⟨by decide, by decide +kernel, by decide⟩
  have hnone : orderlyStore.rowsFor raceKey = [] := by decide
  have hapart : ∀ other, orderlyStore.AreApart raceKey other := by
    intro other r hr
    rw [hnone] at hr
    cases hr
  obtain ⟨hcommute, halone⟩ := reports_are_independent sampleBoard (s := orderlyStore)
    (f := fun id => id) (fun _ _ h => h) fun _ _ _ _ => rfl
  constructor
  · obtain ⟨-, -, -, hrows⟩ := hcommute (plainCall "a1" 7 default)
      (plainCall "a2" 8 sampleId) rivalKey raceKey rfl rfl (by decide) hready
      (hapart rivalKey).symm
    refine (congrArg (List.map (·.observedGeneration)) (hrows rivalKey)).trans ?_
    simp only [hsame, List.map_id']
    decide +kernel
  · obtain ⟨-, hrows⟩ := halone plainCalls raceKey hready fun _ _ other _ _ => hapart other
    simp only [hsame, List.map_id'] at hrows
    exact hrows.symm

/-- Both adapters report, and the row of `a1` is what `a1` has reported only if it comes last. -/
theorem misspelt_reports_depend :
    ¬ ∀ (b : Board) (s : Store) (c d : Call) (keyC keyD : StatusKey),
      c.reportKey? = some keyC → d.reportKey? = some keyD → keyC ≠ keyD → s.IsReadyFor [c, d] →
      ∀ key, (b.after s [d, c]).rowsFor key = (b.after s [c, d]).rowsFor key := by
  intro h
  have hready : misspeltStore.IsReadyFor plainCalls := ⟨by decide, by decide +kernel, by decide⟩
  have hrows := h sampleBoard misspeltStore (plainCall "a1" 7 default)
    (plainCall "a2" 8 sampleId) rivalKey raceKey rfl rfl (by decide) hready rivalKey
  exact absurd hrows (by decide +kernel)

end Board
end StatusBoard
