import StatusBoard.Proofs.Service.History
import StatusBoard.Proofs.Store.Written
set_option autoImplicit false

/-!
# Service: the gate holds for everything stored

Checks are made of requests and not of rows.  Still, whatever calls were made, every row is one that
passes: a row of statuses is what its last report makes, which passed its checks and the gate of its
kind, and the conditions of a resource are what was last set, which passed its checks.
-/

namespace StatusBoard

/-! ## What is asked of rows -/

/-- The document speaks of one generation, names each type once and in the right shape, and settles
all that is mandatory. -/
structure Document.IsSettled (d : Document) (spec : KindSpec) (generation : Int64) : Prop where
  types : ∀ type ∈ d.types, isPascalCase type = true
  distinct : d.types.Nodup
  generation : ∀ c ∈ d.conditions, c.observedGeneration = generation
  mandatory : ∀ type ∈ spec.mandatory,
    ∃ c ∈ d.conditions, c.type = type ∧ (c.status = .holds ∨ c.status = .fails)

/-- The document names each type once and in the right shape, and leaves nothing unknown. -/
structure Document.IsDeterminate (d : Document) : Prop where
  types : ∀ type ∈ d.types, isPascalCase type = true
  distinct : d.types.Nodup
  known : ∀ c ∈ d.conditions, c.status ≠ .unknown

/-- A row of statuses of a registered kind, by an adapter with a name, whose document is settled. -/
structure StatusRow.PassesAs (row : StatusRow) (kinds : KindRegistry) (kind sender : String)
    (spec : KindSpec) (generation : Int64) (d : Document) : Prop where
  resourceType : row.resourceType = .text kind
  registered : kinds.resolve kind = .ok spec
  adapter : row.adapter = .text sender
  named : Text.isAllBlank sender = false
  observedGeneration : row.observedGeneration = .int generation
  counted : 0 ≤ generation
  conditions : ∃ raw, row.conditions = .text raw ∧ Document.parse raw = .ok d
  settled : d.IsSettled spec generation

/-- A row of statuses that passes the gate of its kind. -/
def StatusRow.Passes (row : StatusRow) (kinds : KindRegistry) : Prop :=
  ∃ kind sender spec generation d, row.PassesAs kinds kind sender spec generation d

/-- A row of a resource of a registered kind, whose name and labels are in the right shape, and
whose document is determinate. -/
structure ResourceRow.PassesAs (row : ResourceRow) (kinds : KindRegistry) (kind name : String)
    (spec : KindSpec) (labels : Dict String) (d : Document) : Prop where
  kindText : row.kind = .text kind
  registered : kinds.resolve kind = .ok spec
  nameText : row.name = .text name
  wellNamed : isResourceName name = true
  labelsText : ∃ raw, row.labels = .text raw ∧
    Json.decode? (Json.readDict Json.readText) raw = some labels
  wellLabelled : ∀ key ∈ Dict.keys labels, isLabelKey key = true
  conditions : ∃ raw, row.statusConditions = .text raw ∧ Document.parse raw = .ok d
  determinate : d.IsDeterminate

/-- A row of a resource that passes all checks. -/
def ResourceRow.Passes (row : ResourceRow) (kinds : KindRegistry) : Prop :=
  ∃ kind name spec labels d, row.PassesAs kinds kind name spec labels d

/-! ## Documents of the last revision -/

namespace Document.Follows

variable {d : Document} {history : List Revision} {last : Revision}

/-- What the document says it was told by the last revision. -/
theorem exists_input (h : d.Follows history) (hlast : history.getLast? = some last)
    {c : Condition} (hc : c ∈ d.conditions) :
    c.observedGeneration = last.generation ∧
      ∃ input ∈ last.conditions, input.type = c.type ∧ input.status = c.status := by
  obtain ⟨last', hlast', hsaid, -⟩ := h.said
  cases hlast.symm.trans hlast'
  have hmem := List.mem_map_of_mem hc
    (f := fun c => (c.type, c.status, c.reason, c.message, c.observedGeneration))
  rw [hsaid] at hmem
  obtain ⟨input, hinput, heq⟩ := List.mem_map.mp hmem
  simp only [Prod.mk.injEq] at heq
  exact ⟨heq.2.2.2.2.symm, input, hinput, heq.1, heq.2.1⟩

/-- All that the last revision said is in the document. -/
theorem exists_condition (h : d.Follows history) (hlast : history.getLast? = some last)
    {input : ConditionInput} (hinput : input ∈ last.conditions) :
    ∃ c ∈ d.conditions, c.type = input.type ∧ c.status = input.status := by
  obtain ⟨last', hlast', hsaid, -⟩ := h.said
  cases hlast.symm.trans hlast'
  have hmem := List.mem_map_of_mem hinput
    (f := fun c => (c.type, c.status, c.reason, c.message, last.generation))
  rw [← hsaid] at hmem
  obtain ⟨c, hc, heq⟩ := List.mem_map.mp hmem
  simp only [Prod.mk.injEq] at heq
  exact ⟨c, hc, heq.1, heq.2.1⟩

/-- The types of the document have passed the check that those of the last revision passed. -/
theorem isPascalCase_of_mem (h : d.Follows history) (hlast : history.getLast? = some last)
    (hcheck : checkInputs last.conditions = .ok ()) :
    ∀ type ∈ d.types, isPascalCase type = true := by
  intro type htype
  obtain ⟨c, hc, rfl⟩ := List.mem_map.mp htype
  obtain ⟨-, input, hinput, heq, -⟩ := h.exists_input hlast hc
  rw [← heq]
  exact (checkInputs_eq_ok_iff.mp hcheck).1 input hinput

theorem isSettled (h : d.Follows history) (hlast : history.getLast? = some last)
    (hdistinct : d.HasDistinctTypes) (hcheck : checkInputs last.conditions = .ok ())
    {spec : KindSpec} (hgate : passesMandatory last.conditions spec.mandatory = .ok ()) :
    d.IsSettled spec last.generation where
  types := h.isPascalCase_of_mem hlast hcheck
  distinct := hdistinct
  generation := fun _ hc => (h.exists_input hlast hc).1
  mandatory := by
    intro type htype
    obtain ⟨input, hfind, hknown⟩ := passesMandatory_eq_ok_iff.mp hgate type htype
    obtain ⟨c, hc, hctype, hcstatus⟩ :=
      h.exists_condition hlast (List.mem_of_find?_eq_some hfind)
    refine ⟨c, hc, hctype.trans (by simpa using List.find?_some hfind), ?_⟩
    rw [hcstatus]
    revert hknown
    cases input.status <;> simp [ConditionStatus.isDeterminate]

theorem isDeterminate (h : d.Follows history) (hlast : history.getLast? = some last)
    (hdistinct : d.HasDistinctTypes)
    (hcheck : checkResourceConditions last.conditions = .ok ()) : d.IsDeterminate := by
  obtain ⟨hinputs, hknown⟩ := checkResourceConditions_eq_ok_iff.mp hcheck
  refine ⟨h.isPascalCase_of_mem hlast hinputs, hdistinct, ?_⟩
  intro c hc hunknown
  obtain ⟨-, input, hinput, -, hstatus⟩ := h.exists_input hlast hc
  have hinputKnown := hknown input hinput
  rw [hstatus, hunknown] at hinputKnown
  cases hinputKnown

end Document.Follows

/-! ## What was answered was checked -/

namespace Board

variable {b : Board}

/-- Calls are answered as the board answers them. -/
theorem reply_of_mem_run (b : Board) (calls : List Call) :
    ∀ a ∈ (b.run calls).2, a.reply = b.answer a.before a.call := by
  induction calls using List.reverseRecOn with
  | nil => simp [run]
  | append_singleton calls c ih =>
      intro a ha
      rw [b.run_snoc] at ha
      rcases List.mem_append.mp ha with ha | ha
      · exact ih a ha
      · rw [List.mem_singleton.mp ha]

/-- A report that was stored has passed its checks and the gate of its kind. -/
theorem passed_of_reportOn? {a : Answered} (hreply : a.reply = b.answer a.before a.call)
    {id : Uuid} {told : StoredReport} (h : a.reportOn? id = some told) :
    ∃ spec, b.kinds.resolve told.resource.kind = .ok spec ∧ told.report.validate = .ok () ∧
      passesMandatory told.report.conditions spec.mandatory = .ok () := by
  have hends := b.ends_answer a.call a.before
  rw [← hreply] at hends
  unfold Answered.reportOn? at h
  split at h
  · rename_i resource r status isNew hrequest hresult
    split at h
    · cases h
      obtain ⟨spec, -, -, hspec, hvalid, -, hwrites, -⟩ := hends.stored_of_result hrequest hresult
      refine ⟨spec, mapError_eq_ok_iff.mp hspec, hvalid, ?_⟩
      generalize a.reply.store = draft at hwrites
      cases hwrites with
      | insert plan _ _ | update plan _ _ _ => exact (planner_eq_write_iff.mp plan).1
    · cases h
  · cases h

/-- Conditions that were set have passed their checks. -/
theorem passed_of_revisionOf? {a : Answered} (hreply : a.reply = b.answer a.before a.call)
    {id : Uuid} {revision : Revision} (h : a.revisionOf? id = some revision) :
    checkResourceConditions revision.conditions = .ok () := by
  have hends := b.ends_answer a.call a.before
  rw [← hreply] at hends
  unfold Answered.revisionOf? at h
  split at h
  · rename_i resource generation conditions updated hrequest hresult
    split at h
    · cases h
      obtain ⟨-, -, -, hcheck, -⟩ := hends.conditioned_of_result hrequest hresult
      exact hcheck
    · cases h
  · cases h

end Board

/-! ## Rows of statuses -/

/-- A row of statuses passes as its last report did. -/
theorem StatusRow.Tells.passes {b : Board} {row : StatusRow} {id : Uuid}
    {reports : List StoredReport} (h : row.Tells id reports)
    (hpassed : ∀ told ∈ reports, ∃ spec, b.kinds.resolve told.resource.kind = .ok spec ∧
      told.report.validate = .ok () ∧
      passesMandatory told.report.conditions spec.mandatory = .ok ()) :
    row.Passes b.kinds := by
  obtain ⟨first, last, d, -, hlast, hfollows, hparse, hrow⟩ := h
  obtain ⟨spec, hspec, hvalid, hgate⟩ := hpassed last (List.mem_of_getLast? hlast)
  obtain ⟨hnamed, hcounted, hcheck⟩ := Report.validate_eq_ok_iff.mp hvalid
  have hrevision : (reports.map (·.revision)).getLast? = some last.revision := by
    rw [List.getLast?_map, hlast, Option.map_some]
  refine ⟨last.resource.kind, last.report.adapter, spec, last.report.observedGeneration, d, ?_⟩
  rw [hrow]
  exact {
    resourceType := rfl
    registered := hspec
    adapter := rfl
    named := hnamed
    observedGeneration := rfl
    counted := hcounted
    conditions := ⟨d.render, rfl, hparse⟩
    settled :=
      hfollows.isSettled hrevision (Document.distinct_of_parse hparse) hcheck hgate }

/-! ## Where rows of resources come from -/

/-- The columns that a creation fills once and for all are the same. -/
structure ResourceRow.SharesOrigin (row other : ResourceRow) : Prop where
  id : row.id = other.id
  kind : row.kind = other.kind
  name : row.name = other.name
  labels : row.labels = other.labels
  spec : row.spec = other.spec
  generation : row.generation = other.generation
  createdTime : row.createdTime = other.createdTime

theorem ResourceRow.SharesOrigin.refl (row : ResourceRow) : row.SharesOrigin row :=
  ⟨rfl, rfl, rfl, rfl, rfl, rfl, rfl⟩

theorem ResourceRow.SharesOrigin.trans {row other first : ResourceRow} (h : row.SharesOrigin other)
    (h' : other.SharesOrigin first) : row.SharesOrigin first :=
  ⟨h.id.trans h'.id, h.kind.trans h'.kind, h.name.trans h'.name, h.labels.trans h'.labels,
    h.spec.trans h'.spec, h.generation.trans h'.generation, h.createdTime.trans h'.createdTime⟩

theorem ResourceRow.sharesOrigin_withConditions (raw : String) (now : Instant) (row : ResourceRow) :
    (Store.withConditions raw now row).SharesOrigin row :=
  ⟨rfl, rfl, rfl, rfl, rfl, rfl, rfl⟩

/-- The call creates a resource of a kind that is known, and what it asks for is right. -/
structure Board.Admits (b : Board) (c : Call) (kind : String) (new : NewResource) : Prop where
  request : c.request = .create kind new
  known : ∃ spec, b.resolve kind = .ok spec
  valid : new.validate = .ok ()

/-- Whatever a call comes to, only a creation adds a row of resources, and nothing changes what a
creation fills. -/
theorem Board.origin_of_answer (b : Board) (c : Call) (s : Store) {row : ResourceRow}
    (hrow : row ∈ (b.answer s c).store.resources) :
    (∃ other ∈ s.resources, row.SharesOrigin other) ∨
      ∃ kind new, b.Admits c kind new ∧ row.SharesOrigin (new.toRow c.freshId kind c.now) := by
  have hends := b.ends_answer c s
  generalize b.answer s c = reply at hends hrow
  cases hends with
  | failed _ | discarded _ | read _ _ => exact .inl ⟨row, hrow, .refl row⟩
  | @created kind new _ hrequest hvalid _ _ hkind =>
      rcases List.mem_append.mp hrow with hrow | hrow
      · exact .inl ⟨row, hrow, .refl row⟩
      · rw [List.mem_singleton.mp hrow]
        exact .inr ⟨kind, new, ⟨hrequest, hkind, hvalid⟩, .refl _⟩
  | @deleted resource _ _ =>
      obtain ⟨other, hother, rfl⟩ := List.mem_map.mp hrow
      refine .inl ⟨other, hother, ?_⟩
      cases other.isOf resource <;> exact ⟨rfl, rfl, rfl, rfl, rfl, rfl, rfl⟩
  | @conditioned resource _ _ _ _ _ _ _ _ _ _ _ =>
      obtain ⟨other, hother, rfl⟩ := List.mem_map.mp hrow
      refine .inl ⟨other, hother, ?_⟩
      cases other.isOf resource <;> exact ⟨rfl, rfl, rfl, rfl, rfl, rfl, rfl⟩
  | stored _ _ hwrites _ _ _ _ _ | unreadable _ _ _ _ _ hwrites _ _ _ =>
      exact .inl ⟨row, hwrites.resources_eq ▸ hrow, .refl row⟩

/-- After any calls, every row of resources comes from one of them. -/
theorem Board.origin_of_run (b : Board) (calls : List Call) {row : ResourceRow}
    (hrow : row ∈ (b.run calls).1.resources) :
    ∃ c ∈ calls, ∃ kind new,
      b.Admits c kind new ∧ row.SharesOrigin (new.toRow c.freshId kind c.now) := by
  induction calls using List.reverseRecOn generalizing row with
  | nil => cases hrow
  | append_singleton calls c ih =>
      rw [b.run_snoc] at hrow
      obtain ⟨other, hother, hshares⟩ | ⟨kind, new, hadmits, hshares⟩ := b.origin_of_answer c _ hrow
      · obtain ⟨first, hfirst, kind, new, hadmits, hshares'⟩ := ih hother
        exact ⟨first, List.mem_append_left _ hfirst, kind, new, hadmits, hshares.trans hshares'⟩
      · exact ⟨c, List.mem_append_right _ List.mem_cons_self, kind, new, hadmits, hshares⟩

/-! ## Rows of resources -/

/-- The kind, the name and the labels are those of a resource that passed its checks. -/
def ResourceRow.IsAdmitted (row : ResourceRow) (kinds : KindRegistry) : Prop :=
  ∃ (kind : String) (spec : KindSpec) (new : NewResource),
    kinds.resolve kind = .ok spec ∧ new.validate = .ok () ∧ row.kind = .text kind ∧
      row.name = .text new.name ∧ row.labels = .text (Json.writeTexts new.labels).render

/-- All resources were admitted. -/
def Store.IsAdmitted (s : Store) (kinds : KindRegistry) : Prop :=
  ∀ row ∈ s.resources, row.IsAdmitted kinds

theorem Board.isAdmitted_run (b : Board) (calls : List Call) :
    (b.run calls).1.IsAdmitted b.kinds := by
  intro row hrow
  obtain ⟨c, -, kind, new, ⟨-, ⟨spec, hspec⟩, hvalid⟩, hshares⟩ := b.origin_of_run calls hrow
  exact ⟨kind, spec, new, mapError_eq_ok_iff.mp hspec, hvalid, hshares.kind, hshares.name,
    hshares.labels⟩

/-- A row of a resource passes if it was admitted and all that was set for it passed. -/
theorem ResourceRow.Tells.passes {b : Board} {row : ResourceRow} {id : Uuid}
    {revisions : List Revision} (h : row.Tells id revisions) (hadmitted : row.IsAdmitted b.kinds)
    (hpassed : ∀ revision ∈ revisions, checkResourceConditions revision.conditions = .ok ()) :
    row.Passes b.kinds := by
  obtain ⟨-, d, hconditions, hparse, hhistory⟩ := h
  obtain ⟨kind, spec, new, hspec, hvalid, hkind, hname, hlabels⟩ := hadmitted
  obtain ⟨hwellNamed, hkeys⟩ := NewResource.validate_eq_ok_iff.mp hvalid
  refine ⟨kind, new.name, spec, Dict.ofPairs new.labels, d, {
    kindText := hkind
    registered := hspec
    nameText := hname
    wellNamed := hwellNamed
    labelsText := ⟨_, hlabels, decode?_writeTexts new.labels⟩
    wellLabelled := fun key hkey => hkeys key (Dict.mem_keys_of_ofPairs hkey)
    conditions := ⟨d.render, hconditions, hparse⟩
    determinate := ?_ }⟩
  obtain ⟨-, rfl⟩ | hfollows := hhistory
  · exact ⟨by simp [Document.types, Document.empty], List.nodup_nil, by simp [Document.empty]⟩
  · obtain ⟨last, hlast, -, -⟩ := hfollows.said
    exact hfollows.isDeterminate hlast (Document.distinct_of_parse hparse)
      (hpassed last (List.mem_of_getLast? hlast))

/-- After any calls, every row of a resource passes. -/
theorem Board.passes_of_mem_run (b : Board) (calls : List Call) {row : ResourceRow}
    (hrow : row ∈ (b.run calls).1.resources) : row.Passes b.kinds := by
  obtain ⟨id, hrowTells⟩ := (b.tells_run calls).resources row hrow
  refine hrowTells.passes (b.isAdmitted_run calls row hrow) fun revision hrevision => ?_
  obtain ⟨a, ha, hset⟩ := List.mem_filterMap.mp hrevision
  exact b.passed_of_revisionOf? (b.reply_of_mem_run calls a ha) hset

/-! ## All calls -/

/-- After any calls, every row of statuses, deleted or not, is of a registered kind and by an adapter
with a name, and its document settles what is mandatory for the kind; and every row of a resource is
of a registered kind, has a name, labels and types in the right shape, and leaves nothing
unknown. -/
theorem Board.rows_pass_checks (b : Board) (calls : List Call) :
    (∀ row ∈ (b.run calls).1.statuses, row.Passes b.kinds) ∧
      ∀ row ∈ (b.run calls).1.resources, row.Passes b.kinds := by
  refine ⟨?_, fun row hrow => b.passes_of_mem_run calls hrow⟩
  intro row hrow
  obtain ⟨id, hrowTells⟩ := (b.tells_run calls).statuses row hrow
  refine hrowTells.passes fun told htold => ?_
  obtain ⟨a, ha, hreport⟩ := List.mem_filterMap.mp htold
  exact b.passed_of_reportOn? (b.reply_of_mem_run calls a ha) hreport

end StatusBoard
