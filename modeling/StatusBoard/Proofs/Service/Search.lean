import StatusBoard.Proofs.Query.Wording
import StatusBoard.Proofs.Service.History
import StatusBoard.Proofs.Store.Selection
set_option autoImplicit false

/-!
# Service: what a search shows after any calls

All rows of resources that calls lead to are written by the board itself, and none of them holds
anything that a query could mistake.  So a search shows the live resources of its kind that its
filter is true of, and no others.
-/

namespace StatusBoard

open StatusBoard.Filter (Expr)

/-- Labels come as a dictionary: if the request creates a resource, its labels are in order. -/
def Request.IsOrdered : Request → Prop
  | .create _ new => new.labels.Sorted
  | .get _ | .delete _ | .setConditions .. | .report .. | .getStatus _ | .listStatuses ..
  | .search .. => True

/-- Whatever a call comes to, the rows of resources are written ones after it. -/
theorem Store.IsWritten.answer {s : Store} (h : s.IsWritten) (b : Board) {c : Call}
    (hordered : c.request.IsOrdered) : (b.answer s c).store.IsWritten := by
  have hends := b.ends_answer c s
  generalize b.answer s c = reply at hends
  cases hends with
  | failed e => exact h
  | discarded reason => exact h
  | read response hread => exact h
  | @created kind new created hrequest hvalid hfree hread =>
      rw [hrequest] at hordered
      exact h.withResource (ResourceRow.isWritten_toRow hordered hvalid c.freshId kind c.now) hread
  | @deleted resource hrequest hlive => exact h.markDeleted resource c.now
  | @conditioned resource generation conditions row raw updated hrequest hnodup hfind htext hread =>
      have hdistinct := Document.distinct_of_parse (Document.parse_render_mergedOver
        (Document.hasDistinctTypes_sent hnodup generation c.now)
        (Document.previousOf (some raw)) c.now)
      obtain ⟨written, hwritten, hnow⟩ := (Resource.ofRow_eq_ok_iff.mp hread).updatedTime
      cases hwritten
      exact h.setConditions resource hdistinct hnow
  | stored hrequest howner hwrites hfind hread hstatus =>
      intro r hr
      exact h r (hwrites.resources_eq ▸ hr)
  | unreadable hrequest hspec hvalid hcancel howner hwrites hfind hread hunreadable =>
      intro r hr
      exact h r (hwrites.resources_eq ▸ hr)

namespace Board

/-- Calls lead to written rows of resources. -/
theorem isWritten_run (b : Board) (calls : List Call)
    (hordered : ∀ c ∈ calls, c.request.IsOrdered) : (b.run calls).1.IsWritten := by
  induction calls using List.reverseRecOn with
  | nil => exact .start
  | append_singleton calls c ih =>
      rw [b.run_snoc]
      refine (ih fun other hother => hordered other (List.mem_append_left _ hother)).answer b ?_
      exact hordered c (List.mem_append_right _ List.mem_cons_self)

/-- After any calls, a search by a filter shows a page of the live resources of its kind that the
filter is true of, and counts them all.  The condition that it puts to the database, as the database
reads it, is true of just their rows. -/
theorem search_shows_true (b : Board) {calls : List Call}
    (hordered : ∀ c ∈ calls, c.request.IsOrdered) {e : Expr} {q : Query}
    (hquery : Query.ofExpr e = .ok q) {height : Nat} (hmeasure : q.measure = .ok height)
    {cancel : Cancellation} (hcancel : cancel ≠ .before) (kind : String) (page : PageRequest) :
    (∃ live,
      ((b.run calls).1.resources.filter fun r => r.isLive && r.kind = .text kind).mapM
        Resource.ofRow = .ok live ∧
      (b.run calls).1.search cancel kind (some q) page = .ok {
        items := page.slice ((live.filter e.isTrueOf).mergeSort Resource.isListedBefore)
        page := page.page
        pageSize := page.pageSize
        total := (live.filter e.isTrueOf).length }) ∧
    ∃ part, Wording.read (.text kind :: q.params) q.searchText = some part ∧
      ∀ r ∈ (b.run calls).1.resources, ∃ x, Resource.ofRow r = .ok x ∧
        (part.truth r = some true ↔ r.isLive = true ∧ x.kind = kind ∧ e.isTrueOf x = true) := by
  have hwritten := b.isWritten_run calls hordered
  refine ⟨hwritten.search_eq hcancel hquery hmeasure kind page, ?_⟩
  obtain ⟨part, hread, htruth⟩ := Query.read_searchText hquery kind
  refine ⟨part, hread, fun r hr => ?_⟩
  obtain ⟨hrow, x, hx⟩ := hwritten r hr
  exact ⟨x, hx, htruth r x (hrow.records hx)⟩

/-- Two clusters are created, and one of them is given a condition. -/
def sampleCalls : List Call :=
  let id : Uuid := ⟨List.replicate 32 ⟨1, by decide⟩, by decide⟩
  [⟨default, default, .never, .create "Cluster" { name := "c1", labels := [("env", "test")] }⟩,
   ⟨default, id, .never, .create "Cluster" { name := "c2" }⟩,
   ⟨default, default, .never,
    .setConditions ⟨"Cluster", id.toText⟩ 1 [{ type := "Ready", status := .holds }]⟩]

/-- Ready, and not of an environment that is for tests; the label is missing where
the condition is there. -/
def sampleFilter : Expr :=
  .all [.compare ⟨"status.conditions.Ready", .eq, .text "True"⟩,
        .any [.not (.compare ⟨"labels.env", .eq, .text "test"⟩),
              .compare ⟨"name", .gt, .text "c1"⟩]]

theorem search_shows_true_sample :
    ∃ q p, Query.ofExpr sampleFilter = .ok q ∧
      (sampleBoard.run sampleCalls).1.search .never "Cluster" (some q) ⟨1, 20⟩ = .ok p ∧
      p.total = 1 := by
  have hcompiles :
      ((Query.ofExpr sampleFilter).toOption.bind fun q => q.measure.toOption).isSome = true := by
    decide +kernel
  have hcount : (((sampleBoard.run sampleCalls).1.resources.filter fun r =>
      r.isLive && r.kind = .text "Cluster").mapM Resource.ofRow).toOption.map
        (fun live => (live.filter sampleFilter.isTrueOf).length) = some 1 := by
    decide +kernel
  have hordered : ∀ c ∈ sampleCalls, c.request.IsOrdered := by
    simp [sampleCalls, Request.IsOrdered, Dict.Sorted]
  cases hquery : Query.ofExpr sampleFilter with
  | error fault =>
      rw [hquery] at hcompiles
      cases hcompiles
  | ok q =>
      cases hmeasure : q.measure with
      | error excess =>
          rw [hquery] at hcompiles
          simp [Except.toOption, hmeasure] at hcompiles
      | ok height =>
          obtain ⟨⟨live, hlive, hsearch⟩, -⟩ :=
            search_shows_true sampleBoard hordered hquery hmeasure
              (show Cancellation.never ≠ .before by decide) "Cluster" ⟨1, 20⟩
          rw [hlive] at hcount
          exact ⟨q, _, rfl, hsearch, Option.some.inj hcount⟩

end Board
end StatusBoard
