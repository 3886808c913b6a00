import Keyset.Proofs.Connection.Aggregation
import Keyset.Proofs.Sorting.Stable

/-!
# Splicing a filter into a query

A filter that is spliced into a find is evaluated beside the find's own one, and spliced into an
aggregation it is the first stage.  Either way the query answers what it answered before, less the
documents on which the filter does not hold (`applySeek_filters`).

For an aggregation this needs that selecting commutes with every later stage.  It does with stages that
select and with those that sort, as sorting is stable (`SelectsAndSorts.run_filter`).
-/

namespace Keyset

open Keyset.Filter

/-! ### Stages that select and sort -/

namespace Pipeline

/-- Stages that select and sort, each of which can be run on the documents that reach it: its filter can
be evaluated, or the values that it sorts by are comparable. -/
inductive SelectsAndSorts : (stages docs : List Document) → Prop
  | nil {docs : List Document} : SelectsAndSorts [] docs
  | select {filter : Document} {stages docs : List Document} :
    (∀ d ∈ docs, Evaluates filter d) → SelectsAndSorts stages (docs.filter (holds filter)) →
      SelectsAndSorts ([("$match", .document filter)] :: stages) docs
  | sort {spec : Document} {stages docs : List Document} :
    (∀ d ∈ docs, Sorting.Sortable (Sorting.keys spec) d) →
      SelectsAndSorts stages (Sorting.sort spec docs) →
      SelectsAndSorts ([("$sort", .document spec)] :: stages) docs

/-- A stage that selects or sorts and can be run on all documents of a collection. -/
def SelectsOrSorts (docs : List Document) (stage : Document) : Prop :=
  (∃ filter, stage = [("$match", .document filter)] ∧ ∀ d ∈ docs, Evaluates filter d) ∨
    ∃ spec, stage = [("$sort", .document spec)] ∧
      ∀ d ∈ docs, Sorting.Sortable (Sorting.keys spec) d

/-- Stages that can be run on all documents of a collection can be run on those that reach them. -/
theorem selectsAndSorts_of_forall {stages docs reached : List Document} (hsub : reached ⊆ docs)
    (h : ∀ stage ∈ stages, SelectsOrSorts docs stage) : SelectsAndSorts stages reached := by
  induction stages generalizing reached with
  | nil => exact .nil
  | cons stage stages ih =>
    rw [List.forall_mem_cons] at h
    obtain ⟨⟨filter, rfl, hfilter⟩ | ⟨spec, rfl, hspec⟩, hstages⟩ := h
    · apply SelectsAndSorts.select fun d hd => hfilter d (hsub hd)
      exact ih (fun d hd => hsub (List.mem_of_mem_filter hd)) hstages
    · apply SelectsAndSorts.sort fun d hd => hspec d (hsub hd)
      exact ih (fun d hd => hsub ((Sorting.sort_perm spec reached).mem_iff.mp hd)) hstages

/-- Selecting the documents that stages are run on selects from their result. -/
theorem SelectsAndSorts.run_filter {stages docs : List Document} (h : SelectsAndSorts stages docs) :
    ∃ out, run stages docs = .ok out ∧
      ∀ p : Document → Bool, run stages (docs.filter p) = .ok (out.filter p) := by
  induction h with
  | nil => exact ⟨_, rfl, fun _ => rfl⟩
  | select hfilter _ ih =>
    obtain ⟨out, hout, hfiltered⟩ := ih
    refine ⟨out, by rw [run_cons (runStage_select hfilter), hout], fun p => ?_⟩
    have hselected := runStage_select fun d hd => hfilter d (List.mem_of_mem_filter (p := p) hd)
    rw [run_cons hselected, List.filter_comm, hfiltered]
  | @sort spec stages docs hsortable _ ih =>
    obtain ⟨out, hout, hfiltered⟩ := ih
    have hsort : ∀ docs, runStage [("$sort", .document spec)] docs = .ok (Sorting.sort spec docs) :=
      fun _ => rfl
    refine ⟨out, by rw [run_cons (hsort docs), hout], fun p => ?_⟩
    rw [run_cons (hsort _), Sorting.sort_filter hsortable, hfiltered]

end Pipeline

/-! ### Queries -/

namespace Query

open Connection

/-- **A filter that is spliced into a query only takes documents away**: those on which it does not hold.
The others are answered as before and in the same order, by a find whose filter can be evaluated, and by
an aggregation that selects and sorts. -/
theorem applySeek_filters {q : Query} {seek : Json.Object} {g : Document} {docs : List Document}
    (hg : Document.ofJson seek = .ok g) (hevaluates : ∀ d ∈ docs, Evaluates g d) :
    (q.operation = .find → ∀ f, q.filterDocument = .ok f → (∀ d ∈ docs, Evaluates f d) →
      ∃ h selected, (q.applySeek seek).filterDocument = .ok h ∧ select f docs = .ok selected ∧
        select h docs = .ok (selected.filter (holds g))) ∧
    (q.operation = .aggregate → ∀ stages, q.pipelineDocuments = .ok stages →
      Pipeline.SelectsAndSorts stages docs →
      ∃ stages' out, (q.applySeek seek).pipelineDocuments = .ok stages' ∧
        Pipeline.run stages docs = .ok out ∧ Pipeline.run stages' docs = .ok (out.filter (holds g))) := by
  constructor
  · intro hop f hf hown
    obtain ⟨h, hh, hconjoins⟩ := filterDocument_applySeek hop hf hg
    exact ⟨h, _, hh, select_eq_ok_iff.mpr ⟨hown, rfl⟩, hconjoins.select_eq hown hevaluates⟩
  · intro hop stages hstages hrun
    obtain ⟨out, hout, hfiltered⟩ := hrun.run_filter
    refine ⟨_, out, pipelineDocuments_applySeek hop hg hstages, hout, ?_⟩
    rw [Pipeline.run_cons (Pipeline.runStage_select hevaluates), hfiltered]

/-- Items of a shop, in two colours. -/
def colouredItems : List Document :=
  [[("n", .int32 1), ("colour", .string "red")], [("n", .int32 2), ("colour", .string "blue")],
    [("n", .int64 3), ("colour", .string "red")]]

/-- The red items. -/
def redItems : Query where
  operation := .find
  filter := some [("colour", .string "red")]

/-- The red items, the last one first. -/
def redItemsBackwards : Query where
  operation := .aggregate
  pipeline := [[("$sort", .object [("n", .ofInt64 (-1))])],
    [("$match", .object [("colour", .string "red")])]]

/-- The items behind the first one, among the red ones in either order. -/
theorem applySeek_filters_colouredItems :
    let seek : Json.Object := [("n", .object [("$gt", .ofInt64 1)])]
    let behind : Document := [("n", .document [("$gt", .int32 1)])]
    let red : Document := [("colour", .string "red")]
    let stages : List Document :=
      [[("$sort", .document [("n", .int32 (-1))])], [("$match", .document red)]]
    (∀ d ∈ colouredItems, Evaluates behind d) ∧
      (∃ h selected, (redItems.applySeek seek).filterDocument = .ok h ∧
        select red colouredItems = .ok selected ∧
        select h colouredItems = .ok (selected.filter (holds behind))) ∧
      ∃ (spliced out : List Document),
        (redItemsBackwards.applySeek seek).pipelineDocuments = .ok spliced ∧
        Pipeline.run stages colouredItems = .ok out ∧
        Pipeline.run spliced colouredItems = .ok (out.filter (holds behind)) := by
  intro seek behind red stages
  have hseek : Document.ofJson seek = .ok behind := rfl
  have hbehind : ∀ d ∈ colouredItems, Evaluates behind d := by
    simp only [colouredItems, List.forall_mem_cons]
    exact ⟨⟨false, by decide +kernel⟩, ⟨true, by decide +kernel⟩, ⟨true, by decide +kernel⟩, nofun⟩
  have hred : ∀ d ∈ colouredItems, Evaluates red d := by
    simp only [colouredItems, List.forall_mem_cons]
    exact ⟨⟨true, by decide +kernel⟩, ⟨false, by decide +kernel⟩, ⟨true, by decide +kernel⟩, nofun⟩
  have hnumbers : ∀ d ∈ colouredItems, Sorting.Sortable (Sorting.keys [("n", .int32 (-1))]) d := by
    unfold Sorting.Sortable
    decide +kernel
  have hstages : ∀ stage ∈ stages, Pipeline.SelectsOrSorts colouredItems stage := by
    simp only [stages, List.forall_mem_cons]
    exact ⟨.inr ⟨_, rfl, hnumbers⟩, .inl ⟨_, rfl, hred⟩, nofun⟩
  have hreached := Pipeline.selectsAndSorts_of_forall (List.Subset.refl _) hstages
  exact ⟨hbehind, (applySeek_filters (q := redItems) hseek hbehind).1 rfl red rfl hred,
    (applySeek_filters (q := redItemsBackwards) hseek hbehind).2 rfl stages rfl hreached⟩

end Query

end Keyset
