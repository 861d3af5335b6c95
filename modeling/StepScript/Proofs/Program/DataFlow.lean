import StepScript.Proofs.Program.Assembly

/-! Data flow in a program. The order of a program is fixed on all transformations of the job, whether they
    can be generated or not. So a transformation stands before the ones that read its target, unless the job
    has a cycle: then the given order stays, also where the cycle runs through a transformation that fails. -/

namespace StepScript
open Relation

namespace Generation

section Positions
variable (g : Generation) (m : Messages) (generatedAt : String) (job : Job) (i j : Fin job.transforms.length)

/-- The transformation at one position feeds the one at another, and the program contains both. -/
def EmittedFeeds : Prop :=
  i ∈ g.emitted job ∧ j ∈ g.emitted job ∧ Feeds job.transforms i j

def codeOf (is : List (Fin job.transforms.length)) : String :=
  String.join (is.map (g.codeAt job))

/-- The code of the transformation at one position stands in the program before the code of another. -/
def Precedes : Prop :=
  ∃ ahead between rest, g.emitted job = ahead ++ i :: (between ++ j :: rest) ∧
    (g.program m generatedAt job).code = g.header job generatedAt ++ g.codeOf job ahead ++ g.codeAt job i ++
      g.codeOf job between ++ g.codeAt job j ++ g.codeOf job rest

end Positions

end Generation

/-! ### Pairs in a list -/

section Pairs
variable {α : Type} {l : List α} {a b : α}

theorem pair_sublist_iff : [a, b].Sublist l ↔ ∃ ahead between rest, l = ahead ++ a :: (between ++ b :: rest) := by
  constructor
  · intro h
    obtain ⟨l₁, l₂, rfl, ha, hb⟩ := List.cons_sublist_iff.mp h
    obtain ⟨ahead, between₁, rfl⟩ := List.append_of_mem ha
    obtain ⟨between₂, rest, rfl⟩ := List.append_of_mem (List.singleton_sublist.mp hb)
    exact ⟨ahead, between₁ ++ between₂, rest, by simp⟩
  · rintro ⟨ahead, between, rest, rfl⟩
    refine List.cons_sublist_iff.mpr ⟨ahead ++ [a], between ++ b :: rest, by simp, by simp, ?_⟩
    simp

/-- An element stands in a list before another one that has its first place later. -/
theorem pair_sublist_of_idxOf_lt [DecidableEq α] (h : l.idxOf a < l.idxOf b) (hb : b ∈ l) : [a, b].Sublist l := by
  induction l with
  | nil => cases hb
  | cons c l ih =>
    have hbc : c ≠ b := fun hcb => by
      rw [hcb, List.idxOf_cons_self] at h
      exact Nat.not_lt_zero _ h
    have hb' : b ∈ l := (List.mem_cons.mp hb).resolve_left (Ne.symm hbc)
    by_cases hac : c = a
    · subst hac
      exact List.cons_sublist_cons.mpr (List.singleton_sublist.mpr hb')
    · rw [List.idxOf_cons_ne _ hac, List.idxOf_cons_ne _ hbc] at h
      exact (ih (Nat.lt_of_succ_lt_succ h) hb').cons c

theorem pair_sublist_finRange {n : Nat} {i j : Fin n} : [i, j].Sublist (List.finRange n) ↔ i < j := by
  constructor
  · intro h
    have hpair := (List.pairwise_lt_finRange n).sublist h
    exact (List.pairwise_cons.mp hpair).1 j (List.mem_singleton_self j)
  · intro h
    refine pair_sublist_of_idxOf_lt ?_ (List.mem_finRange j)
    rw [List.idxOf_finRange, List.idxOf_finRange]
    exact h

/-- Filtering keeps the order of what it keeps. -/
theorem pair_sublist_filter {p : α → Bool} (ha : p a = true) (hb : p b = true) :
    [a, b].Sublist (l.filter p) ↔ [a, b].Sublist l := by
  refine ⟨fun h => h.trans List.filter_sublist, fun h => ?_⟩
  have hfilter := h.filter p
  rwa [List.filter_cons_of_pos ha, List.filter_cons_of_pos hb, List.filter_nil] at hfilter

end Pairs

/-! ### The order of a program -/

namespace Generation

section Order
variable {g : Generation} {m : Messages} {generatedAt : String} {job : Job} {i j : Fin job.transforms.length}

theorem codeOf_append (is js : List (Fin job.transforms.length)) :
    g.codeOf job (is ++ js) = g.codeOf job is ++ g.codeOf job js := by
  unfold codeOf
  rw [List.map_append, String.join_append]

theorem codeOf_cons (i : Fin job.transforms.length) (is : List (Fin job.transforms.length)) :
    g.codeOf job (i :: is) = g.codeAt job i ++ g.codeOf job is :=
  String.join_cons

theorem precedes_iff_sublist : g.Precedes m generatedAt job i j ↔ [i, j].Sublist (g.emitted job) := by
  rw [pair_sublist_iff]
  constructor
  · rintro ⟨ahead, between, rest, hemitted, -⟩
    exact ⟨ahead, between, rest, hemitted⟩
  · rintro ⟨ahead, between, rest, hemitted⟩
    have hcode : (g.program m generatedAt job).code = g.header job generatedAt ++ g.codeOf job (g.emitted job) :=
      g.code_program m job generatedAt
    refine ⟨ahead, between, rest, hemitted, ?_⟩
    rw [hcode, hemitted]
    simp only [codeOf_append, codeOf_cons, String.append_assoc]

/-- Two transformations that are generated stand in the program as in the plan. -/
theorem precedes_iff_plan (hi : i ∈ g.emitted job) (hj : j ∈ g.emitted job) :
    g.Precedes m generatedAt job i j ↔ [i, j].Sublist (executionPlan job.transforms).order := by
  rw [precedes_iff_sublist, emitted, pair_sublist_filter (mem_emitted.mp hi) (mem_emitted.mp hj)]

end Order

end Generation

theorem plan_sublist_of_feeds {ts : List Transform} {i j : Fin ts.length} (hts : ¬Cyclic (Feeds ts))
    (hij : Feeds ts i j) : [i, j].Sublist (executionPlan ts).order := by
  have hts' : ¬Cyclic (feedsAt ts · · = true) := by
    rw [feedsAt_eq]
    exact hts
  have htop := (Plan.greedy_of_not_cyclic hts').isTopological hts'
  rw [feedsAt_eq] at htop
  exact pair_sublist_of_idxOf_lt (htop.before i j hij) (htop.mem j)

theorem order_of_cyclic_feeds {ts : List Transform} (hts : Cyclic (Feeds ts)) :
    (executionPlan ts).order = List.finRange ts.length := by
  rw [← feedsAt_eq] at hts
  exact Plan.order_of_cyclic (Plan.cyclic_iff.mpr hts)

/-- A transformation stands before one that it feeds, if no transformations of the job feed one another in a
    cycle; if some do, whether they fail or not, it does so only where it was declared before the other. -/
theorem precedes_iff_of_emittedFeeds (g : Generation) (m : Messages) (generatedAt : String) (job : Job)
    (i j : Fin job.transforms.length) (h : g.EmittedFeeds job i j) :
    g.Precedes m generatedAt job i j ↔ ¬Cyclic (Feeds job.transforms) ∨ i < j := by
  obtain ⟨hi, hj, hij⟩ := h
  rw [Generation.precedes_iff_plan hi hj]
  by_cases hts : Cyclic (Feeds job.transforms)
  · rw [order_of_cyclic_feeds hts, pair_sublist_finRange, or_iff_right (not_not_intro hts)]
  · exact iff_of_true (plan_sublist_of_feeds hts hij) (.inl hts)

theorem partialJob_writer_precedes :
    withHeader.EmittedFeeds partialJob ⟨2, by decide⟩ ⟨0, by decide⟩ ∧
    ¬Cyclic (Feeds partialJob.transforms) ∧
    withHeader.Precedes .english "now" partialJob ⟨2, by decide⟩ ⟨0, by decide⟩ := by
  have hemitted : withHeader.emitted partialJob = [⟨2, by decide⟩, ⟨0, by decide⟩] := rfl
  have hfeeds : withHeader.EmittedFeeds partialJob ⟨2, by decide⟩ ⟨0, by decide⟩ := by
    rw [Generation.EmittedFeeds, hemitted]
    decide
  have hacyclic : ¬Cyclic (Feeds partialJob.transforms) := not_cyclic_feeds (by decide)
  exact ⟨hfeeds, hacyclic, (precedes_iff_of_emittedFeeds _ _ _ _ _ _ hfeeds).mpr (.inl hacyclic)⟩

/-- A job whose transformations feed one another in a cycle. The last of them, which closes the cycle, fails
    for want of ordering keys. -/
def loopThroughFailure : Job where
  name := "loop"
  tables := [.ofName "RAW", .ofName "MID", .ofName "OUT"]
  transforms := [
    { name := "late", kind := .append, sources := [⟨"MID"⟩], targets := [⟨"OUT"⟩] },
    { name := "early", kind := .append, sources := [⟨"RAW"⟩], targets := [⟨"MID"⟩] },
    { name := "back", kind := .sort, sources := [⟨"OUT"⟩], targets := [⟨"RAW"⟩] }]

theorem loopThroughFailure_reader_precedes :
    ¬Cyclic (Generation.EmittedFeeds ⟨{}, .standard⟩ loopThroughFailure) ∧
    Generation.EmittedFeeds ⟨{}, .standard⟩ loopThroughFailure ⟨1, by decide⟩ ⟨0, by decide⟩ ∧
    ¬Generation.Precedes ⟨{}, .standard⟩ .english "now" loopThroughFailure ⟨1, by decide⟩ ⟨0, by decide⟩ := by
  have hemitted : Generation.emitted ⟨{}, .standard⟩ loopThroughFailure = [⟨0, by decide⟩, ⟨1, by decide⟩] := rfl
  refine ⟨?_, ?_, ?_⟩
  · -- Of the two that are generated, only the second feeds the other.
    have hdescends : ∀ i j, Generation.EmittedFeeds ⟨{}, .standard⟩ loopThroughFailure i j → i > j := by
      unfold Generation.EmittedFeeds
      rw [hemitted]
      decide
    rintro ⟨i, hi⟩
    exact lt_irrefl i (transGen_minimal hdescends i i hi)
  · rw [Generation.EmittedFeeds, hemitted]
    decide
  · rw [Generation.precedes_iff_sublist, hemitted]
    decide

end StepScript
