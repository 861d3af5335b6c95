import StepScript.Proofs.Order.Plan

/-! The ready loop, one change at a time. It takes the first ready position, counts it off at its consumers one
    after another, and makes a consumer ready when that ends its count. What an agenda holds at any time follows
    from the positions taken and those made ready so far (`Counts`). So a count that goes down is never zero, each
    position is made ready once, in the round of its last producer, and without a cycle the loop ends when every
    position was taken. -/

namespace StepScript.Agenda

variable {n : Nat} {feeds : Fin n → Fin n → Bool} {popped pushed behind rest round : List (Fin n)} {a : Agenda n}
  {i j : Fin n}

/-- The loop as far as it has come: the positions taken and those made ready, each in the order in which that
    happened, and the consumers at which the position taken last is still to be counted off. A round may come to the
    consumers in any order. -/
inductive Loop (feeds : Fin n → Fin n → Bool) : List (Fin n) → List (Fin n) → List (Fin n) → Agenda n → Prop
  | start : Loop feeds [] (start feeds).ready [] (start feeds)
  | pop {popped pushed rest round : List (Fin n)} {a : Agenda n} {i : Fin n} (loop : Loop feeds popped pushed [] a)
      (ready : a.ready = i :: rest) (arranged : round.Perm (consumers feeds i)) :
      Loop feeds (popped ++ [i]) pushed round { a with ready := rest }
  | countOff {popped pushed behind : List (Fin n)} {a : Agenda n} {j : Fin n}
      (loop : Loop feeds popped pushed (j :: behind) a) :
      Loop feeds popped (if (a.countOff j).pending.get j = 0 then pushed ++ [j] else pushed) behind (a.countOff j)

/-- What the positions taken and those made ready say of an agenda. -/
structure Counts (feeds : Fin n → Fin n → Bool) (popped pushed behind : List (Fin n)) (a : Agenda n) : Prop where
  pending : ∀ j : Fin n, a.pending.get j = missing feeds popped j + if j ∈ behind then 1 else 0
  mem_pushed : ∀ j, j ∈ pushed ↔ missing feeds popped j = 0 ∧ j ∉ behind
  once : pushed.Nodup
  ready : (popped ++ a.ready).Perm pushed
  distinct : behind.Nodup

theorem missing_concat (feeds : Fin n → Fin n → Bool) (popped : List (Fin n)) (i j : Fin n) :
    missing feeds (popped ++ [i]) j = missing feeds (i :: popped) j := by
  have hsame : ∀ k, k ∉ popped ++ [i] ↔ k ∉ i :: popped := fun k => by simp [or_comm]
  simp only [missing, hsame]

theorem perm_insertAscending (j : Fin n) (js : List (Fin n)) : (insertAscending j js).Perm (j :: js) := by
  induction js with
  | nil => exact .refl _
  | cons i js ih =>
    unfold insertAscending
    split
    · exact .refl _
    · exact (ih.cons i).trans (.swap j i js)

/-! ### One change -/

theorem counts_start : Counts feeds [] (start feeds).ready [] (start feeds) where
  pending j := by
    rw [tracks_start.pending j, if_neg List.not_mem_nil, Nat.add_zero]
  mem_pushed j := by
    rw [tracks_start.ready j, ready_iff]
    simp
  once := tracks_start.ascending.imp ne_of_lt
  ready := .refl _
  distinct := List.nodup_nil

/-- To take a ready position leaves one producer more to count off at its consumers. -/
theorem Counts.pop (h : Counts feeds popped pushed [] a) (hready : a.ready = i :: rest)
    (hround : round.Perm (consumers feeds i)) :
    Counts feeds (popped ++ [i]) pushed round { a with ready := rest } := by
  have hmiddle : popped ++ a.ready = popped ++ [i] ++ rest := by
    rw [hready, List.append_assoc, List.singleton_append]
  have hi : i ∉ popped := by
    have hnodup := h.ready.nodup_iff.mpr h.once
    rw [hready] at hnodup
    intro hmem
    exact List.disjoint_of_nodup_append hnodup hmem List.mem_cons_self
  have hmissing : ∀ j, missing feeds popped j = missing feeds (popped ++ [i]) j + if j ∈ round then 1 else 0 := by
    intro j
    simp only [missing_concat, hround.mem_iff]
    by_cases hj : j ∈ consumers feeds i
    · rw [if_pos hj]
      exact missing_of_feeds hi (mem_consumers.mp hj)
    · rw [if_neg hj]
      exact (missing_of_not_feeds (by simpa [mem_consumers] using hj)).symm
  have hdistinct : (consumers feeds i).Nodup := (List.nodup_finRange n).filter _
  refine ⟨fun j => ?_, fun j => ?_, h.once, hmiddle ▸ h.ready, hround.nodup_iff.mpr hdistinct⟩
  · rw [← hmissing, ← Nat.add_zero (missing feeds popped j)]
    exact h.pending j
  · rw [h.mem_pushed, hmissing]
    by_cases hj : j ∈ round <;> simp [hj]

/-- To count off at a consumer makes it ready if no other producer is missing. -/
theorem Counts.countOff (h : Counts feeds popped pushed (j :: behind) a) :
    Counts feeds popped (if (a.countOff j).pending.get j = 0 then pushed ++ [j] else pushed) behind
      (a.countOff j) := by
  obtain ⟨hj, hbehind⟩ := List.nodup_cons.mp h.distinct
  have hcount : a.pending.get j = missing feeds popped j + 1 := by
    rw [h.pending, if_pos List.mem_cons_self]
  have hleft : (a.countOff j).pending.get j = missing feeds popped j := by
    rw [pending_countOff, if_pos rfl, hcount, Nat.add_sub_cancel]
  have hnew : j ∉ pushed := fun hmem => ((h.mem_pushed j).mp hmem).2 List.mem_cons_self
  have hpending : ∀ k, (a.countOff j).pending.get k = missing feeds popped k + if k ∈ behind then 1 else 0 := by
    intro k
    by_cases hk : k = j
    · rw [hk, hleft, if_neg hj, Nat.add_zero]
    · rw [pending_countOff, if_neg hk, h.pending]
      simp [hk]
  rw [hleft]
  by_cases hlast : missing feeds popped j = 0
  · have hready : (a.countOff j).ready = insertAscending j a.ready := by
      rw [ready_countOff, hcount, Nat.add_sub_cancel, if_pos hlast]
    rw [if_pos hlast]
    refine ⟨hpending, fun k => ?_, ?_, ?_, hbehind⟩
    · rw [List.mem_append, List.mem_singleton, h.mem_pushed]
      by_cases hk : k = j
      · subst hk
        simp [hj, hlast]
      · simp [hk]
    · rw [List.nodup_append_comm, List.singleton_append]
      exact List.nodup_cons.mpr ⟨hnew, h.once⟩
    · rw [hready]
      calc (popped ++ insertAscending j a.ready).Perm (popped ++ j :: a.ready) :=
            (perm_insertAscending j a.ready).append_left popped
        _ |>.Perm (j :: (popped ++ a.ready)) := List.perm_middle
        _ |>.Perm (j :: pushed) := h.ready.cons j
        _ |>.Perm (pushed ++ [j]) := (List.perm_append_singleton j pushed).symm
  · have hready : (a.countOff j).ready = a.ready := by
      rw [ready_countOff, hcount, Nat.add_sub_cancel, if_neg hlast]
    rw [if_neg hlast]
    refine ⟨hpending, fun k => ?_, h.once, hready ▸ h.ready, hbehind⟩
    rw [h.mem_pushed]
    by_cases hk : k = j
    · subst hk
      simp [hlast]
    · simp [hk]

/-! ### The order of a round

    Two consumers are counted off to the same effect in either order. -/

theorem insertAscending_comm_of_lt (h : i < j) (js : List (Fin n)) :
    insertAscending i (insertAscending j js) = insertAscending j (insertAscending i js) := by
  induction js with
  | nil => simp [insertAscending, h.le, h.not_ge]
  | cons k js ih =>
    by_cases hj : j ≤ k
    · simp [insertAscending, hj, h.le, h.not_ge, h.le.trans hj]
    · by_cases hi : i ≤ k
      · simp [insertAscending, hj, hi, h.not_ge]
      · simp [insertAscending, hj, hi, ih]

theorem insertAscending_comm (i j : Fin n) (js : List (Fin n)) :
    insertAscending i (insertAscending j js) = insertAscending j (insertAscending i js) := by
  rcases lt_trichotomy i j with h | rfl | h
  · exact insertAscending_comm_of_lt h js
  · rfl
  · exact (insertAscending_comm_of_lt h js).symm

theorem countOff_comm (a : Agenda n) (j k : Fin n) : (a.countOff j).countOff k = (a.countOff k).countOff j := by
  by_cases h : k = j
  · rw [h]
  · have hk : (a.countOff j).pending.get k = a.pending.get k := by rw [pending_countOff, if_neg h]
    have hj : (a.countOff k).pending.get j = a.pending.get j := by rw [pending_countOff, if_neg (Ne.symm h)]
    unfold countOff at hj hk ⊢
    simp only [hj, hk, Agenda.mk.injEq]
    refine ⟨Vector.set_comm _ _ fun hv => h (Fin.ext hv.symm), ?_⟩
    split <;> split <;> first | rfl | exact insertAscending_comm k j a.ready

theorem foldl_countOff_perm (h : behind.Perm round) (a : Agenda n) : behind.foldl countOff a = round.foldl countOff a :=
  h.foldl_eq' (fun j _ k _ a => countOff_comm a j k) a

/-! ### The whole loop -/

theorem run_nil {steps : Nat} (hready : a.ready = []) : run feeds (steps + 1) a = [] := by
  rw [run, hready]

theorem run_cons {steps : Nat} (hready : a.ready = i :: rest) : run feeds (steps + 1) a =
    i :: run feeds steps ((consumers feeds i).foldl countOff { a with ready := rest }) := by
  have hplace : a.place feeds i = (consumers feeds i).foldl countOff { a with ready := rest } := by
    rw [Agenda.place, hready, List.erase_cons_head]
  rw [run, hready, ← hplace]

namespace Loop

theorem counts (h : Loop feeds popped pushed behind a) : Counts feeds popped pushed behind a := by
  induction h with
  | start => exact counts_start
  | pop _ ready arranged ih => exact ih.pop ready arranged
  | countOff _ ih => exact ih.countOff

theorem nodup (h : Loop feeds popped pushed behind a) : (popped ++ a.ready).Nodup :=
  h.counts.ready.nodup_iff.mpr h.counts.once

theorem length_le (h : Loop feeds popped pushed behind a) : popped.length + a.ready.length ≤ n := by
  have hle := (List.subperm_of_subset h.nodup fun i _ => List.mem_finRange i).length_le
  rwa [List.length_append, List.length_finRange] at hle

/-- Without a cycle, no position is ready only when every position was taken. -/
theorem perm_of_ready_eq_nil (hR : ¬Cyclic (feeds · · = true)) (h : Loop feeds popped pushed [] a)
    (hready : a.ready = []) : popped.Perm (List.finRange n) := by
  have hperm := h.counts.ready
  have hnodup := h.nodup
  rw [hready, List.append_nil] at hperm hnodup
  refine (List.perm_ext_iff_of_nodup hnodup (List.nodup_finRange n)).mpr fun i => ?_
  refine iff_of_true ?_ (List.mem_finRange i)
  by_contra hi
  -- Of the positions not taken, one has no producer among them, so it was made ready.
  obtain ⟨j, hj, hunfed⟩ := exists_unfed hR (S := {j | j ∉ popped}) ⟨i, hi⟩
  have hmissing : missing feeds popped j = 0 := by
    rw [missing_eq_zero_iff]
    intro k hkj
    by_contra hk
    exact hunfed k hk hkj
  exact hj (hperm.mem_iff.mpr ((h.counts.mem_pushed j).mpr ⟨hmissing, List.not_mem_nil⟩))

theorem ready_eq_nil_iff (hR : ¬Cyclic (feeds · · = true)) (h : Loop feeds popped pushed [] a) :
    a.ready = [] ↔ popped.length = n := by
  constructor
  · intro hready
    rw [(h.perm_of_ready_eq_nil hR hready).length_eq, List.length_finRange]
  · intro hlength
    have hle := h.length_le
    exact List.eq_nil_of_length_eq_zero (by omega)

/-- The position taken last is counted off at all consumers that are left. -/
theorem countOff_behind (h : Loop feeds popped pushed behind a) :
    ∃ pushed', Loop feeds popped pushed' [] (behind.foldl Agenda.countOff a) := by
  induction behind generalizing pushed a with
  | nil => exact ⟨pushed, h⟩
  | cons j behind ih => exact ih h.countOff

/-- What a run goes on to take is what the loop takes from its start, less what was taken by then. -/
theorem append_run (h : Loop feeds popped pushed behind a) :
    popped ++ run feeds (n - popped.length) (behind.foldl Agenda.countOff a) = run feeds n (Agenda.start feeds) := by
  induction h with
  | start => rfl
  | @pop popped pushed rest round a i loop ready arranged ih =>
    have hle := loop.length_le
    rw [ready, List.length_cons] at hle
    have hsteps : n - popped.length = n - (popped ++ [i]).length + 1 := by
      rw [List.length_append, List.length_singleton]
      omega
    rw [hsteps, List.foldl_nil, run_cons ready, ← foldl_countOff_perm arranged] at ih
    rw [List.append_assoc, List.singleton_append]
    exact ih
  | countOff _ ih => exact ih

/-- A run that has a step for every position not taken goes on until no position is ready. -/
theorem exists_run {steps : Nat} (h : Loop feeds popped pushed [] a) (hsteps : n ≤ steps + popped.length) :
    ∃ pushed' a', Loop feeds (popped ++ run feeds steps a) pushed' [] a' ∧ a'.ready = [] := by
  induction steps generalizing popped pushed a with
  | zero =>
    have hle := h.length_le
    refine ⟨pushed, a, ?_, List.eq_nil_of_length_eq_zero (by omega)⟩
    rwa [run, List.append_nil]
  | succ steps ih =>
    cases hready : a.ready with
    | nil =>
      rw [run_nil hready, List.append_nil]
      exact ⟨pushed, a, h, hready⟩
    | cons i rest =>
      obtain ⟨pushed', hround⟩ := (h.pop hready (.refl _)).countOff_behind
      obtain ⟨pushed'', a', hrun, hend⟩ := ih hround (by
        rw [List.length_append, List.length_singleton]
        omega)
      rw [List.append_assoc, List.singleton_append] at hrun
      rw [run_cons hready]
      exact ⟨pushed'', a', hrun, hend⟩

end Loop

end Agenda

/-! ### Transformations -/

open Agenda

section Transforms
variable {ts : List Transform}

/-- At any time in the ready loop the count of a transformation is the number of its producers that were not taken,
    and one more while the one taken last is still to be counted off there; so no count goes down from zero. What
    was made ready was so once, and it was taken or is ready; it is what has had all its producers taken and counted
    off. The loop stops when it has taken as many transformations as there are. It takes them in the order of
    generation, and each has been made ready by then. -/
theorem ready_loop_counts (h : (executionPlan ts).cyclic = false) :
    (∀ popped pushed behind a, Loop (feedsAt ts) popped pushed behind a →
      popped ++ run (feedsAt ts) (ts.length - popped.length) (behind.foldl countOff a) = (executionPlan ts).order ∧
      (∀ j, a.pending.get j = missing (feedsAt ts) popped j + if j ∈ behind then 1 else 0) ∧
      (∀ j ∈ behind, 0 < a.pending.get j) ∧
      pushed.Nodup ∧ (popped ++ a.ready).Perm pushed ∧
      (∀ j, j ∈ pushed ↔ (∀ i, Feeds ts i j → i ∈ popped) ∧ j ∉ behind) ∧
      (behind = [] → (a.ready = [] ↔ popped.length = ts.length))) ∧
    ∃ pushed a, Loop (feedsAt ts) (executionPlan ts).order pushed [] a ∧ a.ready = [] ∧
      (executionPlan ts).order.length = ts.length ∧ pushed.Perm (List.finRange ts.length) := by
  have hR : ¬Cyclic (feedsAt ts · · = true) := Plan.not_cyclic h
  have hfeeds : ∀ i j, feedsAt ts i j = true ↔ Feeds ts i j := fun i j => by rw [← feedsAt_eq]
  have horder : (executionPlan ts).order = run (feedsAt ts) ts.length (start (feedsAt ts)) := by
    have hcycle : hasCycle (feedsAt ts) ≠ true := mt hasCycle_iff.mp hR
    rw [executionPlan, Plan.ofRelation, if_neg hcycle]
  refine ⟨fun popped pushed behind a hloop => ?_, ?_⟩
  · have hcounts := hloop.counts
    rw [horder]
    refine ⟨hloop.append_run, hcounts.pending, fun j hj => ?_, hcounts.once, hcounts.ready, fun j => ?_,
      fun hbehind => ?_⟩
    · rw [hcounts.pending, if_pos hj]
      exact Nat.succ_pos _
    · rw [hcounts.mem_pushed, missing_eq_zero_iff]
      simp only [hfeeds]
    · subst hbehind
      exact hloop.ready_eq_nil_iff hR
  · have hstart : Loop (feedsAt ts) [] (start (feedsAt ts)).ready [] (start (feedsAt ts)) := .start
    obtain ⟨pushed, a, hloop, hready⟩ := hstart.exists_run (Nat.le_add_right ts.length 0)
    rw [List.nil_append, ← horder] at hloop
    have hperm := hloop.perm_of_ready_eq_nil hR hready
    refine ⟨pushed, a, hloop, hready, ?_, ?_⟩
    · rw [hperm.length_eq, List.length_finRange]
    · have hpushed := hloop.counts.ready
      rw [hready, List.append_nil] at hpushed
      exact hpushed.symm.trans hperm

end Transforms

/-- After the writer that both others read has been taken, and before it is counted off at them. -/
theorem readerFirst_counts : (executionPlan readerFirst).cyclic = false ∧
    (∃ behind a, Loop (feedsAt readerFirst) [⟨2, by decide⟩] [⟨2, by decide⟩] behind a ∧
      behind.map Fin.val = [0, 1] ∧ a.pending.get ⟨0, by decide⟩ = 2 ∧ a.pending.get ⟨1, by decide⟩ = 1) ∧
    ∃ pushed a, Loop (feedsAt readerFirst) (executionPlan readerFirst).order pushed [] a ∧ a.ready = [] ∧
      pushed.Perm (List.finRange readerFirst.length) := by
  have hacyclic : (executionPlan readerFirst).cyclic = false := by decide
  obtain ⟨hcounts, pushed, a, hloop, hready, -, hperm⟩ := ready_loop_counts hacyclic
  have hfirst : Loop (feedsAt readerFirst) [⟨2, by decide⟩] [⟨2, by decide⟩] _ _ := Loop.start.pop rfl (.refl _)
  obtain ⟨-, hpending, -⟩ := hcounts _ _ _ _ hfirst
  refine ⟨hacyclic, ⟨_, _, hfirst, by decide, ?_, ?_⟩, pushed, a, hloop, hready, hperm⟩
  · exact (hpending _).trans (by decide)
  · exact (hpending _).trans (by decide)

end StepScript
