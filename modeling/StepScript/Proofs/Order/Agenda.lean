import StepScript.Proofs.Order.Greedy

/-! The agenda keeps its counts. For the positions placed so far it says how many producers of each
    position are missing, and lists the ready positions in ascending order (`Tracks`). Placing the first
    ready position keeps this, so a run of the agenda is the greedy order. -/

namespace StepScript.Agenda

variable {n : Nat} {feeds : Fin n → Fin n → Bool} {placed js : List (Fin n)} {a : Agenda n} {i j k : Fin n}

theorem mem_producers : i ∈ producers feeds j ↔ feeds i j = true := by
  simp [producers]

theorem mem_consumers : j ∈ consumers feeds i ↔ feeds i j = true := by
  simp [consumers]

/-- How many producers of a position are not placed. -/
def missing (feeds : Fin n → Fin n → Bool) (placed : List (Fin n)) (j : Fin n) : Nat :=
  ((producers feeds j).filter (· ∉ placed)).length

/-- What an agenda says of the positions placed so far. -/
structure Tracks (feeds : Fin n → Fin n → Bool) (placed : List (Fin n)) (a : Agenda n) : Prop where
  pending : ∀ j : Fin n, a.pending.get j = missing feeds placed j
  ready : ∀ j, j ∈ a.ready ↔ Ready (feeds · · = true) placed j
  ascending : a.ready.Pairwise (· < ·)
  closed : ∀ i j, feeds i j = true → j ∈ placed → i ∈ placed

/-! ### Missing producers -/

theorem missing_eq_zero_iff : missing feeds placed j = 0 ↔ ∀ i, feeds i j = true → i ∈ placed := by
  simp [missing, mem_producers]

theorem ready_iff : Ready (feeds · · = true) placed j ↔ j ∉ placed ∧ missing feeds placed j = 0 := by
  rw [missing_eq_zero_iff]
  rfl

theorem missing_nil : missing feeds [] j = (producers feeds j).length := by
  simp [missing]

/-- A position that is placed is missing no more at those that it feeds. -/
theorem missing_of_feeds (hi : i ∉ placed) (hij : feeds i j = true) :
    missing feeds placed j = missing feeds (i :: placed) j + 1 := by
  have hmem : i ∈ (producers feeds j).filter (· ∉ placed) := by
    simp [mem_producers, hij, hi]
  have hnodup : ((producers feeds j).filter (· ∉ placed)).Nodup :=
    ((List.nodup_finRange n).filter _).filter _
  have herase : (producers feeds j).filter (· ∉ i :: placed) =
      ((producers feeds j).filter (· ∉ placed)).erase i := by
    rw [hnodup.erase_eq_filter, List.filter_filter]
    apply List.filter_congr
    intro k _
    by_cases hk : k = i <;> simp [hk]
  have hpos := List.length_pos_of_mem hmem
  unfold missing
  rw [herase, List.length_erase_of_mem hmem]
  omega

theorem missing_of_not_feeds (hij : feeds i j = false) :
    missing feeds (i :: placed) j = missing feeds placed j := by
  unfold missing
  congr 1
  apply List.filter_congr
  intro k hk
  have hki : k ≠ i := fun h => by
    rw [h, mem_producers, hij] at hk
    cases hk
  simp [hki]

/-! ### Counting off -/

theorem mem_insertAscending : k ∈ insertAscending j js ↔ k = j ∨ k ∈ js := by
  induction js with
  | nil => simp [insertAscending]
  | cons i js ih =>
    unfold insertAscending
    split
    · exact List.mem_cons
    · rw [List.mem_cons, ih, List.mem_cons]
      exact or_left_comm

theorem pairwise_insertAscending (h : js.Pairwise (· < ·)) (hj : j ∉ js) :
    (insertAscending j js).Pairwise (· < ·) := by
  induction js with
  | nil => exact List.pairwise_singleton _ _
  | cons i js ih =>
    obtain ⟨hi, hjs⟩ := List.pairwise_cons.mp h
    obtain ⟨hji, hj'⟩ := not_or.mp (mt List.mem_cons.mpr hj)
    unfold insertAscending
    split
    · rename_i hle
      have hlt : j < i := lt_of_le_of_ne hle hji
      refine List.pairwise_cons.mpr ⟨fun k hk => ?_, h⟩
      rcases List.mem_cons.mp hk with rfl | hk
      · exact hlt
      · exact hlt.trans (hi k hk)
    · rename_i hle
      refine List.pairwise_cons.mpr ⟨fun k hk => ?_, ih hjs hj'⟩
      rcases mem_insertAscending.mp hk with rfl | hk
      · exact not_le.mp hle
      · exact hi k hk

theorem pending_countOff (a : Agenda n) (j k : Fin n) :
    (a.countOff j).pending.get k = if k = j then a.pending.get k - 1 else a.pending.get k := by
  have hget : ∀ counts : Vector Nat n, counts.get k = counts[k.val] := fun _ => rfl
  by_cases h : k = j
  · subst h
    simp [countOff, hget]
  · have hne : j.val ≠ k.val := fun hv => h (Fin.ext hv.symm)
    simp [countOff, h, hget, Vector.getElem_set_ne, hne]

theorem ready_countOff (a : Agenda n) (j : Fin n) :
    (a.countOff j).ready = if a.pending.get j - 1 = 0 then insertAscending j a.ready else a.ready := rfl

theorem mem_ready_countOff (a : Agenda n) (j k : Fin n) :
    k ∈ (a.countOff j).ready ↔ k ∈ a.ready ∨ (k = j ∧ a.pending.get j - 1 = 0) := by
  rw [ready_countOff]
  split
  · rename_i h
    rw [mem_insertAscending, and_iff_left h]
    exact or_comm
  · rename_i h
    simp only [h, and_false, or_false]

theorem ascending_countOff (h : a.ready.Pairwise (· < ·)) (hj : j ∉ a.ready) :
    (a.countOff j).ready.Pairwise (· < ·) := by
  rw [ready_countOff]
  split
  · exact pairwise_insertAscending h hj
  · exact h

/-- Counting off at positions none of which is ready: each count goes down by one, and the positions
    whose count ends are added to the ready ones. -/
theorem countOff_all (hnodup : js.Nodup) (hasc : a.ready.Pairwise (· < ·)) (hjs : ∀ j ∈ js, j ∉ a.ready) :
    (∀ k : Fin n, (js.foldl countOff a).pending.get k = if k ∈ js then a.pending.get k - 1 else a.pending.get k) ∧
    (∀ k, k ∈ (js.foldl countOff a).ready ↔ k ∈ a.ready ∨ (k ∈ js ∧ a.pending.get k - 1 = 0)) ∧
    (js.foldl countOff a).ready.Pairwise (· < ·) := by
  induction js generalizing a with
  | nil => simp [hasc]
  | cons j js ih =>
    obtain ⟨hj, hnodup'⟩ := List.nodup_cons.mp hnodup
    have hne : ∀ k ∈ js, k ≠ j := fun k hk h => hj (h ▸ hk)
    have hjs' : ∀ k ∈ js, k ∉ (a.countOff j).ready := fun k hk hmem => by
      rcases (mem_ready_countOff a j k).mp hmem with hmem | ⟨h, -⟩
      · exact hjs k (List.mem_cons_of_mem _ hk) hmem
      · exact hne k hk h
    obtain ⟨hpending, hready, hasc'⟩ :=
      ih hnodup' (ascending_countOff hasc (hjs j List.mem_cons_self)) hjs'
    refine ⟨fun k => ?_, fun k => ?_, hasc'⟩
    · rw [List.foldl_cons, hpending k, pending_countOff]
      by_cases hkj : k = j
      · simp [hkj, hj]
      · simp [hkj]
    · rw [List.foldl_cons, hready k, mem_ready_countOff, pending_countOff]
      by_cases hkj : k = j
      · simp [hkj, hj]
      · simp [hkj]

/-! ### Runs -/

theorem tracks_start : Tracks feeds [] (start feeds) where
  pending j := missing_nil.symm ▸ Vector.getElem_ofFn j.isLt
  ready j := by simp [start, Ready, producers]
  ascending := (List.pairwise_lt_finRange n).filter _
  closed _ _ _ hj := absurd hj List.not_mem_nil

/-- Placing the first ready position keeps the counts. -/
theorem Tracks.place {rest : List (Fin n)} (h : Tracks feeds placed a) (hready : a.ready = i :: rest) :
    Tracks feeds (i :: placed) (a.place feeds i) := by
  have hasc := h.ascending
  rw [hready] at hasc
  obtain ⟨hleast, hrest⟩ := List.pairwise_cons.mp hasc
  have hi : Ready (feeds · · = true) placed i := (h.ready i).mp (hready ▸ List.mem_cons_self)
  have hmem_rest : ∀ j, j ∈ rest ↔ j ≠ i ∧ Ready (feeds · · = true) placed j := fun j => by
    rw [← h.ready, hready, List.mem_cons]
    constructor
    · exact fun hj => ⟨(hleast j hj).ne', Or.inr hj⟩
    · exact fun hj => hj.2.resolve_left hj.1
  -- A consumer still misses `i`, so its count is not zero and it is not among the ready ones.
  have hcount : ∀ j ∈ consumers feeds i, a.pending.get j = missing feeds (i :: placed) j + 1 := fun j hj => by
    rw [h.pending, missing_of_feeds hi.1 (mem_consumers.mp hj)]
  have hwait : ∀ j ∈ consumers feeds i, j ∉ rest := fun j hj hmem => by
    have hzero := (ready_iff.mp ((hmem_rest j).mp hmem).2).2
    rw [← h.pending, hcount j hj] at hzero
    exact Nat.succ_ne_zero _ hzero
  have hclosed : ∀ j ∈ consumers feeds i, j ≠ i ∧ j ∉ placed := fun j hj => by
    refine ⟨fun h => hi.1 (hi.2 i ?_), fun hplaced => hi.1 (h.closed i j (mem_consumers.mp hj) hplaced)⟩
    exact mem_consumers.mp (h ▸ hj)
  have hplace : a.place feeds i = (consumers feeds i).foldl countOff ⟨a.pending, rest⟩ := by
    unfold Agenda.place
    rw [hready, List.erase_cons_head]
  have hnodup : (consumers feeds i).Nodup := (List.nodup_finRange n).filter _
  obtain ⟨hpending, hready', hasc'⟩ := countOff_all (a := ⟨a.pending, rest⟩) hnodup hrest hwait
  rw [← hplace] at hpending hready' hasc'
  refine ⟨fun j => ?_, fun j => ?_, hasc', fun k j hkj hj => ?_⟩
  · rw [hpending j]
    split
    · rename_i hj
      rw [hcount j hj, Nat.add_sub_cancel]
    · rename_i hj
      rw [h.pending, missing_of_not_feeds (by simpa [mem_consumers] using hj)]
  · rw [hready' j, hmem_rest, ready_iff, ready_iff, List.mem_cons, not_or, and_assoc]
    by_cases hj : j ∈ consumers feeds i
    · obtain ⟨hji, hplaced⟩ := hclosed j hj
      have hmissing := missing_of_feeds hi.1 (mem_consumers.mp hj)
      rw [hcount j hj, Nat.add_sub_cancel, hmissing]
      simp [hji, hplaced, hj]
    · have hsame : missing feeds (i :: placed) j = missing feeds placed j :=
        missing_of_not_feeds (by simpa [mem_consumers] using hj)
      rw [hsame]
      simp only [hj, false_and, or_false]
  · rcases List.mem_cons.mp hj with rfl | hj
    · exact List.mem_cons_of_mem _ (hi.2 k hkj)
    · exact List.mem_cons_of_mem _ (h.closed k j hkj hj)

/-- A run of an agenda that has a step for every position not placed is the greedy order. -/
theorem Tracks.greedy_run {steps : Nat} (h : Tracks feeds placed a) (hnodup : placed.Nodup)
    (hsteps : n ≤ steps + placed.length) : Greedy (feeds · · = true) placed (run feeds steps a) := by
  induction steps generalizing placed a with
  | zero =>
    refine .done fun i hi => hi.1 ?_
    -- All `n` positions are placed.
    have hperm : placed.Perm (List.finRange n) :=
      (List.subperm_of_subset hnodup fun j _ => List.mem_finRange j).perm_of_length_le
        (by rw [List.length_finRange]; omega)
    exact hperm.mem_iff.mpr (List.mem_finRange i)
  | succ steps ih =>
    unfold run
    split
    · rename_i hready
      refine .done fun i hi => ?_
      rw [← h.ready, hready] at hi
      cases hi
    · rename_i i rest hready
      have hi : Ready (feeds · · = true) placed i := (h.ready i).mp (hready ▸ List.mem_cons_self)
      refine .place hi (fun j hj => ?_) ?_
      · rw [← h.ready, hready] at hj
        rcases List.mem_cons.mp hj with rfl | hj
        · exact le_rfl
        · have hasc := h.ascending
          rw [hready] at hasc
          exact ((List.pairwise_cons.mp hasc).1 j hj).le
      · exact ih (h.place hready) (List.nodup_cons.mpr ⟨hi.1, hnodup⟩) (by
          rw [List.length_cons]
          omega)

theorem greedy_run_start : Greedy (feeds · · = true) [] (run feeds n (start feeds)) :=
  tracks_start.greedy_run List.nodup_nil (Nat.le_add_right n _)

end StepScript.Agenda
