import StepScript.Proofs.Order.Plan

/-! Writers of one table. That two transformations write one table puts neither ahead of the other, for the order
    follows from what is written and read. So of two that do not wait for each other the one declared first comes
    first, unless it waits for one that is declared after the other and does not come before it. -/

namespace StepScript
open Relation

/-! ### Waiting -/

section Waiting
variable {n : Nat} {R : Fin n → Fin n → Prop} {placed order : List (Fin n)} {i j : Fin n}

/-- Of a position that is not placed and those that it waits for, one is ready. -/
theorem exists_ready (hR : ¬Cyclic R) (hi : i ∉ placed) : ∃ k, ReflTransGen R k i ∧ Ready R placed k := by
  obtain ⟨k, ⟨hki, hk⟩, hunfed⟩ := exists_unfed hR (S := {k | ReflTransGen R k i ∧ k ∉ placed}) ⟨i, .refl, hi⟩
  refine ⟨k, hki, hk, fun l hlk => ?_⟩
  by_contra hl
  exact hunfed l ⟨.head hlk hki, hl⟩ hlk

/-- A position stands before another one only if that is, or waits for, one that is not less and does not stand
    before it. -/
theorem Greedy.exists_behind (hR : ¬Cyclic R) (h : Greedy R placed order) (hi : i ∉ placed)
    (hlt : order.idxOf j < order.idxOf i) :
    ∃ k ∉ placed, ReflTransGen R k i ∧ j ≤ k ∧ order.idxOf j ≤ order.idxOf k := by
  induction h with
  | done _ => exact absurd hlt (Nat.lt_irrefl 0)
  | @place placed order first ready least _ ih =>
    by_cases hj : first = j
    · -- The position is the least ready one, and the other is ready or waits for one that is.
      subst hj
      obtain ⟨k, hki, hk⟩ := exists_ready hR hi
      rw [List.idxOf_cons_self]
      exact ⟨k, hk.1, hki, least k hk, Nat.zero_le _⟩
    · have hne : first ≠ i := fun hfirst => by
        rw [hfirst, List.idxOf_cons_self] at hlt
        exact Nat.not_lt_zero _ hlt
      rw [List.idxOf_cons_ne _ hj, List.idxOf_cons_ne _ hne] at hlt
      have hi' : i ∉ first :: placed := fun hmem => (List.mem_cons.mp hmem).elim (Ne.symm hne) hi
      obtain ⟨k, hk, hki, hjk, hle⟩ := ih hi' (Nat.lt_of_succ_lt_succ hlt)
      rw [List.mem_cons, not_or] at hk
      refine ⟨k, hk.2, hki, hjk, ?_⟩
      rw [List.idxOf_cons_ne _ hj, List.idxOf_cons_ne _ (Ne.symm hk.1)]
      exact Nat.succ_le_succ hle

/-- In a topological order each position stands before all that wait for it. -/
theorem IsTopological.before_of_waits (h : IsTopological R order) (hij : TransGen R i j) :
    order.idxOf i < order.idxOf j := by
  induction hij with
  | single hij => exact h.before _ _ hij
  | tail _ hjk ih => exact ih.trans (h.before _ _ hjk)

/-- A position stands before a greater one that it does not wait for exactly if all those do for which it waits
    and which are greater still. -/
theorem Greedy.before_iff (hR : ¬Cyclic R) (h : Greedy R [] order) (hij : i < j) (hji : ¬TransGen R j i) :
    order.idxOf i < order.idxOf j ↔ ∀ k, TransGen R k i → j < k → order.idxOf k < order.idxOf j := by
  have htop := h.isTopological hR
  constructor
  · intro hbefore k hki _
    exact (htop.before_of_waits hki).trans hbefore
  · intro hwaits
    by_contra hle
    have hne : order.idxOf j ≠ order.idxOf i := fun heq =>
      hij.ne' ((List.idxOf_inj (htop.mem j)).mp heq)
    obtain ⟨k, -, hki, hjk, hbehind⟩ := h.exists_behind hR List.not_mem_nil
      (lt_of_le_of_ne (Nat.le_of_not_lt hle) hne)
    rcases reflTransGen_iff_eq_or_transGen.mp hki with rfl | hki
    · exact hjk.not_gt hij
    · rcases hjk.lt_or_eq with hlt | rfl
      · exact hbehind.not_gt (hwaits k hki hlt)
      · exact hji hki

end Waiting

/-! ### Writers -/

section Writers
variable (ts : List Transform) (i j : Fin ts.length)

/-- A transformation depends on another one through tables that are written and read, directly or by way of others. -/
def WaitsFor : Prop := TransGen (Feeds ts) j i

/-- A transformation comes before another one in the order of generation. -/
def ComesBefore : Prop := (executionPlan ts).order.idxOf i < (executionPlan ts).order.idxOf j

def WritesTo (r : TableRef) : Prop := r ∈ (ts.get i).targets

instance : Decidable (ComesBefore ts i j) := inferInstanceAs (Decidable (_ < _))

instance (r : TableRef) : Decidable (WritesTo ts i r) := inferInstanceAs (Decidable (_ ∈ _))

end Writers

section Orders
variable {ts : List Transform}

theorem comesBefore_of_waitsFor (h : (executionPlan ts).cyclic = false) {i j : Fin ts.length}
    (hji : WaitsFor ts j i) : ComesBefore ts i j :=
  ((greedy_executionPlan h).isTopological (not_cyclic_feeds h)).before_of_waits hji

/-- Without a cycle, a transformation comes before one declared after it that it does not wait for exactly if all
    those do that are declared later still and that it waits for. So the one declared last of the writers of a table
    comes last of them exactly if none of them waits for it, or for a transformation declared after it that does not
    come before it. -/
theorem writers_in_order_iff (h : (executionPlan ts).cyclic = false) :
    (∀ i j, i < j → ¬WaitsFor ts i j →
      (ComesBefore ts i j ↔ ∀ k, WaitsFor ts i k → j < k → ComesBefore ts k j)) ∧
    ∀ (r : TableRef) (last : Fin ts.length), (∀ i, WritesTo ts i r → i ≤ last) →
      ((∀ i, WritesTo ts i r → i ≠ last → ComesBefore ts i last) ↔
        ∀ i, WritesTo ts i r → i ≠ last →
          ¬WaitsFor ts i last ∧ ∀ k, WaitsFor ts i k → last < k → ComesBefore ts k last) := by
  have hpair : ∀ i j, i < j → ¬WaitsFor ts i j →
      (ComesBefore ts i j ↔ ∀ k, WaitsFor ts i k → j < k → ComesBefore ts k j) :=
    fun i j hij hwaits => (greedy_executionPlan h).before_iff (not_cyclic_feeds h) hij hwaits
  refine ⟨hpair, fun r last hlast => forall₃_congr fun i hi hne => ?_⟩
  have hlt : i < last := lt_of_le_of_ne (hlast i hi) hne
  constructor
  · intro hbefore
    have hwaits : ¬WaitsFor ts i last := fun hwaits => hbefore.not_gt (comesBefore_of_waitsFor h hwaits)
    exact ⟨hwaits, (hpair i last hlt hwaits).mp hbefore⟩
  · rintro ⟨hwaits, hlater⟩
    exact (hpair i last hlt hwaits).mpr hlater

end Orders

/-- Two writers of one table, the first of which reads what the last transformation writes, and the second a table
    that is given. -/
def twoWriters (read : String) : List Transform :=
  [{ name := "first", kind := .append, sources := [⟨"MID"⟩], targets := [⟨"OUT"⟩] },
    { name := "second", kind := .append, sources := [⟨read⟩], targets := [⟨"OUT"⟩] },
    { name := "mid", kind := .append, sources := [⟨"RAW"⟩], targets := [⟨"MID"⟩] }]

/-- If both wait for the last transformation, they come in their order. -/
theorem twoWriters_in_order : (executionPlan (twoWriters "MID")).cyclic = false ∧
    WaitsFor (twoWriters "MID") ⟨0, by decide⟩ ⟨2, by decide⟩ ∧
    ¬WaitsFor (twoWriters "MID") ⟨0, by decide⟩ ⟨1, by decide⟩ ∧
    ComesBefore (twoWriters "MID") ⟨0, by decide⟩ ⟨1, by decide⟩ := by
  have hacyclic : (executionPlan (twoWriters "MID")).cyclic = false := by decide
  have hfeeds : ∀ i j, Feeds (twoWriters "MID") i j → i = ⟨2, by decide⟩ := by decide
  have hwaits : ¬WaitsFor (twoWriters "MID") ⟨0, by decide⟩ ⟨1, by decide⟩ := fun h => by
    obtain ⟨k, hk, -⟩ := TransGen.head'_iff.mp h
    exact absurd (hfeeds _ _ hk) (by decide)
  have hlater : ∀ k, ⟨1, by decide⟩ < k → ComesBefore (twoWriters "MID") k ⟨1, by decide⟩ := by decide
  obtain ⟨hpair, -⟩ := writers_in_order_iff hacyclic
  refine ⟨hacyclic, .single (by decide), hwaits, ?_⟩
  exact (hpair _ _ (by decide) hwaits).mpr fun k _ hlt => hlater k hlt

/-- If the first one alone waits for the last transformation, it comes after the second. -/
theorem twoWriters_reversed : (executionPlan (twoWriters "SRC")).cyclic = false ∧
    WritesTo (twoWriters "SRC") ⟨0, by decide⟩ ⟨"OUT"⟩ ∧ WritesTo (twoWriters "SRC") ⟨1, by decide⟩ ⟨"OUT"⟩ ∧
    ¬WaitsFor (twoWriters "SRC") ⟨0, by decide⟩ ⟨1, by decide⟩ ∧
    ¬WaitsFor (twoWriters "SRC") ⟨1, by decide⟩ ⟨0, by decide⟩ ∧
    ¬ComesBefore (twoWriters "SRC") ⟨0, by decide⟩ ⟨1, by decide⟩ := by
  have hfeeds : ∀ i j, Feeds (twoWriters "SRC") i j → i = ⟨2, by decide⟩ := by decide
  have hwaits : ∀ i j, j ≠ ⟨2, by decide⟩ → ¬WaitsFor (twoWriters "SRC") i j := fun i j hj h => by
    obtain ⟨k, hk, -⟩ := TransGen.head'_iff.mp h
    exact hj (hfeeds _ _ hk)
  exact ⟨by decide, by decide, by decide, hwaits _ _ (by decide), hwaits _ _ (by decide), by decide⟩

end StepScript
