import Mathlib.Data.List.Lex
import Mathlib.Data.List.FinRange
import StepScript.Proofs.Order.Cycle

/-! Topological orders and the greedy one. In a topological order every position is ready when its turn
    comes; the greedy order takes the least ready position each time. So the greedy order, as far as it
    goes, is below every topological order, and without a cycle it goes through all positions. -/

namespace StepScript

variable {n : Nat} {R : Fin n → Fin n → Prop} {placed order other : List (Fin n)}

/-- A permutation of the positions in which each position stands before those that it feeds. -/
structure IsTopological (R : Fin n → Fin n → Prop) (order : List (Fin n)) : Prop where
  perm : order.Perm (List.finRange n)
  before : ∀ i j, R i j → order.idxOf i < order.idxOf j

/-- A position can be placed next: it is not placed, and every position that feeds it is. -/
def Ready (R : Fin n → Fin n → Prop) (placed : List (Fin n)) (j : Fin n) : Prop :=
  j ∉ placed ∧ ∀ i, R i j → i ∈ placed

/-- Each position of a list is ready in its turn, after those placed and those ahead of it. -/
def ReadyInTurn (R : Fin n → Fin n → Prop) : List (Fin n) → List (Fin n) → Prop
  | _, [] => True
  | placed, i :: order => Ready R placed i ∧ ReadyInTurn R (i :: placed) order

/-- A list takes the least ready position each time, until none is ready. -/
inductive Greedy (R : Fin n → Fin n → Prop) : List (Fin n) → List (Fin n) → Prop
  | done {placed : List (Fin n)} (none_ready : ∀ i, ¬Ready R placed i) : Greedy R placed []
  | place {placed order : List (Fin n)} {i : Fin n} (ready : Ready R placed i)
      (least : ∀ j, Ready R placed j → i ≤ j) (rest : Greedy R (i :: placed) order) :
      Greedy R placed (i :: order)

/-! ### Ready in turn -/

namespace ReadyInTurn

theorem disjoint (h : ReadyInTurn R placed order) : ∀ i ∈ order, i ∉ placed := by
  induction order generalizing placed with
  | nil => simp
  | cons i order ih =>
    intro j hj hplaced
    rcases List.mem_cons.mp hj with rfl | hj
    · exact h.1.1 hplaced
    · exact ih h.2 j hj (List.mem_cons_of_mem _ hplaced)

theorem nodup (h : ReadyInTurn R placed order) : order.Nodup := by
  induction order generalizing placed with
  | nil => exact List.nodup_nil
  | cons i order ih =>
    refine List.nodup_cons.mpr ⟨fun hi => ?_, ih h.2⟩
    exact h.2.disjoint i hi List.mem_cons_self

/-- A feeder of a listed position is placed, or stands before it. -/
theorem before (h : ReadyInTurn R placed order) {i j : Fin n} (hij : R i j) (hj : j ∈ order) :
    i ∈ placed ∨ order.idxOf i < order.idxOf j := by
  induction order generalizing placed with
  | nil => cases hj
  | cons k order ih =>
    by_cases hjk : j = k
    · subst hjk
      exact Or.inl (h.1.2 i hij)
    · have hj' : j ∈ order := (List.mem_cons.mp hj).resolve_left hjk
      rw [List.idxOf_cons_ne _ (Ne.symm hjk)]
      by_cases hik : i = k
      · subst hik
        rw [List.idxOf_cons_self]
        exact Or.inr (Nat.succ_pos _)
      · rw [List.idxOf_cons_ne _ (Ne.symm hik)]
        rcases ih h.2 hj' with hi | hlt
        · exact Or.inl ((List.mem_cons.mp hi).resolve_left hik)
        · exact Or.inr (Nat.succ_lt_succ hlt)

theorem isTopological (h : ReadyInTurn R [] order) (hall : ∀ i, i ∈ order) : IsTopological R order where
  perm := (List.perm_ext_iff_of_nodup h.nodup (List.nodup_finRange n)).mpr fun i =>
    ⟨fun _ => List.mem_finRange i, fun _ => hall i⟩
  before _ j hij := (h.before hij (hall j)).resolve_left List.not_mem_nil

end ReadyInTurn

namespace IsTopological

theorem mem (h : IsTopological R order) (i : Fin n) : i ∈ order :=
  h.perm.mem_iff.mpr (List.mem_finRange i)

theorem nodup (h : IsTopological R order) : order.Nodup :=
  h.perm.nodup_iff.mpr (List.nodup_finRange n)

/-- The rest of a topological order is ready in turn after the part ahead of it. -/
theorem readyInTurn_suffix (h : IsTopological R order) :
    ∀ ahead rest : List (Fin n), order = ahead ++ rest → ReadyInTurn R ahead.reverse rest
  | _, [], _ => trivial
  | ahead, j :: rest, heq => by
    have hnodup : (ahead ++ j :: rest).Nodup := heq ▸ h.nodup
    have hj : j ∉ ahead := fun hmem =>
      List.disjoint_of_nodup_append hnodup hmem List.mem_cons_self
    refine ⟨⟨by simpa using hj, fun i hij => ?_⟩, ?_⟩
    · have hlt := h.before i j hij
      rw [heq, List.idxOf_append_of_notMem hj, List.idxOf_cons_self, Nat.add_zero] at hlt
      by_contra hi
      rw [List.mem_reverse] at hi
      rw [List.idxOf_append_of_notMem hi] at hlt
      omega
    · have := readyInTurn_suffix h (ahead ++ [j]) rest (by simp [heq])
      simpa using this

theorem readyInTurn (h : IsTopological R order) : ReadyInTurn R [] order :=
  h.readyInTurn_suffix [] order rfl

end IsTopological

/-! ### The greedy order -/

namespace Greedy

theorem readyInTurn (h : Greedy R placed order) : ReadyInTurn R placed order := by
  induction h with
  | done _ => trivial
  | place ready _ _ ih => exact ⟨ready, ih⟩

/-- At the end of a greedy order no position is ready. -/
theorem none_ready (h : Greedy R placed order) : ∀ i, ¬Ready R (order.reverse ++ placed) i := by
  induction h with
  | done hnone => exact hnone
  | place _ _ _ ih => simpa using ih

/-- Without a cycle, a greedy order places every position. -/
theorem mem_of_not_cyclic (hR : ¬Cyclic R) (h : Greedy R placed order) (i : Fin n) :
    i ∈ placed ∨ i ∈ order := by
  by_contra hi
  obtain ⟨j, hj, hunfed⟩ := exists_unfed hR (S := {j | ¬(j ∈ placed ∨ j ∈ order)}) ⟨i, hi⟩
  refine h.none_ready j ⟨fun hmem => hj ?_, fun k hkj => ?_⟩
  · simpa [or_comm] using hmem
  · by_contra hk
    exact hunfed k (fun hmem => hk (by simpa [or_comm] using hmem)) hkj

/-- A greedy order is below every order of the same positions that is ready in turn. -/
theorem le_of_readyInTurn (h : Greedy R placed order) (hother : ReadyInTurn R placed other)
    (hall : ∀ i, i ∈ placed ∨ i ∈ other) : order ≤ other := by
  induction h generalizing other with
  | done _ => exact not_lt.mp (List.not_lt_nil other)
  | @place placed order i ready least _ ih =>
    cases other with
    | nil => exact absurd ((hall i).resolve_right List.not_mem_nil) ready.1
    | cons j other =>
      -- The other list starts with a ready position too, so with a later one or with the same.
      rcases (least j hother.1).lt_or_eq with hlt | rfl
      · exact le_of_lt (List.cons_lt_cons_iff.mpr (Or.inl hlt))
      · have hrest := ih hother.2 fun k => by
          rcases hall k with hk | hk
          · exact Or.inl (List.mem_cons_of_mem _ hk)
          · rcases List.mem_cons.mp hk with rfl | hk
            · exact Or.inl List.mem_cons_self
            · exact Or.inr hk
        exact List.cons_le_cons _ hrest

theorem le_of_isTopological (h : Greedy R [] order) (hother : IsTopological R other) : order ≤ other :=
  h.le_of_readyInTurn hother.readyInTurn fun i => Or.inr (hother.mem i)

theorem isTopological (hR : ¬Cyclic R) (h : Greedy R [] order) : IsTopological R order :=
  h.readyInTurn.isTopological fun i => (h.mem_of_not_cyclic hR i).resolve_left List.not_mem_nil

end Greedy

end StepScript
