import Mathlib.Logic.Relation
import Mathlib.Order.WellFounded
import Mathlib.Data.Fintype.EquivFin
import StepScript.Order

/-! Cycles of a relation on finitely many positions. Without a cycle, every set of positions has one
    that no position of the set feeds. So the rounds of `core` end in no position unless there is a
    cycle, whose positions are never taken away, and `hasCycle` decides whether there is one. -/

namespace StepScript
open Relation

/-- A relation has a cycle: some position reaches itself. -/
def Cyclic {α : Type} (R : α → α → Prop) : Prop :=
  ∃ i, TransGen R i i

variable {n : Nat}

/-- Without a cycle, every set of positions has one that no position of the set feeds. -/
theorem exists_unfed {R : Fin n → Fin n → Prop} (hR : ¬Cyclic R) {S : Set (Fin n)} (hS : S.Nonempty) :
    ∃ j ∈ S, ∀ i ∈ S, ¬R i j := by
  have : IsTrans (Fin n) (TransGen R) := ⟨fun _ _ _ => TransGen.trans⟩
  have : Std.Irrefl (TransGen R) := ⟨fun i h => hR ⟨i, h⟩⟩
  have wf : WellFounded (TransGen R) := Finite.wellFounded_of_trans_of_irrefl _
  obtain ⟨j, hj, hmin⟩ := wf.has_min S hS
  exact ⟨j, hj, fun i hi h => hmin i hi (TransGen.single h)⟩

/-- A position on a cycle is fed by a position on a cycle. -/
theorem exists_feeder {α : Type} {R : α → α → Prop} {j : α} (h : TransGen R j j) :
    ∃ i, R i j ∧ TransGen R i i := by
  obtain ⟨i, hji, hij⟩ := TransGen.tail'_iff.mp h
  exact ⟨i, hij, TransGen.head' hij hji⟩

/-! ### The rounds -/

section Rounds
variable {feeds : Fin n → Fin n → Bool}

theorem mem_fedWithin {is : List (Fin n)} {j : Fin n} :
    j ∈ fedWithin feeds is ↔ j ∈ is ∧ ∃ i ∈ is, feeds i j = true := by
  simp [fedWithin]

theorem fedWithin_eq_of_length {is : List (Fin n)} (h : is.length ≤ (fedWithin feeds is).length) :
    fedWithin feeds is = is :=
  List.filter_sublist.eq_of_length_le h

theorem core_of_fixed {is : List (Fin n)} (h : fedWithin feeds is = is) :
    ∀ rounds, core feeds rounds is = is
  | 0 => rfl
  | rounds + 1 => by
    rw [core, h]
    exact core_of_fixed h rounds

/-- After as many rounds as there are positions nothing more is taken away. -/
theorem fedWithin_core {rounds : Nat} {is : List (Fin n)} (h : is.length ≤ rounds) :
    fedWithin feeds (core feeds rounds is) = core feeds rounds is := by
  induction rounds generalizing is with
  | zero =>
    obtain rfl := List.length_eq_zero_iff.mp (Nat.le_zero.mp h)
    rfl
  | succ rounds ih =>
    by_cases hfix : fedWithin feeds is = is
    · rw [core_of_fixed hfix, hfix]
    · have hlt : (fedWithin feeds is).length < is.length := by
        by_contra hge
        exact hfix (fedWithin_eq_of_length (Nat.le_of_not_lt hge))
      rw [core]
      exact ih (by omega)

/-- The positions on cycles are never taken away. -/
theorem mem_core_of_cycle {rounds : Nat} {is : List (Fin n)}
    (his : ∀ j, TransGen (feeds · · = true) j j → j ∈ is) :
    ∀ j, TransGen (feeds · · = true) j j → j ∈ core feeds rounds is := by
  induction rounds generalizing is with
  | zero => exact his
  | succ rounds ih =>
    refine ih fun j hj => mem_fedWithin.mpr ⟨his j hj, ?_⟩
    obtain ⟨i, hij, hi⟩ := exists_feeder hj
    exact ⟨i, his i hi, hij⟩

/-- The test for cycles is right. -/
theorem hasCycle_iff : hasCycle feeds = true ↔ Cyclic (feeds · · = true) := by
  have hrest : hasCycle feeds = true ↔ core feeds n (List.finRange n) ≠ [] := by
    simp [hasCycle]
  rw [hrest]
  constructor
  · intro hne
    by_contra hR
    -- What remains is fed from within, which no set of positions is without a cycle.
    obtain ⟨j, hj, hunfed⟩ := exists_unfed hR (S := {j | j ∈ core feeds n (List.finRange n)})
      (List.exists_mem_of_ne_nil _ hne)
    have hfed : j ∈ fedWithin feeds (core feeds n (List.finRange n)) := by
      rw [fedWithin_core List.length_finRange.le]
      exact hj
    obtain ⟨-, i, hi, hij⟩ := mem_fedWithin.mp hfed
    exact hunfed i hi hij
  · rintro ⟨j, hj⟩
    exact List.ne_nil_of_mem (mem_core_of_cycle (fun i _ => List.mem_finRange i) j hj)

/-- Any other test that is right gives the same. -/
theorem eq_hasCycle {test : (Fin n → Fin n → Bool) → Bool} (h : ∀ R, test R = true ↔ Cyclic (R · · = true)) :
    test = hasCycle := by
  funext R
  rw [Bool.eq_iff_iff, h, hasCycle_iff]

end Rounds

end StepScript
