import StepScript.Program
import StepScript.Proofs.Order.Agenda

/-! The order in which the transformations of a job are generated. Unless the transformations feed one
    another in a cycle, it is the least order in which each stands before those that read its targets;
    with a cycle it is the given order. Either way every transformation has its place. -/

namespace StepScript

/-! ### Plans of a relation -/

section OfRelation
variable {n : Nat} {feeds : Fin n → Fin n → Bool}

namespace Plan

theorem cyclic_iff : (ofRelation feeds).cyclic = true ↔ Cyclic (feeds · · = true) := by
  rw [← hasCycle_iff]
  unfold ofRelation
  split <;> simp_all

theorem order_of_cyclic (h : (ofRelation feeds).cyclic = true) : (ofRelation feeds).order = List.finRange n := by
  have hcycle := hasCycle_iff.mpr (cyclic_iff.mp h)
  simp [ofRelation, hcycle]

theorem not_cyclic (h : (ofRelation feeds).cyclic = false) : ¬Cyclic (feeds · · = true) := by
  rw [← cyclic_iff, h]
  exact Bool.false_ne_true

theorem greedy_of_not_cyclic (h : ¬Cyclic (feeds · · = true)) :
    Greedy (feeds · · = true) [] (ofRelation feeds).order := by
  have hcycle : hasCycle feeds ≠ true := mt hasCycle_iff.mp h
  rw [ofRelation, if_neg hcycle]
  exact Agenda.greedy_run_start

theorem order_perm : (ofRelation feeds).order.Perm (List.finRange n) := by
  by_cases h : (ofRelation feeds).cyclic = true
  · rw [order_of_cyclic h]
  · have hR := mt cyclic_iff.mpr h
    exact ((greedy_of_not_cyclic hR).isTopological hR).perm

end Plan

end OfRelation

/-- An ascending list is the least of its permutations. -/
theorem le_of_perm_of_pairwise {α : Type} [LinearOrder α] :
    ∀ {l l' : List α}, l.Pairwise (· ≤ ·) → l.Perm l' → l ≤ l'
  | [], l', _, h => by rw [h.nil_eq]
  | a :: l, [], _, h => absurd h.eq_nil (List.cons_ne_nil a l)
  | a :: l, b :: l', hl, h => by
    obtain ⟨ha, hl'⟩ := List.pairwise_cons.mp hl
    have hab : a ≤ b := by
      rcases List.mem_cons.mp (h.mem_iff.mpr List.mem_cons_self) with rfl | hb
      · exact le_rfl
      · exact ha b hb
    rcases hab.lt_or_eq with hlt | rfl
    · exact le_of_lt (List.cons_lt_cons_iff.mpr (Or.inl hlt))
    · exact List.cons_le_cons _ (le_of_perm_of_pairwise hl' h.cons_inv)

/-! ### Plans of transformations -/

/-- The transformation at one position feeds the one at another: a target of the first is a source of
    the second. -/
def Feeds (ts : List Transform) (i j : Fin ts.length) : Prop :=
  i ≠ j ∧ ∃ r ∈ (ts.get i).targets, r ∈ (ts.get j).sources

instance (ts : List Transform) (i j : Fin ts.length) : Decidable (Feeds ts i j) :=
  inferInstanceAs (Decidable (_ ∧ _))

variable {ts : List Transform}

theorem feedsAt_eq : (fun i j => feedsAt ts i j = true) = Feeds ts := by
  funext i j
  simp [feedsAt, Feeds, Transform.feeds]

theorem greedy_executionPlan (h : (executionPlan ts).cyclic = false) :
    Greedy (Feeds ts) [] (executionPlan ts).order := by
  rw [← feedsAt_eq]
  exact Plan.greedy_of_not_cyclic (Plan.not_cyclic h)

theorem not_cyclic_feeds (h : (executionPlan ts).cyclic = false) : ¬Cyclic (Feeds ts) := by
  rw [← feedsAt_eq]
  exact Plan.not_cyclic h

/-- Without a cycle, the order of generation is the least of those in which each transformation stands
    before the ones that it feeds; so a given order of this kind stays as it is. -/
theorem executionPlan_isLeast (h : (executionPlan ts).cyclic = false) :
    IsTopological (Feeds ts) (executionPlan ts).order ∧
    (∀ other, IsTopological (Feeds ts) other → (executionPlan ts).order ≤ other) ∧
    (IsTopological (Feeds ts) (List.finRange ts.length) →
      (executionPlan ts).order = List.finRange ts.length) := by
  have hgreedy := greedy_executionPlan h
  have htop := hgreedy.isTopological (not_cyclic_feeds h)
  refine ⟨htop, fun other hother => hgreedy.le_of_isTopological hother, fun hgiven => ?_⟩
  apply le_antisymm (hgreedy.le_of_isTopological hgiven)
  exact le_of_perm_of_pairwise ((List.pairwise_lt_finRange _).imp le_of_lt) htop.perm.symm

/-- A reader that is declared ahead of the two writers of its sources, one of which reads the other's target. -/
def readerFirst : List Transform :=
  [{ name := "join", kind := .append, sources := [⟨"left"⟩, ⟨"right"⟩], targets := [⟨"both"⟩] },
    { name := "left", kind := .sort, sources := [⟨"right"⟩], targets := [⟨"left"⟩] },
    { name := "right", kind := .sort, sources := [⟨"raw"⟩], targets := [⟨"right"⟩] }]

theorem executionPlan_readerFirst : (executionPlan readerFirst).cyclic = false ∧
    (executionPlan readerFirst).order.map Fin.val = [2, 1, 0] ∧
    IsTopological (Feeds readerFirst) (executionPlan readerFirst).order ∧
    ∀ other, IsTopological (Feeds readerFirst) other → (executionPlan readerFirst).order ≤ other := by
  have h : (executionPlan readerFirst).cyclic = false := by decide
  obtain ⟨htop, hleast, -⟩ := executionPlan_isLeast h
  exact ⟨h, by decide, htop, hleast⟩

/-- No transformation is lost, and a cycle is reported if there is one; then the given order stays. -/
theorem executionPlan_complete (ts : List Transform) :
    (executionPlan ts).order.Perm (List.finRange ts.length) ∧
    ((executionPlan ts).cyclic = true ↔ ∃ i, Relation.TransGen (Feeds ts) i i) ∧
    ((executionPlan ts).cyclic = true → (executionPlan ts).order = List.finRange ts.length) := by
  refine ⟨Plan.order_perm, ?_, Plan.order_of_cyclic⟩
  rw [← feedsAt_eq]
  exact Plan.cyclic_iff

end StepScript
