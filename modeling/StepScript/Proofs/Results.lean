import Mathlib.Data.List.Forall2
import Mathlib.Data.List.TakeWhile

/-! Results that may be errors, of lists and of searches, and what stands in a list ahead of an element. -/

namespace StepScript
variable {α β ε : Type}

/-- What succeeds on a list succeeds on each of its elements. -/
theorem mapM_eq_ok_iff {f : α → Except ε β} {as : List α} {bs : List β} :
    as.mapM f = .ok bs ↔ List.Forall₂ (fun a b => f a = .ok b) as bs := by
  induction as generalizing bs with
  | nil => cases bs <;> simp [pure, Except.pure]
  | cons a as ih =>
    rw [List.mapM_cons, List.forall₂_cons_left_iff]
    cases ha : f a with
    | error e => simp [bind, Except.bind]
    | ok b =>
      cases has : as.mapM f with
      | error e => simp [bind, Except.bind, ← ih, has]
      | ok rest => simp [bind, Except.bind, pure, Except.pure, ← ih, has, eq_comm]

theorem exists_ok_of_any {x : Except ε α} {p : α → Bool} (h : x.toOption.any p = true) :
    ∃ a, x = .ok a ∧ p a = true := by
  cases x with
  | error e => cases h
  | ok a => exact ⟨a, rfl, h⟩

section UpTo
variable [DecidableEq α] {a : α} {as : List α}

theorem takeWhile_ne_append (h : a ∉ as) (bs : List α) : (as ++ a :: bs).takeWhile (· != a) = as := by
  rw [List.takeWhile_append_of_pos fun b hb => by simpa using ne_of_mem_of_not_mem hb h]
  simp

theorem takeWhile_ne_eq_self (h : a ∉ as) : as.takeWhile (· != a) = as :=
  List.takeWhile_eq_self_iff.mpr fun b hb => by simpa using ne_of_mem_of_not_mem hb h

end UpTo

end StepScript
