import StepScript.Proofs.Buffer.Render
import StepScript.Proofs.Step.Changes

/-! Code that only grows. How a fragment is rendered depends on those ahead of it only, and no operation takes a
    fragment back. So what was rendered once is the beginning of whatever is rendered later in the run, also where
    operations stopped in between. -/

namespace StepScript

/-- What is rendered stays, and something may come after it. -/
theorem Buffer.Continues.render {b b' : Buffer} (h : b.Continues b') : ∃ rest, b'.render = b.render ++ rest := by
  obtain ⟨hunit, -, fs, hfs⟩ := h
  refine ⟨String.ofList (renderFragments b.indentUnit.toList (lineStartAfter true (textOf b.fragments.toList)) fs), ?_⟩
  rw [Buffer.render, Buffer.render, hunit, ← hfs, renderFragments_append, String.ofList_append]

namespace Call
variable {env : Env}

theorem continues_outcome (env : Env) (s : StepState) (c : Call) : s.buffer.Continues (c.outcome env s).2.buffer := by
  by_cases hc : ∃ t, c = .nextWorkTable t
  · obtain ⟨t, rfl⟩ := hc
    exact refl s.buffer
  · exact (mapsOnce_outcome env s fun t ht => hc ⟨t, ht⟩).continues

/-- Each state of a run goes on from the one in which the run starts. -/
theorem continues_of_mem_outcomes {s : StepState} {cs : List Call} :
    ∀ o ∈ outcomes env s cs, s.buffer.Continues o.2.buffer := by
  induction cs generalizing s with
  | nil => exact List.forall_mem_nil _
  | cons c cs ih =>
    refine List.forall_mem_cons.mpr ⟨continues_outcome env s c, fun o ho => ?_⟩
    exact trans_of Buffer.Continues (continues_outcome env s c) (ih o ho)

theorem pairwise_continues (s : StepState) (cs : List Call) :
    (s :: (outcomes env s cs).map Prod.snd).Pairwise fun s₁ s₂ => s₁.buffer.Continues s₂.buffer := by
  induction cs generalizing s with
  | nil => exact List.pairwise_singleton _ s
  | cons c cs ih =>
    refine List.pairwise_cons.mpr ⟨fun s' hs' => ?_, ih (c.outcome env s).2⟩
    obtain ⟨o, ho, rfl⟩ := List.mem_map.mp hs'
    exact continues_of_mem_outcomes o ho

end Call

/-- Along a run, whatever comes of its calls, the code of an earlier state is the beginning of that of a later one. -/
theorem code_only_grows (env : Env) (s : StepState) (cs : List Call) :
    (s :: (Call.outcomes env s cs).map Prod.snd).Pairwise fun s₁ s₂ =>
      ∃ rest, s₂.buffer.render = s₁.buffer.render ++ rest :=
  (Call.pairwise_continues s cs).imp Buffer.Continues.render

end StepScript
