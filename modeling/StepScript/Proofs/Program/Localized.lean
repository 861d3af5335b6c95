import StepScript.Proofs.Program.Assembly

/-! Programs in several languages. A message is asked for where a failure is reported, when the transformation
    it belongs to has already failed. So the same positions of the plan fail in every language, each with one
    failure, and two programs of a job differ in the words for their failures and in nothing else. -/

namespace StepScript
namespace Generation

/-- Two reports of one failure of a job, in the languages of two bundles. All but their messages agree. -/
def Translates (g : Generation) (m m' : Messages) (job : Job) (r r' : ReportedFailure) : Prop :=
  r'.transform = r.transform ∧ r'.kind = r.kind ∧ r'.className = r.className ∧
    ∃ i f, g.generateAt job i = .error (.failure f) ∧ r.message = f.message m ∧ r'.message = f.message m'

section Languages
variable {g : Generation} {m m' : Messages} {job : Job} {i : Fin job.transforms.length} {r r' : ReportedFailure}

/-- A position has one failure, so its reports in two languages agree. -/
theorem translates_of_reportsAt (h : g.ReportsAt m job i r) (h' : g.ReportsAt m' job i r') :
    g.Translates m m' job r r' := by
  obtain ⟨f, hf, rfl⟩ := h
  obtain ⟨f', hf', rfl⟩ := h'
  rw [hf] at hf'
  obtain rfl : f = f' := Halt.failure.inj (Except.error.inj hf')
  exact ⟨rfl, rfl, rfl, i, f, hf, rfl, rfl⟩

theorem translates_of_reports {is : List (Fin job.transforms.length)} {rs rs' : List ReportedFailure}
    (h : List.Forall₂ (g.ReportsAt m job) is rs) (h' : List.Forall₂ (g.ReportsAt m' job) is rs') :
    List.Forall₂ (g.Translates m m' job) rs rs' := by
  induction h generalizing rs' with
  | nil =>
    cases h'
    exact .nil
  | cons hr hrs ih =>
    cases h' with
    | cons hr' hrs' => exact .cons (translates_of_reportsAt hr hr') (ih hrs')

end Languages

end Generation

end StepScript
