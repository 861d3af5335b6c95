import StepScript.Proofs.Program.Alike
import StepScript.Proofs.Step.LineBreak

/-! Programs with line breaks of two kinds. Line breaks come from the header, from the comments ahead of the steps
    and from the scripts of the steps. If no string of the job and of the settings has a line feed, these are the
    only line feeds, so the program with the one kind is that with the other kind, with its line feeds replaced. -/

namespace StepScript
open Text

/-- The same generation, with line breaks of a kind. -/
def Generation.withBreaks (g : Generation) (e : LineEnding) : Generation :=
  { g with settings := { g.settings with lineEnding := e } }

section Programs
variable {g : Generation} {job : Job} {generatedAt : String} {t : Transform}

theorem Generation.header_crlf (hname : OneLine job.name) (hat : OneLine generatedAt) :
    (g.withBreaks .crlf).header job generatedAt = crlf ((g.withBreaks .lf).header job generatedAt) := by
  have hbreak : crlf "\n" = "\r\n" := rfl
  have hline : OneLine ("/* Job: " ++ job.name ++ "  Generated: " ++ generatedAt ++ " */") := by
    simp +decide [hname, hat]
  unfold header withBreaks Settings.lineBreak LineEnding.text
  dsimp only
  split
  · rw [crlf_append, crlf_line hline, hbreak]
  · rfl

theorem Generation.stepComment_crlf (hname : OneLine t.name) :
    (g.withBreaks .crlf).stepComment t = crlf ((g.withBreaks .lf).stepComment t) := by
  have hkind : OneLine t.kind.name := by cases t.kind <;> decide
  have hline : OneLine ("/* Step: " ++ t.name ++ " (" ++ t.kind.name ++ ") */") := by simp +decide [hname, hkind]
  unfold stepComment withBreaks Settings.lineBreak LineEnding.text
  dsimp only
  split
  · rw [crlf_line hline]
  · rfl

/-- Line endings change nothing but line breaks. If no string of a job and of the settings has a line feed, the
    code with line breaks of a carriage return and a line feed is that with line feeds alone, each of them
    replaced, so that every line feed comes after a carriage return; and the generated transformations and the
    reported failures are the same. -/
theorem program_crlf (g : Generation) (m : Messages) {generatedAt : String} {job : Job} (hjob : job.value.OneLine)
    (hsettings : g.settings.value.OneLine) (hat : OneLine generatedAt) :
    (g.withBreaks .crlf).program m generatedAt job =
      { (g.withBreaks .lf).program m generatedAt job with
        code := crlf ((g.withBreaks .lf).program m generatedAt job).code } ∧
    BreaksWithCrlf ((g.withBreaks .crlf).program m generatedAt job).code := by
  have hs : Settings.Alike (g.withBreaks .lf).settings (g.withBreaks .crlf).settings := ⟨rfl, rfl, rfl⟩
  have hlines : (g.withBreaks .lf).settings.IsOneLine := by
    obtain ⟨hwork, hoptions⟩ := Settings.isOneLine_of_value hsettings
    exact ⟨hwork, hoptions⟩
  have htables : ∀ id u, job.catalog.get? id = some u → u.IsOneLine := fun id u hu =>
    job.isOneLine_of_mem_tables hjob (Catalog.mem_of_mem_ofTables (Catalog.get?_eq_some_iff.mp hu).1)
  have hscript : ∀ t ∈ job.transforms, ∀ (generator : Generator) (script : List Statement),
      generator.HasScript ⟨t.name, job.catalog.get?, (g.withBreaks .lf).settings⟩ t script →
      (Buffer.ofScript (g.withBreaks .crlf).settings script).render =
        crlf (Buffer.ofScript (g.withBreaks .lf).settings script).render := by
    intro t ht generator script hhas
    exact render_ofScript_crlf (hhas.isOneLine hlines (job.isOneLine_of_mem_transforms hjob ht) htables) g.settings
  have hprogram : (g.withBreaks .crlf).program m generatedAt job =
      { (g.withBreaks .lf).program m generatedAt job with
        code := crlf ((g.withBreaks .lf).program m generatedAt job).code } :=
    program_alike crlf_empty crlf_append hs (.refl job) rfl m generatedAt
      (Generation.header_crlf (job.oneLine_name hjob) hat)
      (fun t ht => Generation.stepComment_crlf (job.isOneLine_of_mem_transforms hjob ht).name) hscript
  refine ⟨hprogram, ?_⟩
  rw [hprogram]
  exact breaksWithCrlf_crlf _

end Programs

/-- The job with a failing sort has line breaks of the one kind in the one program and of the other kind in the
    other one. -/
theorem partialJob_crlf : (withHeader.withBreaks .crlf).program .english "now" partialJob =
      { (withHeader.withBreaks .lf).program .english "now" partialJob with
        code := crlf ((withHeader.withBreaks .lf).program .english "now" partialJob).code } ∧
    BreaksWithCrlf ((withHeader.withBreaks .crlf).program .english "now" partialJob).code :=
  program_crlf withHeader .english (by decide) (by decide) (by decide)

end StepScript
