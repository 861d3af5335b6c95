import StepScript.Proofs.Program.Alike
import StepScript.Proofs.Step.Tidied

/-! Jobs that are tidied. The settings of a job and of its configuration may be given with blanks around them, or
    blank instead of not at all, and properties may be given that set nothing. The program does not show it. -/

namespace StepScript
open Text

/-- Jobs of which the second one has the tables and transformations of the first one, tidied. -/
structure Job.Tidied (job job' : Job) : Prop where
  name : job'.name = job.name
  tables : List.Forall₂ Table.Tidied job.tables job'.tables
  transforms : List.Forall₂ Transform.Tidied job.transforms job'.transforms

section Programs
variable {s s' : Settings} {job job' : Job}

theorem Job.Tidied.alike (h : job.Tidied job') : job.Alike job' :=
  Job.alike_of_forall₂ (h.tables.imp fun _ _ => Table.Tidied.alike) (h.transforms.imp fun _ _ => Transform.Tidied.alike)

/-- The layout of a script does not depend on the global options. -/
theorem Settings.Tidied.ofScript (hs : s.Tidied s') (script : List Statement) :
    Buffer.ofScript s' script = Buffer.ofScript s script := by
  rw [hs.rest]
  rfl

/-- A job with settings that are tidied has the program that it had before: the code, the generated
    transformations and the reported failures. -/
theorem program_tidied (registry : Registry) (m : Messages) (generatedAt : String) (hs : s.Tidied s')
    (h : job.Tidied job') : (Generation.mk s' registry).program m generatedAt job' =
      (Generation.mk s registry).program m generatedAt job := by
  have hheader : (Generation.mk s' registry).header job' generatedAt =
      (Generation.mk s registry).header job generatedAt := by
    unfold Generation.header
    rw [hs.rest, h.name]
    rfl
  have hcomment : ∀ t, (Generation.mk s' registry).stepComment t = (Generation.mk s registry).stepComment t :=
    fun t => by
      unfold Generation.stepComment
      rw [hs.rest]
      rfl
  exact program_alike (φ := id) rfl (fun _ _ => rfl) hs.alike h.alike h.name m generatedAt hheader
    (fun t _ => hcomment t) fun _ _ _ script _ => congrArg Buffer.render (hs.ofScript script)

end Programs

/-- A job with blanks around its settings, blank ones, and properties that set nothing. -/
def messyJob : Job where
  name := "nightly"
  tables := [
    { Table.ofName "SRC" with condition := some " AGE > 12 ", readOptions := some "  " },
    { Table.ofName "OUT" with
      label := some " Pupils", columns := [{ name := "AGE", label := some "Age ", format := some "\t" }] }]
  transforms := [
    { name := "sorted", kind := .sort, sources := [⟨"SRC"⟩], targets := [⟨"OUT"⟩], orderBy := [{ name := "AGE" }]
      properties := ⟨[("SORT.FORCE", .flag false), ("SORT.OPTIONS", .text " equals "),
        ("SYSTEM.FMTSEARCH", .list [.text "WORK ", .text " "])], by decide⟩ }]

def neatJob : Job where
  name := "nightly"
  tables := [
    { Table.ofName "SRC" with condition := some "AGE > 12" },
    { Table.ofName "OUT" with label := some "Pupils", columns := [{ name := "AGE", label := some "Age" }] }]
  transforms := [
    { name := "sorted", kind := .sort, sources := [⟨"SRC"⟩], targets := [⟨"OUT"⟩], orderBy := [{ name := "AGE" }]
      properties := ⟨[("SORT.OPTIONS", .text "equals"), ("SYSTEM.FMTSEARCH", .list [.text "WORK"])], by decide⟩ }]

theorem messyJob_tidied : messyJob.Tidied neatJob where
  name := rfl
  tables := .cons ⟨rfl, .inl rfl, .nil, .inr rfl, .inr rfl, .inl rfl⟩
    (.cons ⟨rfl, .inr rfl, .cons ⟨rfl, .inr rfl, .inr rfl⟩ .nil, .inl rfl, .inl rfl, .inl rfl⟩ .nil)
  transforms := .cons ⟨rfl, .dropped (.inr ⟨rfl, rfl⟩) (.kept (.inl ⟨some (.text "equals"), .text (.inr rfl), rfl⟩)
    (.kept (.inl ⟨some (.list [.text "WORK"]), .list (.kept (.text (o := some "WORK") (.inr rfl))
      (.dropped (.text (o := none) (.inr rfl)) .nil)), rfl⟩) .nil))⟩ .nil

/-- The messy job and the neat one have one program, in which the step was generated. -/
theorem messyJob_program :
    (Generation.mk { globalOptions := ["compress=yes"] } .standard).program .english "now" neatJob =
      (Generation.mk { globalOptions := [" compress=yes ", " "] } .standard).program .english "now" messyJob ∧
    ((Generation.mk { globalOptions := ["compress=yes"] } .standard).program .english "now" neatJob).generated =
      ["sorted"] := by
  have hsettings : Settings.Tidied { globalOptions := [" compress=yes ", " "] } { globalOptions := ["compress=yes"] } :=
    ⟨rfl, .kept (.inr rfl) (.dropped (.inr rfl) .nil)⟩
  exact ⟨program_tidied .standard .english "now" hsettings messyJob_tidied, rfl⟩

end StepScript
