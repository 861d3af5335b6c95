import StepScript.Proofs.Order.Plan
import StepScript.Proofs.Step.Ending

/-! How a program is put together. The positions of the plan fall into those whose transformations are
    generated and those whose transformations fail. The code is the header and the codes of the former, each
    as it is generated by itself; these consist of whole lines, so every step comment starts a line. The
    reported failures are those of the latter. -/

namespace StepScript
open Text

namespace Generation

section Positions
variable (g : Generation) (m : Messages) (job : Job) (i : Fin job.transforms.length)

def generateAt : Except Halt Buffer :=
  g.generate job.catalog.get? (job.transforms.get i)

def succeedsAt : Bool := (g.generateAt job i).isOk

/-- The positions whose transformations are generated, in the order of the plan. -/
def emitted : List (Fin job.transforms.length) :=
  (executionPlan job.transforms).order.filter (g.succeedsAt job)

/-- The positions whose transformations fail, in the order of the plan. -/
def omitted : List (Fin job.transforms.length) :=
  (executionPlan job.transforms).order.filter fun i => !g.succeedsAt job i

/-- What a program has for the transformation at a position. -/
def codeAt : String :=
  g.code (g.result job.catalog.get? (job.transforms.get i))

/-- A report is that of the failure of the transformation at a position. -/
def ReportsAt (r : ReportedFailure) : Prop :=
  ∃ f, g.generateAt job i = .error (.failure f) ∧
    r = ⟨(job.transforms.get i).name, (job.transforms.get i).kind, f.cause.concern.name, f.message m⟩

end Positions

section Results
variable {g : Generation} {m : Messages} {job : Job} {i : Fin job.transforms.length} {buffer : Buffer} {halt : Halt}

theorem succeedsAt_iff : g.succeedsAt job i = true ↔ ∃ buffer, g.generateAt job i = .ok buffer := by
  unfold succeedsAt
  cases g.generateAt job i <;> simp [Except.isOk, Except.toBool]

theorem succeedsAt_of_error (h : g.generateAt job i = .error halt) : g.succeedsAt job i = false := by
  rw [succeedsAt, h]
  rfl

theorem result_of_ok (h : g.generateAt job i = .ok buffer) :
    g.result job.catalog.get? (job.transforms.get i) = .generated (job.transforms.get i) buffer := by
  unfold generateAt at h
  rw [result, h]

theorem result_of_error (h : g.generateAt job i = .error halt) :
    g.result job.catalog.get? (job.transforms.get i) = .failed (job.transforms.get i) halt := by
  unfold generateAt at h
  rw [result, h]

theorem codeAt_of_ok (h : g.generateAt job i = .ok buffer) :
    g.codeAt job i = g.stepComment (job.transforms.get i) ++ buffer.render := by
  rw [codeAt, result_of_ok h]
  rfl

theorem codeAt_of_error (h : g.generateAt job i = .error halt) : g.codeAt job i = "" := by
  rw [codeAt, result_of_error h]
  rfl

theorem mem_order (i : Fin job.transforms.length) : i ∈ (executionPlan job.transforms).order :=
  Plan.order_perm.mem_iff.mpr (List.mem_finRange i)

theorem mem_emitted : i ∈ g.emitted job ↔ g.succeedsAt job i = true := by
  rw [emitted, List.mem_filter, and_iff_right (mem_order i)]

theorem mem_omitted : i ∈ g.omitted job ↔ g.succeedsAt job i = false := by
  rw [omitted, List.mem_filter, and_iff_right (mem_order i), Bool.not_eq_true']

/-! ### Whole lines -/

theorem wholeLines_render {lookup : String → Option Table} {t : Transform} (h : g.generate lookup t = .ok buffer) :
    WholeLines buffer.render := by
  obtain ⟨generator, s, hgenerated, rfl⟩ := generated_of_generate_ok h
  obtain ⟨body, hrender⟩ := hgenerated.render_eq
  rw [hrender, statusCheck, ← String.append_assoc]
  exact Settings.wholeLines_lineBreak _ _

theorem wholeLines_header (generatedAt : String) : WholeLines (g.header job generatedAt) := by
  unfold header
  split
  · exact Settings.wholeLines_lineBreak _ _
  · exact .inl rfl

theorem wholeLines_codeAt : WholeLines (g.codeAt job i) := by
  cases h : g.generateAt job i with
  | ok buffer =>
    rw [codeAt_of_ok h]
    refine WholeLines.append ?_ (wholeLines_render h)
    unfold stepComment
    split
    · exact Settings.wholeLines_lineBreak _ _
    · exact .inl rfl
  | error halt =>
    rw [codeAt_of_error h]
    exact .inl rfl

end Results

/-! ### The parts of a program -/

section Parts
variable (g : Generation) (m : Messages) (job : Job)

def resultsAt (is : List (Fin job.transforms.length)) : List StepResult :=
  is.map fun i => g.result job.catalog.get? (job.transforms.get i)

theorem resultsAt_cons (i : Fin job.transforms.length) (is : List (Fin job.transforms.length)) :
    g.resultsAt job (i :: is) = g.result job.catalog.get? (job.transforms.get i) :: g.resultsAt job is := rfl

theorem generatedNames_resultsAt (is : List (Fin job.transforms.length)) :
    (g.resultsAt job is).filterMap StepResult.generatedName? =
      (is.filter (g.succeedsAt job)).map fun i => (job.transforms.get i).name := by
  induction is with
  | nil => rfl
  | cons i is ih =>
    rw [resultsAt_cons, List.filterMap_cons, ih]
    cases h : g.generateAt job i with
    | ok buffer =>
      rw [result_of_ok h, List.filter_cons_of_pos (succeedsAt_iff.mpr ⟨buffer, h⟩)]
      rfl
    | error halt =>
      rw [result_of_error h, List.filter_cons_of_neg (by simp [succeedsAt_of_error h])]
      rfl

theorem reports_resultsAt (is : List (Fin job.transforms.length)) :
    List.Forall₂ (g.ReportsAt m job) (is.filter fun i => !g.succeedsAt job i)
      ((g.resultsAt job is).filterMap (StepResult.report? m)) := by
  induction is with
  | nil => exact .nil
  | cons i is ih =>
    rw [resultsAt_cons, List.filterMap_cons]
    cases h : g.generateAt job i with
    | ok buffer =>
      rw [result_of_ok h, List.filter_cons_of_neg (by simp [succeedsAt_iff.mpr ⟨buffer, h⟩])]
      exact ih
    | error halt =>
      -- A transformation that failed otherwise would not be reported.
      obtain ⟨f, rfl⟩ := failure_of_generate_error h
      rw [result_of_error h, List.filter_cons_of_pos (by simp [succeedsAt_of_error h])]
      exact .cons ⟨f, h, rfl⟩ ih

theorem code_resultsAt (is : List (Fin job.transforms.length)) :
    String.join ((g.resultsAt job is).map g.code) =
      String.join ((is.filter (g.succeedsAt job)).map (g.codeAt job)) := by
  induction is with
  | nil => rfl
  | cons i is ih =>
    have hcode : g.code (g.result job.catalog.get? (job.transforms.get i)) = g.codeAt job i := rfl
    rw [resultsAt_cons, List.map_cons, String.join_cons, ih, hcode]
    cases h : g.generateAt job i with
    | ok buffer =>
      rw [List.filter_cons_of_pos (succeedsAt_iff.mpr ⟨buffer, h⟩), List.map_cons, String.join_cons]
    | error halt =>
      rw [List.filter_cons_of_neg (by simp [succeedsAt_of_error h]), codeAt_of_error h, String.empty_append]

theorem code_program (generatedAt : String) :
    (g.program m generatedAt job).code =
      g.header job generatedAt ++ String.join ((g.emitted job).map (g.codeAt job)) :=
  congrArg (g.header job generatedAt ++ ·) (g.code_resultsAt job _)

theorem failures_program (generatedAt : String) :
    List.Forall₂ (g.ReportsAt m job) (g.omitted job) (g.program m generatedAt job).failures :=
  g.reports_resultsAt m job _

theorem isComplete_program (generatedAt : String) :
    (g.program m generatedAt job).isComplete = true ↔ ∀ i, ∃ buffer, g.generateAt job i = .ok buffer := by
  have hnone : (g.program m generatedAt job).isComplete = true ↔ g.omitted job = [] := by
    have hlength := (g.failures_program m job generatedAt).length_eq
    rw [Program.isComplete, List.isEmpty_iff_length_eq_zero, ← hlength, List.length_eq_zero_iff]
  rw [hnone, List.eq_nil_iff_forall_not_mem]
  refine forall_congr' fun i => ?_
  rw [mem_omitted, Bool.not_eq_false, succeedsAt_iff]

end Parts

end Generation

/-! ### Assembly -/

/-- A program contains what is generated and reports what fails, both in the order of the plan: no
    transformation is in both parts or in none. Its code is the header and then, for each transformation that
    is generated, its comment and its own code; and each of these parts starts a line. -/
theorem program_assembly (g : Generation) (m : Messages) (generatedAt : String) (job : Job) :
    (g.emitted job ++ g.omitted job).Perm (List.finRange job.transforms.length) ∧
    (g.program m generatedAt job).generated = (g.emitted job).map (fun i => (job.transforms.get i).name) ∧
    List.Forall₂ (g.ReportsAt m job) (g.omitted job) (g.program m generatedAt job).failures ∧
    (g.program m generatedAt job).code =
      g.header job generatedAt ++ String.join ((g.emitted job).map (g.codeAt job)) ∧
    (∀ i buffer, g.generateAt job i = .ok buffer →
      g.codeAt job i = g.stepComment (job.transforms.get i) ++ buffer.render) ∧
    (∀ ahead i rest, g.emitted job = ahead ++ i :: rest →
      WholeLines (g.header job generatedAt ++ String.join (ahead.map (g.codeAt job)))) ∧
    ((g.program m generatedAt job).isComplete = true ↔ ∀ i, ∃ buffer, g.generateAt job i = .ok buffer) := by
  refine ⟨?_, g.generatedNames_resultsAt job _, g.failures_program m job generatedAt, g.code_program m job generatedAt,
    fun i buffer h => Generation.codeAt_of_ok h, fun ahead i rest _ => ?_, g.isComplete_program m job generatedAt⟩
  · exact (List.filter_append_perm _ _).trans Plan.order_perm
  · refine (Generation.wholeLines_header generatedAt).append (.join fun text htext => ?_)
    obtain ⟨j, -, rfl⟩ := List.mem_map.mp htext
    exact Generation.wholeLines_codeAt

/-- A job with a sort that fails for want of ordering keys, and a reader declared ahead of its writer. -/
def partialJob : Job where
  name := "nightly"
  tables := [.ofName "SRC", .ofName "OUT", .ofName "MID", .ofName "ALL"]
  transforms := [
    { name := "all", kind := .append, sources := [⟨"MID"⟩], targets := [⟨"ALL"⟩] },
    { name := "unsorted", kind := .sort, sources := [⟨"SRC"⟩], targets := [⟨"OUT"⟩] },
    { name := "sorted", kind := .sort, sources := [⟨"SRC"⟩], targets := [⟨"MID"⟩], orderBy := [{ name := "ID" }] }]

def withHeader : Generation := ⟨{ emitHeader := true }, .standard⟩

theorem partialJob_assembly :
    (withHeader.program .english "now" partialJob).generated = ["sorted", "all"] ∧
    (withHeader.program .english "now" partialJob).isComplete = false ∧
    (∃ buffer, withHeader.generateAt partialJob ⟨0, by decide⟩ = .ok buffer ∧
      withHeader.codeAt partialJob ⟨0, by decide⟩ = "/* Step: all (append) */\n" ++ buffer.render) ∧
    WholeLines (withHeader.header partialJob "now" ++ withHeader.codeAt partialJob ⟨2, by decide⟩) := by
  obtain ⟨-, hgenerated, -, -, hcode, hlines, hcomplete⟩ := program_assembly withHeader .english "now" partialJob
  have hemitted : withHeader.emitted partialJob = [⟨2, by decide⟩] ++ [⟨0, by decide⟩] := rfl
  refine ⟨hgenerated.trans rfl, ?_, ⟨_, rfl, hcode _ _ rfl⟩, ?_⟩
  · rw [← Bool.not_eq_true, hcomplete]
    intro hall
    obtain ⟨buffer, hok⟩ := hall ⟨1, by decide⟩
    cases hok
  · have hline := hlines _ _ _ hemitted
    rw [List.map_singleton, String.join_cons, String.join_nil, String.append_empty] at hline
    exact hline

end StepScript
