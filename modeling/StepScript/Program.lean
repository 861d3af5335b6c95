import StepScript.Job
import StepScript.Order
import StepScript.Registry

/-!
Programs.

The transformations of a job are generated in an order in which a writer of a table stands before its
readers, each in a state of its own. A program is the code of those that were generated, one after
another, with an optional header and a comment ahead of each; a transformation that fails contributes
no code and is reported with its failure.
-/

namespace StepScript

/-- Whether the first of two transformations writes a table that the second one reads. -/
def Transform.feeds (t u : Transform) : Bool :=
  t.targets.any fun r => u.sources.contains r

/-- The relation between the positions of transformations: another one's source is written. -/
def feedsAt (ts : List Transform) (i j : Fin ts.length) : Bool :=
  i ≠ j && ts[i].feeds ts[j]

def executionPlan (ts : List Transform) : Plan ts.length :=
  Plan.ofRelation (feedsAt ts)

/-- What is used for every transformation of a program. -/
structure Generation where
  settings : Settings
  registry : Registry

/-- The code of one transformation, or why it cannot be generated. -/
inductive StepResult where
  | generated (t : Transform) (buffer : Buffer)
  | failed (t : Transform) (halt : Halt)

namespace Generation

/-- Generates one transformation in a fresh state. -/
def generate (g : Generation) (lookup : String → Option Table) (t : Transform) :
    Except Halt Buffer :=
  match g.registry.get? t.kind with
  | none => .error (.failure ⟨t.name, .unsupportedKind t.kind⟩)
  | some generator =>
    match generator.generate ⟨t.name, lookup, g.settings⟩ t (.fresh g.settings) with
    | .ok () s => .ok s.buffer
    | .error halt _ => .error halt

/-- Generates one transformation, with the transformation itself beside the result. -/
def result (g : Generation) (lookup : String → Option Table) (t : Transform) : StepResult :=
  match g.generate lookup t with
  | .ok buffer => .generated t buffer
  | .error halt => .failed t halt

/-- The results of all transformations of a job in the order of its plan. -/
def results (g : Generation) (job : Job) : List StepResult :=
  (executionPlan job.transforms).order.map fun i =>
    g.result job.catalog.get? job.transforms[i]

/-- The comment at the start of a program. -/
def header (g : Generation) (job : Job) (generatedAt : String) : String :=
  if g.settings.emitHeader then
    "/* Job: " ++ job.name ++ "  Generated: " ++ generatedAt ++ " */" ++ g.settings.lineBreak ++
      g.settings.lineBreak
  else ""

def stepComment (g : Generation) (t : Transform) : String :=
  if g.settings.emitStepComments then
    "/* Step: " ++ t.name ++ " (" ++ t.kind.name ++ ") */" ++ g.settings.lineBreak
  else ""

def code (g : Generation) : StepResult → String
  | .generated t buffer => g.stepComment t ++ buffer.render
  | .failed _ _ => ""

end Generation

/-- The name of the transformation, if it was generated. -/
def StepResult.generatedName? : StepResult → Option String
  | .generated t _ => some t.name
  | .failed _ _ => none

/-- A transformation that a program leaves out. -/
structure ReportedFailure where
  transform : String
  kind : Kind
  className : String
  message : String
  deriving DecidableEq

/-- The report of a result that is a failure. -/
def StepResult.report? (m : Messages) : StepResult → Option ReportedFailure
  | .failed t (.failure f) => some ⟨t.name, t.kind, f.cause.concern.name, f.message m⟩
  | _ => none

def StepResult.defect? : StepResult → Option Defect
  | .failed _ (.defect d) => some d
  | _ => none

structure Program where
  job : String
  code : String
  /-- The names of the transformations that are in the code, in its order. -/
  generated : List String
  failures : List ReportedFailure
  deriving DecidableEq

/-- Whether every transformation of the job was generated. -/
def Program.isComplete (p : Program) : Bool := p.failures.isEmpty

def Generation.program (g : Generation) (m : Messages) (generatedAt : String) (job : Job) : Program :=
  let results := g.results job
  { job := job.name
    code := g.header job generatedAt ++ String.join (results.map g.code)
    generated := results.filterMap StepResult.generatedName?
    failures := results.filterMap (StepResult.report? m) }

end StepScript
