import StepScript.Document.OfValue

/-!
Settings of code generation: the layout of the code, the libraries that stand in for a missing one,
and what a program contains besides its steps. Every setting has a default, so that any part of them
may be left out where they are read.
-/

namespace StepScript

inductive LineEnding where
  | lf
  | crlf
  deriving DecidableEq

def LineEnding.text : LineEnding → String
  | .lf => "\n"
  | .crlf => "\r\n"

/-- The name of a line ending in settings. -/
def LineEnding.name : LineEnding → String
  | .lf => "lf"
  | .crlf => "crlf"

def LineEnding.choices : List (String × LineEnding) :=
  [("lf", .lf), ("crlf", .crlf)]

structure Settings where
  /-- Blanks per level of indentation. -/
  indentWidth : Nat := 3
  lineEnding : LineEnding := .lf
  /-- The library of a table that names none. -/
  defaultLibref : String := "WORK"
  /-- The library of intermediate tables. -/
  workLibref : String := "WORK"
  /-- Option texts written ahead of every step. -/
  globalOptions : List String := []
  /-- Whether a program starts with a comment that names its job. -/
  emitHeader : Bool := false
  /-- Whether a comment stands ahead of each step of a program. -/
  emitStepComments : Bool := true
  deriving DecidableEq

namespace Settings

def indentUnit (s : Settings) : String :=
  String.ofList (List.replicate s.indentWidth ' ')

def lineBreak (s : Settings) : String :=
  s.lineEnding.text

def fieldNames : List String :=
  ["indent_width", "line_ending", "default_libref", "work_libref", "global_options", "emit_header",
    "emit_step_comments"]

/-- Reads settings; a setting that is not there has its default. -/
def read : Document → Except DecodeError Settings :=
  let d : Settings := {}
  WrittenRecord.read fieldNames fun r =>
    Settings.mk
      <$> r.withDefault "indent_width" Document.natural d.indentWidth
      <*> r.withDefault "line_ending" (Document.choice LineEnding.choices) d.lineEnding
      <*> r.withDefault "default_libref" Document.text d.defaultLibref
      <*> r.withDefault "work_libref" Document.text d.workLibref
      <*> r.withDefault "global_options" (Document.list Document.text) d.globalOptions
      <*> r.withDefault "emit_header" Document.flag d.emitHeader
      <*> r.withDefault "emit_step_comments" Document.flag d.emitStepComments

def value (s : Settings) : Value :=
  .record [
    ("indent_width", .natural s.indentWidth),
    ("line_ending", .text s.lineEnding.name),
    ("default_libref", .text s.defaultLibref),
    ("work_libref", .text s.workLibref),
    ("global_options", .texts s.globalOptions),
    ("emit_header", .flag s.emitHeader),
    ("emit_step_comments", .flag s.emitStepComments)]

end Settings

end StepScript
