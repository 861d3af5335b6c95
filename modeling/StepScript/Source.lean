import StepScript.Job
import StepScript.Json.Text
import StepScript.Messages
import StepScript.Settings
import StepScript.Toml.Text
import StepScript.Yaml.Text

/-!
Jobs and settings from texts and files.

A file is read before the format is taken from the end of its name; a name without a known ending is
refused. Jobs are read from JSON and YAML, settings from YAML and TOML, messages from TOML. A job that was read
is refused if it has duplicates.
-/

namespace StepScript

open Text

inductive Format where
  | json
  | yaml
  | toml
  deriving DecidableEq

/-- What stands under the name of a file. -/
inductive FileContent where
  | absent
  | directory
  | bytes (b : ByteArray)

inductive FileFault where
  | notFound
  | isDirectory
  | notUtf8
  deriving DecidableEq

def FileContent.text : FileContent → Except FileFault String
  | .absent => .error .notFound
  | .directory => .error .isDirectory
  | .bytes b =>
    match String.fromUTF8? b with
    | some s => .ok s
    | none => .error .notUtf8

inductive Subject where
  | metadata
  | configuration
  deriving DecidableEq

/-- The name of what is read, in error texts. -/
def Subject.name : Subject → String
  | .metadata => "metadata"
  | .configuration => "configuration"

/-- Why a job or settings cannot be loaded. -/
inductive LoadError where
  | unreadable (subject : Subject) (file : String) (fault : FileFault)
  | unsupportedFormat (subject : Subject) (file : String)
  | undecodable (format : Format) (error : DecodeError)
  | refused (error : JobError)
  deriving DecidableEq

/-- The text of an error, where it has one. -/
def LoadError.message? : LoadError → Option String
  | .unreadable subject file _ => some ("Failed to read " ++ subject.name ++ " file: " ++ file)
  | .unsupportedFormat subject file => some ("Unsupported " ++ subject.name ++ " format: " ++ file)
  | .undecodable _ error => error.message?
  | .refused error => some error.message

/-- The part of a file's name after its last point, if something stands before that point. -/
def fileEnding? (file : String) : Option String :=
  let reversed := file.toList.reverse
  let ending := reversed.takeWhile (· != '.')
  if ending.length + 1 < reversed.length then some (String.ofList ending.reverse) else none

/-- The format that the ending of a file's name stands for, among those given. -/
def formatOf? (formats : List (String × Format)) (file : String) : Option Format :=
  (fileEnding? file).bind fun e => formats.lookup (lower e)

def readText {α : Type} (read : Document → Except DecodeError α) (format : Format) (text : String) :
    Except LoadError α :=
  let result :=
    match format with
    | .json => Json.read read text
    | .yaml => Yaml.read read text
    | .toml => Toml.read read text
  match result with
  | .ok a => .ok a
  | .error e => .error (.undecodable format e)

/-- Reads a file, whose format is given by the end of its name. -/
def readFile {α : Type} (subject : Subject) (formats : List (String × Format))
    (parse : Format → String → Except LoadError α) (file : String) (content : FileContent) :
    Except LoadError α :=
  match content.text with
  | .error fault => .error (.unreadable subject file fault)
  | .ok text =>
    match formatOf? formats file with
    | some format => parse format text
    | none => .error (.unsupportedFormat subject file)

/-- Reads a job from text and refuses one with duplicates. -/
def Job.parse (format : Format) (text : String) : Except LoadError Job :=
  match readText Job.read format text with
  | .error e => .error e
  | .ok job =>
    match job.check with
    | .ok () => .ok job
    | .error e => .error (.refused e)

def Job.fileFormats : List (String × Format) :=
  [("yaml", .yaml), ("yml", .yaml), ("json", .json)]

def Job.load (file : String) (content : FileContent) : Except LoadError Job :=
  readFile .metadata Job.fileFormats Job.parse file content

def Settings.parse (format : Format) (text : String) : Except LoadError Settings :=
  readText Settings.read format text

def Settings.fileFormats : List (String × Format) :=
  [("yaml", .yaml), ("yml", .yaml), ("toml", .toml)]

def Settings.load (file : String) (content : FileContent) : Except LoadError Settings :=
  readFile .configuration Settings.fileFormats Settings.parse file content

/-- Reads a bundle of messages from TOML text, a flat table of templates. -/
def Messages.parse (text : String) : Except LoadError Messages :=
  readText (fun d => Messages.mk <$> d.texts) .toml text

end StepScript
