import StepScript.Program
import StepScript.Source
import StepScript.Step.Call
import StepScript.Json.Writer
import StepScript.Proofs.Results
import StepScript.Proofs.Order.Cycle
import StepScript.Proofs.Order.Greedy
import StepScript.Proofs.Order.Agenda
import StepScript.Proofs.Order.Plan
import StepScript.Proofs.Step.Statements
import StepScript.Proofs.Step.Obstacles
import StepScript.Proofs.Step.Outcome
import StepScript.Proofs.Step.Generable
import StepScript.Proofs.Step.Overwrite
import StepScript.Proofs.Buffer.Render
import StepScript.Proofs.Step.Ending
import StepScript.Proofs.Step.Refusal
import StepScript.Proofs.Program.Assembly
import StepScript.Proofs.Program.DataFlow
import StepScript.Proofs.Step.Places
import StepScript.Proofs.Program.Alike
import StepScript.Proofs.Program.Localized
import StepScript.Proofs.Step.Tidied
import StepScript.Proofs.Program.Tidied
import StepScript.Proofs.Buffer.LineBreak
import StepScript.Proofs.Step.OneLine
import StepScript.Proofs.Program.LineBreak
import StepScript.Proofs.Text.Uuid
import StepScript.Proofs.Document.Written
import StepScript.Proofs.Document.Spelling
import StepScript.Proofs.Document.RoundTrip
import StepScript.Proofs.Job.Duplicates
import StepScript.Proofs.Job.Lookup
import StepScript.Proofs.Program.Comments
import StepScript.Proofs.Program.Referenced
import StepScript.Proofs.Buffer.Indentation
import StepScript.Proofs.Buffer.Lines
import StepScript.Proofs.Step.Lines
import StepScript.Proofs.Step.Layout
import StepScript.Proofs.Messages.Template
import StepScript.Proofs.Order.Writers
import StepScript.Proofs.Buffer.Literal
import StepScript.Proofs.Step.Label
import StepScript.Proofs.Text.ByteOrder
import StepScript.Proofs.OptionText
import StepScript.Proofs.Step.LastOutput
import StepScript.Proofs.Table.Names
import StepScript.Proofs.Messages.English
import StepScript.Proofs.Step.Blame
import StepScript.Proofs.Step.Changes
import StepScript.Proofs.Step.Growth
import StepScript.Proofs.Buffer.Cut
import StepScript.Proofs.Order.ReadyLoop
import StepScript.Proofs.Step.WorkTables
