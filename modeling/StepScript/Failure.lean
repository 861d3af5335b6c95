import StepScript.Messages
import StepScript.Name
import StepScript.Transform

/-!
Why a transformation cannot be generated.

A failure is a transformation's name and a cause. Each cause belongs to a class, which says what it
concerns, and has a message key and arguments; the text comes from a bundle of messages, whose
templates are given the transformation's name ahead of the cause's arguments. So failures themselves
are the same in every language.
-/

namespace StepScript

/-- What a cause concerns. -/
inductive FailureClass where
  /-- Which tables a transformation may read and write. -/
  | structural
  /-- A table that is not known or has no physical location. -/
  | resolution (reference : String)
  | configuration (category : String)
  /-- A kind of transformation that cannot be generated. -/
  | unsupportedKind (kind : Kind)
  deriving DecidableEq

def FailureClass.name : FailureClass → String
  | .structural => "structural"
  | .resolution _ => "resolution"
  | .configuration _ => "configuration"
  | .unsupportedKind _ => "unsupported_kind"

inductive Cause where
  | noSources
  | targetCount (found : Nat)
  | externalTarget (table : String)
  | externalSource (table : String)
  | sourceIsTarget (tableId : String)
  | unresolvedTable (tableId : String)
  | invalidLocation (tableId table : String) (error : NameError)
  | missingOrderBy (category : String)
  | unsupportedKind (kind : Kind)
  /-- A cause under a message key of its own. -/
  | other (concern : FailureClass) (key : String) (args : List String)
  deriving DecidableEq

namespace Cause

def concern : Cause → FailureClass
  | .noSources | .targetCount _ | .externalTarget _ | .externalSource _ | .sourceIsTarget _ =>
    .structural
  | .unresolvedTable tableId => .resolution tableId
  | .invalidLocation tableId _ _ => .resolution tableId
  | .missingOrderBy category => .configuration category
  | .unsupportedKind kind => .unsupportedKind kind
  | .other concern _ _ => concern

def key : Cause → String
  | .noSources => Messages.noSources
  | .targetCount _ => Messages.targetCount
  | .externalTarget _ => Messages.externalTarget
  | .externalSource _ => Messages.externalSource
  | .sourceIsTarget _ => Messages.sourceIsTarget
  | .unresolvedTable _ => Messages.unresolvedTable
  | .invalidLocation _ _ _ => Messages.invalidLocation
  | .missingOrderBy _ => Messages.missingOrderBy
  | .unsupportedKind _ => Messages.unsupportedKind
  | .other _ key _ => key

/-- The arguments of a cause's message after the transformation's name. -/
def args : Cause → List String
  | .noSources => []
  | .targetCount found => [toString found]
  | .externalTarget table => [table]
  | .externalSource table => [table]
  | .sourceIsTarget tableId => [tableId]
  | .unresolvedTable tableId => [tableId]
  | .invalidLocation _ table error => [table, error.message]
  | .missingOrderBy category => [category]
  | .unsupportedKind kind => [kind.name]
  | .other _ _ args => args

end Cause

/-- A transformation that cannot be generated, and why. -/
structure Failure where
  transform : String
  cause : Cause
  deriving DecidableEq

def Failure.message (m : Messages) (f : Failure) : String :=
  m.text f.cause.key (f.transform :: f.cause.args)

end StepScript
