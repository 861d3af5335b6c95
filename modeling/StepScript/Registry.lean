import StepScript.Step.Append
import StepScript.Step.Sort

/-!
Generators and registries of them. A generator writes the step of one kind of transformation; a
registry has at most one generator for each kind.
-/

namespace StepScript

inductive Generator where
  | sort (mapper : ColumnMapper)
  | append
  deriving DecidableEq

namespace Generator

/-- The kind of transformations that a generator writes. -/
def kind : Generator → Kind
  | .sort _ => .sort
  | .append => .append

def generate (g : Generator) (env : Env) (t : Transform) : Step Unit :=
  match g with
  | .sort mapper => Step.generateSort mapper env t
  | .append => Step.generateAppend env t

end Generator

/-- Generators by the kind that they write. -/
structure Registry where
  get? : Kind → Option Generator
  kind_of_get? : ∀ {k : Kind} {g : Generator}, get? k = some g → g.kind = k

namespace Registry

def empty : Registry := ⟨fun _ => none, by simp⟩

/-- The registry with a generator for its kind. -/
def register (r : Registry) (g : Generator) : Registry where
  get? k := if g.kind = k then some g else r.get? k
  kind_of_get? := by
    intro k h e
    split at e
    · cases e
      assumption
    · exact r.kind_of_get? e

/-- The built-in generators, sorting with column mapping. -/
def standard : Registry :=
  (empty.register (.sort .rename)).register .append

/-- The kinds that have a generator, in the order of their names. -/
def kinds (r : Registry) : List Kind :=
  Kind.all.filter fun k => (r.get? k).isSome

end Registry

end StepScript
