import StepScript.Table.Clause

/-!
What a transformation refers to.

The environment of a step is what it may look at: the tables by identifier, the settings, and the name
under which its failures are reported. The checks and the resolution of tables change nothing; each
gives the first cause for which the transformation cannot be generated.
-/

namespace StepScript

/-- What a step may look at. -/
structure Env where
  /-- The name under which failures are reported. -/
  transform : String
  /-- The tables by identifier. -/
  lookup : String → Option Table
  settings : Settings

namespace Env

def table (env : Env) (r : TableRef) : Except Cause Table :=
  match env.lookup r.tableId with
  | some t => .ok t
  | none => .error (.unresolvedTable r.tableId)

/-- The target table, if there is exactly one target. -/
def target (env : Env) (t : Transform) : Except Cause Table :=
  match t.target? with
  | some r => env.table r
  | none => .error (.targetCount t.targets.length)

/-- The first source table. -/
def firstSource (env : Env) (t : Transform) : Except Cause Table :=
  match t.sources with
  | r :: _ => env.table r
  | [] => .error .noSources

def sources (env : Env) (t : Transform) : Except Cause (List Table) :=
  t.sources.mapM env.table

/-- A transformation has sources and exactly one target, which is none of its sources. -/
def checkSourceAndTarget (t : Transform) : Except Cause Unit :=
  if t.sources.isEmpty then .error .noSources
  else
    match t.target? with
    | none => .error (.targetCount t.targets.length)
    | some r => if t.sources.contains r then .error (.sourceIsTarget r.tableId) else .ok ()

/-- Only a managed table may be replaced. -/
def checkTargetManaged (env : Env) (t : Transform) : Except Cause Unit :=
  match env.target t with
  | .error e => .error e
  | .ok target => if target.isExternal then .error (.externalTarget target.name) else .ok ()

/-- Whether a table may be read: it is managed or a permanent view. -/
def mayRead (t : Table) : Bool :=
  !t.isExternal || t.permanentView

/-- The references are to tables that may be read. -/
def checkReadable (env : Env) : List TableRef → Except Cause Unit
  | [] => .ok ()
  | r :: rs =>
    match env.table r with
    | .error e => .error e
    | .ok source => if mayRead source then env.checkReadable rs else .error (.externalSource source.name)

/-- External tables are read only where they are permanent views. -/
def checkSourcesReadable (env : Env) (t : Transform) : Except Cause Unit :=
  env.checkReadable t.sources

end Env

end StepScript
