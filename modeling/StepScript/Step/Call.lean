import StepScript.Registry

/-!
The operations of a step, as data. A call is one operation with its arguments; performing it gives a
reply. A run of a step is a list of calls, each performed in the state that the one before left, also
where that one stopped.
-/

namespace StepScript

/-- An operation of a step with its arguments. -/
inductive Call where
  | checkSourceAndTarget (t : Transform)
  | checkTargetManaged (t : Transform)
  | checkSourcesReadable (t : Transform)
  | resolveSource (t : Transform)
  | resolveTarget (t : Transform)
  | resolveSources (t : Transform)
  | resolveOptions (t : Transform) (category : String)
  | location (table : Table)
  | orderBy (t : Transform)
  | emitSystemOptions (t : Transform)
  | emitTableDelete (table : Table)
  | emitColumnAttributes (table : Table) (withLabels : Bool)
  | setLastOutput (dataset : String)
  | append (text : String)
  | appendLine (text : String)
  | finish (status : String)
  | indent
  | unindent
  | nextWorkTable (t : Transform)
  | mapColumns (mapper : ColumnMapper) (t : Transform) (sourceOptions : String)
  | generate (g : Generator) (t : Transform)
  | fail (cause : Cause)

inductive Reply where
  | done
  | text (s : String)
  | optionalText (s : Option String)
  | table (t : Table)
  | tables (ts : List Table)
  | flag (b : Bool)

namespace Call

open Step

def perform (env : Env) : Call → Step Reply
  | .checkSourceAndTarget t => attempt env (Env.checkSourceAndTarget t) *> pure .done
  | .checkTargetManaged t => attempt env (env.checkTargetManaged t) *> pure .done
  | .checkSourcesReadable t => attempt env (env.checkSourcesReadable t) *> pure .done
  | .resolveSource t => Reply.table <$> Step.resolveSource env t
  | .resolveTarget t => Reply.table <$> attempt env (env.target t)
  | .resolveSources t => Reply.tables <$> attempt env (env.sources t)
  | .resolveOptions t category => pure (.text (OptionText.resolve t.properties category))
  | .location table => (fun l => Reply.text l.text) <$> attempt env (table.location? env.settings)
  | .orderBy t => pure (.optionalText (orderByStatement? t))
  | .emitSystemOptions t => Step.emitSystemOptions env t *> pure .done
  | .emitTableDelete table => Step.emitTableDelete env table *> pure .done
  | .emitColumnAttributes table withLabels =>
    Step.emitColumnAttributes env table withLabels *> pure .done
  | .setLastOutput dataset => Step.setLastOutput dataset *> pure .done
  | .append text => Step.append text *> pure .done
  | .appendLine text => Step.appendLine text *> pure .done
  | .finish status => Step.finish status *> pure .done
  | .indent => Step.indent *> pure .done
  | .unindent => Step.unindent *> pure .done
  | .nextWorkTable t => Reply.text <$> Step.nextWorkTable env t
  | .mapColumns mapper t sourceOptions => Reply.flag <$> Step.mapColumns mapper env t sourceOptions
  | .generate g t => g.generate env t *> pure .done
  | .fail cause => attempt env (.error cause)

/-- The outcome of a call in a state, and the state after it. -/
def outcome (env : Env) (s : StepState) (c : Call) : Except Halt Reply × StepState :=
  match c.perform env s with
  | .ok reply s' => (.ok reply, s')
  | .error halt s' => (.error halt, s')

/-- The outcomes of calls performed one after another, each with the state after it. -/
def outcomes (env : Env) : StepState → List Call → List (Except Halt Reply × StepState)
  | _, [] => []
  | s, c :: cs =>
    let o := c.outcome env s
    o :: outcomes env o.2 cs

end Call

end StepScript
