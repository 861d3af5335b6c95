import StepScript.Proofs.Step.Obstacles
import StepScript.Proofs.Step.Statements

/-! What comes of generating a transformation. A step stops with the first obstacle; nothing is written
    then, unless it is ordering keys that are missing. Without an obstacle it succeeds, and the state that
    it leaves is known (`Sorted`, `Appended`). -/

namespace StepScript

namespace Step

/-- The first obstacle ends a step, from which only the lack of ordering keys comes late; without one the
    step ends in a state of a certain kind. -/
def Meets (env : Env) (os : List Obstacle) (s : StepState) (done : StepState → Prop)
    (r : EStateM.Result Halt StepState Unit) : Prop :=
  match os with
  | [] => ∃ s', r = .ok () s' ∧ done s'
  | o :: _ => ∃ s', r = .error (.failure ⟨env.transform, o.cause⟩) s' ∧
      (s'.buffer = s.buffer ∨ o.concern = .configuration OptionText.sort)

theorem attempt_ok {α : Type} {env : Env} {x : Except Cause α} {a : α} {s : StepState} (h : x = .ok a) :
    attempt env x s = .ok a s := by
  rw [h]
  rfl

/-- A step that starts with a check meets the obstacles of the check, and then the other ones. -/
theorem Meets.attempt {α : Type} {env : Env} {os os' : List Obstacle} {s s₁ : StepState}
    {done : StepState → Prop} {x : Except Cause α} {k : α → Step Unit} (hx : Finds os x)
    (hbuffer : s₁.buffer = s.buffer) (hk : ∀ a, x = .ok a → Meets env os' s done (k a s₁)) :
    Meets env (os ++ os') s done ((attempt env x >>= k) s₁) := by
  cases os with
  | nil =>
    obtain ⟨a, rfl⟩ := hx
    exact hk a rfl
  | cons o os =>
    have herror : x = .error o.cause := hx
    rw [herror]
    exact ⟨s₁, rfl, .inl hbuffer⟩

/-- The target of a step is known and managed once that was checked. -/
theorem target_of_managed {env : Env} {t : Transform} {r : TableRef} (hr : t.targets = [r])
    (h : env.checkTargetManaged t = .ok ()) :
    ∃ target, env.target t = .ok target ∧ env.lookup r.tableId = some target ∧ target.isExternal = false := by
  have htable : env.target t = env.table r := by rw [Env.target, target?_eq_some_iff.mpr hr]
  unfold Env.checkTargetManaged at h
  cases htarget : env.target t with
  | error e => simp [htarget] at h
  | ok target =>
    rw [htarget] at h
    refine ⟨target, rfl, table_eq_ok_iff.mp (htable.symm.trans htarget), ?_⟩
    cases hext : target.isExternal with
    | true => simp [hext] at h
    | false => rfl

/-- A step that starts with the three checks goes on with one target, and with sources that may be read. -/
theorem checks_meet {env : Env} {t : Transform} {inputs : List TableRef} {os : List Obstacle} {s : StepState}
    {done : StepState → Prop} {k : Step Unit}
    (hk : t.sources ≠ [] → ∀ r, t.targets = [r] → env.checkTargetManaged t = .ok () →
      t.sources.flatMap (sourceObstacles env.lookup) = [] →
      Meets env (inputs.flatMap (locationObstacles env.settings env.lookup) ++
        (locationObstacles env.settings env.lookup r ++ os)) s done (k s)) :
    Meets env (stepObstacles env.settings env.lookup t inputs ++ os) s done ((do
      attempt env (Env.checkSourceAndTarget t)
      attempt env (env.checkTargetManaged t)
      attempt env (env.checkSourcesReadable t)
      k) s) := by
  unfold stepObstacles
  simp only [List.append_assoc]
  refine Meets.attempt (finds_checkSourceAndTarget t) rfl fun _ hshape => ?_
  obtain ⟨hsources, r, hr, -⟩ := targets_of_shape ((finds_checkSourceAndTarget t).eq_nil hshape)
  simp only [hr, List.flatMap_singleton]
  refine Meets.attempt (finds_checkTargetManaged hr) rfl fun _ hmanaged => ?_
  refine Meets.attempt (finds_checkReadable env t.sources) rfl fun _ hreadable => ?_
  exact hk hsources r hr hmanaged ((finds_checkReadable env t.sources).eq_nil hreadable)

/-! ### Sort steps -/

section Sorting
variable {mapper : ColumnMapper} {env : Env} {t : Transform} {source target : Table} {l : Location}
  {statement : String} {s s₁ : StepState}

def sortBody (mapper : ColumnMapper) (env : Env) (t : Transform) (source target : Table) (l : Location) :
    Step Unit := do
  emitSystemOptions env t
  emitTableDelete env target
  let mapped ← mapColumns mapper env t source.readText
  let data ← lastOutput
  emitSort env t data (if mapped then "" else source.readText) l.text (target.writeText true)
    (OptionText.resolve t.properties OptionText.sort)
  emitColumnAttributes env target true
  finish statusVariable

/-- The state after the target of a step was deleted. -/
def deletedState (env : Env) (t : Transform) (l : Location) (s : StepState) : StepState :=
  s.write (systemFragments env.settings t s.buffer.lineBreak ++ deleteFragments l s.buffer.lineBreak)

/-- The state in which the sort procedure is written: columns are mapped ahead of it, if they are. -/
def readState (mapper : ColumnMapper) (env : Env) (t : Transform) (source : Table) (l : Location) (s : StepState) :
    StepState :=
  if mapsColumns mapper t then mappedState env t source.readText (deletedState env t l s)
  else deletedState env t l s

@[simp] theorem lineBreak_readState :
    (readState mapper env t source l s).buffer.lineBreak = s.buffer.lineBreak := by
  unfold readState
  split <;> rfl

theorem extends_readState :
    (readState mapper env t source l s).buffer.Extends (deletedState env t l s).buffer := by
  unfold readState
  split
  · exact ⟨_, rfl⟩
  · exact .refl _

def sortedState (mapper : ColumnMapper) (env : Env) (t : Transform) (source target : Table) (l : Location)
    (statement : String) (s : StepState) : StepState :=
  let read := readState mapper env t source l s
  let br := s.buffer.lineBreak
  read.write
    (sortFragments read.lastOutput (if mapsColumns mapper t then "" else source.readText) l.text
      (target.writeText true) (OptionText.resolve t.properties OptionText.sort) statement br ++
    columnFragments l (target.columnStatements true) br ++ finishFragments statusVariable br)

theorem sortBody_eq (hmanaged : target.isExternal = false) (hl : target.location? env.settings = .ok l) :
    sortBody mapper env t source target l s = (do
      emitSort env t (readState mapper env t source l s).lastOutput
        (if mapsColumns mapper t then "" else source.readText) l.text (target.writeText true)
        (OptionText.resolve t.properties OptionText.sort)
      emitColumnAttributes env target true
      finish statusVariable) (readState mapper env t source l s) := by
  unfold sortBody
  rw [(writes_emitSystemOptions env t).bind, (writes_emitTableDelete hmanaged hl).bind, StepState.write_write,
    StepState.lineBreak_write, bind_ok (mapColumns_eq _ _ _ _ _)]
  have hlast : lastOutput (readState mapper env t source l s) =
      .ok (readState mapper env t source l s).lastOutput (readState mapper env t source l s) := rfl
  exact bind_ok hlast

theorem sortBody_ok (hmanaged : target.isExternal = false) (hl : target.location? env.settings = .ok l)
    (hstatement : orderByStatement? t = some statement) :
    sortBody mapper env t source target l s = .ok () (sortedState mapper env t source target l statement s) := by
  rw [sortBody_eq hmanaged hl, (writes_emitSort hstatement _ _ _ _ _).bind,
    (writes_emitColumnAttributes hl true).bind, writes_finish]
  simp [StepState.write_write, sortedState]

theorem sortBody_error (hmanaged : target.isExternal = false) (hl : target.location? env.settings = .ok l)
    (hstatement : orderByStatement? t = none) :
    ∃ s', sortBody mapper env t source target l s =
      .error (.failure ⟨env.transform, .missingOrderBy OptionText.sort⟩) s' := by
  rw [sortBody_eq hmanaged hl]
  exact (emitSort_halts hstatement _ _ _ _ _).bind _ _

/-- The sources of a sort whose locations are looked at: none if a dataset was produced already. -/
def sortInputs (t : Transform) (s : StepState) : List TableRef :=
  if s.lastOutput?.isNone then inputRefs .sort t else []

def Sorted (mapper : ColumnMapper) (env : Env) (t : Transform) (s s' : StepState) : Prop :=
  ∃ source target l statement s₁, resolveSource env t s = .ok source s₁ ∧ env.target t = .ok target ∧
    target.location? env.settings = .ok l ∧ orderByStatement? t = some statement ∧
    s' = sortedState mapper env t source target l statement s₁

/-- The first source counts as produced last, if its location is valid and nothing was produced yet. -/
theorem resolveSource_eq {q : TableRef} {qs : List TableRef} (hsources : t.sources = q :: qs)
    (hlookup : env.lookup q.tableId = some source) :
    resolveSource env t s = (if s.lastOutput?.isNone then do
      let location ← attempt env (source.location? env.settings)
      setLastOutput location.text
      pure source else pure source) s := by
  have hfirst : env.firstSource t = .ok source := by
    rw [Env.firstSource, hsources]
    exact table_eq_ok_iff.mpr hlookup
  unfold resolveSource
  rw [bind_ok (attempt_ok hfirst), get_bind]

/-- The first source counts as produced last where nothing was produced, and nothing else changes. -/
theorem resolveSource_eq_ok (h : resolveSource env t s = .ok source s₁) : env.firstSource t = .ok source ∧
    ((∃ dataset, s.lastOutput? = some dataset ∧ s₁ = s) ∨
      s.lastOutput? = none ∧ ∃ l, source.location? env.settings = .ok l ∧
        s₁ = { s with lastOutput? := some l.text }) := by
  unfold resolveSource at h
  cases hfirst : env.firstSource t with
  | error e =>
    rw [hfirst] at h
    cases h
  | ok u =>
    rw [bind_ok (attempt_ok hfirst), get_bind] at h
    cases hlast : s.lastOutput? with
    | some dataset =>
      rw [hlast] at h
      cases h
      exact ⟨rfl, .inl ⟨dataset, rfl, rfl⟩⟩
    | none =>
      rw [hlast] at h
      cases hl : u.location? env.settings with
      | error e =>
        rw [hl] at h
        cases h
      | ok l =>
        rw [hl] at h
        cases h
        exact ⟨rfl, .inr ⟨rfl, l, hl, rfl⟩⟩

theorem buffer_of_resolveSource (h : resolveSource env t s = .ok source s₁) : s₁.buffer = s.buffer := by
  obtain ⟨-, ⟨-, -, rfl⟩ | ⟨-, -, -, rfl⟩⟩ := resolveSource_eq_ok h <;> rfl

theorem workTables_of_resolveSource (h : resolveSource env t s = .ok source s₁) : s₁.workTables = s.workTables := by
  obtain ⟨-, ⟨-, -, rfl⟩ | ⟨-, -, -, rfl⟩⟩ := resolveSource_eq_ok h <;> rfl

theorem sortRest_meets {r : TableRef} (hr : t.targets = [r]) (hmanaged : env.checkTargetManaged t = .ok ())
    (hbuffer : s₁.buffer = s.buffer) (hresolved : resolveSource env t s = .ok source s₁) :
    Meets env (locationObstacles env.settings env.lookup r ++ orderObstacles t) s (Sorted mapper env t s) ((do
      let target ← attempt env (env.target t)
      let location ← attempt env (target.location? env.settings)
      sortBody mapper env t source target location) s₁) := by
  obtain ⟨target, htarget, hlookup, hext⟩ := target_of_managed hr hmanaged
  rw [bind_ok (attempt_ok htarget)]
  refine Meets.attempt (finds_location? hlookup) hbuffer fun l hl => ?_
  -- Missing ordering keys are noticed last, with the statements ahead of them written already.
  unfold orderObstacles
  by_cases horder : t.orderBy = []
  · have hstatement : orderByStatement? t = none := by simp [orderByStatement?, horder]
    have herror : ∃ s', sortBody mapper env t source target l s₁ = .error (.failure ⟨env.transform, _⟩) s' :=
      sortBody_error hext hl hstatement
    obtain ⟨s', hs'⟩ := herror
    rw [if_pos horder]
    exact ⟨s', hs', .inr rfl⟩
  · obtain ⟨statement, hstatement⟩ : ∃ statement, orderByStatement? t = some statement := by
      simp [orderByStatement?, horder]
    rw [if_neg horder]
    refine ⟨_, sortBody_ok hext hl hstatement, source, target, l, statement, s₁, ?_⟩
    exact ⟨hresolved, htarget, hl, hstatement, rfl⟩

theorem generateSort_meets (mapper : ColumnMapper) (env : Env) (t : Transform) (s : StepState) :
    Meets env (stepObstacles env.settings env.lookup t (sortInputs t s) ++ orderObstacles t) s
      (Sorted mapper env t s) (generateSort mapper env t s) := by
  refine checks_meet fun hsources r hr hmanaged hreadable => ?_
  obtain ⟨q, qs, hq⟩ := List.exists_cons_of_ne_nil hsources
  obtain ⟨source, hsource⟩ : ∃ u, env.lookup q.tableId = some u := by
    rw [hq] at hreadable
    exact known_of_readable (List.append_eq_nil_iff.mp hreadable).1
  have hresolve := resolveSource_eq (s := s) hq hsource
  -- The location of the source is looked at only if nothing was produced yet.
  unfold sortInputs inputRefs
  cases hlast : s.lastOutput?.isNone with
  | false =>
    simp only [hlast] at hresolve
    rw [bind_ok hresolve]
    exact sortRest_meets hr hmanaged rfl hresolve
  | true =>
    simp only [hlast, if_true] at hresolve
    rw [bind_eq_of_eq hresolve, bind_assoc]
    simp only [hq, List.take_succ_cons, List.take_zero, if_true, List.flatMap_singleton]
    refine Meets.attempt (finds_location? hsource) rfl fun l hl => ?_
    rw [bind_ok (attempt_ok hl)] at hresolve
    exact sortRest_meets hr hmanaged rfl hresolve

end Sorting

/-! ### Append steps -/

section Appending
variable {env : Env} {t : Transform} {target : Table} {l : Location} {inputs : List String} {s : StepState}

def appendBody (env : Env) (t : Transform) (inputs : List String) (target : Table) (l : Location) : Step Unit := do
  emitSystemOptions env t
  emitTableDelete env target
  emitAppend l.text (target.writeText true) inputs
    (OptionText.resolve t.properties OptionText.append) (target.columnStatements true)
  setLastOutput l.text
  finish statusVariable

def appendedState (env : Env) (t : Transform) (inputs : List String) (target : Table) (l : Location)
    (s : StepState) : StepState :=
  let br := s.buffer.lineBreak
  { (deletedState env t l s).write
      (appendFragments l.text (target.writeText true) inputs (OptionText.resolve t.properties OptionText.append)
        (target.columnStatements true) br ++ finishFragments statusVariable br) with
    lastOutput? := some l.text }

theorem appendBody_ok (hmanaged : target.isExternal = false) (hl : target.location? env.settings = .ok l) :
    appendBody env t inputs target l s = .ok () (appendedState env t inputs target l s) := by
  unfold appendBody
  rw [(writes_emitSystemOptions env t).bind, (writes_emitTableDelete hmanaged hl).bind,
    (writes_emitAppend _ _ _ _ _).bind]
  refine (bind_ok rfl).trans ((writes_finish statusVariable _).trans ?_)
  simp [appendedState, deletedState, StepState.write, Buffer.write_write]

def Appended (env : Env) (t : Transform) (s s' : StepState) : Prop :=
  ∃ inputs target l, sourceLines env t = .ok inputs ∧ env.target t = .ok target ∧
    target.location? env.settings = .ok l ∧ s' = appendedState env t inputs target l s

theorem sourceLines_eq_bind (env : Env) (t : Transform) :
    sourceLines env t = (t.sources.mapM env.table >>= fun us => us.mapM (sourceLine env)) := by
  unfold sourceLines Env.sources
  cases t.sources.mapM env.table <;> rfl

theorem generateAppend_meets (env : Env) (t : Transform) (s : StepState) :
    Meets env (stepObstacles env.settings env.lookup t (inputRefs .append t)) s (Appended env t s)
      (generateAppend env t s) := by
  rw [← List.append_nil (stepObstacles _ _ _ _)]
  refine checks_meet fun _ r hr hmanaged hreadable => ?_
  obtain ⟨target, htarget, hlookup, hext⟩ := target_of_managed hr hmanaged
  have hlines := finds_sourceLines hreadable
  rw [← sourceLines_eq_bind] at hlines
  refine Meets.attempt hlines rfl fun inputs hinputs => ?_
  rw [bind_ok (attempt_ok htarget)]
  refine Meets.attempt (finds_location? hlookup) rfl fun l hl => ?_
  exact ⟨_, appendBody_ok hext hl, inputs, target, l, hinputs, htarget, hl, rfl⟩

end Appending

end Step

/-! ### Generators -/

/-- What a generator leaves if it succeeds. -/
def Generator.Generated (g : Generator) (env : Env) (t : Transform) (s s' : StepState) : Prop :=
  match g with
  | .sort mapper => Step.Sorted mapper env t s s'
  | .append => Step.Appended env t s s'

/-- The sources whose locations a generator looks at in a state. -/
def Generator.inputs (g : Generator) (t : Transform) (s : StepState) : List TableRef :=
  match g with
  | .sort _ => Step.sortInputs t s
  | .append => inputRefs .append t

/-- What stands in the way of a generator in a state. -/
def Generator.obstacles (g : Generator) (env : Env) (t : Transform) (s : StepState) : List Obstacle :=
  stepObstacles env.settings env.lookup t (g.inputs t s) ++ if g.kind = .sort then orderObstacles t else []

theorem Generator.generate_meets_from (g : Generator) (env : Env) (t : Transform) (s : StepState) :
    Step.Meets env (g.obstacles env t s) s (g.Generated env t s) (g.generate env t s) := by
  unfold obstacles
  cases g with
  | sort mapper => exact Step.generateSort_meets mapper env t s
  | append =>
    rw [if_neg (by decide), List.append_nil]
    exact Step.generateAppend_meets env t s

section Ends
variable {g : Generator} {env : Env} {t : Transform} {s s' : StepState} {halt : Halt}

/-- A generator stops for the first obstacle; the buffer is as it was, unless ordering keys are missing. -/
theorem Generator.stops (h : g.generate env t s = .error halt s') :
    ∃ o ∈ g.obstacles env t s, halt = .failure ⟨env.transform, o.cause⟩ ∧
      (s'.buffer = s.buffer ∨ o.concern = .configuration OptionText.sort) := by
  have hmeets := g.generate_meets_from env t s
  cases hos : g.obstacles env t s with
  | nil =>
    rw [hos, h] at hmeets
    obtain ⟨s'', hok, -⟩ := hmeets
    cases hok
  | cons o os =>
    rw [hos, h] at hmeets
    obtain ⟨s'', herror, hbuffer⟩ := hmeets
    cases herror
    exact ⟨o, List.mem_cons_self, rfl, hbuffer⟩

/-- A generator that succeeds met no obstacle. -/
theorem Generator.obstacles_of_ok (h : g.generate env t s = .ok () s') :
    g.obstacles env t s = [] ∧ g.Generated env t s s' := by
  have hmeets := g.generate_meets_from env t s
  cases hos : g.obstacles env t s with
  | nil =>
    rw [hos, h] at hmeets
    obtain ⟨s'', hok, hgenerated⟩ := hmeets
    cases hok
    exact ⟨rfl, hgenerated⟩
  | cons o os =>
    rw [hos, h] at hmeets
    obtain ⟨s'', herror, -⟩ := hmeets
    cases herror

theorem Generator.generated_of_ok (h : g.generate env t s = .ok () s') : g.Generated env t s s' :=
  (Generator.obstacles_of_ok h).2

end Ends

theorem Generator.generate_meets (g : Generator) (env : Env) (t : Transform) :
    Step.Meets env (stepObstacles env.settings env.lookup t (inputRefs g.kind t) ++
      if g.kind = .sort then orderObstacles t else []) (.fresh env.settings)
      (g.Generated env t (.fresh env.settings)) (g.generate env t (.fresh env.settings)) := by
  have hmeets := g.generate_meets_from env t (.fresh env.settings)
  cases g <;> exact hmeets

section Generate
variable {g : Generation} {lookup : String → Option Table} {t : Transform}

theorem obstacles_of_registered {generator : Generator} (hget : g.registry.get? t.kind = some generator) :
    obstacles g lookup t = stepObstacles g.settings lookup t (inputRefs generator.kind t) ++
      if generator.kind = .sort then orderObstacles t else [] := by
  simp [obstacles, hget, g.registry.kind_of_get? hget]

/-- The first obstacle is what a transformation fails for. -/
theorem generate_of_obstacle {o : Obstacle} {os : List Obstacle} (h : obstacles g lookup t = o :: os) :
    g.generate lookup t = .error (.failure ⟨t.name, o.cause⟩) := by
  unfold Generation.generate
  cases hget : g.registry.get? t.kind with
  | none =>
    simp only [obstacles, hget, if_true, List.cons_append, List.cons.injEq] at h
    rw [← h.1]
  | some generator =>
    have hmeets := generator.generate_meets ⟨t.name, lookup, g.settings⟩ t
    rw [← obstacles_of_registered hget, h] at hmeets
    obtain ⟨s', hs', -⟩ := hmeets
    simp only [hs']

theorem generate_of_no_obstacle (h : obstacles g lookup t = []) :
    ∃ generator s, g.registry.get? t.kind = some generator ∧
      generator.Generated ⟨t.name, lookup, g.settings⟩ t (.fresh g.settings) s ∧
      g.generate lookup t = .ok s.buffer := by
  unfold Generation.generate
  cases hget : g.registry.get? t.kind with
  | none => simp [obstacles, hget] at h
  | some generator =>
    have hmeets := generator.generate_meets ⟨t.name, lookup, g.settings⟩ t
    rw [← obstacles_of_registered hget, h] at hmeets
    obtain ⟨s', hs', hgenerated⟩ := hmeets
    exact ⟨generator, s', rfl, hgenerated, by simp only [hs']⟩

theorem generated_of_generate_ok {buffer : Buffer} (h : g.generate lookup t = .ok buffer) :
    ∃ (generator : Generator) (s : StepState),
      generator.Generated ⟨t.name, lookup, g.settings⟩ t (.fresh g.settings) s ∧ buffer = s.buffer := by
  cases hos : obstacles g lookup t with
  | nil =>
    obtain ⟨generator, s, -, hgenerated, hok⟩ := generate_of_no_obstacle hos
    rw [h, Except.ok.injEq] at hok
    exact ⟨generator, s, hgenerated, hok⟩
  | cons o os =>
    rw [generate_of_obstacle hos] at h
    cases h

/-- What a transformation fails for is one of its obstacles. -/
theorem obstacle_of_generate_error {halt : Halt} (h : g.generate lookup t = .error halt) :
    ∃ o ∈ obstacles g lookup t, halt = .failure ⟨t.name, o.cause⟩ := by
  cases hos : obstacles g lookup t with
  | nil =>
    obtain ⟨-, s, -, -, hok⟩ := generate_of_no_obstacle hos
    rw [h] at hok
    cases hok
  | cons o os =>
    rw [generate_of_obstacle hos, Except.error.injEq] at h
    exact ⟨o, List.mem_cons_self, h.symm⟩

/-- A transformation that is not generated fails; it never comes to a call that is not allowed. -/
theorem failure_of_generate_error {halt : Halt} (h : g.generate lookup t = .error halt) :
    ∃ f, halt = .failure f := by
  obtain ⟨o, -, hhalt⟩ := obstacle_of_generate_error h
  exact ⟨_, hhalt⟩

end Generate

end StepScript
