import Mathlib.Logic.Relation
import Mathlib.Order.Defs.Unbundled
import StepScript.Proofs.Step.Statements
import StepScript.Step.Call

/-! What an operation changes, whether it succeeds, fails or is not allowed. It leaves the fragments of the buffer as
    they are, and may add others after them. Intermediate tables are counted only where one is named. If columns are
    mapped into it, a data step with its name is written, and it counts as produced last. -/

namespace StepScript

/-! ### States that go on -/

/-- The buffer on the right goes on from the one on the left: it has its fragments, and maybe others after them. -/
structure Buffer.Continues (b b' : Buffer) : Prop where
  indentUnit : b'.indentUnit = b.indentUnit
  lineBreak : b'.lineBreak = b.lineBreak
  fragments : b.fragments.toList <+: b'.fragments.toList

instance : IsPreorder Buffer Buffer.Continues where
  refl _ := ⟨rfl, rfl, List.prefix_rfl⟩
  trans _ _ _ h h' :=
    ⟨h'.indentUnit.trans h.indentUnit, h'.lineBreak.trans h.lineBreak, h.fragments.trans h'.fragments⟩

theorem Buffer.continues_level (b : Buffer) (level : Nat) : b.Continues { b with level } :=
  ⟨rfl, rfl, List.prefix_rfl⟩

theorem Buffer.continues_write (b : Buffer) (fs : List Fragment) : b.Continues (b.write fs) := by
  refine ⟨rfl, rfl, ?_⟩
  simp [write]

namespace StepState

/-- Code may have been written, and a dataset may count as produced last. -/
structure Unnamed (s s' : StepState) : Prop where
  buffer : s.buffer.Continues s'.buffer
  workTables : s'.workTables = s.workTables

/-- Code may have been written. -/
structure OnlyWrites (s s' : StepState) : Prop extends Unnamed s s' where
  lastOutput? : s'.lastOutput? = s.lastOutput?

/-- Code was written, among it the start of a data step that creates a new intermediate table. -/
structure Maps (env : Env) (t : Transform) (s s' : StepState) : Prop where
  buffer : s.buffer.Continues s'.buffer
  workTables : s'.workTables = s.workTables + 1
  lastOutput? : s'.lastOutput? = some (Step.workTable env.settings t s'.workTables)
  created : ∃ ahead level, s.buffer.fragments.toList ++ ahead ++
    [Step.line s.buffer.lineBreak level ("data " ++ Step.workTable env.settings t s'.workTables ++ ";")] <+:
      s'.buffer.fragments.toList

/-- Code may have been written, and columns may have been mapped once. -/
def MapsOnce (env : Env) (s s' : StepState) : Prop := s.Unnamed s' ∨ ∃ t, s.Maps env t s'

instance : IsPreorder StepState Unnamed where
  refl s := ⟨refl s.buffer, rfl⟩
  trans _ _ _ h h' := ⟨trans_of Buffer.Continues h.buffer h'.buffer, h'.workTables.trans h.workTables⟩

instance : IsPreorder StepState OnlyWrites where
  refl s := ⟨refl s, rfl⟩
  trans _ _ _ h h' := ⟨trans_of Unnamed h.toUnnamed h'.toUnnamed, h'.lastOutput?.trans h.lastOutput?⟩

instance (env : Env) : Std.Refl (MapsOnce env) where
  refl s := .inl (refl s)

section Maps
variable {env : Env} {t : Transform} {s s' s'' : StepState}

theorem MapsOnce.continues (h : s.MapsOnce env s') : s.buffer.Continues s'.buffer := by
  rcases h with h | ⟨t, h⟩
  · exact h.buffer
  · exact h.buffer

theorem Unnamed.maps (h : s.Unnamed s') (h' : s'.Maps env t s'') : s.Maps env t s'' := by
  obtain ⟨fs, hfs⟩ := h.buffer.fragments
  obtain ⟨ahead, level, hcreated⟩ := h'.created
  rw [← hfs, h.buffer.lineBreak, List.append_assoc _ fs] at hcreated
  refine ⟨trans_of Buffer.Continues h.buffer h'.buffer, ?_, h'.lastOutput?, fs ++ ahead, level, hcreated⟩
  rw [h'.workTables, h.workTables]

theorem Maps.writes (h : s.Maps env t s') (h' : s'.OnlyWrites s'') : s.Maps env t s'' := by
  obtain ⟨ahead, level, hcreated⟩ := h.created
  refine ⟨trans_of Buffer.Continues h.buffer h'.buffer, h'.workTables.trans h.workTables, ?_, ahead, level, ?_⟩
  · rw [h'.lastOutput?, h.lastOutput?, h'.workTables]
  · rw [h'.workTables]
    exact hcreated.trans h'.buffer.fragments

theorem Unnamed.mapsOnce (h : s.Unnamed s') (h' : s'.MapsOnce env s'') : s.MapsOnce env s'' :=
  h'.imp (trans_of Unnamed h) fun ⟨t, h'⟩ => ⟨t, h.maps h'⟩

theorem MapsOnce.writes (h : s.MapsOnce env s') (h' : s'.OnlyWrites s'') : s.MapsOnce env s'' :=
  h.imp (fun h => trans_of Unnamed h h'.toUnnamed) fun ⟨t, h⟩ => ⟨t, h.writes h'⟩

end Maps

end StepState

namespace Step
open StepState

/-! ### What a step does to its state -/

section Relates
variable {α β : Type} {R Q : StepState → StepState → Prop} {x : Step α} {k : α → Step β}

/-- The state that a step leaves, whatever comes of it. -/
def left : EStateM.Result Halt StepState α → StepState
  | .ok _ s => s
  | .error _ s => s

/-- The state that a step finds is related to the one that it leaves. -/
def Relates (R : StepState → StepState → Prop) (x : Step α) : Prop := ∀ s, R s (left (x s))

namespace Relates

theorem mono (h : Relates R x) (hR : ∀ {s s'}, R s s' → Q s s') : Relates Q x := fun s => hR (h s)

theorem pure [Std.Refl R] (a : α) : Relates R (pure a) := fun s => refl_of R s

theorem throw [Std.Refl R] (halt : Halt) : Relates R (throw halt : Step α) := fun s => refl_of R s

theorem attempt [Std.Refl R] (env : Env) (a : Except Cause α) : Relates R (attempt env a) := by
  cases a with
  | ok a => exact pure a
  | error cause => exact throw _

/-- What follows a step may also change nothing, for the step may stop. -/
theorem comp [Std.Refl Q] (hx : Relates R x) (hk : ∀ a, Relates Q (k a)) : Relates (Relation.Comp R Q) (x >>= k) := by
  intro s
  have hs := hx s
  cases h : x s with
  | ok a s' =>
    rw [h] at hs
    rw [bind_ok h]
    exact ⟨s', hs, hk a s'⟩
  | error halt s' =>
    rw [h] at hs
    rw [bind_error h]
    exact ⟨s', hs, refl_of Q s'⟩

theorem bind [IsPreorder StepState R] (hx : Relates R x) (hk : ∀ a, Relates R (k a)) : Relates R (x >>= k) :=
  (hx.comp hk).mono fun ⟨_, h, h'⟩ => trans_of R h h'

theorem map (hx : Relates R x) (f : α → β) : Relates R (f <$> x) := by
  rw [map_eq_pure_bind]
  exact (hx.comp (Q := Eq) fun a => pure (f a)).mono fun ⟨_, h, hsame⟩ => hsame ▸ h

theorem andThen (hx : Relates R x) (b : β) : Relates R (x *> Pure.pure b) := by
  rw [seqRight_eq_bind]
  exact (hx.comp (Q := Eq) fun _ => pure b).mono fun ⟨_, h, hsame⟩ => hsame ▸ h

theorem unnamed (hx : Relates OnlyWrites x) : Relates Unnamed x := hx.mono OnlyWrites.toUnnamed

/-- Columns may be mapped after steps that name no intermediate table. -/
theorem bindMapping {env : Env} (hx : Relates Unnamed x) (hk : ∀ a, Relates (MapsOnce env) (k a)) :
    Relates (MapsOnce env) (x >>= k) :=
  (hx.comp hk).mono fun ⟨_, h, h'⟩ => h.mapsOnce h'

end Relates
end Relates

/-! ### Operations that only write -/

theorem Writes.relates {x : Step Unit} {fs : String → List Fragment} (h : Writes x fs) : Relates OnlyWrites x := by
  intro s
  rw [h s]
  exact ⟨⟨s.buffer.continues_write _, rfl⟩, rfl⟩

theorem relates_indent : Relates OnlyWrites indent := fun s => ⟨⟨s.buffer.continues_level _, rfl⟩, rfl⟩

theorem relates_unindent : Relates OnlyWrites unindent := by
  intro s
  unfold unindent
  rw [get_bind]
  cases h : s.buffer.unindent? with
  | none => exact refl_of OnlyWrites s
  | some b =>
    unfold Buffer.unindent? at h
    split at h
    · cases h
    · cases h
      exact ⟨⟨s.buffer.continues_level _, rfl⟩, rfl⟩

theorem relates_indented {body : Step Unit} (h : Relates OnlyWrites body) : Relates OnlyWrites (indented body) :=
  relates_indent.bind fun _ => h.bind fun _ => relates_unindent

theorem relates_lastOutput : Relates OnlyWrites lastOutput := fun s => refl_of OnlyWrites s

section Statements
variable (env : Env) (t : Transform) (table : Table)

theorem relates_emitTableDelete : Relates OnlyWrites (emitTableDelete env table) := by
  unfold emitTableDelete
  cases table.isExternal with
  | true => exact .throw _
  | false =>
    refine (Relates.attempt env _).bind fun libref => (Relates.attempt env _).bind fun member => ?_
    exact ((writes_appendLine _).seq ((writes_appendLine _).indented.seq
      ((writes_appendLine _).seq (writes_appendLine _)))).relates

theorem relates_emitColumnAttributes (withLabels : Bool) :
    Relates OnlyWrites (emitColumnAttributes env table withLabels) := by
  unfold emitColumnAttributes
  cases h : (table.columnStatements withLabels).isEmpty with
  | true =>
    simp only [h]
    exact .pure ()
  | false =>
    simp only [h]
    refine (Relates.attempt env _).bind fun libref => (Relates.attempt env _).bind fun member => ?_
    exact ((writes_appendLine _).seq ((writes_appendLine _).seq
      (((writes_appendLine _).seq (writes_appendLines _).indented).indented.seq (writes_appendLine _)))).relates

/-- The sort procedure may stop in its middle, where the ordering keys are missing. -/
theorem relates_emitSort (data sourceOptions out targetOptions sortOptions : String) :
    Relates OnlyWrites (emitSort env t data sourceOptions out targetOptions sortOptions) := by
  cases horder : orderByStatement? t with
  | some statement => exact (writes_emitSort horder data sourceOptions out targetOptions sortOptions).relates
  | none =>
    unfold emitSort
    rw [horder]
    refine (writes_append _).relates.bind fun _ => (writes_appendOptions _).relates.bind fun _ =>
      (writes_appendLine _).relates.bind fun _ => (relates_indented ?_).bind fun _ => (writes_appendLine _).relates
    refine (writes_append _).relates.bind fun _ => (writes_appendOptions _).relates.bind fun _ => ?_
    cases Text.nonBlank sortOptions with
    | some options =>
      exact (writes_appendLine _).relates.bind fun _ => (writes_append _).relates.bind fun _ =>
        (writes_appendLine _).relates.bind fun _ => .attempt env _
    | none => exact (writes_appendLine _).relates.bind fun _ => .attempt env _

/-! ### Operations that change other things as well -/

theorem relates_setLastOutput (dataset : String) : Relates Unnamed (setLastOutput dataset) :=
  fun s => ⟨refl s.buffer, rfl⟩

theorem relates_resolveSource : Relates Unnamed (resolveSource env t) := by
  refine (Relates.attempt env _).bind fun source s => ?_
  rw [get_bind]
  cases s.lastOutput?.isNone with
  | false => exact refl_of Unnamed s
  | true =>
    have hset : Relates Unnamed (do
        let location ← attempt env (source.location? env.settings)
        setLastOutput location.text
        pure source) :=
      (Relates.attempt env _).bind fun l => (relates_setLastOutput l.text).bind fun _ => .pure source
    exact hset s

theorem relates_mapColumns (mapper : ColumnMapper) (sourceOptions : String) :
    Relates (MapsOnce env) (mapColumns mapper env t sourceOptions) := by
  intro s
  rw [mapColumns_eq]
  cases mapsColumns mapper t with
  | false => exact refl_of (MapsOnce env) s
  | true =>
    refine .inr ⟨t, s.buffer.continues_write _, rfl, rfl, [], s.buffer.level, ?_⟩
    simp [left, mappedState, mappingFragments, StepState.write, Buffer.write, line]

theorem relates_generateSort (mapper : ColumnMapper) : Relates (MapsOnce env) (generateSort mapper env t) := by
  unfold generateSort
  refine (Relates.attempt env _).bindMapping fun _ => (Relates.attempt env _).bindMapping fun _ =>
    (Relates.attempt env _).bindMapping fun _ => (relates_resolveSource env t).bindMapping fun source =>
    (Relates.attempt env _).bindMapping fun target => (Relates.attempt env _).bindMapping fun l =>
    (writes_emitSystemOptions env t).relates.unnamed.bindMapping fun _ =>
    (relates_emitTableDelete env target).unnamed.bindMapping fun _ => ?_
  refine ((relates_mapColumns env t mapper _).comp fun mapped => ?_).mono fun ⟨_, h, h'⟩ => h.writes h'
  exact relates_lastOutput.bind fun data => (relates_emitSort env t _ _ _ _ _).bind fun _ =>
    (relates_emitColumnAttributes env target true).bind fun _ => (writes_finish _).relates

theorem relates_generateAppend : Relates Unnamed (generateAppend env t) := by
  unfold generateAppend
  exact (Relates.attempt env _).bind fun _ => (Relates.attempt env _).bind fun _ =>
    (Relates.attempt env _).bind fun _ => (Relates.attempt env _).bind fun inputs =>
    (Relates.attempt env _).bind fun target => (Relates.attempt env _).bind fun l =>
    (writes_emitSystemOptions env t).relates.unnamed.bind fun _ =>
    (relates_emitTableDelete env target).unnamed.bind fun _ =>
    (writes_emitAppend _ _ _ _ _).relates.unnamed.bind fun _ =>
    (relates_setLastOutput _).bind fun _ => (writes_finish _).relates.unnamed

end Statements

end Step

/-! ### Calls -/

namespace Call
open Step StepState

theorem relates_perform (env : Env) {c : Call} (hc : ∀ t, c ≠ .nextWorkTable t) :
    Relates (MapsOnce env) (c.perform env) := by
  have hunnamed : ∀ {α : Type} {x : Step α}, Relates Unnamed x → Relates (MapsOnce env) x :=
    fun h => h.mono Or.inl
  have hwrites : ∀ {α : Type} {x : Step α}, Relates OnlyWrites x → Relates (MapsOnce env) x :=
    fun h => hunnamed h.unnamed
  cases c with
  | checkSourceAndTarget t => exact hunnamed ((Relates.attempt env _).andThen _)
  | checkTargetManaged t => exact hunnamed ((Relates.attempt env _).andThen _)
  | checkSourcesReadable t => exact hunnamed ((Relates.attempt env _).andThen _)
  | resolveSource t => exact hunnamed ((relates_resolveSource env t).map _)
  | resolveTarget t => exact hunnamed ((Relates.attempt env _).map _)
  | resolveSources t => exact hunnamed ((Relates.attempt env _).map _)
  | resolveOptions t category => exact hunnamed (.pure _)
  | location table => exact hunnamed ((Relates.attempt env _).map _)
  | orderBy t => exact hunnamed (.pure _)
  | emitSystemOptions t => exact hwrites ((writes_emitSystemOptions env t).relates.andThen _)
  | emitTableDelete table => exact hwrites ((relates_emitTableDelete env table).andThen _)
  | emitColumnAttributes table withLabels =>
    exact hwrites ((relates_emitColumnAttributes env table withLabels).andThen _)
  | setLastOutput dataset => exact hunnamed ((relates_setLastOutput dataset).andThen _)
  | append text => exact hwrites ((writes_append text).relates.andThen _)
  | appendLine text => exact hwrites ((writes_appendLine text).relates.andThen _)
  | finish status => exact hwrites ((writes_finish status).relates.andThen _)
  | indent => exact hwrites (relates_indent.andThen _)
  | unindent => exact hwrites (relates_unindent.andThen _)
  | nextWorkTable t => exact absurd rfl (hc t)
  | mapColumns mapper t sourceOptions => exact (relates_mapColumns env t mapper sourceOptions).map _
  | generate g t =>
    cases g with
    | sort mapper => exact (relates_generateSort env t mapper).andThen _
    | append => exact hunnamed ((relates_generateAppend env t).andThen _)
  | fail cause => exact .throw _

theorem outcome_snd (env : Env) (s : StepState) (c : Call) : (c.outcome env s).2 = left (c.perform env s) := by
  unfold outcome
  cases c.perform env s <;> rfl

/-- Besides the requests for a name, a call names an intermediate table only to map columns into it. -/
theorem mapsOnce_outcome (env : Env) (s : StepState) {c : Call} (hc : ∀ t, c ≠ .nextWorkTable t) :
    MapsOnce env s (c.outcome env s).2 := by
  rw [outcome_snd]
  exact relates_perform env hc s

end Call

end StepScript
