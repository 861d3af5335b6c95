import StepScript.Step

/-! What the operations of a step write. A step that writes fragments does nothing else: it succeeds in
    every state, and adds the fragments, whose levels count from the level of the buffer (`Writes`).
    Writing one thing after another, and writing one level deeper, is writing again. -/

namespace StepScript

/-- A fragment one level deeper. -/
def Fragment.deeper (f : Fragment) : Fragment := ⟨f.level + 1, f.text⟩

/-- A buffer with fragments added whose levels count from its own. -/
def Buffer.write (b : Buffer) (fs : List Fragment) : Buffer :=
  { b with fragments := b.fragments ++ (fs.map fun f => (⟨b.level + f.level, f.text⟩ : Fragment)).toArray }

/-- A state with fragments added to its buffer. -/
def StepState.write (s : StepState) (fs : List Fragment) : StepState :=
  { s with buffer := s.buffer.write fs }

namespace Buffer
variable (b : Buffer) (fs gs : List Fragment) (text : String)

@[simp] theorem lineBreak_write : (b.write fs).lineBreak = b.lineBreak := rfl

@[simp] theorem write_nil : b.write [] = b := by
  simp [write]

theorem write_write : (b.write fs).write gs = b.write (fs ++ gs) := by
  simp [write, Array.append_assoc]

theorem append_eq_write : b.append text = b.write [⟨0, text⟩] := by
  simp [append, write]

theorem unindent?_indent_write : (b.indent.write fs).unindent? = some (b.write (fs.map Fragment.deeper)) := by
  simp [unindent?, indent, write, Fragment.deeper, Function.comp_def, Nat.add_assoc, Nat.add_comm 1]

/-- The buffer comes from another one by adding fragments. -/
def Extends (b' b : Buffer) : Prop :=
  ∃ fs, b' = b.write fs

theorem Extends.refl (b : Buffer) : b.Extends b := ⟨[], b.write_nil.symm⟩

theorem Extends.trans {b b' b'' : Buffer} (h : b''.Extends b') (h' : b'.Extends b) : b''.Extends b := by
  obtain ⟨gs, rfl⟩ := h
  obtain ⟨fs, rfl⟩ := h'
  exact ⟨fs ++ gs, write_write b fs gs⟩

end Buffer

namespace StepState
variable (s : StepState) (fs gs : List Fragment)

@[simp] theorem lineBreak_write : (s.write fs).buffer.lineBreak = s.buffer.lineBreak := rfl

@[simp] theorem write_nil : s.write [] = s := by
  simp [write]

theorem write_write : (s.write fs).write gs = s.write (fs ++ gs) := by
  simp [write, Buffer.write_write]

end StepState

namespace Step

section Bind
variable {α β : Type} {x : Step α} {k : α → Step β} {s s' : StepState}

theorem bind_ok {a : α} (h : x s = .ok a s') : (x >>= k) s = k a s' := by
  simp only [Bind.bind, EStateM.bind, h]

theorem bind_error {e : Halt} (h : x s = .error e s') : (x >>= k) s = .error e s' := by
  simp only [Bind.bind, EStateM.bind, h]

theorem bind_eq_of_eq {y : Step α} (h : x s = y s) : (x >>= k) s = (y >>= k) s := by
  simp only [Bind.bind, EStateM.bind, h]

theorem get_bind (k : StepState → Step β) (s : StepState) : (get >>= k) s = k s s :=
  bind_ok rfl

end Bind

theorem unindent_ok {s : StepState} {b : Buffer} (h : s.buffer.unindent? = some b) :
    unindent s = .ok () { s with buffer := b } := by
  refine (get_bind _ s).trans ?_
  rw [h]
  rfl

/-- A step that adds fragments, which depend on the line break only, and does nothing else. -/
def Writes (x : Step Unit) (fs : String → List Fragment) : Prop :=
  ∀ s : StepState, x s = .ok () (s.write (fs s.buffer.lineBreak))

/-! ### Writing one thing after another -/

namespace Writes
variable {α : Type} {x y : Step Unit} {fs gs : String → List Fragment}

/-- After what a step writes comes what follows it. -/
theorem bind (hx : Writes x fs) (k : Unit → Step α) (s : StepState) :
    (x >>= k) s = k () (s.write (fs s.buffer.lineBreak)) :=
  bind_ok (hx s)

theorem of_eq (h : Writes x fs) (heq : ∀ br, fs br = gs br) : Writes x gs := fun s => by
  rw [h s, heq]

theorem nothing : Writes (pure ()) fun _ => [] := fun s => by
  rw [StepState.write_nil]
  rfl

theorem seq (hx : Writes x fs) (hy : Writes y gs) : Writes (do x; y) fun br => fs br ++ gs br := fun s => by
  rw [hx.bind, hy, StepState.write_write, StepState.lineBreak_write]

theorem forM {l : List α} {f : α → Step Unit} {gs : α → String → List Fragment}
    (h : ∀ a, Writes (f a) (gs a)) : Writes (l.forM f) fun br => l.flatMap fun a => gs a br := by
  induction l with
  | nil => exact nothing
  | cons a l ih => exact (h a).seq ih

theorem indented (hx : Writes x fs) : Writes (indented x) fun br => (fs br).map Fragment.deeper := fun s => by
  have hindent : indent s = .ok () { s with buffer := s.buffer.indent } := rfl
  refine (bind_ok hindent).trans ((hx.bind _ _).trans (unindent_ok ?_))
  exact Buffer.unindent?_indent_write _ _

end Writes

/-- A step that stops in every state, always for the same reason. -/
def Halts {α : Type} (x : Step α) (e : Halt) : Prop :=
  ∀ s : StepState, ∃ s', x s = .error e s'

namespace Halts
variable {α β : Type} {e : Halt}

theorem bind {x : Step α} (hx : Halts x e) (k : α → Step β) : Halts (x >>= k) e := fun s => by
  obtain ⟨s', hs'⟩ := hx s
  exact ⟨s', bind_error hs'⟩

theorem after {x : Step Unit} {fs : String → List Fragment} {k : Unit → Step α} (hx : Writes x fs)
    (hk : Halts (k ()) e) : Halts (x >>= k) e := fun s => by
  rw [hx.bind]
  exact hk _

theorem indented {x : Step Unit} (hx : Halts x e) : Halts (indented x) e := fun s => by
  have hindent : indent s = .ok () { s with buffer := s.buffer.indent } := rfl
  obtain ⟨s', hs'⟩ := hx.bind (fun _ => unindent) { s with buffer := s.buffer.indent }
  exact ⟨s', (bind_ok hindent).trans hs'⟩

end Halts

theorem writes_append (text : String) : Writes (append text) fun _ => [⟨0, text⟩] := fun s => by
  show EStateM.Result.ok () { s with buffer := s.buffer.append text } = _
  rw [Buffer.append_eq_write]
  rfl

/-- A fragment that ends its line. -/
def line (br : String) (level : Nat) (text : String) : Fragment := ⟨level, text ++ br⟩

theorem writes_appendLine (text : String) : Writes (appendLine text) fun br => [line br 0 text] := fun s =>
  writes_append (text ++ s.buffer.lineBreak) s

theorem map_deeper_line (br : String) (level : Nat) (texts : List String) :
    (texts.map (line br level)).map Fragment.deeper = texts.map (line br (level + 1)) := by
  rw [List.map_map]
  rfl

theorem writes_appendLines (texts : List String) : Writes (appendLines texts) fun br => texts.map (line br 0) :=
  (Writes.forM writes_appendLine).of_eq fun _ => List.map_eq_flatMap.symm

end Step
end StepScript
