import Mathlib.Data.List.Forall2
import Mathlib.Data.List.Nodup
import Mathlib.Logic.Relation
import StepScript.Proofs.Document.Written

/-! Ways to write a record. A field that has its default may be left out, null may be written for one that is not
    there, the fields may stand in any order, and fields of other names may stand among them. No such change of
    the fields changes what any of them gives, so a record is read the same after all of them, also where they
    are made inside its fields. -/

namespace StepScript
open Relation

/-! ### Changes -/

/-- When a field may be left out of a record. -/
inductive Presence where
  | required
  /-- Where it has this value. -/
  | default (v : Value)
  /-- Where there is nothing, for which null may be written as well. -/
  | optional

/-- How a field is written: its name, when it may be left out, and what its values may be rewritten to. -/
structure FieldForm where
  name : String
  presence : Presence
  Respells : Value → Value → Prop

/-- Two lists of values, each of the one rewritten to that of the other. -/
def EachRespelled (Respells : Value → Value → Prop) (v w : Value) : Prop :=
  ∃ vs ws, v = .list vs ∧ w = .list ws ∧ List.Forall₂ Respells vs ws

namespace FieldForm

def required (name : String) : FieldForm := ⟨name, .required, Eq⟩

def optional (name : String) : FieldForm := ⟨name, .optional, Eq⟩

/-- A field that may be left out where it has a value. -/
def default (name : String) (v : Value) : FieldForm := ⟨name, .default v, Eq⟩

/-- A field with a list, empty by default, of values that may be rewritten. -/
def list (name : String) (Respells : Value → Value → Prop) : FieldForm :=
  ⟨name, .default (.list []), EachRespelled Respells⟩

end FieldForm

/-- One change in how the fields of a record are written. -/
inductive FieldChange (forms : List FieldForm) : List (String × Value) → List (String × Value) → Prop where
  /-- The value of a field is rewritten. -/
  | inside {f : FieldForm} {v w : Value} (ahead rest : List (String × Value)) : f ∈ forms → f.Respells v w →
      FieldChange forms (ahead ++ (f.name, v) :: rest) (ahead ++ (f.name, w) :: rest)
  /-- A field that has its default is left out. -/
  | drop {f : FieldForm} {v : Value} (ahead rest : List (String × Value)) : f ∈ forms → f.presence = .default v →
      FieldChange forms (ahead ++ (f.name, v) :: rest) (ahead ++ rest)
  /-- Null is written for a field that is not there. -/
  | null {f : FieldForm} {fields : List (String × Value)} : f ∈ forms → f.presence = .optional →
      f.name ∉ fields.map (·.1) → FieldChange forms fields ((f.name, .null) :: fields)
  /-- A field of another name is added. -/
  | unknown {fields : List (String × Value)} (name : String) (v : Value) : name ∉ forms.map (·.name) →
      FieldChange forms fields ((name, v) :: fields)
  | reorder {fields fields' : List (String × Value)} : fields.Perm fields' → FieldChange forms fields fields'

/-- Two records, of which the fields of the one are changed to those of the other. -/
def Respelled (forms : List FieldForm) (v w : Value) : Prop :=
  ∃ fields fields', v = .record fields ∧ w = .record fields' ∧ ReflTransGen (FieldChange forms) fields fields'

/-- What is read from a value is read from each value that it is rewritten to. -/
def Keeps {α : Type} (read : Document → Except DecodeError α) (Respells : Value → Value → Prop) : Prop :=
  ∀ ⦃v w a⦄, Respells v w → read v.document = .ok a → read w.document = .ok a

theorem Keeps.eq {α : Type} (read : Document → Except DecodeError α) : Keeps read Eq := fun _ _ _ h hv => h ▸ hv

/-! ### What a field gives -/

section Gives
variable {α : Type} {read : Document → Except DecodeError α} {default? : Option α} {v : Value} {vs ws : List Value}
  {a : α}

/-- A field that gives a result has no other value beside the one that is read. -/
theorem Gives.single (h : Gives read default? (vs ++ v :: ws) a) : vs = [] ∧ ws = [] ∧ read v.document = .ok a := by
  rcases h with ⟨hnil, -⟩ | ⟨u, hu, hread⟩
  · exact absurd hnil (by simp)
  · obtain ⟨rfl, hcons⟩ | ⟨-, hcons⟩ := List.append_eq_singleton_iff.mp hu
    · obtain ⟨rfl, rfl⟩ := List.cons.inj hcons
      exact ⟨rfl, rfl, hread⟩
    · cases hcons

theorem Gives.perm (h : Gives read default? vs a) (hperm : vs.Perm ws) : Gives read default? ws a := by
  rcases h with ⟨rfl, hdefault⟩ | ⟨u, rfl, hread⟩
  · exact .inl ⟨List.nil_perm.mp hperm, hdefault⟩
  · exact .inr ⟨u, (List.singleton_perm.mp hperm).symm, hread⟩

end Gives

section Step
variable {α : Type} {read : Document → Except DecodeError α} {default? : Option α} {forms : List FieldForm}
  {f : FieldForm} {fs gs : List (String × Value)} {name k : String} {v : Value} {a : α}

theorem fieldValues_middle_self (ahead rest : List (String × Value)) :
    fieldValues name (ahead ++ (name, v) :: rest) = fieldValues name ahead ++ v :: fieldValues name rest := by
  rw [fieldValues_append, fieldValues_cons_self]

theorem fieldValues_middle_of_ne (h : k ≠ name) (ahead rest : List (String × Value)) :
    fieldValues name (ahead ++ (k, v) :: rest) = fieldValues name (ahead ++ rest) := by
  rw [fieldValues_append, fieldValues_cons_of_ne h, fieldValues_append]

/-- A way of reading a field agrees with how the field is written. -/
structure FieldForm.ReadBy (f : FieldForm) (read : Document → Except DecodeError α) (default? : Option α) : Prop where
  keeps : Keeps read f.Respells
  omitted : ∀ v a, f.presence = .default v → read v.document = .ok a → default? = some a
  null : ∀ a, f.presence = .optional → default? = some a → read Value.null.document = .ok a

/-- A change of the fields of a record does not change what a field gives. -/
theorem FieldChange.gives (h : FieldChange forms fs gs) (hnames : (forms.map (·.name)).Nodup) (hf : f ∈ forms)
    (hread : f.ReadBy read default?) (hgives : Gives read default? (fieldValues f.name fs) a) :
    Gives read default? (fieldValues f.name gs) a := by
  have hsame : ∀ g ∈ forms, g.name = f.name → g = f := fun g hg hname => List.inj_on_of_nodup_map hnames hg hf hname
  cases h with
  | @inside g v w ahead rest hg hrespells =>
    by_cases hname : g.name = f.name
    · obtain rfl := hsame g hg hname
      rw [fieldValues_middle_self] at hgives ⊢
      obtain ⟨hahead, hrest, hv⟩ := hgives.single
      rw [hahead, hrest]
      exact .inr ⟨w, rfl, hread.keeps hrespells hv⟩
    · rw [fieldValues_middle_of_ne hname] at hgives ⊢
      exact hgives
  | @drop g v ahead rest hg hpresence =>
    by_cases hname : g.name = f.name
    · obtain rfl := hsame g hg hname
      rw [fieldValues_middle_self] at hgives
      obtain ⟨hahead, hrest, hv⟩ := hgives.single
      rw [fieldValues_append, hahead, hrest]
      exact .inl ⟨rfl, hread.omitted v a hpresence hv⟩
    · rw [fieldValues_middle_of_ne hname] at hgives
      exact hgives
  | @null g _ hg hpresence habsent =>
    by_cases hname : g.name = f.name
    · obtain rfl := hsame g hg hname
      rw [fieldValues_eq_nil habsent] at hgives
      rw [fieldValues_cons_self, fieldValues_eq_nil habsent]
      rcases hgives with ⟨-, hdefault⟩ | ⟨u, hu, -⟩
      · exact .inr ⟨.null, rfl, hread.null a hpresence hdefault⟩
      · cases hu
    · rw [fieldValues_cons_of_ne hname]
      exact hgives
  | unknown k v hk =>
    have hne : k ≠ f.name := fun hname => hk (hname ▸ List.mem_map_of_mem hf)
    rw [fieldValues_cons_of_ne hne]
    exact hgives
  | reorder hperm => exact hgives.perm (hperm.filterMap _)

end Step

/-! ### Records -/

/-- A reading that gives a result if another one does, and the same. -/
def Reading.Follows {α : Type} (x y : Reading α) : Prop := ∀ ⦃a⦄, x = .found a → y = .found a

namespace Reading.Follows
variable {α β : Type} {x y : Reading α} {g h : Reading (α → β)}

theorem map (hxy : x.Follows y) (f : α → β) : (f <$> x).Follows (f <$> y) := fun b hb => by
  obtain ⟨a, ha, hfa⟩ := map_eq_found_iff.mp hb
  exact map_eq_found_iff.mpr ⟨a, hxy ha, hfa⟩

theorem seq (hgh : g.Follows h) (hxy : x.Follows y) : (g <*> x).Follows (h <*> y) := fun b hb => by
  obtain ⟨f, a, hf, ha, hfa⟩ := seq_eq_found_iff.mp hb
  exact seq_eq_found_iff.mpr ⟨f, a, hgh hf, hxy ha, hfa⟩

end Reading.Follows

/-- Fields that are changed, of a record whose fields have distinct names. -/
structure Rewriting (forms : List FieldForm) (fs gs : List (String × Value)) : Prop where
  names : (forms.map (·.name)).Nodup
  changes : ReflTransGen (FieldChange forms) fs gs

namespace Rewriting
variable {α : Type} {read : Document → Except DecodeError α} {forms : List FieldForm} {f : FieldForm}
  {fs gs : List (String × Value)} {names : List String} {name : String}

/-- Changes of the fields of a record do not change what a field gives. -/
theorem gives (h : Rewriting forms fs gs) (hf : f ∈ forms) {default? : Option α} (hread : f.ReadBy read default?)
    {a : α} (hgives : Gives read default? (fieldValues f.name fs) a) :
    Gives read default? (fieldValues f.name gs) a := by
  obtain ⟨hnames, hchanges⟩ := h
  induction hchanges with
  | refl => exact hgives
  | tail _ hchange ih => exact hchange.gives hnames hf hread ih

theorem withDefault_of_readBy (h : Rewriting forms fs gs) (hf : f ∈ forms) {d : α} (hread : f.ReadBy read (some d)) :
    ((WrittenRecord.ofFields names fs).withDefault f.name read d).Follows
      ((WrittenRecord.ofFields names gs).withDefault f.name read d) := fun _ ha =>
  WrittenRecord.withDefault_ofFields.mpr (h.gives hf hread (WrittenRecord.withDefault_ofFields.mp ha))

theorem required (h : Rewriting forms fs gs) (hf : .required name ∈ forms) :
    ((WrittenRecord.ofFields names fs).required name read).Follows
      ((WrittenRecord.ofFields names gs).required name read) := fun a ha => by
  have hread : (FieldForm.required name).ReadBy read none :=
    ⟨.eq read, fun _ _ he => (nomatch he), fun _ he => (nomatch he)⟩
  exact WrittenRecord.required_ofFields.mpr (h.gives hf hread (WrittenRecord.required_ofFields.mp ha))

theorem withDefault (h : Rewriting forms fs gs) {v : Value} {d : α} (hf : .default name v ∈ forms)
    (hd : read v.document = .ok d) :
    ((WrittenRecord.ofFields names fs).withDefault name read d).Follows
      ((WrittenRecord.ofFields names gs).withDefault name read d) := by
  have hread : (FieldForm.default name v).ReadBy read (some d) := by
    refine ⟨.eq read, fun w a he hw => ?_, fun _ he => nomatch he⟩
    obtain rfl : v = w := Presence.default.inj he
    exact congrArg some (Except.ok.inj (hd.symm.trans hw))
  exact h.withDefault_of_readBy hf hread

theorem optional (h : Rewriting forms fs gs) (hf : .optional name ∈ forms) :
    ((WrittenRecord.ofFields names fs).withDefault name (Document.optional read) none).Follows
      ((WrittenRecord.ofFields names gs).withDefault name (Document.optional read) none) := by
  have hread : (FieldForm.optional name).ReadBy (Document.optional read) (some none) := by
    refine ⟨.eq _, fun _ _ he => (nomatch he), fun o _ ho => ?_⟩
    obtain rfl : none = o := Option.some.inj ho
    rfl
  exact h.withDefault_of_readBy hf hread

end Rewriting

/-- A list is read the same if its values are. -/
theorem Keeps.list {α : Type} {read : Document → Except DecodeError α} {Respells : Value → Value → Prop}
    (hread : Keeps read Respells) : Keeps (Document.list read) (EachRespelled Respells) := by
  rintro _ _ as ⟨vs, ws, rfl, rfl, hitems⟩ hvs
  rw [list_document_eq_ok_iff] at hvs ⊢
  induction hitems generalizing as with
  | nil => exact hvs
  | cons hvw _ ih =>
    obtain ⟨a, as, hv, hrest, rfl⟩ := List.forall₂_cons_left_iff.mp hvs
    exact .cons (hread hvw hv) (ih hrest)

theorem Rewriting.list {α : Type} {read : Document → Except DecodeError α} {forms : List FieldForm}
    {fs gs : List (String × Value)} {names : List String} {name : String} {Respells : Value → Value → Prop}
    (h : Rewriting forms fs gs) (hf : .list name Respells ∈ forms) (hread : Keeps read Respells) :
    ((WrittenRecord.ofFields names fs).withDefault name (Document.list read) []).Follows
      ((WrittenRecord.ofFields names gs).withDefault name (Document.list read) []) := by
  have hlist : (FieldForm.list name Respells).ReadBy (Document.list read) (some []) := by
    refine ⟨hread.list, fun v as he hv => ?_, fun _ he => nomatch he⟩
    obtain rfl : .list [] = v := Presence.default.inj he
    exact congrArg some (Except.ok.inj hv)
  exact h.withDefault_of_readBy hf hlist

/-- A record is read the same after changes of its fields, if its fields are. -/
theorem Keeps.record {α : Type} {forms : List FieldForm} {names : List String} {body : WrittenRecord → Reading α}
    (hnames : (forms.map (·.name)).Nodup) (hbody : ∀ fs gs, Rewriting forms fs gs →
      (body (.ofFields names fs)).Follows (body (.ofFields names gs))) :
    Keeps (WrittenRecord.read names body) (Respelled forms) := by
  rintro _ _ a ⟨fs, gs, rfl, rfl, hchanges⟩ hfs
  exact WrittenRecord.read_record.mpr (hbody fs gs ⟨hnames, hchanges⟩ (WrittenRecord.read_record.mp hfs))

end StepScript
