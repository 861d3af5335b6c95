import StepScript.Proofs.Step.Generable

/-! What a step overwrites. A generated step deletes the location of its target and writes it again. The
    checks compare identifiers, not locations: a step spares the tables that it reads, and the external
    ones, if every table that some step may replace has its physical names for itself, and not otherwise. -/

namespace StepScript

/-! ### The deleted location -/

/-- The code in a buffer deletes the table at a location. -/
def Buffer.Deletes (b : Buffer) (s : Settings) (l : Location) : Prop :=
  ∃ before after, b = (Buffer.ofSettings s).write (before ++ Step.deleteFragments l s.lineBreak ++ after)

namespace Step
variable {mapper : ColumnMapper} {env : Env} {t : Transform} {source target : Table} {l : Location}
  {statement : String} {s s' : StepState}

theorem extends_sortedState :
    (sortedState mapper env t source target l statement s).buffer.Extends (deletedState env t l s).buffer := by
  have hsorted : (sortedState mapper env t source target l statement s).buffer.Extends
      (readState mapper env t source l s).buffer := ⟨_, rfl⟩
  exact hsorted.trans extends_readState

/-- What is written after the deletion of the target does not undo it. -/
theorem deletes_of_extends {b : Buffer} (hs : s.buffer = .ofSettings env.settings)
    (h : b.Extends (deletedState env t l s).buffer) : b.Deletes env.settings l := by
  obtain ⟨after, rfl⟩ := h
  have hbr : s.buffer.lineBreak = env.settings.lineBreak := by rw [hs]; rfl
  refine ⟨systemFragments env.settings t s.buffer.lineBreak, after, ?_⟩
  rw [← Buffer.write_write, ← hbr, ← hs]
  rfl

end Step

theorem Generator.Generated.deletes {generator : Generator} {env : Env} {t : Transform} {s' : StepState}
    (h : generator.Generated env t (.fresh env.settings) s') :
    ∃ target l, env.target t = .ok target ∧ target.location? env.settings = .ok l ∧
      s'.buffer.Deletes env.settings l := by
  cases generator with
  | sort mapper =>
    obtain ⟨source, target, l, statement, s₁, hresolved, htarget, hl, -, rfl⟩ := h
    have hbuffer := Step.buffer_of_resolveSource hresolved
    exact ⟨target, l, htarget, hl, Step.deletes_of_extends hbuffer Step.extends_sortedState⟩
  | append =>
    obtain ⟨inputs, target, l, -, htarget, hl, rfl⟩ := h
    exact ⟨target, l, htarget, hl, Step.deletes_of_extends (s := .fresh env.settings) rfl ⟨_, rfl⟩⟩

/-! ### Tables at one location -/

/-- Two tables are at one location, which both have. -/
def Table.Shares (s : Settings) (u v : Table) : Prop :=
  ∃ l l', u.location? s = .ok l ∧ v.location? s = .ok l' ∧ l.text = l'.text

theorem Table.shares_iff {s : Settings} {u v : Table} : u.Shares s v ↔
    v.HasValidNames s ∧ u.effectiveLibref s = v.effectiveLibref s ∧ u.name = v.name := by
  constructor
  · rintro ⟨l, l', hl, hl', htext⟩
    cases Location.eq_of_text_eq hl' htext
    obtain ⟨-, hplace⟩ := location?_eq_ok_iff.mp hl
    obtain ⟨hnames, hplace'⟩ := location?_eq_ok_iff.mp hl'
    rw [hplace, Location.mk.injEq] at hplace'
    exact ⟨hnames, hplace'⟩
  · rintro ⟨hnames, hlibref, hname⟩
    have hnames' := hnames.of_names_eq hlibref hname
    refine ⟨_, _, location?_eq_ok_iff.mpr ⟨hnames', rfl⟩, location?_eq_ok_iff.mpr ⟨hnames, rfl⟩, ?_⟩
    rw [hlibref, hname]

namespace Transform

/-- The transformation replaces the table. -/
def Replaces (t : Transform) (c : Catalog) (v : Table) : Prop :=
  ∃ r, t.targets = [r] ∧ c.get? r.tableId = some v

/-- The transformation reads the table: an append step reads every source, a sort step the first one. -/
def Reads (t : Transform) (c : Catalog) (u : Table) : Prop :=
  ∃ r ∈ inputRefs t.kind t, c.get? r.tableId = some u

end Transform

/-- Some step can replace the table: it is managed, and there is another table to read. -/
def Catalog.Replaceable (c : Catalog) (s : Settings) (v : Table) : Prop :=
  v.storage = .managed ∧ v.HasValidNames s ∧ ∃ w ∈ c.tables, w.id ≠ v.id ∧ w.Readable ∧ w.HasValidNames s

/-- The transformation that replaces one table by another. -/
def copying (w v : Table) : Transform :=
  { name := "copy", kind := .append, sources := [⟨w.id⟩], targets := [⟨v.id⟩] }

section Sparing
variable {c : Catalog} {s : Settings} {v w : Table}

theorem generates_copying (hv : v ∈ c.tables) (hw : w ∈ c.tables) (hid : w.id ≠ v.id)
    (hmanaged : v.storage = .managed) (hnames : v.HasValidNames s) (hread : w.Readable)
    (hnames' : w.HasValidNames s) :
    ∃ buffer, (Generation.mk s .standard).generate c.get? (copying w v) = .ok buffer := by
  have hgetv : c.get? v.id = some v := Catalog.get?_eq_some_iff.mpr ⟨hv, rfl⟩
  have hgetw : c.get? w.id = some w := Catalog.get?_eq_some_iff.mpr ⟨hw, rfl⟩
  rw [generates_iff]
  refine ⟨⟨.append, rfl⟩, by simp [copying], ⟨⟨v.id⟩, v, rfl, ?_, hgetv, hmanaged, hnames⟩, ?_, ?_, nofun⟩
  · simpa [copying] using hid.symm
  · simpa [copying, hgetw] using hread
  · simpa [copying, inputRefs, hgetw] using hnames'

theorem exists_mem_inputRefs {t : Transform} (kind : Kind) (h : t.sources ≠ []) : ∃ r, r ∈ inputRefs kind t := by
  obtain ⟨r, rs, hr⟩ := List.exists_cons_of_ne_nil h
  exact ⟨r, by cases kind <;> simp [inputRefs, hr]⟩

/-- A step that is generated replaces a table that can be replaced, and does not read it. -/
theorem replaceable_of_generated {g : Generation} {t : Transform} {buffer : Buffer}
    (h : g.generate c.get? t = .ok buffer) (hv : t.Replaces c v) :
    c.Replaceable g.settings v ∧ ¬t.Reads c v := by
  obtain ⟨-, hsources, ⟨r, u, hr, hmem, hu, hmanaged, hnames⟩, hreadable, hinputs, -⟩ :=
    generates_iff.mp ⟨buffer, h⟩
  obtain ⟨r', hr', hv⟩ := hv
  rw [hr, List.cons.injEq] at hr'
  obtain ⟨rfl, -⟩ := hr'
  rw [hu, Option.some.injEq] at hv
  subst hv
  obtain ⟨-, hid⟩ := Catalog.get?_eq_some_iff.mp hu
  -- Another reference is to a table of another identifier.
  have hother : ∀ q ∈ t.sources, ∀ w, c.get? q.tableId = some w → w.id ≠ u.id := by
    intro q hq w hw heq
    have hid' := (Catalog.get?_eq_some_iff.mp hw).2
    have hqr : q = r := by
      cases q
      cases r
      simp_all
    exact hmem (hqr ▸ hq)
  obtain ⟨q, hq⟩ := exists_mem_inputRefs t.kind hsources
  have hq' := mem_sources_of_mem_inputRefs hq
  obtain ⟨w, hw, hread⟩ := hreadable q hq'
  have hmemw := (Catalog.get?_eq_some_iff.mp hw).1
  refine ⟨⟨hmanaged, hnames, w, hmemw, hother q hq' w hw, hread, hinputs q hq w hw⟩, ?_⟩
  rintro ⟨q, hq, hget⟩
  exact hother q (mem_sources_of_mem_inputRefs hq) u hget rfl

theorem replaces_of_target {env : Env} {t : Transform} (h : env.target t = .ok v) (hlookup : env.lookup = c.get?) :
    t.Replaces c v := by
  unfold Env.target at h
  cases htarget : t.target? with
  | none => simp [htarget] at h
  | some r =>
    rw [htarget] at h
    exact ⟨r, target?_eq_some_iff.mp htarget, hlookup ▸ table_eq_ok_iff.mp h⟩

theorem deletes_of_generated {g : Generation} {t : Transform} {buffer : Buffer}
    (h : g.generate c.get? t = .ok buffer) :
    ∃ v l, t.Replaces c v ∧ v.location? g.settings = .ok l ∧ buffer.Deletes g.settings l := by
  have hnone := obstacles_eq_nil.mpr (generates_iff.mp ⟨buffer, h⟩)
  obtain ⟨generator, s', -, hgenerated, hok⟩ := generate_of_no_obstacle hnone
  rw [h, Except.ok.injEq] at hok
  subst hok
  obtain ⟨v, l, hv, hl, hdeletes⟩ := hgenerated.deletes
  exact ⟨v, l, replaces_of_target hv rfl, hl, hdeletes⟩

/-- The code of a step deletes the location of the table that it replaces. Whether it spares the tables that
    it reads, and the external ones, depends on the catalog: each table that some step may replace must have
    its library and member name for itself. -/
theorem spares_iff_names_distinct (c : Catalog) (s : Settings) :
    (∀ registry t buffer, (Generation.mk s registry).generate c.get? t = .ok buffer →
      ∃ v l, t.Replaces c v ∧ v.location? s = .ok l ∧ buffer.Deletes s l) ∧
    ((∀ registry t buffer v, (Generation.mk s registry).generate c.get? t = .ok buffer → t.Replaces c v →
        ∀ u ∈ c.tables, t.Reads c u ∨ u.storage = .external → ¬u.Shares s v) ↔
      ∀ v ∈ c.tables, c.Replaceable s v →
        ∀ u ∈ c.tables, u.effectiveLibref s = v.effectiveLibref s → u.name = v.name → u = v) := by
  refine ⟨fun registry t buffer h => deletes_of_generated h,
    fun hspares v hv hreplaceable u hu hlibref hname => ?_,
    fun hdistinct registry t buffer v h hv u hu huses hshares => ?_⟩
  · obtain ⟨hmanaged, hnames, w, hw, hid, hread, hnames'⟩ := hreplaceable
    have hshares : u.Shares s v := Table.shares_iff.mpr ⟨hnames, hlibref, hname⟩
    have hgetv : c.get? v.id = some v := Catalog.get?_eq_some_iff.mpr ⟨hv, rfl⟩
    by_contra hne
    have hid' : u.id ≠ v.id := fun heq => hne (Catalog.eq_of_id_eq hu hv heq)
    cases hstorage : u.storage with
    | external =>
      -- Another step, which reads something else, deletes the external table.
      obtain ⟨buffer, hok⟩ := generates_copying hv hw hid hmanaged hnames hread hnames'
      exact hspares .standard _ buffer v hok ⟨_, rfl, hgetv⟩ u hu (.inr hstorage) hshares
    | managed =>
      have hnames'' := hnames.of_names_eq hlibref hname
      obtain ⟨buffer, hok⟩ := generates_copying hv hu hid' hmanaged hnames (.inl hstorage) hnames''
      have hgetu : c.get? u.id = some u := Catalog.get?_eq_some_iff.mpr ⟨hu, rfl⟩
      have hreads : (copying u v).Reads c u := ⟨⟨u.id⟩, by simp [copying, inputRefs], hgetu⟩
      exact hspares .standard _ buffer v hok ⟨_, rfl, hgetv⟩ u hu (.inl hreads) hshares
  · obtain ⟨hreplaceable, hreads⟩ := replaceable_of_generated h hv
    obtain ⟨r, -, hget⟩ := hv
    obtain ⟨-, hlibref, hname⟩ := Table.shares_iff.mp hshares
    cases hdistinct v (Catalog.get?_eq_some_iff.mp hget).1 hreplaceable u hu hlibref hname
    rcases huses with huse | hexternal
    · exact hreads huse
    · rw [hreplaceable.1] at hexternal
      cases hexternal

/-- Two tables of one name. -/
def twins : Catalog := .ofTables [.ofName "X", { id := "Y", name := "X" }]

/-- A sort of one twin into the other. -/
def twinSort : Transform :=
  { name := "S", kind := .sort, sources := [⟨"X"⟩], targets := [⟨"Y"⟩], orderBy := [{ name := "K" }] }

theorem twinSort_deletes_source : ∃ buffer u l,
    (Generation.mk {} .standard).generate twins.get? twinSort = .ok buffer ∧ twinSort.Reads twins u ∧
    u.location? {} = .ok l ∧ buffer.Deletes {} l := by
  have hsource : twins.get? "X" = some (.ofName "X") := by decide
  have htarget : twins.get? "Y" = some { id := "Y", name := "X" } := by decide
  have hgenerable : Generable (Generation.mk {} .standard) twins.get? twinSort := by
    refine ⟨⟨.sort .rename, rfl⟩, by decide, ⟨⟨"Y"⟩, _, rfl, by decide, htarget, rfl, rfl, rfl⟩, ?_, ?_, by decide⟩
    · simp [twinSort, hsource, Table.Readable, Table.ofName]
    · simp [twinSort, inputRefs, hsource]
      exact ⟨rfl, rfl⟩
  obtain ⟨buffer, hok⟩ := generates_iff.mpr hgenerable
  obtain ⟨v, l, ⟨r, hr, hv⟩, hl, hdeletes⟩ := deletes_of_generated hok
  cases hr
  rw [htarget] at hv
  cases hv
  exact ⟨buffer, _, l, hok, ⟨⟨"X"⟩, by decide, hsource⟩, hl, hdeletes⟩

end Sparing

end StepScript
