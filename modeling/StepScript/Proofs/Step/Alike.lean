import Mathlib.Data.List.Forall2
import StepScript.Proofs.Step.Script

/-! Steps that go alike. What a step does depends on its tables, on its transformation and on the settings only
    through what is listed here. Two runs that agree in it meet the same obstacles and have the same script, so
    that the codes differ at most in how the script is laid out. -/

namespace StepScript
open Text

/-! ### Lists -/

theorem filterMap_eq_of_forall₂ {α β γ : Type} {R : α → β → Prop} {f : α → Option γ} {g : β → Option γ}
    {as : List α} {bs : List β} (hR : ∀ a b, R a b → g b = f a) (h : List.Forall₂ R as bs) :
    bs.filterMap g = as.filterMap f := by
  induction h with
  | nil => rfl
  | cons hab _ ih => rw [List.filterMap_cons, List.filterMap_cons, hR _ _ hab, ih]

theorem map_eq_of_forall₂ {α β γ : Type} {R : α → β → Prop} {f : α → γ} {g : β → γ} {as : List α} {bs : List β}
    (hR : ∀ a b, R a b → g b = f a) (h : List.Forall₂ R as bs) : bs.map g = as.map f := by
  rw [← List.filterMap_eq_map, ← List.filterMap_eq_map]
  exact filterMap_eq_of_forall₂ (fun a b hab => congrArg some (hR a b hab)) h

/-! ### What a step depends on -/

/-- Tables that are stored, read and written alike. -/
structure Table.Alike (u u' : Table) : Prop where
  id : u'.id = u.id
  name : u'.name = u.name
  libref : u'.libref = u.libref
  storage : u'.storage = u.storage
  permanentView : u'.permanentView = u.permanentView
  read : u'.readText = u.readText
  written : u'.writeText true = u.writeText true
  columns : u'.columnStatements true = u.columnStatements true

/-- Transformations that differ at most in properties, and have the same options. -/
def Transform.Alike (t t' : Transform) : Prop :=
  ∃ p, t' = { t with properties := p } ∧
    ∀ category, OptionText.resolve p category = OptionText.resolve t.properties category

/-- Settings with the same libraries and the same options ahead of every step. -/
structure Settings.Alike (s s' : Settings) : Prop where
  defaultLibref : s'.defaultLibref = s.defaultLibref
  workLibref : s'.workLibref = s.workLibref
  options : s'.globalOptions.filterMap nonBlank = s.globalOptions.filterMap nonBlank

/-- Tables that are both unknown, or alike. -/
def LookupAlike (lookup lookup' : String → Option Table) (r : TableRef) : Prop :=
  Option.Rel Table.Alike (lookup r.tableId) (lookup' r.tableId)

theorem Table.Alike.refl (u : Table) : u.Alike u := ⟨rfl, rfl, rfl, rfl, rfl, rfl, rfl, rfl⟩

theorem Transform.Alike.refl (t : Transform) : t.Alike t := ⟨t.properties, rfl, fun _ => rfl⟩

theorem LookupAlike.refl (lookup : String → Option Table) (r : TableRef) : LookupAlike lookup lookup r := by
  unfold LookupAlike
  cases lookup r.tableId with
  | none => exact .none
  | some u => exact .some (.refl u)

section Alike
variable {s s' : Settings} {u u' : Table} {t t' : Transform} {lookup lookup' : String → Option Table} {r : TableRef}

theorem Table.Alike.isExternal (h : u.Alike u') : u'.isExternal = u.isExternal := by
  unfold Table.isExternal
  rw [h.storage]

theorem Table.Alike.effectiveLibref (h : u.Alike u') (hs : s.Alike s') :
    u'.effectiveLibref s' = u.effectiveLibref s := by
  unfold Table.effectiveLibref
  rw [h.libref, hs.defaultLibref]

theorem Table.Alike.place (h : u.Alike u') (hs : s.Alike s') : u'.place s' = u.place s := by
  unfold Table.place
  rw [h.effectiveLibref hs, h.name]

theorem Transform.Alike.name (h : t.Alike t') : t'.name = t.name := by
  obtain ⟨p, rfl, -⟩ := h
  rfl

theorem Transform.Alike.kind (h : t.Alike t') : t'.kind = t.kind := by
  obtain ⟨p, rfl, -⟩ := h
  rfl

theorem Settings.Alike.systemOptions (hs : s.Alike s') (ht : t.Alike t') :
    Step.systemOptions s' t' = Step.systemOptions s t := by
  obtain ⟨p, rfl, hoptions⟩ := ht
  unfold Step.systemOptions
  rw [hs.options, hoptions]

theorem LookupAlike.cases (h : LookupAlike lookup lookup' r) :
    (lookup r.tableId = none ∧ lookup' r.tableId = none) ∨
    ∃ u u', lookup r.tableId = some u ∧ lookup' r.tableId = some u' ∧ u.Alike u' := by
  unfold LookupAlike at h
  generalize lookup r.tableId = known, lookup' r.tableId = known' at h
  cases h with
  | none => exact .inl ⟨rfl, rfl⟩
  | some halike => exact .inr ⟨_, _, rfl, rfl, halike⟩

/-! ### Obstacles -/

theorem tableObstacles_alike {allowed : Table → Bool} (refusal : String → Obstacle)
    (hallowed : ∀ u u' : Table, u.Alike u' → allowed u' = allowed u) (h : LookupAlike lookup lookup' r) :
    tableObstacles lookup' allowed refusal r = tableObstacles lookup allowed refusal r := by
  unfold tableObstacles
  rcases h.cases with ⟨hnone, hnone'⟩ | ⟨u, u', hu, hu', halike⟩
  · rw [hnone, hnone']
  · rw [hu, hu']
    simp only [hallowed u u' halike, halike.name]

theorem nameObstacles_alike (h : u.Alike u') (kind : NameKind) (name : String) :
    nameObstacles u' kind name = nameObstacles u kind name := by
  unfold nameObstacles
  simp only [h.id, h.name]

theorem locationObstacles_alike (hs : s.Alike s') (h : LookupAlike lookup lookup' r) :
    locationObstacles s' lookup' r = locationObstacles s lookup r := by
  unfold locationObstacles
  rcases h.cases with ⟨hnone, hnone'⟩ | ⟨u, u', hu, hu', halike⟩
  · rw [hnone, hnone']
  · rw [hu, hu']
    simp only [nameObstacles_alike halike, halike.effectiveLibref hs, halike.name]

/-- The same obstacles stand in the way of transformations that are alike. -/
theorem obstacles_alike (registry : Registry) (hs : s.Alike s') (ht : t.Alike t')
    (hlookup : ∀ r ∈ t.sources ++ t.targets, LookupAlike lookup lookup' r) :
    obstacles ⟨s', registry⟩ lookup' t' = obstacles ⟨s, registry⟩ lookup t := by
  obtain ⟨p, rfl, -⟩ := ht
  have hsources : ∀ r ∈ t.sources, LookupAlike lookup lookup' r := fun r hr => hlookup r (List.mem_append_left _ hr)
  have htargets : ∀ r ∈ t.targets, LookupAlike lookup lookup' r := fun r hr => hlookup r (List.mem_append_right _ hr)
  have htarget : t.targets.flatMap (targetObstacles lookup') = t.targets.flatMap (targetObstacles lookup) :=
    List.flatMap_congr fun r hr => tableObstacles_alike _ (fun u u' h => by rw [h.isExternal]) (htargets r hr)
  have hsource : t.sources.flatMap (sourceObstacles lookup') = t.sources.flatMap (sourceObstacles lookup) :=
    List.flatMap_congr fun r hr =>
      tableObstacles_alike _ (fun u u' h => by rw [h.isExternal, h.permanentView]) (hsources r hr)
  have hinputs : (inputRefs t.kind t).flatMap (locationObstacles s' lookup') =
      (inputRefs t.kind t).flatMap (locationObstacles s lookup) :=
    List.flatMap_congr fun r hr => locationObstacles_alike hs (hsources r (mem_sources_of_mem_inputRefs hr))
  have hlocated : t.targets.flatMap (locationObstacles s' lookup') = t.targets.flatMap (locationObstacles s lookup) :=
    List.flatMap_congr fun r hr => locationObstacles_alike hs (htargets r hr)
  have hrefs : inputRefs t.kind { t with properties := p } = inputRefs t.kind t := rfl
  unfold obstacles stepObstacles
  simp only [hrefs, htarget, hsource, hinputs, hlocated]
  rfl

/-! ### Scripts -/

section Scripts
variable {env env' : Env}

theorem table_alike (h : LookupAlike env.lookup env'.lookup r) (hu : env.table r = .ok u)
    (hu' : env'.table r = .ok u') : u.Alike u' := by
  rw [table_eq_ok_iff] at hu hu'
  rcases h.cases with ⟨hnone, -⟩ | ⟨v, v', hv, hv', halike⟩
  · rw [hnone] at hu
    cases hu
  · rw [hv] at hu
    rw [hv'] at hu'
    cases hu
    cases hu'
    exact halike

theorem tables_alike {rs : List TableRef} {us us' : List Table} (h : ∀ r ∈ rs, LookupAlike env.lookup env'.lookup r)
    (hus : List.Forall₂ (fun r u => env.table r = .ok u) rs us)
    (hus' : List.Forall₂ (fun r u => env'.table r = .ok u) rs us') : List.Forall₂ Table.Alike us us' := by
  induction hus generalizing us' with
  | nil =>
    cases hus'
    exact .nil
  | cons hu hus ih =>
    obtain ⟨hr, hrs⟩ := List.forall_mem_cons.mp h
    cases hus' with
    | cons hu' hus' => exact .cons (table_alike hr hu hu') (ih hrs hus')

theorem target_alike (hlookup : ∀ r ∈ t.targets, LookupAlike env.lookup env'.lookup r) (hu : env.target t = .ok u)
    (hu' : env'.target t = .ok u') : u.Alike u' := by
  unfold Env.target at hu hu'
  cases htarget : t.target? with
  | none =>
    rw [htarget] at hu
    cases hu
  | some r =>
    rw [htarget] at hu hu'
    have hr : r ∈ t.targets := by simp [target?_eq_some_iff.mp htarget]
    exact table_alike (hlookup r hr) hu hu'

theorem firstSource_alike (hlookup : ∀ r ∈ t.sources, LookupAlike env.lookup env'.lookup r)
    (hu : env.firstSource t = .ok u) (hu' : env'.firstSource t = .ok u') : u.Alike u' := by
  unfold Env.firstSource at hu hu'
  cases hsources : t.sources with
  | nil =>
    rw [hsources] at hu
    cases hu
  | cons r rs =>
    rw [hsources] at hu hu' hlookup
    exact table_alike (hlookup r List.mem_cons_self) hu hu'

theorem sortScript_alike {mapper : ColumnMapper} {source source' target target' : Table} (hs : s.Alike s')
    (ht : t.Alike t') (hsource : source.Alike source') (htarget : target.Alike target') (order : String) :
    Step.sortScript mapper s' t' source' target' order = Step.sortScript mapper s t source target order := by
  have hoptions := hs.systemOptions ht
  obtain ⟨p, rfl, hresolve⟩ := ht
  have hwork : Step.workPlace s' { t with properties := p } 1 = Step.workPlace s t 1 := by
    unfold Step.workPlace
    rw [hs.workLibref]
    rfl
  have hmapping : ∀ input read, Step.mappingStatement s' { t with properties := p } 1 input read =
      Step.mappingStatement s t 1 input read := fun input read => by
    unfold Step.mappingStatement
    rw [hwork]
    rfl
  have hmaps : Step.mapsColumns mapper { t with properties := p } = Step.mapsColumns mapper t := rfl
  unfold Step.sortScript
  simp only [hmaps, hmapping, hwork, hoptions, hresolve, hsource.place hs, hsource.read, htarget.place hs,
    htarget.written, htarget.columns]

theorem appendScript_alike {sources sources' : List Table} {target target' : Table} (hs : s.Alike s') (ht : t.Alike t')
    (hsources : List.Forall₂ Table.Alike sources sources') (htarget : target.Alike target') :
    Step.appendScript s' t' sources' target' = Step.appendScript s t sources target := by
  have hoptions := hs.systemOptions ht
  obtain ⟨p, rfl, hresolve⟩ := ht
  have hinputs : (sources'.map fun u => (u.place s', u.readText)) = sources.map fun u => (u.place s, u.readText) :=
    map_eq_of_forall₂ (fun u u' h => by rw [h.place hs, h.read]) hsources
  unfold Step.appendScript
  simp only [hinputs, hoptions, hresolve, htarget.place hs, htarget.written, htarget.columns]

/-- Transformations that are alike have one script. -/
theorem Generator.HasScript.eq_of_alike {g : Generator} {script script' : List Statement}
    (hs : env.settings.Alike env'.settings) (ht : t.Alike t')
    (hlookup : ∀ r ∈ t.sources ++ t.targets, LookupAlike env.lookup env'.lookup r)
    (h : g.HasScript env t script) (h' : g.HasScript env' t' script') : script' = script := by
  obtain ⟨p, rfl, hresolve⟩ := ht
  have ht : t.Alike { t with properties := p } := ⟨p, rfl, hresolve⟩
  have hsources : ∀ r ∈ t.sources, LookupAlike env.lookup env'.lookup r := fun r hr =>
    hlookup r (List.mem_append_left _ hr)
  have htargets : ∀ r ∈ t.targets, LookupAlike env.lookup env'.lookup r := fun r hr =>
    hlookup r (List.mem_append_right _ hr)
  cases g with
  | sort mapper =>
    obtain ⟨source, target, order, hsource, htarget, -, -, horder, rfl⟩ := h
    obtain ⟨source', target', order', hsource', htarget', -, -, horder', rfl⟩ := h'
    have hsame : some order' = some order := horder'.symm.trans horder
    rw [Option.some.inj hsame]
    exact sortScript_alike hs ht (firstSource_alike hsources hsource hsource')
      (target_alike htargets htarget htarget') _
  | append =>
    obtain ⟨sources, target, hus, htarget, -, -, rfl⟩ := h
    obtain ⟨sources', target', hus', htarget', -, -, rfl⟩ := h'
    exact appendScript_alike hs ht
      (tables_alike hsources (mapM_eq_ok_iff.mp hus) (mapM_eq_ok_iff.mp hus'))
      (target_alike htargets htarget htarget')

end Scripts

/-! ### Generation -/

theorem script_of_no_obstacle {g : Generation} (h : obstacles g lookup t = []) :
    ∃ generator script, g.registry.get? t.kind = some generator ∧
      generator.HasScript ⟨t.name, lookup, g.settings⟩ t script ∧
      g.generate lookup t = .ok (.ofScript g.settings script) := by
  obtain ⟨generator, s', hget, hgenerated, hok⟩ := generate_of_no_obstacle h
  obtain ⟨script, hscript, hbuffer⟩ := hgenerated.hasScript
  exact ⟨generator, script, hget, hscript, by rw [hok, hbuffer]⟩

/-- Transformations that are alike both fail, with one failure, or are both generated, with one script. -/
theorem generate_alike (registry : Registry) (hs : s.Alike s') (ht : t.Alike t')
    (hlookup : ∀ r ∈ t.sources ++ t.targets, LookupAlike lookup lookup' r) :
    (∃ f, (Generation.mk s registry).generate lookup t = .error (.failure f) ∧
      (Generation.mk s' registry).generate lookup' t' = .error (.failure f)) ∨
    ∃ generator script, Generator.HasScript generator ⟨t.name, lookup, s⟩ t script ∧
      (Generation.mk s registry).generate lookup t = .ok (.ofScript s script) ∧
      (Generation.mk s' registry).generate lookup' t' = .ok (.ofScript s' script) := by
  have hobstacles := obstacles_alike registry hs ht hlookup
  cases hos : obstacles ⟨s, registry⟩ lookup t with
  | nil =>
    rw [hos] at hobstacles
    obtain ⟨generator, script, hget, hscript, hok⟩ := script_of_no_obstacle hos
    obtain ⟨generator', script', hget', hscript', hok'⟩ := script_of_no_obstacle hobstacles
    rw [ht.kind] at hget'
    obtain rfl : generator' = generator := Option.some.inj (hget'.symm.trans hget)
    obtain rfl := hscript.eq_of_alike hs ht hlookup hscript'
    exact .inr ⟨_, _, hscript, hok, hok'⟩
  | cons o os =>
    rw [hos] at hobstacles
    refine .inl ⟨⟨t.name, o.cause⟩, generate_of_obstacle hos, ?_⟩
    rw [← ht.name]
    exact generate_of_obstacle hobstacles

end Alike

end StepScript
