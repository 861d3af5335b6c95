import StepScript.Proofs.Program.Assembly
import StepScript.Proofs.Step.Alike

/-! Programs that go alike. Jobs whose transformations are alike have one plan, and each position of it fails in
    both programs, with one failure, or is generated in both, with one script. So the programs name the same
    transformations and report the same failures, and their codes correspond step by step. -/

namespace StepScript

/-- Jobs whose transformations are alike, one by one, and refer to tables that are alike. -/
structure Job.Alike (job job' : Job) : Prop where
  transforms : List.Forall₂ Transform.Alike job.transforms job'.transforms
  tables : ∀ t ∈ job.transforms, ∀ r ∈ t.sources ++ t.targets, LookupAlike job.catalog.get? job'.catalog.get? r

theorem Job.Alike.refl (job : Job) : job.Alike job :=
  ⟨List.forall₂_same.mpr fun t _ => .refl t, fun _ _ r _ => .refl _ r⟩

/-! ### Catalogs -/

namespace Catalog
variable {u u' : Table} {us us' : List Table} {c c' : Catalog}

theorem insertInto_alike (hu : u.Alike u') (h : List.Forall₂ Table.Alike us us') :
    List.Forall₂ Table.Alike (insertInto u us) (insertInto u' us') := by
  induction h with
  | nil => exact .cons hu .nil
  | cons hv hvs ih =>
    unfold insertInto
    rw [hv.id, hu.id]
    split
    · exact .cons hu hvs
    · exact .cons hv ih

theorem tables_ofTables_alike (h : List.Forall₂ Table.Alike us us') :
    List.Forall₂ Table.Alike (ofTables us).tables (ofTables us').tables := by
  -- The tables that come first may already be in the catalogs, so the catalogs are not fixed.
  have hfold : ∀ c c' : Catalog, List.Forall₂ Table.Alike c.tables c'.tables →
      List.Forall₂ Table.Alike (us.foldl insert c).tables (us'.foldl insert c').tables := by
    induction h with
    | nil => exact fun _ _ hc => hc
    | cons hv _ ih => exact fun c c' hc => ih (c.insert _) (c'.insert _) (insertInto_alike hv hc)
  exact hfold empty empty .nil

theorem get?_alike (h : List.Forall₂ Table.Alike c.tables c'.tables) (id : String) :
    Option.Rel Table.Alike (c.get? id) (c'.get? id) := by
  unfold get?
  generalize c.tables = us, c'.tables = us' at h
  induction h with
  | nil => exact .none
  | cons hv _ ih =>
    rw [List.find?_cons, List.find?_cons, hv.id]
    split
    · exact .some hv
    · exact ih

end Catalog

/-- Jobs whose tables and transformations are alike, one by one, are alike. -/
theorem Job.alike_of_forall₂ {job job' : Job} (htables : List.Forall₂ Table.Alike job.tables job'.tables)
    (htransforms : List.Forall₂ Transform.Alike job.transforms job'.transforms) : job.Alike job' :=
  ⟨htransforms, fun _ _ r _ => Catalog.get?_alike (Catalog.tables_ofTables_alike htables) r.tableId⟩

/-- Results that are one failure, or codes of one script. -/
inductive StepResult.Alike (s s' : Settings) (job : Job) : StepResult → StepResult → Prop where
  | generated {t t' : Transform} {generator : Generator} {script : List Statement} : t ∈ job.transforms →
      t.Alike t' → generator.HasScript ⟨t.name, job.catalog.get?, s⟩ t script →
      Alike s s' job (.generated t (.ofScript s script)) (.generated t' (.ofScript s' script))
  | failed {t t' : Transform} {f : Failure} : t.Alike t' →
      Alike s s' job (.failed t (.failure f)) (.failed t' (.failure f))

/-! ### Plans -/

/-- The order of a plan does not depend on how many positions there are said to be. -/
theorem Plan.order_cast {n n' : Nat} (h : n = n') {feeds : Fin n → Fin n → Bool} {feeds' : Fin n' → Fin n' → Bool}
    (hfeeds : ∀ i j, feeds' (i.cast h) (j.cast h) = feeds i j) :
    (Plan.ofRelation feeds').order = (Plan.ofRelation feeds).order.map (Fin.cast h) := by
  subst h
  obtain rfl : feeds' = feeds := funext fun i => funext fun j => hfeeds i j
  exact (List.map_id _).symm

section Jobs
variable {s s' : Settings} {registry : Registry} {job job' : Job} {t t' u u' : Transform}

theorem Transform.Alike.feeds (ht : t.Alike t') (hu : u.Alike u') : t'.feeds u' = t.feeds u := by
  obtain ⟨p, rfl, -⟩ := ht
  obtain ⟨q, rfl, -⟩ := hu
  rfl

theorem Job.Alike.length_eq (h : job.Alike job') : job.transforms.length = job'.transforms.length :=
  h.transforms.length_eq

theorem Job.Alike.transform (h : job.Alike job') (i : Fin job.transforms.length) :
    (job.transforms.get i).Alike (job'.transforms.get (i.cast h.length_eq)) :=
  h.transforms.get i.isLt _

theorem Job.Alike.order (h : job.Alike job') :
    (executionPlan job'.transforms).order = (executionPlan job.transforms).order.map (Fin.cast h.length_eq) := by
  refine Plan.order_cast h.length_eq fun i j => ?_
  have hfeeds := (h.transform i).feeds (h.transform j)
  have hdistinct : i.cast h.length_eq = j.cast h.length_eq ↔ i = j := Fin.cast_inj _
  simp only [List.get_eq_getElem] at hfeeds
  simp only [feedsAt, Fin.getElem_fin, hfeeds, ne_eq, hdistinct]

theorem stepComment_alike {g : Generation} (ht : t.Alike t') : g.stepComment t' = g.stepComment t := by
  obtain ⟨p, rfl, -⟩ := ht
  rfl

/-! ### Results -/

theorem StepResult.Alike.generatedName? {r r' : StepResult} (h : StepResult.Alike s s' job r r') :
    r'.generatedName? = r.generatedName? := by
  cases h with
  | generated _ halike _ => exact congrArg some halike.name
  | failed halike => rfl

theorem StepResult.Alike.report? {r r' : StepResult} (h : StepResult.Alike s s' job r r') (m : Messages) :
    r'.report? m = r.report? m := by
  cases h with
  | generated _ halike _ => rfl
  | failed halike => simp only [StepResult.report?, halike.name, halike.kind]

theorem result_alike (registry : Registry) (hs : s.Alike s') (h : job.Alike job') (ht : t ∈ job.transforms)
    (halike : t.Alike t') :
    StepResult.Alike s s' job ((Generation.mk s registry).result job.catalog.get? t)
      ((Generation.mk s' registry).result job'.catalog.get? t') := by
  unfold Generation.result
  rcases generate_alike registry hs halike (h.tables t ht) with
    ⟨f, hfailed, hfailed'⟩ | ⟨generator, script, hscript, hok, hok'⟩
  · rw [hfailed, hfailed']
    exact .failed halike
  · rw [hok, hok']
    exact .generated ht halike hscript

theorem results_alike (registry : Registry) (hs : s.Alike s') (h : job.Alike job') :
    List.Forall₂ (StepResult.Alike s s' job) ((Generation.mk s registry).results job)
      ((Generation.mk s' registry).results job') := by
  unfold Generation.results
  rw [h.order, List.map_map, List.forall₂_map_left_iff, List.forall₂_map_right_iff, List.forall₂_same]
  exact fun i _ => result_alike registry hs h (List.getElem_mem _) (h.transform i)

/-! ### Programs -/

theorem join_map {φ : String → String} (hempty : φ "" = "") (happend : ∀ a b, φ (a ++ b) = φ a ++ φ b)
    (texts : List String) : String.join (texts.map φ) = φ (String.join texts) := by
  induction texts with
  | nil => exact hempty.symm
  | cons text texts ih => rw [List.map_cons, String.join_cons, String.join_cons, happend, ih]

/-- Jobs that are alike have one program, but for a translation of the code: one that keeps concatenations, and
    takes the header, the step comments and the code of each script of the one program to those of the other. -/
theorem program_alike {φ : String → String} (hempty : φ "" = "") (happend : ∀ a b, φ (a ++ b) = φ a ++ φ b)
    (hs : s.Alike s') (h : job.Alike job') (hname : job'.name = job.name) (m : Messages) (generatedAt : String)
    (hheader : (Generation.mk s' registry).header job' generatedAt =
      φ ((Generation.mk s registry).header job generatedAt))
    (hcomment : ∀ t ∈ job.transforms,
      (Generation.mk s' registry).stepComment t = φ ((Generation.mk s registry).stepComment t))
    (hscript : ∀ t ∈ job.transforms, ∀ (generator : Generator) (script : List Statement),
      generator.HasScript ⟨t.name, job.catalog.get?, s⟩ t script →
      (Buffer.ofScript s' script).render = φ (Buffer.ofScript s script).render) :
    (Generation.mk s' registry).program m generatedAt job' =
      { (Generation.mk s registry).program m generatedAt job with
        code := φ ((Generation.mk s registry).program m generatedAt job).code } := by
  have hresults := results_alike registry hs h
  -- A failure has no code, so only the codes of scripts are translated.
  have hcode : ∀ r r', StepResult.Alike s s' job r r' →
      (Generation.mk s' registry).code r' = φ ((Generation.mk s registry).code r) := by
    intro r r' hr
    cases hr with
    | generated hmem halike hhas =>
      simp only [Generation.code]
      rw [stepComment_alike halike, hcomment _ hmem, hscript _ hmem _ _ hhas, happend]
    | failed halike => exact hempty.symm
  have hcodes : ((Generation.mk s' registry).results job').map (Generation.mk s' registry).code =
      (((Generation.mk s registry).results job).map (Generation.mk s registry).code).map φ := by
    rw [List.map_map]
    exact map_eq_of_forall₂ hcode hresults
  unfold Generation.program
  simp only [hname, hheader, hcodes, join_map hempty happend, happend,
    filterMap_eq_of_forall₂ (fun _ _ hr => hr.generatedName?) hresults,
    filterMap_eq_of_forall₂ (fun _ _ hr => hr.report? m) hresults]

end Jobs

end StepScript
