import StepScript.Proofs.Step.Lines

/-! The code of a step, line by line. The lines of a sort and of an append are told from the tables, the settings
    and the transformation alone. A step that starts afresh and succeeds, no string of which has a line feed, is
    rendered to just these lines, each behind its indentation and ahead of a line break. -/

namespace StepScript
open Text Step

/-! ### Lines of steps -/

/-- The trimmed global options and the option text of the system, those that are not empty, with blanks between. -/
def systemOptionText (s : Settings) (t : Transform) : String :=
  String.intercalate " "
    ((s.globalOptions.map trim ++ [OptionText.resolve t.properties OptionText.system]).filter (· ≠ ""))

/-- The renamings of the mappings whose names differ in more than the case of letters. -/
def renamings (t : Transform) : List String :=
  (t.mappings.filter fun m => lower m.source ≠ lower m.target).map fun m => m.source ++ " = " ++ m.target

def orderText (t : Transform) : String :=
  "by " ++ String.intercalate " " (t.orderBy.map fun k => if k.descending then "descending " ++ k.name else k.name) ++
    ";"

def readDataset (s : Settings) (u : Table) : String := dataset (u.place s).text u.readText

def writtenDataset (s : Settings) (u : Table) : String := dataset (u.place s).text (u.writeText true)

/-- The lines of a sort. Where columns are mapped, the intermediate table is sorted, and the source is read with
    its options by the mapping alone. -/
def sortLines (mapper : ColumnMapper) (s : Settings) (t : Transform) (source target : Table) : List Line :=
  let work := workTable s t 1
  let sorted (data : String) : List Line := procedureLines data (writtenDataset s target)
    (OptionText.resolve t.properties OptionText.sort) (orderText t)
  optionLines (systemOptionText s t) ++ deleteLines (target.place s) ++
  (if mapper = .rename ∧ t.mappings ≠ [] then
    mappingLines work (readDataset s source) (t.mappings.map (·.source)) (renamings t) ++ sorted work
  else sorted (readDataset s source)) ++
  attributeLines (target.place s) (target.columnStatements true) ++ checkLines

/-- The sources and the append options, each of which has a line of its own. -/
def appendItems (s : Settings) (t : Transform) (sources : List Table) : List String :=
  sources.map (readDataset s) ++ given (OptionText.resolve t.properties OptionText.append)

def appendLines (s : Settings) (t : Transform) (sources : List Table) (target : Table) : List Line :=
  optionLines (systemOptionText s t) ++ deleteLines (target.place s) ++
  dataStepLines (writtenDataset s target) (appendItems s t sources) (target.columnStatements true) ++ checkLines

/-! ### Lines of scripts -/

section Scripts
variable {mapper : ColumnMapper} {s : Settings} {t : Transform} {source target : Table} {sources : List Table}
  {order : String}

theorem filterMap_nonBlank (texts : List String) : texts.filterMap nonBlank = (texts.map trim).filter (· ≠ "") := by
  induction texts with
  | nil => rfl
  | cons text texts ih =>
    rw [List.filterMap_cons, List.map_cons, List.filter_cons, ih, nonBlank_eq]
    by_cases hempty : trim text = "" <;> simp [hempty]

theorem intercalate_systemOptions (s : Settings) (t : Transform) :
    String.intercalate " " (systemOptions s t) = systemOptionText s t := by
  unfold systemOptions systemOptionText
  rw [filterMap_nonBlank, List.filter_append]
  by_cases hempty : OptionText.resolve t.properties OptionText.system = "" <;> simp [hempty]

theorem ne_empty_of_mem_systemOptions : ∀ text ∈ systemOptions s t, text ≠ "" := by
  intro text htext
  rcases List.mem_append.mp htext with hglobal | hsystem
  · obtain ⟨option, -, hoption⟩ := List.mem_filterMap.mp hglobal
    exact (nonBlank_eq_some_iff.mp hoption).2
  · split at hsystem
    · cases hsystem
    · rename_i hne
      exact List.mem_singleton.mp hsystem ▸ hne

theorem ColumnMapping.isRename_iff (m : ColumnMapping) : m.isRename = true ↔ lower m.source ≠ lower m.target := by
  simp [ColumnMapping.isRename, sameLetters, lower, String.ofList_inj]

theorem renameItems_eq (t : Transform) : renameItems t = renamings t := by
  unfold renameItems renamings
  congr 1
  refine List.filter_congr fun m _ => ?_
  rw [Bool.eq_iff_iff, decide_eq_true_iff, ColumnMapping.isRename_iff]

theorem orderText_eq (h : orderByStatement? t = some order) : order = orderText t := by
  unfold orderByStatement? at h
  split at h
  · cases h
  · exact (Option.some.inj h).symm

theorem OptionText.trim_resolve (p : Properties) (category : String) :
    trim (OptionText.resolve p category) = OptionText.resolve p category :=
  Text.trim_trim _

theorem lines_sortScript (horder : orderByStatement? t = some order) :
    (sortScript mapper s t source target order).flatMap Statement.lines = sortLines mapper s t source target := by
  have hmaps : mapsColumns mapper t = true ↔ mapper = .rename ∧ t.mappings ≠ [] := by simp [mapsColumns]
  have hunread : dataset (workTable s t 1) "" = workTable s t 1 := rfl
  obtain rfl := orderText_eq horder
  unfold sortScript sortLines mappingStatement readDataset writtenDataset
  dsimp only
  by_cases hmapped : mapsColumns mapper t = true
  · rw [if_pos hmapped, if_pos (hmaps.mp hmapped)]
    simp only [List.flatMap_append, List.flatMap_cons, List.flatMap_nil, List.append_nil, Statement.lines,
      intercalate_systemOptions, text_workPlace, renameItems_eq, OptionText.trim_resolve, hunread, List.append_assoc]
  · rw [if_neg hmapped, if_neg (mt hmaps.mpr hmapped)]
    simp only [List.flatMap_append, List.flatMap_cons, List.flatMap_nil, List.append_nil, Statement.lines,
      intercalate_systemOptions, OptionText.trim_resolve, List.append_assoc]

theorem lines_appendScript :
    (appendScript s t sources target).flatMap Statement.lines = appendLines s t sources target := by
  unfold appendScript appendLines appendItems readDataset writtenDataset
  simp only [List.flatMap_cons, List.flatMap_nil, List.append_nil, Statement.lines, intercalate_systemOptions,
    OptionText.trim_resolve, List.map_map, Function.comp_def, List.append_assoc]

/-! ### Texts that are not missing -/

theorem Table.visible_of_mem_columnStatements {withLabels : Bool} :
    ∀ text ∈ target.columnStatements withLabels, Visible text := by
  have hstatement : ∀ {keyword : String} {items : List String}, Visible keyword →
      ∀ text ∈ Table.statement keyword items, Visible text := by
    intro keyword items hkeyword text htext
    unfold Table.statement at htext
    split at htext
    · cases htext
    · rw [List.mem_singleton.mp htext]
      simp [hkeyword]
  intro text htext
  rcases List.mem_append.mp htext with hlabels | hformats
  · split at hlabels
    · exact hstatement (by decide) text hlabels
    · cases hlabels
  · exact hstatement (by decide) text hformats

theorem visible_orderText (t : Transform) : Visible (orderText t) := by
  simp +decide [orderText]

theorem filled_sortScript (horder : orderByStatement? t = some order) :
    ∀ st ∈ sortScript mapper s t source target order, st.Filled := by
  have hvisible : Visible order := orderText_eq horder ▸ visible_orderText t
  have hoptions : (Statement.options (systemOptions s t)).Filled := ne_empty_of_mem_systemOptions
  have hcolumns : (Statement.columns (target.place s) (target.columnStatements true)).Filled :=
    Table.visible_of_mem_columnStatements
  have hnone := List.forall_mem_nil Statement.Filled
  unfold sortScript mappingStatement
  simp only [List.forall_mem_append, List.forall_mem_cons]
  refine ⟨⟨⟨hoptions, trivial, hnone⟩, ?_⟩, hcolumns, trivial, hnone⟩
  split
  · exact List.forall_mem_cons.mpr ⟨trivial, List.forall_mem_cons.mpr ⟨hvisible, hnone⟩⟩
  · exact List.forall_mem_cons.mpr ⟨hvisible, hnone⟩

theorem filled_appendScript (hsources : sources ≠ []) : ∀ st ∈ appendScript s t sources target, st.Filled := by
  have hoptions : (Statement.options (systemOptions s t)).Filled := ne_empty_of_mem_systemOptions
  have hcolumns : ∀ text ∈ target.columnStatements true, Visible text := Table.visible_of_mem_columnStatements
  unfold appendScript
  simp only [List.forall_mem_cons]
  exact ⟨hoptions, trivial, ⟨mt List.map_eq_nil_iff.mp hsources, hcolumns⟩, trivial, List.forall_mem_nil _⟩

end Scripts

/-! ### Lines of the second level -/

section DeepLines
variable {s : Settings} {t : Transform} {source target : Table} {sources : List Table}

theorem dropLast_withSemicolon (lines : List Line) : (withSemicolon lines).dropLast = lines.dropLast := by
  induction lines with
  | nil => rfl
  | cons l lines ih =>
    cases lines with
    | nil => rfl
    | cons l' lines =>
      have hne : withSemicolon (l' :: lines) ≠ [] := by cases lines <;> exact List.cons_ne_nil _ _
      rw [withSemicolon, List.dropLast_cons_of_ne_nil hne, ih, List.dropLast_cons_cons]

theorem level_withSemicolon (lines : List Line) : (withSemicolon lines).map Line.level = lines.map Line.level := by
  induction lines with
  | nil => rfl
  | cons l lines ih =>
    cases lines with
    | nil => rfl
    | cons l' lines => rw [withSemicolon, List.map_cons, ih, ← List.map_cons]

/-- The lines of an append at the second level are those of its items, with a semicolon at the end. -/
theorem deepLines_appendLines (s : Settings) (t : Transform) (sources : List Table) (target : Table) :
    (appendLines s t sources target).filter (·.level == 2) =
      withSemicolon ((appendItems s t sources).map (⟨2, ·⟩)) := by
  have hdeep : (withSemicolon ((appendItems s t sources).map (⟨2, ·⟩))).filter (·.level == 2) =
      withSemicolon ((appendItems s t sources).map (⟨2, ·⟩)) := by
    refine List.filter_eq_self.mpr fun l hl => ?_
    have hlevel := List.mem_map_of_mem (f := Line.level) hl
    rw [level_withSemicolon, List.map_map] at hlevel
    obtain ⟨item, -, hitem⟩ := List.mem_map.mp hlevel
    exact beq_iff_eq.mpr hitem.symm
  have hoptions : (optionLines (systemOptionText s t)).filter (·.level == 2) = [] := by
    unfold optionLines
    split <;> rfl
  unfold appendLines dataStepLines
  simp [hdeep, hoptions, deleteLines, checkLines]

theorem semicolon_not_mem_place (h : source.HasValidNames s) : ';' ∉ (source.place s).text.toList := by
  rw [Location.toList_text, List.mem_append, List.mem_cons, not_or, not_or]
  have hword : ∀ {kind : NameKind} {name : String}, Name.check kind name = .ok () → ';' ∉ name.toList :=
    fun hcheck hmem => absurd (Name.isWordChar_of_check hcheck _ hmem) (by decide)
  exact ⟨hword h.1, by decide, hword h.2⟩

theorem getLast?_readDataset (h : source.HasValidNames s) : (readDataset s source).toList.getLast? ≠ some ';' := by
  unfold readDataset dataset
  split
  · exact fun hlast => semicolon_not_mem_place h (List.mem_of_getLast? hlast)
  · rw [String.toList_append, List.getLast?_append_of_ne_nil _ (by decide)]
    decide

/-- Only the append options, which come last, may end with a semicolon of their own. -/
theorem getLast?_of_mem_dropLast_deepLines (h : ∀ u ∈ sources, u.HasValidNames s) :
    ∀ l ∈ ((appendLines s t sources target).filter (·.level == 2)).dropLast, l.text.toList.getLast? ≠ some ';' := by
  intro l hl
  rw [deepLines_appendLines, dropLast_withSemicolon, ← List.map_dropLast] at hl
  obtain ⟨item, hitem, rfl⟩ := List.mem_map.mp hl
  have hsource : item ∈ sources.map (readDataset s) := by
    unfold appendItems given at hitem
    split at hitem
    · rw [List.append_nil] at hitem
      exact (List.dropLast_sublist _).subset hitem
    · rwa [List.dropLast_concat] at hitem
  obtain ⟨u, hu, hread⟩ := List.mem_map.mp hsource
  dsimp only
  rw [← hread]
  exact getLast?_readDataset (h u hu)

end DeepLines

/-! ### Steps that succeed -/

theorem Generator.shape_of_ok {g : Generator} {env : Env} {t : Transform} {s s' : StepState}
    (h : g.generate env t s = .ok () s') : t.sources ≠ [] ∧ ∃ q, t.targets = [q] := by
  obtain ⟨hos, -⟩ := Generator.obstacles_of_ok h
  unfold Generator.obstacles stepObstacles at hos
  simp only [List.append_eq_nil_iff] at hos
  obtain ⟨⟨⟨⟨⟨hshape, -⟩, -⟩, -⟩, -⟩, -⟩ := hos
  obtain ⟨hsources, q, hq, -⟩ := targets_of_shape hshape
  exact ⟨hsources, q, hq⟩

section Layouts
variable {g : Generator} {mapper : ColumnMapper} {env : Env} {t : Transform} {s' : StepState} {target : Table}
  {sources : List Table} {q : TableRef} {script : List Statement}

theorem lookup_of_target (hq : t.targets = [q]) (h : env.target t = .ok target) :
    env.lookup q.tableId = some target := by
  rw [Env.target, target?_eq_some_iff.mpr hq] at h
  exact table_eq_ok_iff.mp h

theorem lookup_of_sources (h : env.sources t = .ok sources) :
    List.Forall₂ (fun r u => env.lookup r.tableId = some u) t.sources sources :=
  (mapM_eq_ok_iff.mp h).imp fun _ _ => table_eq_ok_iff.mp

theorem ne_nil_of_sources (hsources : t.sources ≠ []) (h : env.sources t = .ok sources) : sources ≠ [] := by
  rintro rfl
  exact hsources (List.forall₂_nil_right_iff.mp (lookup_of_sources h))

theorem Generator.HasScript.filled (h : g.HasScript env t script) (hsources : t.sources ≠ []) :
    ∀ st ∈ script, st.Filled := by
  cases g with
  | sort mapper =>
    obtain ⟨source, target, order, -, -, -, -, horder, rfl⟩ := h
    exact filled_sortScript horder
  | append =>
    obtain ⟨sources, target, hread, -, -, -, rfl⟩ := h
    exact filled_appendScript (ne_nil_of_sources hsources hread)

/-- A step without line feeds of its own that starts afresh and succeeds is rendered to the lines of its script. -/
theorem Generator.render_of_ok (hsettings : env.settings.value.OneLine) (ht : t.value.OneLine)
    (htables : ∀ id u, env.lookup id = some u → u.value.OneLine)
    (h : g.generate env t (.fresh env.settings) = .ok () s') :
    ∃ script, g.HasScript env t script ∧
      s'.buffer.render = env.settings.layout (script.flatMap Statement.lines) := by
  obtain ⟨hsources, -⟩ := Generator.shape_of_ok h
  obtain ⟨script, hscript, hbuffer⟩ := (Generator.generated_of_ok h).hasScript
  have hone := hscript.isOneLine (Settings.isOneLine_of_value hsettings) (Transform.isOneLine_of_value ht)
    fun id u hu => Table.isOneLine_of_value (htables id u hu)
  have hfilled := hscript.filled hsources
  exact ⟨script, hscript, hbuffer ▸ render_ofScript_lines (fun st hst => ⟨hone st hst, hfilled st hst⟩) _⟩

/-- A sort without line feeds of its own that starts afresh and succeeds has written its lines. -/
theorem sort_renders_lines (hsettings : env.settings.value.OneLine) (ht : t.value.OneLine)
    (htables : ∀ id u, env.lookup id = some u → u.value.OneLine)
    (h : (Generator.sort mapper).generate env t (.fresh env.settings) = .ok () s') :
    ∃ r rs q source target, t.sources = r :: rs ∧ t.targets = [q] ∧ env.lookup r.tableId = some source ∧
      env.lookup q.tableId = some target ∧
      s'.buffer.render = env.settings.layout (sortLines mapper env.settings t source target) := by
  obtain ⟨hsources, q, hq⟩ := Generator.shape_of_ok h
  obtain ⟨r, rs, hr⟩ := List.exists_cons_of_ne_nil hsources
  obtain ⟨script, hscript, hrender⟩ := Generator.render_of_ok hsettings ht htables h
  obtain ⟨source, target, order, hsource, htarget, -, -, horder, rfl⟩ := hscript
  have hsource' : env.lookup r.tableId = some source := by
    rw [Env.firstSource, hr] at hsource
    exact table_eq_ok_iff.mp hsource
  rw [lines_sortScript horder] at hrender
  exact ⟨r, rs, q, source, target, hr, hq, hsource', lookup_of_target hq htarget, hrender⟩

/-- A sort with options of every kind, and a mapping that changes no more than the case of a name. -/
def agedSort : Transform :=
  { id? := some ⟨0xa0b1c2d3e4f5061728394a5b6c7d8e9f⟩, name := "by age", kind := .sort, sources := [⟨"CLASS"⟩],
    targets := [⟨"OUT"⟩], orderBy := [{ name := "AGE", descending := true }, { name := "name" }],
    mappings := [⟨"NAME", "name"⟩, ⟨"YEARS", "AGE"⟩],
    properties := ⟨[("SORT.OPTIONS", .text "nodupkey"), ("SYSTEM.MISSING", .text "X")], by decide⟩ }

def classTables : List Table :=
  [{ id := "CLASS", name := "CLASS", condition := some " YEARS > 12 " }, .ofName "MORE",
    { id := "OUT", name := "AGED", label := some "By age", columns := [{ name := "AGE", format := some "3." }] }]

def classEnv : Env :=
  ⟨"classes", (Catalog.ofTables classTables).get?, { indentWidth := 2, globalOptions := [" ", " nocenter"] }⟩

theorem Catalog.oneLine_of_get? {us : List Table} (h : ∀ u ∈ us, u.value.OneLine) :
    ∀ id u, (Catalog.ofTables us).get? id = some u → u.value.OneLine :=
  fun _ u hu => h u (Catalog.mem_of_mem_ofTables (Catalog.get?_eq_some_iff.mp hu).1)

theorem agedSort_lines : ∃ s',
    (Generator.sort .rename).generate classEnv agedSort (.fresh classEnv.settings) = .ok () s' ∧
    s'.buffer.render = String.join (["options nocenter MISSING=X;", "",
      "proc datasets lib = WORK nolist nowarn memtype = (data view);", "  delete AGED;", "quit;", "",
      "data WORK.WA0B1C2D3_1;", "  set WORK.CLASS (where=(YEARS > 12));", "  keep NAME YEARS;",
      "  rename YEARS = AGE;", "run;", "",
      "proc sort data = WORK.WA0B1C2D3_1", "  out = WORK.AGED (label=\"By age\")", "  nodupkey;",
      "  by descending AGE name;", "run;", "",
      "proc datasets lib = WORK nolist nowarn;", "  modify AGED;", "    format AGE 3.;", "quit;",
      "", "%rcSet(&syserr);", ""].map (· ++ "\n")) := by
  have hok : (Generator.sort .rename).generate classEnv agedSort (.fresh classEnv.settings) = .ok () _ := rfl
  obtain ⟨r, rs, q, source, target, hr, hq, hsource, htarget, hrender⟩ :=
    sort_renders_lines (by decide) (by decide) (Catalog.oneLine_of_get? (by decide)) hok
  cases hr
  cases hq
  cases hsource
  cases htarget
  exact ⟨_, hok, hrender.trans rfl⟩

/-- An append without line feeds of its own that starts afresh and succeeds has written its lines. Those of the
    sources and of the append options are the lines of the second level, and none but the last of them ends with
    a semicolon. -/
theorem append_renders_lines (hsettings : env.settings.value.OneLine) (ht : t.value.OneLine)
    (htables : ∀ id u, env.lookup id = some u → u.value.OneLine)
    (h : Generator.append.generate env t (.fresh env.settings) = .ok () s') :
    ∃ q sources target, sources ≠ [] ∧ List.Forall₂ (fun r u => env.lookup r.tableId = some u) t.sources sources ∧
      t.targets = [q] ∧ env.lookup q.tableId = some target ∧
      s'.buffer.render = env.settings.layout (appendLines env.settings t sources target) ∧
      (appendLines env.settings t sources target).filter (·.level == 2) =
        withSemicolon ((appendItems env.settings t sources).map (⟨2, ·⟩)) ∧
      ∀ l ∈ ((appendLines env.settings t sources target).filter (·.level == 2)).dropLast,
        l.text.toList.getLast? ≠ some ';' := by
  obtain ⟨hsources, q, hq⟩ := Generator.shape_of_ok h
  obtain ⟨script, hscript, hrender⟩ := Generator.render_of_ok hsettings ht htables h
  obtain ⟨sources, target, hread, htarget, hnames, -, rfl⟩ := hscript
  rw [lines_appendScript] at hrender
  refine ⟨q, sources, target, ne_nil_of_sources hsources hread, lookup_of_sources hread, hq, ?_, hrender, ?_, ?_⟩
  · exact lookup_of_target hq htarget
  · exact deepLines_appendLines env.settings t sources target
  · exact getLast?_of_mem_dropLast_deepLines hnames

/-- An append of three sources, one of them twice, with options after them. -/
def classAppend : Transform :=
  { name := "all classes", kind := .append, sources := [⟨"CLASS"⟩, ⟨"MORE"⟩, ⟨"CLASS"⟩], targets := [⟨"OUT"⟩],
    properties := ⟨[("APPEND.end", .text "last")], by decide⟩ }

theorem classAppend_lines : ∃ s',
    Generator.append.generate classEnv classAppend (.fresh classEnv.settings) = .ok () s' ∧
    s'.buffer.render = String.join (["options nocenter;", "",
      "proc datasets lib = WORK nolist nowarn memtype = (data view);", "  delete AGED;", "quit;", "",
      "data WORK.AGED (label=\"By age\");", "  set", "    WORK.CLASS (where=(YEARS > 12))", "    WORK.MORE",
      "    WORK.CLASS (where=(YEARS > 12))", "    end=last;", "  format AGE 3.;", "run;",
      "", "%rcSet(&syserr);", ""].map (· ++ "\n")) := by
  have hok : Generator.append.generate classEnv classAppend (.fresh classEnv.settings) = .ok () _ := rfl
  obtain ⟨q, sources, target, -, hsources, hq, htarget, hrender, -, -⟩ :=
    append_renders_lines (by decide) (by decide) (Catalog.oneLine_of_get? (by decide)) hok
  cases hq
  cases htarget
  obtain ⟨u, us, hu, hus, rfl⟩ := List.forall₂_cons_left_iff.mp hsources
  obtain ⟨v, vs, hv, hvs, rfl⟩ := List.forall₂_cons_left_iff.mp hus
  obtain ⟨w, ws, hw, hws, rfl⟩ := List.forall₂_cons_left_iff.mp hvs
  cases hu
  cases hv
  cases hw
  cases hws
  exact ⟨_, hok, hrender.trans rfl⟩

end Layouts

end StepScript
