import StepScript.Proofs.Buffer.LineBreak
import StepScript.Proofs.Step.OneLine
import StepScript.Proofs.Step.Places

/-! Scripts with line breaks of two kinds. Where no text of a statement has a line feed, the only line feeds in
    its code are those of its line breaks. So the code with the one kind of line breaks is that with the other
    kind, with the line feeds replaced. -/

namespace StepScript
open Text

/-! ### Fragments -/

namespace Step

/-- Fragments whose line feeds are those of the line break with which they are written. -/
def BreaksOnly (fs : String → List Fragment) : Prop := fs "\r\n" = (fs "\n").map Fragment.crlf

namespace BreaksOnly
variable {fs gs : String → List Fragment} {text : String} {texts : List String}

theorem nil : BreaksOnly fun _ => [] := rfl

theorem append (hf : BreaksOnly fs) (hg : BreaksOnly gs) : BreaksOnly fun br => fs br ++ gs br := by
  unfold BreaksOnly
  rw [List.map_append, ← hf, ← hg]

theorem plain (h : OneLine text) (level : Nat) (hf : BreaksOnly fs) : BreaksOnly fun br => ⟨level, text⟩ :: fs br := by
  unfold BreaksOnly
  rw [List.map_cons, ← hf, Fragment.crlf, crlf_of_oneLine h]

theorem line (h : OneLine text) (level : Nat) (hf : BreaksOnly fs) :
    BreaksOnly fun br => Step.line br level text :: fs br := by
  unfold BreaksOnly
  rw [List.map_cons, ← hf, Fragment.crlf, Step.line, crlf_line h]
  rfl

theorem lines (h : ∀ text ∈ texts, OneLine text) (level : Nat) :
    BreaksOnly fun br => texts.map (Step.line br level) := by
  induction texts with
  | nil => exact nil
  | cons text texts ih =>
    obtain ⟨htext, htexts⟩ := List.forall_mem_cons.mp h
    exact line htext level (ih htexts)

theorem deeper (hf : BreaksOnly fs) : BreaksOnly fun br => (fs br).map Fragment.deeper := by
  have hcomm : Fragment.crlf ∘ Fragment.deeper = Fragment.deeper ∘ Fragment.crlf := rfl
  unfold BreaksOnly at hf ⊢
  dsimp only
  rw [hf, List.map_map, List.map_map, hcomm]

theorem flatMap {α : Type} {as : List α} {part : String → α → List Fragment}
    (h : ∀ a ∈ as, BreaksOnly fun br => part br a) : BreaksOnly fun br => as.flatMap (part br) := by
  induction as with
  | nil => exact nil
  | cons a as ih =>
    obtain ⟨ha, has⟩ := List.forall_mem_cons.mp h
    simp only [List.flatMap_cons]
    exact ha.append (ih has)

end BreaksOnly

theorem oneLine_withOptions {dataset options : String} (hdataset : OneLine dataset) (hoptions : OneLine options) :
    OneLine (withOptions dataset options) := by
  unfold withOptions
  split
  · rename_i text htext
    simp +decide [hdataset, hoptions.nonBlank htext]
  · exact hdataset

theorem breaksOnly_optionFragments {options : String} (h : OneLine options) :
    BreaksOnly fun _ => optionFragments options := by
  unfold optionFragments
  split
  · rename_i text htext
    exact .plain (by simp +decide [h.nonBlank htext]) 0 .nil
  · exact .nil

theorem breaksOnly_deleteFragments {l : Location} (hlibref : OneLine l.libref) (hmember : OneLine l.member) :
    BreaksOnly (deleteFragments l) :=
  .line (by simp +decide [hlibref]) 0 (.line (by simp +decide [hmember]) 1
    (.line (by decide) 0 (.line (by decide) 0 .nil)))

theorem breaksOnly_columnFragments {l : Location} {statements : List String} (hlibref : OneLine l.libref)
    (hmember : OneLine l.member) (h : ∀ text ∈ statements, OneLine text) :
    BreaksOnly (columnFragments l statements) := by
  unfold columnFragments
  split
  · exact .nil
  · have hstart : BreaksOnly fun br => [Step.line br 0 "",
        Step.line br 0 ("proc datasets lib = " ++ l.libref ++ " nolist nowarn;"),
        Step.line br 1 ("modify " ++ l.member ++ ";")] :=
      .line (by decide) 0 (.line (by simp +decide [hlibref]) 0 (.line (by simp +decide [hmember]) 1 .nil))
    have hquit : BreaksOnly fun br => [Step.line br 0 "quit;"] := .line (by decide) 0 .nil
    exact (hstart.append (.lines h 2)).append hquit

theorem breaksOnly_sortOptionFragments {sorting : String} (h : OneLine sorting) :
    BreaksOnly (sortOptionFragments sorting) := by
  unfold sortOptionFragments
  split
  · rename_i options hoptions
    exact .line (by decide) 0 (.plain (h.nonBlank hoptions) 0 .nil)
  · exact .nil

theorem breaksOnly_sortFragments {data read out written sorting order : String} (hdata : OneLine data)
    (hread : OneLine read) (hout : OneLine out) (hwritten : OneLine written) (hsorting : OneLine sorting)
    (horder : OneLine order) : BreaksOnly (sortFragments data read out written sorting order) := by
  have hproc : BreaksOnly fun _ => [⟨0, "proc sort data = " ++ data⟩] := .plain (by simp +decide [hdata]) 0 .nil
  have hbreak : BreaksOnly fun br => [Step.line br 0 ""] := .line (by decide) 0 .nil
  have hout' : BreaksOnly fun _ => [⟨0, "out = " ++ out⟩] := .plain (by simp +decide [hout]) 0 .nil
  have hend : BreaksOnly fun br => [Step.line br 0 ";", Step.line br 0 order] :=
    .line (by decide) 0 (.line horder 0 .nil)
  have hbody := ((hout'.append (breaksOnly_optionFragments hwritten)).append
    (breaksOnly_sortOptionFragments hsorting)).append hend
  have hrun : BreaksOnly fun br => [Step.line br 0 "run;"] := .line (by decide) 0 .nil
  exact (((hproc.append (breaksOnly_optionFragments hread)).append hbreak).append hbody.deeper).append hrun

theorem breaksOnly_appendFragments {out written appending : String} {inputs attributes : List String}
    (hout : OneLine out) (hwritten : OneLine written) (hinputs : ∀ text ∈ inputs, OneLine text)
    (happending : OneLine appending) (hattributes : ∀ text ∈ attributes, OneLine text) :
    BreaksOnly (appendFragments out written inputs appending attributes) := by
  have hlines : ∀ text ∈ inputs ++ (nonBlank appending).toList, OneLine text := by
    intro text htext
    rcases List.mem_append.mp htext with hinput | hoption
    · exact hinputs text hinput
    · exact happending.nonBlank (Option.mem_toList.mp hoption)
  have hdata : BreaksOnly fun _ => [⟨0, "data " ++ out⟩] := .plain (by simp +decide [hout]) 0 .nil
  have hend : BreaksOnly fun br => [Step.line br 0 ";"] := .line (by decide) 0 .nil
  have hset : BreaksOnly fun _ => [⟨0, "set"⟩] := .plain (by decide) 0 .nil
  have hcontinued : BreaksOnly fun br => (inputs ++ (nonBlank appending).toList).flatMap (continuedLine br) :=
    .flatMap fun text htext => .line (by decide) 0 (.plain (hlines text htext) 1 .nil)
  have hbody := ((hset.append hcontinued).append hend).append (.lines hattributes 0)
  have hrun : BreaksOnly fun br => [Step.line br 0 "run;"] := .line (by decide) 0 .nil
  exact (((hdata.append (breaksOnly_optionFragments hwritten)).append hend).append hbody.deeper).append hrun

end Step

/-! ### Statements -/

namespace Statement
open Step

/-- The texts that stand in a statement. -/
def texts : Statement → List String
  | .options texts => texts
  | .delete table => [table.libref, table.member]
  | .mapping work input read keep renames => [work.text, input.text, read] ++ keep ++ renames
  | .sort data read out written sorting order => [data.text, read, out.text, written, sorting, order]
  | .append out written inputs appending attributes =>
    [out.text, written, appending] ++ inputs.map inputLine ++ attributes
  | .columns table attributes => [table.libref, table.member] ++ attributes
  | .check => []

/-- No text of a statement has a line feed. -/
def IsOneLine (st : Statement) : Prop := ∀ text ∈ st.texts, OneLine text

theorem breaksOnly_fragments {st : Statement} (h : st.IsOneLine) :
    BreaksOnly fun br => st.fragments br := by
  cases st with
  | options texts =>
    have htexts : OneLine (String.intercalate " " texts) := oneLine_intercalate h
    simp only [Statement.fragments]
    split
    · exact .nil
    · exact .line (by simp +decide [htexts]) 0 (.line (by decide) 0 .nil)
  | delete table =>
    simp only [IsOneLine, Statement.texts, List.forall_mem_cons] at h
    obtain ⟨hlibref, hmember, -⟩ := h
    exact breaksOnly_deleteFragments hlibref hmember
  | mapping work input read keep renames =>
    simp only [IsOneLine, Statement.texts, List.forall_mem_append, List.forall_mem_cons] at h
    obtain ⟨⟨⟨hwork, hinput, hread, -⟩, hkeep⟩, hrenames⟩ := h
    have hstart : BreaksOnly fun br => [line br 0 ("data " ++ work.text ++ ";"),
        line br 1 ("set " ++ withOptions input.text read ++ ";"),
        line br 1 ("keep " ++ String.intercalate " " keep ++ ";")] :=
      .line (by simp +decide [hwork]) 0 (.line (by simp +decide [oneLine_withOptions hinput hread]) 1
        (.line (by simp +decide [oneLine_intercalate hkeep]) 1 .nil))
    have hrenamed : BreaksOnly fun br =>
        if renames.isEmpty then [] else [line br 1 ("rename " ++ String.intercalate " " renames ++ ";")] := by
      split
      · exact .nil
      · exact .line (by simp +decide [oneLine_intercalate hrenames]) 1 .nil
    have hrun : BreaksOnly fun br => [line br 0 "run;", line br 0 ""] :=
      .line (by decide) 0 (.line (by decide) 0 .nil)
    simp only [Statement.fragments]
    exact (hstart.append hrenamed).append hrun
  | sort data read out written sorting order =>
    simp only [IsOneLine, Statement.texts, List.forall_mem_cons] at h
    obtain ⟨hdata, hread, hout, hwritten, hsorting, horder, -⟩ := h
    exact breaksOnly_sortFragments hdata hread hout hwritten hsorting horder
  | append out written inputs appending attributes =>
    simp only [IsOneLine, Statement.texts, List.forall_mem_append, List.forall_mem_cons] at h
    obtain ⟨⟨⟨hout, hwritten, happending, -⟩, hinputs⟩, hattributes⟩ := h
    exact breaksOnly_appendFragments hout hwritten hinputs happending hattributes
  | columns table attributes =>
    simp only [IsOneLine, Statement.texts, List.forall_mem_append, List.forall_mem_cons] at h
    obtain ⟨⟨hlibref, hmember, -⟩, hattributes⟩ := h
    exact breaksOnly_columnFragments hlibref hmember hattributes
  | check => exact .line (by decide) 0 (.line (by decide) 0 (.line (by decide) 0 .nil))

end Statement

/-! ### Scripts -/

theorem render_ofScript (s : Settings) (script : List Statement) :
    (Buffer.ofScript s script).render = String.ofList (Buffer.renderFragments s.indentUnit.toList true
      (script.flatMap (Statement.fragments s.lineBreak))) := by
  have hshift : ∀ fs : List Fragment, (fs.map fun f => (⟨0 + f.level, f.text⟩ : Fragment)) = fs := by simp
  unfold Buffer.ofScript Buffer.render Buffer.write Buffer.ofSettings
  dsimp only
  rw [hshift, Array.empty_append]

/-- A script without line feeds of its own is rendered with line breaks of the one kind to what it is rendered
    to with those of the other kind, with its line feeds replaced. -/
theorem render_ofScript_crlf {script : List Statement} (h : ∀ st ∈ script, st.IsOneLine) (s : Settings) :
    (Buffer.ofScript { s with lineEnding := .crlf } script).render =
      crlf (Buffer.ofScript { s with lineEnding := .lf } script).render := by
  have hunit : '\n' ∉ s.indentUnit.toList := by
    rw [Settings.indentUnit, String.toList_ofList]
    exact fun hmem => absurd (List.eq_of_mem_replicate hmem) (by decide)
  have hscript : script.flatMap (Statement.fragments "\r\n") =
      (script.flatMap (Statement.fragments "\n")).map Fragment.crlf :=
    Step.BreaksOnly.flatMap fun st hst => Statement.breaksOnly_fragments (h st hst)
  have hrendered := Buffer.renderFragments_crlf hunit true (script.flatMap (Statement.fragments "\n"))
  rw [← hscript] at hrendered
  rw [render_ofScript, render_ofScript, crlf, String.toList_ofList]
  exact congrArg String.ofList hrendered

/-! ### Scripts of generators -/

/-- The names of a table that were checked have no line feed. -/
theorem oneLine_of_check {kind : NameKind} {name : String} (h : Name.check kind name = .ok ()) : OneLine name :=
  fun hmem => absurd (Name.isWordChar_of_check h _ hmem) (by decide)

theorem Table.HasValidNames.oneLine_place {s : Settings} {u : Table} (h : u.HasValidNames s) :
    OneLine (u.place s).libref ∧ OneLine (u.place s).member :=
  ⟨oneLine_of_check h.1, oneLine_of_check h.2⟩

theorem Location.oneLine_text {l : Location} (h : OneLine l.libref ∧ OneLine l.member) : OneLine l.text := by
  unfold Location.text
  simp +decide [h]

section Scripts
variable {s : Settings} {t : Transform} {source target : Table}

theorem Step.oneLine_workPlace (hs : s.IsOneLine) (t : Transform) : OneLine (workPlace s t 1).text :=
  Location.oneLine_text ⟨hs.workLibref, oneLine_of_check (check_workPlace_member s t)⟩

theorem Step.oneLine_renameItems (ht : t.IsOneLine) : ∀ item ∈ renameItems t, OneLine item := by
  intro item hitem
  obtain ⟨m, hm, rfl⟩ := List.mem_map.mp hitem
  obtain ⟨hsource, htarget⟩ := ht.mappings m (List.mem_of_mem_filter hm)
  simp +decide [hsource, htarget]

theorem Statement.isOneLine_delete (hnames : target.HasValidNames s) : (delete (target.place s)).IsOneLine := by
  obtain ⟨hlibref, hmember⟩ := hnames.oneLine_place
  simp [IsOneLine, Statement.texts, hlibref, hmember]

theorem Statement.isOneLine_columns (hnames : target.HasValidNames s) (h : target.IsOneLine) :
    (columns (target.place s) (target.columnStatements true)).IsOneLine := by
  obtain ⟨hlibref, hmember⟩ := hnames.oneLine_place
  simp only [IsOneLine, Statement.texts, List.forall_mem_append, List.forall_mem_cons]
  exact ⟨⟨hlibref, hmember, List.forall_mem_nil _⟩, h.columnStatements true⟩

theorem Statement.isOneLine_check : check.IsOneLine := List.forall_mem_nil _

theorem Step.isOneLine_mappingStatement (hs : s.IsOneLine) (ht : t.IsOneLine) (hsource : source.IsOneLine)
    (hnames : source.HasValidNames s) : (mappingStatement s t 1 (source.place s) source.readText).IsOneLine := by
  have hkeep : ∀ m ∈ t.mappings, OneLine m.source := fun m hm => (ht.mappings m hm).1
  simp only [mappingStatement, Statement.IsOneLine, Statement.texts, List.forall_mem_append, List.forall_mem_cons,
    List.forall_mem_map]
  exact ⟨⟨⟨oneLine_workPlace hs t, Location.oneLine_text hnames.oneLine_place, hsource.readText, List.forall_mem_nil _⟩,
    hkeep⟩, oneLine_renameItems ht⟩

theorem Step.isOneLine_sortScript (mapper : ColumnMapper) {order : String} (hs : s.IsOneLine) (ht : t.IsOneLine)
    (hsource : source.IsOneLine) (htarget : target.IsOneLine) (hnames : source.HasValidNames s)
    (hnames' : target.HasValidNames s) (horder : orderByStatement? t = some order) :
    ∀ st ∈ sortScript mapper s t source target order, st.IsOneLine := by
  have hoptions : (Statement.options (systemOptions s t)).IsOneLine := hs.systemOptions ht
  have hmapping := isOneLine_mappingStatement hs ht hsource hnames
  have hsort : ∀ (data : Location) (read : String), OneLine data.text → OneLine read →
      (Statement.sort data read (target.place s) (target.writeText true)
        (OptionText.resolve t.properties OptionText.sort) order).IsOneLine := by
    intro data read hdata hread
    simp only [Statement.IsOneLine, Statement.texts, List.forall_mem_cons]
    exact ⟨hdata, hread, Location.oneLine_text hnames'.oneLine_place, htarget.writeText true,
      OptionText.oneLine_resolve ht.properties _, ht.orderByStatement? horder, List.forall_mem_nil _⟩
  have hdirect := hsort (source.place s) source.readText (Location.oneLine_text hnames.oneLine_place) hsource.readText
  have hmapped := hsort (workPlace s t 1) "" (oneLine_workPlace hs t) (by decide)
  unfold sortScript
  cases mapsColumns mapper t <;>
    simp [hoptions, Statement.isOneLine_delete hnames', hmapping, hdirect, hmapped,
      Statement.isOneLine_columns hnames' htarget, Statement.isOneLine_check]

theorem Step.isOneLine_appendScript {sources : List Table} (hs : s.IsOneLine) (ht : t.IsOneLine)
    (hsources : ∀ u ∈ sources, u.IsOneLine ∧ u.HasValidNames s) (htarget : target.IsOneLine)
    (hnames : target.HasValidNames s) : ∀ st ∈ appendScript s t sources target, st.IsOneLine := by
  have hoptions : (Statement.options (systemOptions s t)).IsOneLine := hs.systemOptions ht
  have hinputs : ∀ text ∈ (sources.map fun u => (u.place s, u.readText)).map Statement.inputLine, OneLine text := by
    intro text htext
    simp only [List.map_map, List.mem_map, Function.comp_apply] at htext
    obtain ⟨u, hu, rfl⟩ := htext
    obtain ⟨hline, hvalid⟩ := hsources u hu
    exact oneLine_withOptions (Location.oneLine_text hvalid.oneLine_place) hline.readText
  have happend : (Statement.append (target.place s) (target.writeText true)
      (sources.map fun u => (u.place s, u.readText)) (OptionText.resolve t.properties OptionText.append)
      (target.columnStatements true)).IsOneLine := by
    simp only [Statement.IsOneLine, Statement.texts, List.forall_mem_append, List.forall_mem_cons]
    exact ⟨⟨⟨Location.oneLine_text hnames.oneLine_place, htarget.writeText true,
      OptionText.oneLine_resolve ht.properties _, List.forall_mem_nil _⟩, hinputs⟩, htarget.columnStatements true⟩
  unfold appendScript
  simp [hoptions, Statement.isOneLine_delete hnames, happend, Statement.isOneLine_check]

/-- A script has no line feeds of its own if its transformation, its tables and the settings have none. -/
theorem Generator.HasScript.isOneLine {g : Generator} {env : Env} {script : List Statement}
    (h : g.HasScript env t script) (hs : env.settings.IsOneLine) (ht : t.IsOneLine)
    (htables : ∀ id u, env.lookup id = some u → u.IsOneLine) : ∀ st ∈ script, st.IsOneLine := by
  have htable : ∀ {r u}, env.table r = .ok u → u.IsOneLine := fun {r u} hu =>
    htables r.tableId u (table_eq_ok_iff.mp hu)
  have htarget : ∀ {u}, env.target t = .ok u → u.IsOneLine := fun {u} hu => by
    unfold Env.target at hu
    split at hu
    · exact htable hu
    · cases hu
  cases g with
  | sort mapper =>
    obtain ⟨source, target, order, hsource, htarget', hnames, hnames', horder, rfl⟩ := h
    have hsource' : source.IsOneLine := by
      unfold Env.firstSource at hsource
      split at hsource
      · exact htable hsource
      · cases hsource
    exact Step.isOneLine_sortScript mapper hs ht hsource' (htarget htarget') hnames hnames' horder
  | append =>
    obtain ⟨sources, target, hsources, htarget', hnames, hnames', rfl⟩ := h
    have hread : List.Forall₂ (fun u r => u.IsOneLine ∧ env.table r = .ok u) sources t.sources :=
      (mapM_eq_ok_iff.mp hsources).flip.imp fun u r hr => ⟨htable hr, hr⟩
    have hsources' : ∀ u ∈ sources, u.IsOneLine := ((List.forall₂_and_left _ _).mp hread).1
    exact Step.isOneLine_appendScript hs ht (fun u hu => ⟨hsources' u hu, hnames u hu⟩) (htarget htarget') hnames'

end Scripts

end StepScript
