import Mathlib.Data.List.Basic
import StepScript.Proofs.Buffer.Render

/-! Indentation. Rendering copies the text of the fragments, and inserts the indentation of a fragment ahead of
    characters of it at which a line starts, unless the line is blank as far as it stands in the fragment. The
    level of a fragment is the number of edits ahead of it that indent, less those that take a level back. -/

namespace StepScript

inductive Buffer.Edit where
  | append (text : String)
  | appendLine (text : String)
  | indent
  | unindent
  deriving DecidableEq

namespace Buffer

/-! ### Edits -/

/-- The buffer after an edit; at level zero no level can be taken back. -/
def edit? (b : Buffer) : Edit → Option Buffer
  | .append text => some (b.append text)
  | .appendLine text => some (b.appendLine text)
  | .indent => some b.indent
  | .unindent => b.unindent?

def edits? (b : Buffer) (es : List Edit) : Option Buffer :=
  es.foldlM edit? b

/-- The text that an edit appends, with a line break. -/
def Edit.text? (br : String) : Edit → Option String
  | .append text => some text
  | .appendLine text => some (text ++ br)
  | .indent => none
  | .unindent => none

def appended (br : String) (es : List Edit) : List Char :=
  (es.filterMap (Edit.text? br)).flatMap String.toList

/-- A buffer after edits of another one. -/
structure EditedFrom (es : List Edit) (b b' : Buffer) : Prop where
  indentUnit : b'.indentUnit = b.indentUnit
  lineBreak : b'.lineBreak = b.lineBreak
  level : b'.level + es.count .unindent = b.level + es.count .indent
  fragments : ∃ fs, b'.fragments.toList = b.fragments.toList ++ fs ∧ textOf fs = appended b.lineBreak es

section Edits
variable {b b' b'' : Buffer} {e : Edit} {es ahead rest : List Edit} {text : String}

theorem edits?_cons (b : Buffer) (e : Edit) (es : List Edit) :
    b.edits? (e :: es) = (b.edit? e).bind (·.edits? es) :=
  List.foldlM_cons

theorem appended_append (br : String) (es es' : List Edit) :
    appended br (es ++ es') = appended br es ++ appended br es' := by
  rw [appended, List.filterMap_append, List.flatMap_append, ← appended, ← appended]

/-- An edit that appends a text adds a fragment at the current level. -/
theorem fragments_of_edit? (h : b.edit? e = some b') (ht : e.text? b.lineBreak = some text) :
    b'.fragments.toList = b.fragments.toList ++ [⟨b.level, text⟩] := by
  cases e with
  | append t =>
    cases h
    obtain rfl : t = text := Option.some.inj ht
    exact fragments_append b t
  | appendLine t =>
    cases h
    obtain rfl : t ++ b.lineBreak = text := Option.some.inj ht
    exact fragments_append b (t ++ b.lineBreak)
  | indent => cases ht
  | unindent => cases ht

theorem editedFrom_of_edit? (h : b.edit? e = some b') : EditedFrom [e] b b' := by
  cases e with
  | append t =>
    cases h
    refine ⟨rfl, rfl, rfl, [⟨b.level, t⟩], fragments_append b t, ?_⟩
    simp [textOf, appended, Edit.text?]
  | appendLine t =>
    cases h
    refine ⟨rfl, rfl, rfl, [⟨b.level, t ++ b.lineBreak⟩], fragments_append b _, ?_⟩
    simp [textOf, appended, Edit.text?]
  | indent =>
    cases h
    exact ⟨rfl, rfl, rfl, [], (List.append_nil _).symm, rfl⟩
  | unindent =>
    have hback : b.unindent? = some b' := h
    unfold unindent? at hback
    split at hback
    · cases hback
    · rename_i level hlevel
      cases hback
      exact ⟨rfl, rfl, hlevel.symm, [], (List.append_nil _).symm, rfl⟩

theorem EditedFrom.trans {es' : List Edit} (h : EditedFrom es b b') (h' : EditedFrom es' b' b'') :
    EditedFrom (es ++ es') b b'' := by
  obtain ⟨hunit, hbreak, hlevel, fs, hfs, htext⟩ := h
  obtain ⟨hunit', hbreak', hlevel', fs', hfs', htext'⟩ := h'
  refine ⟨hunit'.trans hunit, hbreak'.trans hbreak, ?_, fs ++ fs', ?_, ?_⟩
  · rw [List.count_append, List.count_append]
    omega
  · rw [hfs', hfs, List.append_assoc]
  · rw [textOf, List.flatMap_append, ← textOf, ← textOf, htext, htext', hbreak, appended_append]

theorem editedFrom_of_edits? (h : b.edits? es = some b') : EditedFrom es b b' := by
  induction es generalizing b with
  | nil =>
    cases h
    exact ⟨rfl, rfl, rfl, [], (List.append_nil _).symm, rfl⟩
  | cons e es ih =>
    rw [edits?_cons] at h
    obtain ⟨b₁, he, hes⟩ := Option.bind_eq_some_iff.mp h
    exact (editedFrom_of_edit? he).trans (ih hes)

/-- Edits are possible exactly if no beginning of them takes back more levels than there are. -/
theorem exists_edits?_iff : (∃ b', b.edits? es = some b') ↔
    ∀ ahead, ahead <+: es → ahead.count .unindent ≤ b.level + ahead.count .indent := by
  constructor
  · rintro ⟨b', h⟩ ahead ⟨rest, rfl⟩
    rw [edits?, List.foldlM_append] at h
    obtain ⟨b₁, hahead, -⟩ := Option.bind_eq_some_iff.mp h
    have hlevel := (editedFrom_of_edits? hahead).level
    omega
  · intro h
    induction es generalizing b with
    | nil => exact ⟨b, rfl⟩
    | cons e es ih =>
      obtain ⟨b₁, he⟩ : ∃ b₁, b.edit? e = some b₁ := by
        cases e with
        | unindent =>
          have hone : 1 ≤ b.level := by simpa using h [.unindent] (List.prefix_append [.unindent] es)
          obtain ⟨level, hlevel⟩ := Nat.exists_eq_succ_of_ne_zero (Nat.one_le_iff_ne_zero.mp hone)
          exact ⟨{ b with level }, by simp only [edit?, unindent?, hlevel]⟩
        | _ => exact ⟨_, rfl⟩
      have hlevel := (editedFrom_of_edit? he).level
      rw [edits?_cons, he]
      refine ih fun ahead hahead => ?_
      have hcons := h (e :: ahead) ((List.prefix_cons_inj e).mpr hahead)
      rw [← List.singleton_append, List.count_append, List.count_append] at hcons
      omega

theorem exists_fragments_around (h : b.edits? (ahead ++ e :: rest) = some b')
    (ht : e.text? b.lineBreak = some text) :
    ∃ fs gs level, b'.fragments.toList = b.fragments.toList ++ fs ++ ⟨level, text⟩ :: gs ∧
      textOf fs = appended b.lineBreak ahead ∧
      level + ahead.count .unindent = b.level + ahead.count .indent := by
  rw [edits?, List.foldlM_append] at h
  obtain ⟨b₁, hahead, h⟩ := Option.bind_eq_some_iff.mp h
  rw [List.foldlM_cons] at h
  obtain ⟨b₂, he, hrest⟩ := Option.bind_eq_some_iff.mp h
  obtain ⟨-, hbreak, hlevel, fs, hfs, htext⟩ := editedFrom_of_edits? hahead
  obtain ⟨-, -, -, gs, hgs, -⟩ := editedFrom_of_edits? hrest
  refine ⟨fs, gs, b₁.level, ?_, htext, hlevel⟩
  rw [hgs, fragments_of_edit? he (hbreak ▸ ht), hfs, List.append_assoc _ [_] gs, List.singleton_append]

end Edits

/-! ### Line starts and pieces -/

def StartsLine (cs : List Char) (p : Nat) : Prop := p = 0 ∨ cs[p - 1]? = some '\n'

instance (cs : List Char) (p : Nat) : Decidable (StartsLine cs p) :=
  inferInstanceAs (Decidable (p = 0 ∨ cs[p - 1]? = some '\n'))

/-- A text up to its first line feed, with the line feed. -/
def firstPiece : List Char → List Char
  | [] => []
  | c :: cs => if c = '\n' then [c] else c :: firstPiece cs

/-- What is inserted ahead of a text that starts a line or not. -/
def insertion (indentation : List Char) (atLineStart : Bool) (cs : List Char) : List Char :=
  if atLineStart = true ∧ Shows (firstPiece cs) then indentation else []

theorem head?_pieces (c : Char) (cs : List Char) : (pieces (c :: cs)).head? = some (firstPiece (c :: cs)) := by
  induction cs generalizing c with
  | nil => by_cases hc : c = '\n' <;> simp [pieces, firstPiece, hc]
  | cons d ds ih =>
    have hrest := ih d
    rw [pieces, firstPiece]
    split
    · rfl
    · cases hps : pieces (d :: ds) with
      | nil =>
        rw [hps] at hrest
        cases hrest
      | cons p ps =>
        rw [hps] at hrest
        simp [Option.some.inj hrest]

theorem insertion_eq (ind : List Char) (atLineStart : Bool) (cs : List Char) :
    insertion ind atLineStart cs = if atLineStart && !isBlankPiece (firstPiece cs) then ind else [] := by
  unfold insertion
  simp only [← isBlankPiece_eq_false_iff, Bool.and_eq_true, Bool.not_eq_true']

/-- A text is rendered character by character, each with what is inserted ahead of it. -/
theorem renderPieces_pieces_cons (ind : List Char) (atLineStart : Bool) (c : Char) (cs : List Char) :
    (renderPieces ind atLineStart (pieces (c :: cs))).1 =
      insertion ind atLineStart (c :: cs) ++ c :: (renderPieces ind (c == '\n') (pieces cs)).1 := by
  have hhead := head?_pieces c cs
  rw [insertion_eq]
  rw [pieces] at hhead ⊢
  split
  · rename_i hc
    subst hc
    rw [renderPieces_cons]
    simp [firstPiece, isBlankPiece, endsLine]
  · rename_i hc
    have hnext : (c == '\n') = false := by simpa using hc
    rw [hnext]
    rw [if_neg hc] at hhead
    cases hps : pieces cs with
    | nil =>
      rw [hps] at hhead
      rw [renderPieces_cons, ← Option.some.inj hhead]
      split <;> simp [renderPieces]
    | cons p ps =>
      rw [hps] at hhead
      -- The piece goes on after the character, so its end does not change.
      have hp : p ≠ [] := ne_nil_of_mem_pieces p (hps ▸ List.mem_cons_self)
      have hends : endsLine (c :: p) = endsLine p := by
        rw [endsLine, endsLine, List.getLast?_cons, List.getLast?_eq_some_getLast hp]
        rfl
      rw [renderPieces_cons, renderPieces_cons, ← Option.some.inj hhead, hends, Bool.false_and]
      split <;> simp

theorem lineStartAfter_cons (atLineStart : Bool) (c : Char) (cs : List Char) :
    lineStartAfter atLineStart (c :: cs) = lineStartAfter (c == '\n') cs :=
  lineStartAfter_append atLineStart [c] cs

theorem renderPieces_eq_insertions (ind : List Char) (atLineStart : Bool) (cs : List Char) :
    (renderPieces ind atLineStart (pieces cs)).1 = cs.zipIdx.flatMap fun (c, p) =>
      insertion ind (lineStartAfter atLineStart (cs.take p)) (cs.drop p) ++ [c] := by
  induction cs generalizing atLineStart with
  | nil => rfl
  | cons c cs ih =>
    have hfirst : lineStartAfter atLineStart ((c :: cs).take 0) = atLineStart := rfl
    rw [renderPieces_pieces_cons, ih, List.zipIdx_cons', List.flatMap_cons, List.flatMap_map]
    dsimp only
    rw [hfirst, List.drop_zero, List.append_assoc, List.singleton_append]
    congr 2
    refine List.flatMap_congr fun cp _ => ?_
    rw [Prod.map_apply, List.take_succ_cons, List.drop_succ_cons, lineStartAfter_cons, id]

/-! ### Fragments -/

/-- What is inserted at a position of the text of fragments, which start a line or not. -/
def insertedAt (unit : List Char) : (atLineStart : Bool) → List Fragment → Nat → List Char
  | _, [], _ => []
  | atLineStart, f :: fs, p =>
    let cs := f.text.toList
    if p < cs.length then
      insertion (indentation unit f.level) (lineStartAfter atLineStart (cs.take p)) (cs.drop p)
    else insertedAt unit (lineStartAfter atLineStart cs) fs (p - cs.length)

theorem renderFragments_eq_insertions (unit : List Char) (atLineStart : Bool) (fs : List Fragment) :
    renderFragments unit atLineStart fs =
      (textOf fs).zipIdx.flatMap fun (c, p) => insertedAt unit atLineStart fs p ++ [c] := by
  induction fs generalizing atLineStart with
  | nil => rfl
  | cons f fs ih =>
    have htext : textOf (f :: fs) = f.text.toList ++ textOf fs := rfl
    rw [renderFragments_cons, renderPieces_eq_insertions, ih, htext, List.zipIdx_append, List.flatMap_append]
    congr 1
    · refine List.flatMap_congr fun (c, p) hmem => ?_
      have hp : p < f.text.toList.length := by simpa using List.snd_lt_of_mem_zipIdx hmem
      dsimp only
      rw [insertedAt, if_pos hp]
    · rw [Nat.add_comm, ← List.map_snd_add_zipIdx_eq_zipIdx, List.flatMap_map]
      refine List.flatMap_congr fun (c, p) _ => ?_
      have hbeyond : ¬p + f.text.toList.length < f.text.toList.length := by omega
      dsimp only [Prod.map_apply, id]
      rw [insertedAt, if_neg hbeyond, Nat.add_sub_cancel]

theorem insertedAt_append (unit : List Char) (atLineStart : Bool) (fs gs : List Fragment) (f : Fragment) {i : Nat}
    (hi : i < f.text.toList.length) : insertedAt unit atLineStart (fs ++ f :: gs) ((textOf fs).length + i) =
      insertion (indentation unit f.level) (lineStartAfter atLineStart (textOf fs ++ f.text.toList.take i))
        (f.text.toList.drop i) := by
  induction fs generalizing atLineStart with
  | nil => simp [insertedAt, textOf, hi]
  | cons e fs ih =>
    have htext : textOf (e :: fs) = e.text.toList ++ textOf fs := rfl
    have hrest : (textOf (e :: fs)).length + i - e.text.toList.length = (textOf fs).length + i := by
      rw [htext, List.length_append]
      omega
    have hbeyond : ¬(textOf (e :: fs)).length + i < e.text.toList.length := by
      rw [htext, List.length_append]
      omega
    rw [List.cons_append, insertedAt, if_neg hbeyond, hrest, ih, htext, List.append_assoc,
      lineStartAfter_append _ e.text.toList]

theorem lineStartAfter_take_iff {cs : List Char} {p : Nat} (hp : p ≤ cs.length) :
    lineStartAfter true (cs.take p) = true ↔ StartsLine cs p := by
  unfold lineStartAfter StartsLine
  rw [List.getLast?_take]
  by_cases hzero : p = 0
  · simp [hzero]
  · have hget : cs[p - 1]? = some cs[p - 1] := List.getElem?_eq_getElem (by omega)
    simp [hzero, hget]

/-! ### Edited buffers -/

/-- Edits of the empty buffer are possible exactly if no beginning of them takes back more levels than it adds.
    The rendered text is the appended text with insertions. Ahead of a character of a text that was appended, as
    many indent units are inserted as the edits before it indent, less those that take a level back, if a line
    starts at the character and goes on, within that text, with more than carriage returns and line feeds; and
    nothing otherwise. -/
theorem render_inserts_indentation (s : Settings) (es : List Edit) :
    ((∃ b, (ofSettings s).edits? es = some b) ↔
      ∀ ahead, ahead <+: es → ahead.count .unindent ≤ ahead.count .indent) ∧
    ∀ b, (ofSettings s).edits? es = some b → ∃ inserted : Nat → List Char,
      textOf b.fragments.toList = appended s.lineBreak es ∧
      b.render.toList = (appended s.lineBreak es).zipIdx.flatMap (fun (c, p) => inserted p ++ [c]) ∧
      ∀ (ahead rest : List Edit) (e : Edit) (text : String), es = ahead ++ e :: rest → e.text? s.lineBreak = some text →
        ∀ i < text.toList.length,
          inserted ((appended s.lineBreak ahead).length + i) =
            if StartsLine (appended s.lineBreak es) ((appended s.lineBreak ahead).length + i) ∧
                Shows (firstPiece (text.toList.drop i))
            then (List.replicate (ahead.count .indent - ahead.count .unindent) s.indentUnit.toList).flatten
            else [] := by
  have hempty : (ofSettings s).fragments.toList = [] := rfl
  have hzero : (ofSettings s).level = 0 := rfl
  have hbreak : (ofSettings s).lineBreak = s.lineBreak := rfl
  refine ⟨?_, fun b h => ?_⟩
  · rw [exists_edits?_iff]
    simp only [hzero, Nat.zero_add]
  · obtain ⟨hunit, -, -, fs, hfs, htext⟩ := editedFrom_of_edits? h
    rw [hempty, List.nil_append] at hfs
    rw [hbreak] at htext
    refine ⟨insertedAt s.indentUnit.toList true fs, hfs ▸ htext, ?_, ?_⟩
    · have hunit' : b.indentUnit = s.indentUnit := hunit
      rw [render, String.toList_ofList, hfs, hunit', renderFragments_eq_insertions, htext]
    · rintro ahead rest e text rfl he i hi
      obtain ⟨fs₁, gs, level, hsplit, htext₁, hlevel⟩ := exists_fragments_around h he
      rw [hempty, List.nil_append, hfs] at hsplit
      rw [hbreak] at htext₁
      rw [hzero, Nat.zero_add] at hlevel
      have hlevel' : level = ahead.count .indent - ahead.count .unindent := by omega
      -- The text up to the character is that of the fragments ahead and the beginning of its own.
      have hwhole : appended s.lineBreak (ahead ++ e :: rest) =
          (textOf fs₁ ++ text.toList.take i) ++ (text.toList.drop i ++ textOf gs) := by
        have hcons : textOf (⟨level, text⟩ :: gs) = text.toList ++ textOf gs := rfl
        rw [← htext, hsplit, textOf, List.flatMap_append, ← textOf, ← textOf, hcons, List.append_assoc,
          ← List.append_assoc (text.toList.take i), List.take_append_drop]
      have hlength : (textOf fs₁ ++ text.toList.take i).length = (textOf fs₁).length + i := by
        rw [List.length_append, List.length_take, Nat.min_eq_left (Nat.le_of_lt hi)]
      have hstart : lineStartAfter true (textOf fs₁ ++ text.toList.take i) = true ↔
          StartsLine (appended s.lineBreak (ahead ++ e :: rest)) ((textOf fs₁).length + i) := by
        have hle : (textOf fs₁).length + i ≤ (appended s.lineBreak (ahead ++ e :: rest)).length := by
          rw [hwhole, List.length_append, hlength]
          omega
        rw [← lineStartAfter_take_iff hle, hwhole, ← hlength, List.take_left]
      rw [hsplit, ← htext₁, insertedAt_append _ _ _ _ _ hi, insertion]
      simp only [hstart, hlevel']
      rfl

/-- Texts at two levels, one of them with an empty line, and one that goes on with a line of the other. -/
def nestedEdits : List Edit :=
  [.indent, .append "a;\n\nb", .indent, .append "c\nd", .unindent, .appendLine "", .unindent]

theorem nestedEdits_indented : ∃ b, (ofSettings { indentWidth := 2 }).edits? nestedEdits = some b ∧
    ∃ inserted : Nat → List Char,
      b.render.toList = "a;\n\nbc\nd\n".toList.zipIdx.flatMap (fun (c, p) => inserted p ++ [c]) ∧
      inserted 0 = "  ".toList ∧ inserted 3 = [] ∧ inserted 5 = [] ∧ inserted 7 = "    ".toList := by
  obtain ⟨-, hrun⟩ := render_inserts_indentation { indentWidth := 2 } nestedEdits
  obtain ⟨inserted, -, hrender, hat⟩ := hrun _ rfl
  have houter := hat [.indent] _ (.append "a;\n\nb") "a;\n\nb" rfl rfl
  have hinner := hat [.indent, .append "a;\n\nb", .indent] _ (.append "c\nd") "c\nd" rfl rfl
  refine ⟨_, rfl, inserted, hrender, ?_, ?_, ?_, ?_⟩
  · exact (houter 0 (by decide)).trans rfl
  · exact (houter 3 (by decide)).trans rfl
  · exact (hinner 0 (by decide)).trans rfl
  · exact (hinner 2 (by decide)).trans rfl

end Buffer

end StepScript
