import StepScript.Proofs.Program.Alike

/-! Comments that a program gets. A program with a header and step comments is the program without them, with a
    comment put at its start and ahead of each step. A reader of the code ends a comment at the first mark for it;
    this is the mark that was put there exactly if the name in the comment has none, and otherwise the rest of the
    name is left in the code. -/

namespace StepScript

/-! ### Ends of comments -/

section Ends
variable {cs ds rest : List Char} {s t : String}

/-- What stands after the first mark for the end of a comment. -/
def afterComment : List Char → List Char
  | [] => []
  | c :: cs => if c = '*' ∧ cs.head? = some '/' then cs.tail else afterComment cs

/-- The mark for the end of a comment stands in a text. -/
def HasCommentEnd (s : String) : Prop := ['*', '/'] <:+: s.toList

instance : DecidablePred HasCommentEnd := fun s => inferInstanceAs (Decidable (['*', '/'] <:+: s.toList))

theorem commentEnd_infix_cons {c : Char} :
    ['*', '/'] <:+: c :: cs ↔ (c = '*' ∧ cs.head? = some '/') ∨ ['*', '/'] <:+: cs := by
  rw [List.infix_cons_iff, List.cons_prefix_cons]
  cases cs with
  | nil => simp
  | cons d ds => simp [List.cons_prefix_cons, eq_comm]

theorem commentEnd_infix_append : ['*', '/'] <:+: cs ++ ds ↔
    ['*', '/'] <:+: cs ∨ ['*', '/'] <:+: ds ∨ (cs.getLast? = some '*' ∧ ds.head? = some '/') := by
  induction cs with
  | nil => simp
  | cons c cs ih =>
    rw [List.cons_append, commentEnd_infix_cons, commentEnd_infix_cons, ih]
    cases cs with
    | nil => simp [or_comm]
    | cons d cs => simp [or_assoc]

/-- A mark in a text put together from two stands in one of them, or on the seam. -/
@[simp] theorem hasCommentEnd_append : HasCommentEnd (s ++ t) ↔
    HasCommentEnd s ∨ HasCommentEnd t ∨ (s.toList.getLast? = some '*' ∧ t.toList.head? = some '/') := by
  rw [HasCommentEnd, String.toList_append, commentEnd_infix_append]
  rfl

theorem afterComment_of_not_infix (h : ¬['*', '/'] <:+: cs) : afterComment (cs ++ '*' :: '/' :: rest) = rest := by
  induction cs with
  | nil => rfl
  | cons c cs ih =>
    rw [commentEnd_infix_cons, not_or] at h
    have hopen : ¬(c = '*' ∧ (cs ++ '*' :: '/' :: rest).head? = some '/') := by
      rintro ⟨rfl, hhead⟩
      cases cs with
      | nil => cases hhead
      | cons d ds => exact h.1 ⟨rfl, hhead⟩
    rw [List.cons_append, afterComment, if_neg hopen, ih h.2]

/-- A comment with a mark within ends early, and more than what stands after it is left. -/
theorem length_lt_afterComment (h : ['*', '/'] <:+: cs) :
    rest.length < (afterComment (cs ++ '*' :: '/' :: rest)).length := by
  induction cs with
  | nil => simp at h
  | cons c cs ih =>
    rw [List.cons_append, afterComment]
    rcases commentEnd_infix_cons.mp h with ⟨rfl, hhead⟩ | hcs
    · obtain ⟨ds, rfl⟩ := List.head?_eq_some_iff.mp hhead
      rw [if_pos ⟨rfl, rfl⟩]
      simp
      omega
    · split
      next =>
        cases cs with
        | nil => simp at hcs
        | cons d ds => simp; omega
      next => exact ih hcs

end Ends

/-! ### Comments put into a program -/

/-- A comment with the line breaks after it, and the code in front of which it is put. -/
structure Insertion where
  inside : String
  breaks : String
  code : String

namespace Insertion
variable {p : Insertion}

def text (p : Insertion) : String := "/*" ++ p.inside ++ "*/" ++ p.breaks ++ p.code

/-- The text without the comment at its start, as a reader of the code ends it. -/
def dropComment (p : Insertion) : String := String.ofList (afterComment (p.text.toList.drop 2))

/-- The text without the comment at its start, as it was put there. -/
def bare (p : Insertion) : String := p.breaks ++ p.code

theorem toList_dropComment :
    p.dropComment.toList = afterComment (p.inside.toList ++ '*' :: '/' :: p.bare.toList) := by
  simp [dropComment, text, bare]

theorem dropComment_of_not (h : ¬HasCommentEnd p.inside) : p.dropComment = p.bare := by
  rw [← String.toList_inj, toList_dropComment]
  exact afterComment_of_not_infix h

theorem length_bare_lt (h : HasCommentEnd p.inside) : p.bare.length < p.dropComment.length := by
  rw [← String.length_toList, ← String.length_toList, toList_dropComment]
  exact length_lt_afterComment h

theorem length_bare_le : p.bare.length ≤ p.dropComment.length := by
  by_cases h : HasCommentEnd p.inside
  · exact (length_bare_lt h).le
  · rw [dropComment_of_not h]

theorem length_join_bare_le (ps : List Insertion) :
    (String.join (ps.map bare)).length ≤ (String.join (ps.map dropComment)).length := by
  induction ps with
  | nil => rw [List.map_nil, List.map_nil]
  | cons p ps ih =>
    rw [List.map_cons, List.map_cons, String.join_cons, String.join_cons, String.length_append, String.length_append]
    exact Nat.add_le_add length_bare_le ih

theorem not_hasCommentEnd_of_length_le {ps : List Insertion}
    (h : (String.join (ps.map dropComment)).length ≤ (String.join (ps.map bare)).length) :
    ∀ p ∈ ps, ¬HasCommentEnd p.inside := by
  induction ps with
  | nil => exact fun _ hp => absurd hp List.not_mem_nil
  | cons p ps ih =>
    have hfirst : p.bare.length ≤ p.dropComment.length := length_bare_le
    have hrest := length_join_bare_le ps
    rw [List.map_cons, List.map_cons, String.join_cons, String.join_cons, String.length_append,
      String.length_append] at h
    refine List.forall_mem_cons.mpr ⟨fun hend => ?_, ih (by omega)⟩
    have hlonger := length_bare_lt hend
    omega

/-- Reading drops the comments that were put there exactly if none of them has a mark for its end within. -/
theorem join_dropComment_iff {ps : List Insertion} :
    String.join (ps.map dropComment) = String.join (ps.map bare) ↔ ∀ p ∈ ps, ¬HasCommentEnd p.inside := by
  constructor
  · intro h
    exact not_hasCommentEnd_of_length_le (congrArg String.length h).le
  · intro h
    exact congrArg String.join (List.map_congr_left fun p hp => dropComment_of_not (h p hp))

end Insertion

namespace Generation

/-- The same generation, with a header and step comments or without both. -/
def withComments (g : Generation) (b : Bool) : Generation :=
  { g with settings := { g.settings with emitHeader := b, emitStepComments := b } }

/-- The header of a program and the comments of its steps, with the codes that the steps have without them. -/
def insertions (g : Generation) (job : Job) (generatedAt : String) : List Insertion :=
  ⟨" Job: " ++ job.name ++ "  Generated: " ++ generatedAt ++ " ", g.settings.lineBreak ++ g.settings.lineBreak, ""⟩ ::
    ((g.withComments false).emitted job).map fun i =>
      ⟨" Step: " ++ (job.transforms.get i).name ++ " (" ++ (job.transforms.get i).kind.name ++ ") ",
        g.settings.lineBreak, (g.withComments false).codeAt job i⟩

section Comments
variable {g : Generation} {m : Messages} {job : Job} {generatedAt : String} {i : Fin job.transforms.length}

theorem generate_withComments (g : Generation) (b : Bool) (lookup : String → Option Table) (t : Transform) :
    (g.withComments b).generate lookup t = g.generate lookup t := by
  have hs : g.settings.Alike (g.withComments b).settings := ⟨rfl, rfl, rfl⟩
  rcases generate_alike g.registry hs (.refl t) fun r _ => .refl lookup r with
    ⟨f, hfailed, hfailed'⟩ | ⟨generator, script, -, hok, hok'⟩
  · exact hfailed'.trans hfailed.symm
  · exact hok'.trans hok.symm

theorem emitted_withComments : (g.withComments true).emitted job = (g.withComments false).emitted job := by
  have hsucceeds : (g.withComments true).succeedsAt job = (g.withComments false).succeedsAt job := by
    funext i
    unfold succeedsAt generateAt
    rw [generate_withComments, generate_withComments]
  rw [emitted, emitted, hsucceeds]

theorem codeAt_withComments (hi : i ∈ (g.withComments false).emitted job) :
    (g.withComments true).codeAt job i =
      (g.withComments true).stepComment (job.transforms.get i) ++ (g.withComments false).codeAt job i := by
  obtain ⟨buffer, hplain⟩ := succeedsAt_iff.mp (mem_emitted.mp hi)
  have hcommented : (g.withComments true).generateAt job i = .ok buffer := by
    unfold generateAt at hplain ⊢
    rw [generate_withComments] at hplain ⊢
    exact hplain
  have hnone : (g.withComments false).stepComment (job.transforms.get i) = "" := rfl
  rw [codeAt_of_ok hplain, codeAt_of_ok hcommented, hnone, String.empty_append]

theorem code_withComments_true : ((g.withComments true).program m generatedAt job).code =
    String.join ((g.insertions job generatedAt).map Insertion.text) := by
  have hheader : (g.withComments true).header job generatedAt =
      Insertion.text ⟨" Job: " ++ job.name ++ "  Generated: " ++ generatedAt ++ " ",
        g.settings.lineBreak ++ g.settings.lineBreak, ""⟩ := by
    rw [← String.toList_inj]
    simp [header, withComments, Insertion.text, Settings.lineBreak]
  rw [code_program, emitted_withComments, insertions, List.map_cons, String.join_cons, hheader, List.map_map]
  refine congrArg (_ ++ String.join ·) (List.map_congr_left fun i hi => ?_)
  rw [codeAt_withComments hi, ← String.toList_inj]
  simp [stepComment, withComments, Insertion.text, Settings.lineBreak]

theorem code_withComments_false : ((g.withComments false).program m generatedAt job).code =
    String.join ((g.insertions job generatedAt).map Insertion.code) := by
  have hnone : (g.withComments false).header job generatedAt = "" := rfl
  rw [code_program, hnone, insertions, List.map_cons, String.join_cons, List.map_map]
  rfl

theorem hasCommentEnd_header {name time : String} :
    HasCommentEnd (" Job: " ++ name ++ "  Generated: " ++ time ++ " ") ↔ HasCommentEnd name ∨ HasCommentEnd time := by
  simp +decide [List.getLast?_cons, List.getLast?_append]

theorem hasCommentEnd_step {name : String} (kind : Kind) :
    HasCommentEnd (" Step: " ++ name ++ " (" ++ kind.name ++ ") ") ↔ HasCommentEnd name := by
  cases kind <;> simp +decide [Kind.name]

/-- No comment has a mark for its end within exactly if no name of the job and of its generated steps has one. -/
theorem insertions_inside_iff : (∀ p ∈ g.insertions job generatedAt, ¬HasCommentEnd p.inside) ↔
    ¬HasCommentEnd job.name ∧ ¬HasCommentEnd generatedAt ∧
      ∀ i ∈ (g.withComments false).emitted job, ¬HasCommentEnd (job.transforms.get i).name := by
  rw [insertions, List.forall_mem_cons, hasCommentEnd_header, not_or, and_assoc, List.forall_mem_map]
  simp only [hasCommentEnd_step]

end Comments

end Generation

/-- A program with comments is the program without them, with the comments put in. Each comment is closed by its own
    mark exactly if neither the name of the job nor the time nor the name of a generated step has such a mark; and
    exactly then what is left without the comments is the program without them, but for line breaks. -/
theorem comments_close_iff (g : Generation) (m : Messages) (generatedAt : String) (job : Job) :
    ((g.withComments true).program m generatedAt job).code =
      String.join ((g.insertions job generatedAt).map Insertion.text) ∧
    ((g.withComments false).program m generatedAt job).code =
      String.join ((g.insertions job generatedAt).map Insertion.code) ∧
    ((∀ p ∈ g.insertions job generatedAt, ¬HasCommentEnd p.inside) ↔
      ¬HasCommentEnd job.name ∧ ¬HasCommentEnd generatedAt ∧
        ∀ i ∈ (g.withComments false).emitted job, ¬HasCommentEnd (job.transforms.get i).name) ∧
    (String.join ((g.insertions job generatedAt).map Insertion.dropComment) =
      String.join ((g.insertions job generatedAt).map Insertion.bare) ↔
      ¬HasCommentEnd job.name ∧ ¬HasCommentEnd generatedAt ∧
        ∀ i ∈ (g.withComments false).emitted job, ¬HasCommentEnd (job.transforms.get i).name) := by
  refine ⟨Generation.code_withComments_true, Generation.code_withComments_false,
    Generation.insertions_inside_iff, ?_⟩
  rw [Insertion.join_dropComment_iff, Generation.insertions_inside_iff]

/-- A job with a step whose name closes a comment, goes on with a statement and opens a comment again. -/
def markedJob : Job where
  name := "nightly"
  tables := [.ofName "SRC", .ofName "OUT"]
  transforms := [
    { name := "all */ endsas; /* rows", kind := .append, sources := [⟨"SRC"⟩], targets := [⟨"OUT"⟩] }]

/-- The comment of the step ends within the name, and the statement is left in the code. -/
theorem markedJob_comment_ends_early :
    ∃ p ∈ withHeader.insertions markedJob "now", HasCommentEnd p.inside ∧
      p.text = "/* Step: all */ endsas; /* rows (append) */\n" ++ p.code ∧
      p.dropComment = " endsas; /* rows (append) */\n" ++ p.code := by
  have hemitted : (withHeader.withComments false).emitted markedJob = [⟨0, by decide⟩] := rfl
  have hinside : " Step: " ++ (markedJob.transforms.get ⟨0, by decide⟩).name ++ " (" ++
      (markedJob.transforms.get ⟨0, by decide⟩).kind.name ++ ") " = " Step: all */ endsas; /* rows (append) " := by
    decide
  have hbreak : withHeader.settings.lineBreak = "\n" := rfl
  rw [Generation.insertions, hemitted, List.map_singleton, hinside, hbreak]
  refine ⟨_, List.mem_cons_of_mem _ (List.mem_singleton_self _), by decide, ?_, ?_⟩
  · rw [← String.toList_inj]
    simp [Insertion.text]
  · rw [← String.toList_inj, Insertion.toList_dropComment]
    simp [Insertion.bare, afterComment]

end StepScript
