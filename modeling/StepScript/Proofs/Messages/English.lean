import StepScript.Failure
import StepScript.Proofs.Messages.Template

/-! Messages about failures. A template is filled out if each of its groups names the position of an argument, so
    that none of them is left over in the message; an argument whose place stands in single quotes is in single
    quotes in the message then, whatever its text is. The English templates are filled out by the name of a
    transformation and the arguments of a cause, and they quote the name, and the table that a cause names. -/

namespace StepScript

namespace Messages

/-- A text stands in single quotes in a message. -/
def InQuotes (text message : String) : Prop :=
  ∃ ahead after, message = ahead ++ "'" ++ text ++ "'" ++ after

namespace Part

/-- The place of an argument in single quotes. -/
def quoted (inside : String) : List Part :=
  [.literal "'", .group inside, .literal "'"]

/-- A group names the position of one of a number of arguments. -/
def Named (count : Nat) : Part → Prop
  | .literal _ => True
  | .group inside => ∃ position < count, Names inside position

instance (count : Nat) : DecidablePred (Named count)
  | .literal _ => inferInstanceAs (Decidable True)
  | .group inside => inferInstanceAs (Decidable (∃ position < count, Names inside position))

end Part

/-- A message is a template in which each group is replaced by the argument whose position it names, and nothing
    else is changed. -/
def FilledOut (args : List String) (template message : String) : Prop :=
  ∃ parts texts, template = String.join (parts.map Part.text) ∧
    (∀ p ∈ parts, p.WellFormed ∧ p.Named args.length) ∧ List.Forall₂ (Part.Becomes args) parts texts ∧
    message = String.join texts

section Texts
variable {m : Messages} {key inside arg : String} {args texts : List String} {parts : List Part} {position : Nat}

theorem text_eq_join (htemplate : m.template? key = some (String.join (parts.map Part.text)))
    (hparts : ∀ p ∈ parts, p.WellFormed) (h : List.Forall₂ (Part.Becomes args) parts texts) :
    m.text key args = String.join texts := by
  have hfill := fill_parts hparts h []
  rw [List.append_nil, fill, List.append_nil] at hfill
  unfold Messages.text
  rw [htemplate]
  dsimp only
  rw [substitute, hfill, String.ofList_toList]

/-- An argument is in quotes in the message if its place is in quotes in the template. -/
theorem inQuotes_join (hquoted : Part.quoted inside <:+: parts) (hnames : Names inside position)
    (harg : args[position]? = some arg) (h : List.Forall₂ (Part.Becomes args) parts texts) :
    InQuotes arg (String.join texts) := by
  obtain ⟨ahead, after, rfl⟩ := hquoted
  rw [List.append_assoc] at h
  induction ahead generalizing texts with
  | nil =>
    obtain ⟨_, _, hleft, hgroup, rfl⟩ := List.forall₂_cons_left_iff.mp h
    obtain ⟨text, _, htext, hlast, rfl⟩ := List.forall₂_cons_left_iff.mp hgroup
    obtain ⟨_, rest, hright, -, rfl⟩ := List.forall₂_cons_left_iff.mp hlast
    cases hleft
    cases hright
    obtain rfl := htext.unique (.argument hnames harg)
    exact ⟨"", String.join rest, by simp [String.join_cons, String.append_assoc]⟩
  | cons p ahead ih =>
    obtain ⟨text, rest, -, hrest, rfl⟩ := List.forall₂_cons_left_iff.mp h
    obtain ⟨before, after, hmessage⟩ := ih hrest
    refine ⟨text ++ before, after, ?_⟩
    rw [String.join_cons, hmessage]
    simp only [String.append_assoc]

end Texts

end Messages

open Messages

namespace Cause

/-- The English template of a cause, in parts. -/
def englishParts? : Cause → Option (List Part)
  | .noSources => some (.literal "Transformation " :: Part.quoted "0" ++ [.literal " has no source tables"])
  | .targetCount _ =>
    some (.literal "Transformation " :: Part.quoted "0" ++
      [.literal " must have exactly one target table, found ", .group "1"])
  | .externalTarget _ =>
    some (.literal "Target table " :: Part.quoted "1" ++ .literal " of transformation " :: Part.quoted "0" ++
      [.literal " is an external table and cannot be replaced"])
  | .externalSource _ =>
    some (.literal "Source table " :: Part.quoted "1" ++ .literal " of transformation " :: Part.quoted "0" ++
      [.literal " is an external table that is not a permanent view"])
  | .sourceIsTarget _ =>
    some (.literal "Transformation " :: Part.quoted "0" ++ .literal " reads table " :: Part.quoted "1" ++
      [.literal " and also replaces it as its target"])
  | .unresolvedTable _ =>
    some (.literal "Table " :: Part.quoted "1" ++ .literal " referenced by transformation " :: Part.quoted "0" ++
      [.literal " could not be found"])
  | .invalidLocation _ _ _ =>
    some (.literal "Table " :: Part.quoted "1" ++ .literal " referenced by transformation " :: Part.quoted "0" ++
      [.literal " has no valid physical location: ", .group "2"])
  | .missingOrderBy _ =>
    some (.literal "Transformation " :: Part.quoted "0" ++
      [.literal " requires at least one order-by column (", .group "1", .literal " options)"])
  | .unsupportedKind _ =>
    some (.literal "No code generator is registered for transformation kind " :: Part.quoted "1" ++
      .literal " of transformation " :: Part.quoted "0")
  | .other _ _ _ => none

/-- The table that a cause names: by its identifier if references are what is wrong, and else by its name. -/
def table? : Cause → Option String
  | .sourceIsTarget tableId | .unresolvedTable tableId => some tableId
  | .externalTarget table | .externalSource table | .invalidLocation _ table _ => some table
  | .noSources | .targetCount _ | .missingOrderBy _ | .unsupportedKind _ | .other _ _ _ => none

section English
variable {c : Cause} {parts : List Part} {table : String}

theorem english_template? (h : c.englishParts? = some parts) :
    english.template? c.key = some (String.join (parts.map Part.text)) := by
  cases c <;> cases h <;> rfl

theorem wellFormed_englishParts (h : c.englishParts? = some parts) : ∀ p ∈ parts, p.WellFormed := by
  cases c <;> cases h <;> decide

/-- The places of a template are those of the name and of the arguments of its cause. -/
theorem named_englishParts (h : c.englishParts? = some parts) : ∀ p ∈ parts, p.Named (c.args.length + 1) := by
  cases c <;> cases h <;> simp only [args, List.length_cons, List.length_nil] <;> decide

theorem name_quoted (h : c.englishParts? = some parts) : Part.quoted "0" <:+: parts := by
  cases c <;> cases h <;> decide

theorem table_quoted (h : c.englishParts? = some parts) (htable : c.table? = some table) :
    c.args[0]? = some table ∧ Part.quoted "1" <:+: parts := by
  cases c <;> cases h <;> cases htable <;> exact ⟨rfl, by decide⟩

theorem english_message (h : c.englishParts? = some parts) (name : String) :
    ∃ texts, List.Forall₂ (Part.Becomes (name :: c.args)) parts texts ∧
      Failure.message english ⟨name, c⟩ = String.join texts := by
  obtain ⟨texts, htexts, -⟩ := Part.existsUnique_becomes (name :: c.args) parts
  exact ⟨texts, htexts, text_eq_join (english_template? h) (wellFormed_englishParts h) htexts⟩

theorem english_filledOut (h : c.englishParts? = some parts) (name : String) :
    FilledOut (name :: c.args) (String.join (parts.map Part.text)) (Failure.message english ⟨name, c⟩) := by
  obtain ⟨texts, htexts, hmessage⟩ := english_message h name
  refine ⟨parts, texts, rfl, fun p hp => ?_, htexts, hmessage⟩
  exact ⟨wellFormed_englishParts h p hp, named_englishParts h p hp⟩

theorem name_inQuotes (h : c.englishParts? = some parts) (name : String) :
    InQuotes name (Failure.message english ⟨name, c⟩) := by
  obtain ⟨texts, htexts, hmessage⟩ := english_message h name
  have hnames : Names "0" 0 := by decide
  rw [hmessage]
  exact inQuotes_join (name_quoted h) hnames rfl htexts

theorem table_inQuotes (h : c.englishParts? = some parts) (htable : c.table? = some table) (name : String) :
    InQuotes table (Failure.message english ⟨name, c⟩) := by
  obtain ⟨texts, htexts, hmessage⟩ := english_message h name
  obtain ⟨harg, hquoted⟩ := table_quoted h htable
  have hnames : Names "1" 1 := by decide
  rw [hmessage]
  exact inQuotes_join hquoted hnames harg htexts

end English

end Cause

end StepScript
