import StepScript.Proofs.Step.Growth
import StepScript.Proofs.Step.Places

/-! Intermediate tables are new. Their names end in the number up to which such tables are counted, and whoever names
    one counts first. What stands ahead of the number has the same length in every name of a run, whatever the
    identifiers of the transformations, so two names with different numbers are different. -/

namespace StepScript

/-- The start of a data step that creates a table is in the code. -/
def Buffer.Creates (b : Buffer) (table : String) : Prop :=
  ∃ level, Step.line b.lineBreak level ("data " ++ table ++ ";") ∈ b.fragments.toList

theorem Buffer.Continues.creates {b b' : Buffer} {table : String} (h : b.Continues b') (hb : b.Creates table) :
    b'.Creates table := by
  obtain ⟨level, hlevel⟩ := hb
  rw [← h.lineBreak] at hlevel
  exact ⟨level, h.fragments.subset hlevel⟩

theorem StepState.Maps.creates {env : Env} {t : Transform} {s s' : StepState} (h : s.Maps env t s') :
    s'.buffer.Creates (Step.workTable env.settings t s'.workTables) := by
  obtain ⟨ahead, level, hcreated⟩ := h.created
  rw [← h.buffer.lineBreak] at hcreated
  exact ⟨level, hcreated.subset (List.mem_append_right _ List.mem_cons_self)⟩

/-! ### Names -/

namespace Step

/-- The transformations do not matter, only that the names have different numbers. -/
theorem workTable_inj {s : Settings} {t t' : Transform} {m n : Nat} (h : workTable s t m = workTable s t' n) :
    m = n := by
  have hchars := congrArg String.toList h
  simp only [workTable, String.toList_append] at hchars
  have hlength : (idPart t).toList.length = (idPart t').toList.length := by rw [length_idPart, length_idPart]
  have hnumber := List.append_inj_right hchars (by simp only [List.length_append, hlength])
  have hdigits : Nat.toDigits 10 m = Nat.toDigits 10 n := by
    rw [← Nat.toList_repr, ← Nat.toList_repr]
    exact hnumber
  rw [← @Nat.ofDigitChars_ten_toDigits m, hdigits, Nat.ofDigitChars_ten_toDigits]

end Step

namespace Call
open Step
variable {env : Env} {s : StepState} {c : Call} {cs : List Call} {table : String}

/-- The intermediate table that a call has named: the reply to a request is its name, and where columns were mapped
    into one, it counts as produced last. -/
def workTable? (s : StepState) (o : Except Halt Reply × StepState) : Call → Option String
  | .nextWorkTable _ =>
    match o.1 with
    | .ok (.text table) => some table
    | _ => none
  | _ => if s.workTables < o.2.workTables then o.2.lastOutput? else none

/-- The intermediate tables that calls name one after another. -/
def workTables (env : Env) : StepState → List Call → List String
  | _, [] => []
  | s, c :: cs =>
    let o := c.outcome env s
    (c.workTable? s o).toList ++ workTables env o.2 cs

/-- The state after calls one after another. -/
def run (env : Env) (s : StepState) (cs : List Call) : StepState :=
  cs.foldl (fun s c => (c.outcome env s).2) s

/-- Calls with their replies. -/
def exchanges (env : Env) (s : StepState) (cs : List Call) : List (Call × Except Halt Reply) :=
  cs.zip ((outcomes env s cs).map Prod.fst)

/-- A call leaves the count of intermediate tables alone, or it counts one and has named it, in its reply or in the
    code. -/
theorem workTables_cons (env : Env) (s : StepState) (c : Call) (cs : List Call) :
    ∃ s' reply, c.outcome env s = (reply, s') ∧
    (s'.workTables = s.workTables ∧ workTables env s (c :: cs) = workTables env s' cs ∨
      ∃ t, s'.workTables = s.workTables + 1 ∧
        workTables env s (c :: cs) = workTable env.settings t (s.workTables + 1) :: workTables env s' cs ∧
        (c = .nextWorkTable t ∧ reply = .ok (.text (workTable env.settings t (s.workTables + 1))) ∨
          s'.buffer.Creates (workTable env.settings t (s.workTables + 1)))) := by
  refine ⟨(c.outcome env s).2, (c.outcome env s).1, rfl, ?_⟩
  by_cases hc : ∃ t, c = .nextWorkTable t
  · obtain ⟨t, rfl⟩ := hc
    exact .inr ⟨t, rfl, rfl, .inl ⟨rfl, rfl⟩⟩
  · have hother : ∀ o, c.workTable? s o = if s.workTables < o.2.workTables then o.2.lastOutput? else none := by
      intro o
      cases c with
      | nextWorkTable t => exact absurd ⟨t, rfl⟩ hc
      | _ => rfl
    rw [workTables, hother]
    rcases mapsOnce_outcome env s fun t ht => hc ⟨t, ht⟩ with h | ⟨t, h⟩
    · refine .inl ⟨h.workTables, ?_⟩
      rw [if_neg (h.workTables ▸ Nat.lt_irrefl _), Option.toList_none, List.nil_append]
    · refine .inr ⟨t, h.workTables, ?_, .inr (h.workTables ▸ h.creates)⟩
      rw [if_pos (h.workTables ▸ Nat.lt_succ_self _), h.lastOutput?, h.workTables]
      rfl

/-! ### Runs -/

theorem continues_run (env : Env) (s : StepState) (cs : List Call) : s.buffer.Continues (run env s cs).buffer := by
  induction cs generalizing s with
  | nil => exact refl s.buffer
  | cons c cs ih => exact trans_of Buffer.Continues (continues_outcome env s c) (ih (c.outcome env s).2)

theorem run_cons {s' : StepState} {reply : Except Halt Reply} (h : c.outcome env s = (reply, s')) :
    run env s (c :: cs) = run env s' cs := by
  rw [run, List.foldl_cons, h, run]

theorem workTables_run (env : Env) (s : StepState) (cs : List Call) :
    (run env s cs).workTables = s.workTables + (workTables env s cs).length := by
  induction cs generalizing s with
  | nil => rfl
  | cons c cs ih =>
    obtain ⟨s', reply, hs', ⟨hcount, htables⟩ | ⟨t, hcount, htables, -⟩⟩ := workTables_cons env s c cs
    · rw [run_cons hs', ih, htables, hcount]
    · rw [run_cons hs', ih, htables, hcount, List.length_cons]
      omega

/-- A table that is named in a run has a number that no table had ahead of the run. -/
theorem numbered_of_mem_workTables (h : table ∈ workTables env s cs) :
    ∃ t n, s.workTables < n ∧ table = workTable env.settings t n := by
  induction cs generalizing s with
  | nil => cases h
  | cons c cs ih =>
    obtain ⟨s', -, -, ⟨hcount, htables⟩ | ⟨t, hcount, htables, -⟩⟩ := workTables_cons env s c cs
    · rw [htables] at h
      exact hcount ▸ ih h
    · rw [htables] at h
      rcases List.mem_cons.mp h with rfl | h
      · exact ⟨t, _, Nat.lt_succ_self _, rfl⟩
      · obtain ⟨t', n, hn, rfl⟩ := ih h
        exact ⟨t', n, by omega, rfl⟩

theorem nodup_workTables (env : Env) (s : StepState) (cs : List Call) : (workTables env s cs).Nodup := by
  induction cs generalizing s with
  | nil => exact List.nodup_nil
  | cons c cs ih =>
    obtain ⟨s', -, -, ⟨-, htables⟩ | ⟨t, hcount, htables, -⟩⟩ := workTables_cons env s c cs
    · rw [htables]
      exact ih s'
    · rw [htables]
      refine List.nodup_cons.mpr ⟨fun hmem => ?_, ih s'⟩
      obtain ⟨t', n, hn, hsame⟩ := numbered_of_mem_workTables hmem
      have hnumber := workTable_inj hsame
      omega

theorem replied_or_created (h : table ∈ workTables env s cs) :
    (∃ t, (.nextWorkTable t, .ok (.text table)) ∈ exchanges env s cs) ∨ (run env s cs).buffer.Creates table := by
  induction cs generalizing s with
  | nil => cases h
  | cons c cs ih =>
    obtain ⟨s', reply, hs', hnamed⟩ := workTables_cons env s c cs
    have hexchanges : exchanges env s (c :: cs) = (c, reply) :: exchanges env s' cs := by
      rw [exchanges, outcomes, hs']
      rfl
    have hrest : table ∈ workTables env s' cs →
        (∃ t, (.nextWorkTable t, .ok (.text table)) ∈ exchanges env s (c :: cs)) ∨
          (run env s (c :: cs)).buffer.Creates table := by
      intro hmem
      rw [run_cons hs', hexchanges]
      exact (ih hmem).imp_left fun ⟨t, ht⟩ => ⟨t, List.mem_cons_of_mem _ ht⟩
    rcases hnamed with ⟨-, htables⟩ | ⟨t, -, htables, hnew⟩
    · exact hrest (htables ▸ h)
    · rw [htables] at h
      rcases List.mem_cons.mp h with rfl | h
      · rcases hnew with ⟨rfl, rfl⟩ | hcreated
        · rw [hexchanges]
          exact .inl ⟨t, List.mem_cons_self⟩
        · rw [run_cons hs']
          exact .inr ((continues_run env s' cs).creates hcreated)
      · exact hrest h

end Call

/-- Along a run, whatever comes of its calls, no two intermediate tables are given the same name. The count goes up by
    as many as are named, and each is named by the reply to a request, or by the data step in the code that creates
    it. -/
theorem work_tables_fresh (env : Env) (s : StepState) (cs : List Call) :
    (Call.workTables env s cs).Nodup ∧
    (Call.run env s cs).workTables = s.workTables + (Call.workTables env s cs).length ∧
    ∀ table ∈ Call.workTables env s cs,
      (∃ t, (.nextWorkTable t, .ok (.text table)) ∈ Call.exchanges env s cs) ∨
        (Call.run env s cs).buffer.Creates table :=
  ⟨Call.nodup_workTables env s cs, Call.workTables_run env s cs, fun _ => Call.replied_or_created⟩

/-- A sort with an identifier of its own. -/
def numberedSort : Transform :=
  { mappedSort with id? := some ⟨0xa0b1c2d3e4f5061728394a5b6c7d8e9f⟩ }

/-- Calls for two sorts of one identifier. The one without ordering keys fails after its columns were mapped. -/
def numberedCalls : List Call :=
  [.nextWorkTable numberedSort, .generate (.sort .rename) { numberedSort with orderBy := [] },
    .mapColumns .rename numberedSort ""]

theorem numberedCalls_work_tables :
    Call.workTables mappedEnv (.fresh mappedEnv.settings) numberedCalls =
      ["WORK.WA0B1C2D3_1", "WORK.WA0B1C2D3_2", "WORK.WA0B1C2D3_3"] ∧
    (Call.workTables mappedEnv (.fresh mappedEnv.settings) numberedCalls).Nodup ∧
    (Call.run mappedEnv (.fresh mappedEnv.settings) numberedCalls).workTables = 3 ∧
    ((∃ t, (.nextWorkTable t, .ok (.text "WORK.WA0B1C2D3_2")) ∈
        Call.exchanges mappedEnv (.fresh mappedEnv.settings) numberedCalls) ∨
      (Call.run mappedEnv (.fresh mappedEnv.settings) numberedCalls).buffer.Creates "WORK.WA0B1C2D3_2") := by
  have htables : Call.workTables mappedEnv (.fresh mappedEnv.settings) numberedCalls =
      ["WORK.WA0B1C2D3_1", "WORK.WA0B1C2D3_2", "WORK.WA0B1C2D3_3"] := rfl
  obtain ⟨hnodup, hcount, hnamed⟩ := work_tables_fresh mappedEnv (.fresh mappedEnv.settings) numberedCalls
  refine ⟨htables, hnodup, ?_, hnamed _ ?_⟩
  · rw [hcount, htables]
    rfl
  · rw [htables]
    exact List.mem_cons_of_mem _ List.mem_cons_self

end StepScript
