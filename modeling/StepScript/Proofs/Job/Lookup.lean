import StepScript.Proofs.Job.Duplicates
import StepScript.Proofs.Text.Uuid

/-! Transformations by their keys. A key is a name or the text of an identifier, and the first transformation that
    has it is found. Names are distinct in a loaded job, identifiers need not be, and the text of an identifier may be
    a name: a transformation is hidden from its own keys by an earlier one that has the same identifier, or of which
    one is named like the identifier of the other. -/

namespace StepScript

/-- Through one of the keys of `t` this transformation is found, if it stands ahead of `t`. -/
def Transform.Hides (u t : Transform) : Prop :=
  u.id.text = t.name ∨ u.name = t.id.text ∨ u.id = t.id

instance (u t : Transform) : Decidable (u.Hides t) :=
  inferInstanceAs (Decidable (_ ∨ _ ∨ _))

section
variable {α : Type} {p : α → Bool} {a : α} {ahead rest : List α}

/-- A search finds an element that it accepts exactly if it accepts none of those ahead, which are others. -/
theorem find?_append_cons_eq_some_iff (ha : p a = true) (hnew : a ∉ ahead) :
    (ahead ++ a :: rest).find? p = some a ↔ ∀ b ∈ ahead, ¬p b = true := by
  rw [List.find?_append, List.find?_cons_of_pos ha]
  cases hfound : ahead.find? p with
  | none => exact ⟨fun _ => List.find?_eq_none.mp hfound, fun _ => rfl⟩
  | some b =>
    have hb : b ∈ ahead := List.mem_of_find?_eq_some hfound
    refine ⟨fun h => ?_, fun h => absurd (List.find?_some hfound) (h b hb)⟩
    obtain rfl : b = a := Option.some.inj h
    exact absurd hb hnew

theorem pairwise_iff_ahead {R : α → α → Prop} {l : List α} :
    l.Pairwise R ↔ ∀ ahead a rest, l = ahead ++ a :: rest → ∀ b ∈ ahead, R b a := by
  constructor
  · rintro h ahead a rest rfl b hb
    exact (List.pairwise_append.mp h).2.2 b hb a List.mem_cons_self
  · intro h
    refine List.pairwise_iff_forall_sublist.mpr fun {b a} hsub => ?_
    obtain ⟨front, back, rfl, hb, hback⟩ := List.cons_sublist_iff.mp hsub
    obtain ⟨between, rest, rfl⟩ := List.append_of_mem (List.singleton_sublist.mp hback)
    exact h (front ++ between) a rest (List.append_assoc _ _ _).symm b (List.mem_append_left _ hb)

end

namespace Job
variable {job : Job} {t : Transform} {ahead rest : List Transform}

theorem names_ahead_ne (hnames : (job.transforms.map (·.name)).Nodup) (h : job.transforms = ahead ++ t :: rest) :
    ∀ u ∈ ahead, u.name ≠ t.name := by
  intro u hu
  rw [h, List.map_append, List.map_cons] at hnames
  exact (List.nodup_append.mp hnames).2.2 u.name (List.mem_map_of_mem hu) t.name List.mem_cons_self

theorem transform?_name_iff (hnames : (job.transforms.map (·.name)).Nodup) (h : job.transforms = ahead ++ t :: rest) :
    job.transform? t.name = some t ↔ ∀ u ∈ ahead, u.id.text ≠ t.name := by
  have hne := names_ahead_ne hnames h
  rw [transform?, h, find?_append_cons_eq_some_iff (by simp) fun ht => hne t ht rfl]
  refine forall₂_congr fun u hu => ?_
  simp [hne u hu]

theorem transform?_id_iff (hnames : (job.transforms.map (·.name)).Nodup) (h : job.transforms = ahead ++ t :: rest) :
    job.transform? t.id.text = some t ↔ ∀ u ∈ ahead, u.name ≠ t.id.text ∧ u.id ≠ t.id := by
  have hne := names_ahead_ne hnames h
  rw [transform?, h, find?_append_cons_eq_some_iff (by simp) fun ht => hne t ht rfl]
  refine forall₂_congr fun u _ => ?_
  simp [Uuid.text_injective.eq_iff]

theorem found_iff (hnames : (job.transforms.map (·.name)).Nodup) (h : job.transforms = ahead ++ t :: rest) :
    job.transform? t.name = some t ∧ job.transform? t.id.text = some t ↔ ∀ u ∈ ahead, ¬u.Hides t := by
  rw [transform?_name_iff hnames h, transform?_id_iff hnames h]
  constructor
  · rintro ⟨hname, hid⟩ u hu (hu' | hu' | hu')
    · exact hname u hu hu'
    · exact (hid u hu).1 hu'
    · exact (hid u hu).2 hu'
  · intro hclear
    refine ⟨fun u hu h => hclear u hu (.inl h), fun u hu => ⟨fun h => ?_, fun h => ?_⟩⟩
    · exact hclear u hu (.inr (.inl h))
    · exact hclear u hu (.inr (.inr h))

theorem all_found_iff (hnames : (job.transforms.map (·.name)).Nodup) :
    (∀ t ∈ job.transforms, job.transform? t.name = some t ∧ job.transform? t.id.text = some t) ↔
      job.transforms.Pairwise fun u t => ¬u.Hides t := by
  rw [pairwise_iff_ahead]
  constructor
  · intro h ahead t rest hsplit
    exact (found_iff hnames hsplit).mp (h t (hsplit ▸ List.mem_append_right _ List.mem_cons_self))
  · intro h t ht
    obtain ⟨ahead, rest, hsplit⟩ := List.append_of_mem ht
    exact (found_iff hnames hsplit).mpr (h ahead t rest hsplit)

/-- With distinct identifiers, and names that are not texts of identifiers, every transformation is found. -/
theorem all_found_of_plain_names (hnames : (job.transforms.map (·.name)).Nodup)
    (hids : (job.transforms.map Transform.id).Nodup) (hplain : ∀ t ∈ job.transforms, Uuid.parse? t.name = none) :
    ∀ t ∈ job.transforms, job.transform? t.name = some t ∧ job.transform? t.id.text = some t := by
  have hname : ∀ t ∈ job.transforms, ∀ id : Uuid, id.text ≠ t.name := by
    intro t ht id h
    have hparse := id.parse?_text
    rw [h, hplain t ht] at hparse
    cases hparse
  have hdistinct : job.transforms.Pairwise fun u t => u.id ≠ t.id := List.pairwise_map.mp hids
  refine (all_found_iff hnames).mpr (hdistinct.imp_of_mem fun {u t} hu ht hne => ?_)
  rintro (h | h | h)
  · exact hname t ht u.id h
  · exact hname u hu t.id h.symm
  · exact hne h

/-- A transformation of a loaded job is found by its name and by its identifier exactly if no earlier one hides it. -/
theorem found_by_keys_iff {format : Format} {text : String} (hload : Job.parse format text = .ok job) :
    (∀ ahead t rest, job.transforms = ahead ++ t :: rest →
      (job.transform? t.name = some t ∧ job.transform? t.id.text = some t ↔ ∀ u ∈ ahead, ¬u.Hides t)) ∧
      ((∀ t ∈ job.transforms, job.transform? t.name = some t ∧ job.transform? t.id.text = some t) ↔
        job.transforms.Pairwise fun u t => ¬u.Hides t) := by
  have hnames : (job.transforms.map (·.name)).Nodup := (check_eq_ok_iff.mp (parse_eq_ok_iff.mp hload).2).2
  exact ⟨fun _ _ _ hsplit => found_iff hnames hsplit, all_found_iff hnames⟩

def distinctIdsText : String :=
  "name: j\ntransformations:\n" ++
    "- name: a\n  kind: sort\n  id: 00000000-0000-0000-0000-000000000001\n" ++
    "- name: b\n  kind: append\n  id: 00000000-0000-0000-0000-000000000002\n"

theorem distinctIds_found : ∃ job, Job.parse .yaml distinctIdsText = .ok job ∧ job.transforms.length = 2 ∧
    ∀ t ∈ job.transforms, job.transform? t.name = some t ∧ job.transform? t.id.text = some t := by
  have hload : (Job.parse .yaml distinctIdsText).toOption.any
      (fun job => job.transforms.length = 2 ∧ job.transforms.Pairwise fun u t => ¬u.Hides t) = true := by
    decide +kernel
  obtain ⟨job, h, hjob⟩ := exists_ok_of_any hload
  obtain ⟨hlength, hclear⟩ := of_decide_eq_true hjob
  exact ⟨job, h, hlength, (found_by_keys_iff h).2.mpr hclear⟩

def sharedIdText : String :=
  "name: j\ntransformations:\n" ++
    "- name: a\n  kind: sort\n  id: 00000000-0000-0000-0000-000000000001\n" ++
    "- name: b\n  kind: append\n  id: 00000000-0000-0000-0000-000000000001\n"

/-- The second step is not found by its identifier. -/
theorem sharedId_hides_second : ∃ job, Job.parse .yaml sharedIdText = .ok job ∧
    ∃ t ∈ job.transforms, t.name = "b" ∧ job.transform? t.id.text ≠ some t := by
  have hload : (Job.parse .yaml sharedIdText).toOption.any
      (fun job => ∃ t ∈ job.transforms, t.name = "b" ∧ (job.transform? t.id.text).map (·.name) = some "a") = true := by
    decide +kernel
  obtain ⟨job, h, hjob⟩ := exists_ok_of_any hload
  obtain ⟨t, ht, hname, hfound⟩ := of_decide_eq_true hjob
  refine ⟨job, h, t, ht, hname, fun hself => ?_⟩
  rw [hself, Option.map_some, hname] at hfound
  exact absurd hfound (by decide)

end Job

end StepScript
