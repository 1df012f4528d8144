import SqlFilter.Proofs.FreeNames

/-!
Renumbering: what a run of renumberings does to the parameters of a compiled condition. New names
are words, all names come out distinct and unbound, and a parameter is renamed exactly as its
placeholder.
-/
namespace SqlFilter

theorem dropWhile_at_of_isWordText {w : String} (h : Text.isWordText w) :
    w.toList.dropWhile (· == '@') = w.toList := by
  obtain ⟨_, hw⟩ := Placeholder.isWordText_iff.1 h
  cases hc : w.toList with
  | nil => rfl
  | cons c cs =>
    have hne : c ≠ '@' := by
      rintro rfl
      exact absurd (hw '@' (by simp [hc])) (by decide)
    simp [hne]

theorem bareName_of_isWordText {w : String} (h : Text.isWordText w) : bareName ("@" ++ w) = w := by
  simp [bareName, dropWhile_at_of_isWordText h]

theorem placeholder_of_isWordText {w : String} (h : Text.isWordText w) :
    placeholder w = "@" ++ w := by
  simp [placeholder, bareName, dropWhile_at_of_isWordText h]

def Parameter.Worded (p : Parameter) : Prop := ∃ w, Text.isWordText w ∧ p.name = "@" ++ w

theorem Parameter.Worded.isWordText {p : Parameter} (h : p.Worded) :
    Text.isWordText (bareName p.name) := by
  obtain ⟨w, hw, hp⟩ := h
  rwa [hp, bareName_of_isWordText hw]

theorem Parameter.Worded.name_eq {p : Parameter} (h : p.Worded) :
    p.name = "@" ++ bareName p.name := by
  obtain ⟨w, hw, hp⟩ := h
  rw [hp, bareName_of_isWordText hw]

namespace Select

theorem dropLastWhile_sublist (p : Char → Bool) (cs : List Char) :
    (Text.dropLastWhile p cs).Sublist cs := by
  have h := (List.dropWhile_sublist (l := cs.reverse) p).reverse
  rwa [List.reverse_reverse] at h

theorem exists_nextFreeName_eq {name : String} (taken : List String)
    (h : Text.isWordText (bareName name)) :
    ∃ w, Text.isWordText w ∧ nextFreeName name taken = "@" ++ w := by
  obtain ⟨i, hi, _⟩ := nextFreeName_eq name taken
  obtain ⟨_, hw⟩ := Placeholder.isWordText_iff.1 h
  refine ⟨nameStem name ++ toString i, ?_, by rw [hi, numbered, String.append_assoc]⟩
  refine Placeholder.isWordText_append_toString (fun c hc => ?_) i
  rw [nameStem, String.toList_ofList] at hc
  exact hw c ((dropLastWhile_sublist _ _).subset hc)

namespace Renumbering

variable {r : Renumbering} {p : Parameter} {ps : List Parameter}

/-- What is bound is taken, and so are the names that come. -/
structure Covers (r : Renumbering) (ps : List Parameter) : Prop where
  bound : ∀ n ∈ r.bound, n ∈ r.taken
  incoming : ∀ p ∈ ps, p.name ∈ r.taken

theorem step_of_mem (h : p.name ∈ r.bound) :
    r.step p =
      ({ p with name := nextFreeName p.name r.taken },
        ⟨nextFreeName p.name r.taken :: r.bound, nextFreeName p.name r.taken :: r.taken,
          (bareName p.name, nextFreeName p.name r.taken) :: r.renames⟩) := by
  rw [step, if_pos h]

theorem step_of_not_mem (h : p.name ∉ r.bound) :
    r.step p = (p, { r with bound := p.name :: r.bound }) := by
  rw [step, if_neg h]

theorem run_cons (r : Renumbering) (p : Parameter) (ps : List Parameter) :
    r.run (p :: ps) =
      ((r.step p).1 :: ((r.step p).2.run ps).1, ((r.step p).2.run ps).2) := rfl

theorem bound_step (r : Renumbering) (p : Parameter) :
    (r.step p).2.bound = (r.step p).1.name :: r.bound := by
  by_cases h : p.name ∈ r.bound
  · rw [step_of_mem h]
  · rw [step_of_not_mem h]

theorem Covers.step (h : r.Covers (p :: ps)) : (r.step p).2.Covers ps := by
  have hps : ∀ q ∈ ps, q.name ∈ r.taken := fun q hq => h.incoming q (by simp [hq])
  by_cases hp : p.name ∈ r.bound
  · rw [step_of_mem hp]
    refine ⟨fun n hn => ?_, fun q hq => List.mem_cons_of_mem _ (hps q hq)⟩
    rcases List.mem_cons.1 hn with rfl | hn
    · exact List.mem_cons_self
    · exact List.mem_cons_of_mem _ (h.bound n hn)
  · rw [step_of_not_mem hp]
    refine ⟨fun n hn => ?_, hps⟩
    rcases List.mem_cons.1 hn with rfl | hn
    · exact h.incoming p (by simp)
    · exact h.bound n hn

theorem Covers.step_name_not_mem (h : r.Covers (p :: ps)) : (r.step p).1.name ∉ r.bound := by
  by_cases hp : p.name ∈ r.bound
  · rw [step_of_mem hp]
    exact fun hn => nextFreeName_not_mem p.name r.taken (h.bound _ hn)
  · rwa [step_of_not_mem hp]

theorem Covers.run_names (h : r.Covers ps) :
    ((r.run ps).1.map Parameter.name).Nodup ∧
      ∀ n ∈ (r.run ps).1.map Parameter.name, n ∉ r.bound := by
  induction ps generalizing r with
  | nil => exact ⟨List.nodup_nil, fun n hn => absurd hn List.not_mem_nil⟩
  | cons p ps ih =>
    obtain ⟨hnodup, hfree⟩ := ih h.step
    -- What comes later avoids all that is bound after the first step, its new name too.
    rw [bound_step] at hfree
    rw [run_cons, List.map_cons]
    constructor
    · exact List.nodup_cons.2 ⟨fun hn => hfree _ hn List.mem_cons_self, hnodup⟩
    · intro n hn
      rcases List.mem_cons.1 hn with rfl | hn
      · exact h.step_name_not_mem
      · exact fun hb => hfree n hn (List.mem_cons_of_mem _ hb)

theorem lookup_step {n : String} (h : n ≠ bareName p.name) :
    (r.step p).2.renames.lookup n = r.renames.lookup n := by
  by_cases hp : p.name ∈ r.bound
  · rw [step_of_mem hp, List.lookup_cons, beq_false_of_ne h]
  · rw [step_of_not_mem hp]

theorem lookup_run {n : String} (h : ∀ p ∈ ps, n ≠ bareName p.name) :
    (r.run ps).2.renames.lookup n = r.renames.lookup n := by
  induction ps generalizing r with
  | nil => rfl
  | cons p ps ih =>
    rw [run_cons, ih fun q hq => h q (by simp [hq]), lookup_step (h p (by simp))]

def renamed (r : Renumbering) (p : Parameter) : Parameter :=
  { p with name := "@" ++ (r.rename (bareName p.name)).getD (bareName p.name) }

theorem step_eq_renamed (hp : p.Worded) (hkey : r.renames.lookup (bareName p.name) = none) :
    (r.step p).1 = (r.step p).2.renamed p := by
  by_cases h : p.name ∈ r.bound
  · obtain ⟨w, hw, hfresh⟩ := exists_nextFreeName_eq r.taken hp.isWordText
    simp [step_of_mem h, renamed, rename, hfresh, bareName_of_isWordText hw]
  · simp [step_of_not_mem h, renamed, rename, hkey, ← hp.name_eq]

/-- A run over distinct words renames each parameter as its placeholder. -/
theorem run_eq_map (hps : ∀ p ∈ ps, p.Worded) (hnodup : (ps.map Parameter.name).Nodup)
    (hkeys : ∀ p ∈ ps, r.renames.lookup (bareName p.name) = none) :
    (r.run ps).1 = ps.map (r.run ps).2.renamed := by
  induction ps generalizing r with
  | nil => rfl
  | cons p ps ih =>
    have hp : p.Worded := hps p (by simp)
    obtain ⟨hnot, hnodup⟩ := List.nodup_cons.1 hnodup
    have hne : ∀ q ∈ ps, bareName q.name ≠ bareName p.name := by
      intro q hq h
      have hq' : q.Worded := hps q (by simp [hq])
      exact hnot (List.mem_map.2 ⟨q, hq, by rw [hq'.name_eq, h, ← hp.name_eq]⟩)
    have hrest := ih (r := (r.step p).2) (fun q hq => hps q (by simp [hq])) hnodup
      fun q hq => by rw [lookup_step (hne q hq), hkeys q (by simp [hq])]
    -- No later step renames the first parameter again.
    have hhead : ((r.step p).2.run ps).2.renamed p = (r.step p).2.renamed p := by
      rw [renamed, rename, lookup_run fun q hq => (hne q hq).symm]
      rfl
    rw [run_cons, List.map_cons, hrest, hhead, step_eq_renamed hp (hkeys p (by simp))]

theorem renames_step (hp : p.Worded) (h : Placeholder.Renames r.rename) :
    Placeholder.Renames (r.step p).2.rename := by
  by_cases hb : p.name ∈ r.bound
  · obtain ⟨w, hw, hfresh⟩ := exists_nextFreeName_eq r.taken hp.isWordText
    intro n v hn
    simp only [rename, step_of_mem hb, List.lookup_cons] at hn
    split at hn
    · rw [hfresh, Option.map_some, bareName_of_isWordText hw, Option.some_inj] at hn
      exact hn ▸ hw
    · exact h n v hn
  · rw [step_of_not_mem hb]
    exact h

theorem renames_run (hps : ∀ p ∈ ps, p.Worded) (h : Placeholder.Renames r.rename) :
    Placeholder.Renames (r.run ps).2.rename := by
  induction ps generalizing r with
  | nil => exact h
  | cons p ps ih =>
    exact ih (fun q hq => hps q (by simp [hq])) (renames_step (hps p (by simp)) h)

theorem run_eq_self (hnodup : (ps.map Parameter.name).Nodup)
    (hfree : ∀ p ∈ ps, p.name ∉ r.bound) :
    (r.run ps).1 = ps ∧ (r.run ps).2.renames = r.renames := by
  induction ps generalizing r with
  | nil => exact ⟨rfl, rfl⟩
  | cons p ps ih =>
    obtain ⟨hnot, hnodup⟩ := List.nodup_cons.1 hnodup
    have hp : p.name ∉ r.bound := hfree p (by simp)
    have hps : ∀ q ∈ ps, q.name ∉ p.name :: r.bound := by
      intro q hq h
      rcases List.mem_cons.1 h with h | h
      · exact hnot (h ▸ List.mem_map_of_mem hq)
      · exact hfree q (by simp [hq]) h
    obtain ⟨h₁, h₂⟩ := ih (r := { r with bound := p.name :: r.bound }) hnodup hps
    rw [run_cons, step_of_not_mem hp]
    exact ⟨by rw [h₁], h₂⟩

end Renumbering

end Select

end SqlFilter
