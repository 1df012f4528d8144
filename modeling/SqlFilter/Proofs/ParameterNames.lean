import SqlFilter.Proofs.ParameterHygiene
import SqlFilter.Proofs.SharedBinder
import SqlFilter.Repository
import Mathlib.Data.List.TakeWhile

/-!
The `@` signs in front of parameter names. A name that is made from another one has exactly one; a
name that a compilation hands out has one more than the stem. A parameter is found under its name
exactly if there is one sign, and no run of calls adds or takes away a sign on the way.
-/
namespace SqlFilter

def markCount (name : String) : Nat := (name.toList.takeWhile (· == '@')).length

variable {name : String}

theorem markCount_mark (name : String) : markCount ("@" ++ name) = markCount name + 1 := by
  simp [markCount]

theorem toList_eq_marks_append (name : String) :
    name.toList = List.replicate (markCount name) '@' ++ (bareName name).toList := by
  have hmarks : name.toList.takeWhile (· == '@') = List.replicate (markCount name) '@' :=
    List.eq_replicate_of_mem fun c hc => by simpa using List.mem_takeWhile_imp hc
  rw [← hmarks, bareName, String.toList_ofList, List.takeWhile_append_dropWhile]

theorem markCount_eq_zero_of_prefix {name' : String} (hpre : name'.toList <+: name.toList)
    (h : markCount name = 0) : markCount name' = 0 := by
  obtain ⟨rest, hrest⟩ := hpre
  cases hcs : name'.toList with
  | nil => simp [markCount, hcs]
  | cons c cs =>
    rw [hcs, List.cons_append] at hrest
    rw [markCount, ← hrest] at h
    rw [markCount, hcs]
    by_cases hc : c = '@'
    · simp [hc] at h
    · simp [hc]

theorem markCount_bareName (name : String) : markCount (bareName name) = 0 := by
  rw [markCount, bareName, String.toList_ofList, List.length_eq_zero_iff,
    List.takeWhile_eq_nil_iff]
  exact List.dropWhile_get_zero_not _ _

theorem markCount_placeholder (name : String) : markCount (placeholder name) = 1 := by
  rw [placeholder, markCount_mark, markCount_bareName]

/-- A name is looked up as it is exactly if there is one sign. -/
theorem placeholder_eq_self_iff : placeholder name = name ↔ markCount name = 1 := by
  constructor
  · intro h
    rw [← h, markCount_placeholder]
  · intro h
    rw [← String.toList_inj, toList_eq_marks_append name, h, placeholder, String.toList_append]
    rfl

theorem placeholder_bareName (name : String) : placeholder (bareName name) = placeholder name := by
  have hbare : bareName (bareName name) = bareName name := by
    have h := toList_eq_marks_append (bareName name)
    rw [markCount_bareName, List.replicate_zero, List.nil_append] at h
    exact String.toList_inj.1 h.symm
  rw [placeholder, hbare, placeholder]

theorem markCount_append_toString (stem : String) (i : Nat) :
    markCount (stem ++ toString i) = markCount stem := by
  have hdigits : (toString i).toList.takeWhile (· == '@') = [] := by
    cases hcs : (toString i).toList with
    | nil => rfl
    | cons c cs =>
      have hc : c.isDigit := Text.isDigit_of_mem_repr (n := i) (hcs ▸ List.mem_cons_self)
      have hne : c ≠ '@' := by
        rintro rfl
        exact absurd hc (by decide)
      simp [hne]
  rw [markCount, markCount, String.toList_append, List.takeWhile_append, hdigits]
  split <;> simp_all

theorem markCount_numbered (stem : String) (i : Nat) :
    markCount (Select.numbered stem i) = markCount stem + 1 := by
  rw [Select.numbered, String.append_assoc, markCount_mark, markCount_append_toString]

/-- A new name has one sign, whatever the name that it is for. -/
theorem markCount_nextFreeName (name : String) (taken : List String) :
    markCount (Select.nextFreeName name taken) = 1 := by
  obtain ⟨i, hi, -⟩ := Select.nextFreeName_eq name taken
  have hstem : markCount (Select.nameStem name) = 0 := by
    refine markCount_eq_zero_of_prefix ?_ (markCount_bareName name)
    rw [Select.nameStem, String.toList_ofList]
    rw [Text.dropLastWhile, ← List.reverse_suffix, List.reverse_reverse]
    exact List.dropWhile_suffix _
  rw [hi, markCount_numbered, hstem]

def SingleMarks (ps : List Parameter) : Prop := ∀ p ∈ ps, markCount p.name = 1

theorem singleMarks_nil : SingleMarks [] := fun _ hp => absurd hp List.not_mem_nil

theorem singleMarks_append {ps qs : List Parameter} :
    SingleMarks (ps ++ qs) ↔ SingleMarks ps ∧ SingleMarks qs := List.forall_mem_append

theorem markCount_named (name : String) (v : Value) (type : SqlType) :
    markCount (Parameter.named name v type).name = 1 := markCount_placeholder name

theorem singleMarks_raw {sql : String} {vs : List Value} {q : PreparedQuery}
    (h : Repository.raw sql vs = .ok q) : SingleMarks q.params := by
  by_cases hlength : (Placeholder.names sql).length = vs.length
  · rw [Repository.raw, if_pos hlength] at h
    cases h
    intro p hp
    obtain ⟨i, hi, hp⟩ := List.mem_iff_getElem.1 hp
    rw [← hp, List.getElem_zipWith]
    exact markCount_named _ _ _
  · rw [Repository.raw, if_neg hlength] at h
    cases h

/-- Names from a compilation have one sign more than its stem. -/
theorem markCount_compile {o : CompileOptions} {p : Predicate} {c : CompiledFilter}
    (h : o.compile p = .ok c) : ∀ r ∈ c.params, markCount r.name = markCount o.stem + 1 := by
  intro r hr
  have hname : r.name ∈ c.params.map Parameter.name := List.mem_map_of_mem hr
  rw [CompileOptions.names_compile h] at hname
  obtain ⟨k, -, hk⟩ := List.mem_map.1 hname
  rw [← hk]
  exact markCount_numbered o.stem k

theorem markCount_compileAll (stem : String) (calls : List (CompileOptions × Predicate)) :
    ∀ r ∈ (Binder.compileAll (.empty stem) calls).2.params,
      markCount r.name = markCount stem + 1 := by
  intro r hr
  have hname : r.name ∈ (Binder.compileAll (.empty stem) calls).2.names := List.mem_map_of_mem hr
  rw [((Binder.numbered_nil stem).compileAll calls).names_eq] at hname
  obtain ⟨k, -, hk⟩ := List.mem_map.1 hname
  rw [← hk]
  exact markCount_numbered stem k

/-- A parameter is found under its name, with its signs or without, exactly if it has one. -/
theorem PreparedQuery.param?_iff_markCount {q : PreparedQuery} {p : Parameter} (hp : p ∈ q.params)
    {n : String} (hn : placeholder n = placeholder p.name) :
    (∃ r, q.param? n = some r ∧ r.name = p.name) ↔ markCount p.name = 1 := by
  rw [← placeholder_eq_self_iff, param?, hn]
  constructor
  · rintro ⟨r, hr, hname⟩
    have hfound := List.find?_some hr
    rw [hname] at hfound
    exact (beq_iff_eq.1 hfound).symm
  · intro h
    rw [h]
    have hsome : (q.params.find? (·.name == p.name)).isSome :=
      List.find?_isSome.2 ⟨p, hp, beq_self_eq_true _⟩
    obtain ⟨r, hr⟩ := Option.isSome_iff_exists.1 hsome
    exact ⟨r, hr, by simpa using List.find?_some hr⟩

namespace Select

variable {s t : Select} {call : Call}

/-- Where all bound names have one sign, renumbering leaves one just where there was one. -/
theorem Renumbering.singleMarks_run {r : Renumbering} (hr : ∀ n ∈ r.bound, markCount n = 1)
    (ps : List Parameter) : SingleMarks (r.run ps).1 ↔ SingleMarks ps := by
  induction ps generalizing r with
  | nil => rfl
  | cons p ps ih =>
    have hstep : markCount (r.step p).1.name = 1 ↔ markCount p.name = 1 := by
      by_cases h : p.name ∈ r.bound
      · simp [step_of_mem h, markCount_nextFreeName, hr _ h]
      · rw [step_of_not_mem h]
    rw [run_cons, SingleMarks, List.forall_mem_cons, SingleMarks, List.forall_mem_cons, hstep]
    refine and_congr_right fun hp => ih ?_
    rw [bound_step, List.forall_mem_cons]
    exact ⟨hstep.2 hp, hr⟩

theorem singleMarks_filter (s : Select) (c : CompiledFilter) :
    SingleMarks (s.filter c).params ↔ SingleMarks s.params ∧ SingleMarks c.params := by
  rw [params_filter, singleMarks_append]
  refine and_congr_right fun hs => Renumbering.singleMarks_run (fun n hn => ?_) c.params
  obtain ⟨p, hp, rfl⟩ := List.mem_map.1 hn
  exact hs p hp

/-- The parameters that a call brings, before any is renumbered. -/
def Call.brought (call : Call) : List Parameter :=
  call.fragment?.elim call.ownParams CompiledFilter.params

theorem singleMarks_apply (h : s.apply call = .ok t) :
    SingleMarks t.params ↔ SingleMarks s.params ∧ SingleMarks call.brought := by
  rcases apply_cases h with ⟨c, hc, rfl⟩ | ⟨hnone, -, hparams⟩
  · rw [Call.brought, hc]
    exact singleMarks_filter s c
  · rw [Call.brought, hnone, hparams]
    exact singleMarks_append

theorem singleMarks_applyAll {calls : List Call} (h : s.applyAll calls = .ok t) :
    SingleMarks t.params ↔
      SingleMarks s.params ∧ ∀ call ∈ calls, SingleMarks call.brought := by
  induction calls generalizing s with
  | nil =>
    cases h
    simp
  | cons call calls ih =>
    obtain ⟨u, hu, h⟩ := applyAll_cons_eq_ok.1 h
    rw [ih h, singleMarks_apply hu, List.forall_mem_cons, and_assoc]

end Select

/-- The parameters that come from the operations on them, all under stems with a property. -/
inductive Made (S : String → Prop) : List Parameter → Prop
  | named (name : String) (v : Value) (type : SqlType) : Made S [.named name v type]
  | inferred (name : String) (v : Value) : Made S [.inferred name v]
  | compiled {o : CompileOptions} {p : Predicate} {c : CompiledFilter} (hstem : S o.stem)
    (h : o.compile p = .ok c) : Made S c.params
  | shared {stem : String} (hstem : S stem) (calls : List (CompileOptions × Predicate)) :
    Made S (Binder.compileAll (.empty stem) calls).2.params
  | raw {sql : String} {vs : List Value} {q : PreparedQuery} (h : Repository.raw sql vs = .ok q) :
    Made S q.params
  | run {calls : List Select.Call} {s : Select} (hcalls : ∀ call ∈ calls, Made S call.brought)
    (h : Select.applyAll {} calls = .ok s) : Made S s.params

theorem Made.singleMarks {S : String → Prop} (hS : ∀ stem, S stem → markCount stem = 0)
    {ps : List Parameter} (h : Made S ps) : SingleMarks ps := by
  induction h with
  | named name v type => exact List.forall_mem_singleton.2 (markCount_named name v type)
  | inferred name v => exact List.forall_mem_singleton.2 (markCount_named name v _)
  | compiled hstem h =>
    intro r hr
    rw [markCount_compile h r hr, hS _ hstem]
  | shared hstem calls =>
    intro r hr
    rw [markCount_compileAll _ calls r hr, hS _ hstem]
  | raw h => exact singleMarks_raw h
  | run _ h ih => exact (Select.singleMarks_applyAll h).2 ⟨singleMarks_nil, ih⟩

/--
All parameters have exactly one `@` and are found under their names, with it or without, exactly if
no compilation numbers its placeholders under a stem with an `@` in front.
-/
theorem made_found_iff (S : String → Prop) :
    (∀ q : PreparedQuery, Made S q.params → ∀ p ∈ q.params, markCount p.name = 1 ∧
      (∃ r, q.param? p.name = some r ∧ r.name = p.name) ∧
      ∃ r, q.param? (bareName p.name) = some r ∧ r.name = p.name) ↔
    ∀ stem, S stem → markCount stem = 0 := by
  constructor
  · intro h stem hstem
    have hmade : Made S [_] := .shared hstem [({}, .lit (.int 0))]
    obtain ⟨hmark, -⟩ := h ⟨"", _⟩ hmade _ List.mem_cons_self
    have hcount := markCount_compileAll stem [({}, .lit (.int 0))] _ List.mem_cons_self
    omega
  · intro hS q hq p hp
    have hmark : markCount p.name = 1 := hq.singleMarks hS p hp
    exact ⟨hmark, (PreparedQuery.param?_iff_markCount hp rfl).2 hmark,
      (PreparedQuery.param?_iff_markCount hp (placeholder_bareName _)).2 hmark⟩

/-- A stem with an `@`: the placeholder has two, and looks its parameter up in vain. -/
theorem compile_under_mark_not_found :
    ∃ c p, CompileOptions.compile ⟨.bound, .reject, "@p"⟩ (.eq (.member "A") (.lit (.int 1))) =
        .ok c ∧ c.sql = "A = @@p0" ∧ p ∈ c.params ∧ p.name = "@@p0" ∧ markCount p.name = 2 ∧
      (PreparedQuery.mk c.sql c.params).param? p.name = none ∧
      (PreparedQuery.mk c.sql c.params).param? (bareName p.name) = none := by
  refine ⟨⟨"A = @@p0", [⟨"@@p0", .int 1, .bigInt⟩]⟩, ⟨"@@p0", .int 1, .bigInt⟩, ?_⟩
  decide

end SqlFilter
