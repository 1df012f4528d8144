import SqlFilter.Proofs.CompiledPlaceholders
import SqlFilter.Proofs.Renumbering
import SqlFilter.Select.Call
import SqlFilter.Select.Rendering

/-!
Hygiene of the parameters of a statement. However compilations are interleaved with other calls, no
two parameters come to share a name, and each placeholder of a compiled condition goes on naming the
value that it was compiled for.
-/
namespace SqlFilter
open Placeholder

namespace CompileOptions

variable {o : CompileOptions} {p : Predicate} {c : CompiledFilter}

theorem nodup_compile (h : o.compile p = .ok c) : (c.params.map Parameter.name).Nodup := by
  have hnodup : (List.range' 0 c.params.length).Nodup := List.nodup_range'
  rw [names_compile h]
  exact hnodup.map (Select.numbered_injective o.stem)

theorem worded_compile (hstem : Text.isWordText o.stem) (h : o.compile p = .ok c) :
    ∀ r ∈ c.params, r.Worded := by
  intro r hr
  have hname : r.name ∈ c.params.map Parameter.name := List.mem_map_of_mem hr
  rw [names_compile h] at hname
  obtain ⟨k, _, hk⟩ := List.mem_map.1 hname
  refine ⟨o.stem ++ toString k, ?_, by rw [← hk, Binder.nameAt, String.append_assoc]⟩
  exact isWordText_append_toString (isWordText_iff.1 hstem).2 k

end CompileOptions

namespace CompiledFilter

/-- A bound compilation under a word, of a condition whose paths hold no marks. -/
def FromBound (c : CompiledFilter) : Prop :=
  ∃ policy stem p, Text.isWordText stem ∧ p.PathsUnmarked ∧
    CompileOptions.compile ⟨.bound, policy, stem⟩ p = .ok c

/-- The placeholders of the text are those of the parameters, in order, and are distinct. -/
structure Matched (c : CompiledFilter) : Prop where
  names : c.params.map Parameter.name = (occurrences c.sql).map ("@" ++ ·)
  nodup : (c.params.map Parameter.name).Nodup

theorem FromBound.matched {c : CompiledFilter} (h : c.FromBound) : c.Matched := by
  obtain ⟨policy, stem, p, hstem, hp, hc⟩ := h
  exact ⟨(CompileOptions.occurrences_compile hstem hp hc).2, CompileOptions.nodup_compile hc⟩

theorem Matched.worded {c : CompiledFilter} (h : c.Matched) : ∀ p ∈ c.params, p.Worded := by
  intro p hp
  have hmem : p.name ∈ (occurrences c.sql).map ("@" ++ ·) :=
    h.names ▸ List.mem_map_of_mem hp
  obtain ⟨w, hw, hname⟩ := List.mem_map.1 hmem
  exact ⟨w, isWordText_of_mem_occurrences hw, hname.symm⟩

theorem Matched.occurrences_eq {c : CompiledFilter} (h : c.Matched) :
    occurrences c.sql = c.params.map fun p => bareName p.name := by
  have hbare : (occurrences c.sql).map (bareName ∘ ("@" ++ ·)) = occurrences c.sql := by
    rw [List.map_congr_left (g := id), List.map_id]
    intro w hw
    exact bareName_of_isWordText (isWordText_of_mem_occurrences hw)
  rw [← hbare, ← List.map_map, ← h.names, List.map_map]
  rfl

end CompiledFilter

namespace Placeholder

/-- A renamed text is blank just where the text is: a placeholder is never blank. -/
theorem allBlank_rename (f : String → Option String) (sql : String) :
    Text.allBlank (rename f sql) = Text.allBlank sql := by
  have htoken (t : Token) : (t.rename f).all Text.isBlank = t.chars.all Text.isBlank := by
    cases t with
    | verbatim text => rfl
    | placeholder name => rfl
  have hchars := flatMap_chars_tokens sql.toList
  rw [Text.allBlank, Text.allBlank, rename, String.toList_ofList, List.all_flatMap]
  conv_rhs => rw [← hchars, List.all_flatMap]
  exact congrArg _ (funext htoken)

end Placeholder

theorem Parameter.find?_of_mem {p : Parameter} {ps : List Parameter}
    (hnodup : (ps.map Parameter.name).Nodup) (hp : p ∈ ps) :
    ps.find? (·.name == p.name) = some p := by
  induction ps with
  | nil => exact absurd hp List.not_mem_nil
  | cons r ps ih =>
    obtain ⟨hnot, hnodup⟩ := List.nodup_cons.1 hnodup
    rcases List.mem_cons.1 hp with rfl | hp
    · simp
    · have hne : r.name ≠ p.name := fun h => hnot (h ▸ List.mem_map_of_mem hp)
      rw [List.find?_cons_of_neg (by simpa using hne)]
      exact ih hnodup hp

theorem PreparedQuery.param?_of_mem {q : PreparedQuery} {p : Parameter}
    (hnodup : (q.params.map Parameter.name).Nodup) (hp : p ∈ q.params) {w : String}
    (hw : Text.isWordText w) (hname : p.name = "@" ++ w) : q.param? w = some p := by
  rw [param?, placeholder_of_isWordText hw, ← hname]
  exact Parameter.find?_of_mem hnodup hp

namespace Select

variable {s t : Select} {c : CompiledFilter} {call : Call}

abbrev paramNames (s : Select) : List String := s.params.map Parameter.name

def entry (s : Select) (c : CompiledFilter) : Renumbering :=
  ⟨s.paramNames, s.paramNames ++ c.params.map Parameter.name, []⟩

/-- The parameters that a compiled condition brings, and its new names. -/
def renumbered (s : Select) (c : CompiledFilter) : List Parameter × Renumbering :=
  (s.entry c).run c.params

def stored (s : Select) (c : CompiledFilter) : Condition :=
  ⟨.and, rename (s.renumbered c).2.rename c.sql⟩

theorem filter_eq (s : Select) (c : CompiledFilter) :
    s.filter c = (s.addCondition .and (s.stored c).text).addParameters (s.renumbered c).1 := rfl

theorem params_filter (s : Select) (c : CompiledFilter) :
    (s.filter c).params = s.params ++ (s.renumbered c).1 := by
  rw [filter_eq, params_addParameters, params_addCondition]

theorem conditions_filter (s : Select) (c : CompiledFilter) :
    (s.filter c).conditions = s.conditions ++ if c.isEmpty then [] else [s.stored c] := by
  rw [filter_eq, conditions_addParameters, conditions_addCondition, stored, allBlank_rename]
  rfl

theorem covers_entry (s : Select) (c : CompiledFilter) : (s.entry c).Covers c.params where
  bound _ hn := List.mem_append_left _ hn
  incoming _ hp := List.mem_append_right _ (List.mem_map_of_mem hp)

theorem renumbered_eq_map (s : Select) (hc : c.Matched) :
    (s.renumbered c).1 = c.params.map (s.renumbered c).2.renamed :=
  Renumbering.run_eq_map hc.worded hc.nodup fun _ _ => rfl

theorem renames_renumbered (s : Select) (hc : c.Matched) : Renames (s.renumbered c).2.rename :=
  Renumbering.renames_run hc.worded fun _ _ h => by simp [Renumbering.rename, entry] at h

theorem nodup_filter (c : CompiledFilter) (hs : s.paramNames.Nodup) :
    (s.filter c).paramNames.Nodup := by
  obtain ⟨hnodup, hfree⟩ := (s.covers_entry c).run_names
  rw [paramNames, params_filter, List.map_append]
  exact List.nodup_append.2 ⟨hs, hnodup, fun n hn m hm h => hfree m hm (h ▸ hn)⟩

/-- Each placeholder of a condition that was added names what it was compiled for. -/
def Carries (s : Select) (c : CompiledFilter) (text : String) : Prop :=
  List.Forall₂ (fun n p => s.build.param? n = some { p with name := "@" ++ n })
    (occurrences text) c.params

theorem carries_stored (hc : c.Matched) (hs : s.paramNames.Nodup) :
    (s.filter c).Carries c (s.stored c).text := by
  have hr := s.renames_renumbered hc
  rw [Carries, stored, occurrences_rename hr, hc.occurrences_eq, List.map_map,
    List.forall₂_map_left_iff, List.forall₂_same]
  intro p hp
  have hmem : (s.renumbered c).2.renamed p ∈ (s.filter c).params := by
    rw [params_filter, s.renumbered_eq_map hc]
    exact List.mem_append_right _ (List.mem_map_of_mem hp)
  have hword : Text.isWordText
      (((s.renumbered c).2.rename (bareName p.name)).getD (bareName p.name)) := by
    cases h : (s.renumbered c).2.rename (bareName p.name) with
    | none => exact (hc.worded p hp).isWordText
    | some w => exact hr _ _ h
  exact PreparedQuery.param?_of_mem (q := (s.filter c).build) (nodup_filter c hs) hmem hword rfl

namespace Call

def fragment? : Call → Option CompiledFilter
  | .filter c => some c
  | .filterPredicate o p => (o.compile p).toOption
  | _ => none

def ownParams : Call → List Parameter
  | .addFilter lead name v =>
    if Text.allBlank lead ∨ Text.allBlank name then [] else [.inferred name v]
  | .addParameter name v type => [.named name v type]
  | .bindParameters b => b.params
  | _ => []

end Call

/--
What is asked of a call: a compiled condition comes from a bound compilation, and a parameter with a
name of its own comes under one that is not bound.
-/
structure Admits (s : Select) (call : Call) : Prop where
  fromBound : ∀ c, call.fragment? = some c → c.FromBound
  nodup : (call.ownParams.map Parameter.name).Nodup
  free : ∀ p ∈ call.ownParams, p.name ∉ s.paramNames

theorem admits_filterPredicate (s : Select) (policy : ConvertPolicy) {stem : String}
    {p : Predicate} (hstem : Text.isWordText stem) (hp : p.PathsUnmarked) :
    s.Admits (.filterPredicate ⟨.bound, policy, stem⟩ p) where
  fromBound c h := by
    refine ⟨policy, stem, p, hstem, hp, ?_⟩
    cases hc : CompileOptions.compile ⟨.bound, policy, stem⟩ p with
    | error e =>
      rw [Call.fragment?, hc] at h
      cases h
    | ok c' =>
      rw [Call.fragment?, hc] at h
      exact congrArg Except.ok (Option.some.inj h)
  nodup := List.nodup_nil
  free _ hp := absurd hp List.not_mem_nil

theorem admits_addParameter {name : String} (v : Value) (type : SqlType)
    (h : placeholder name ∉ s.paramNames) : s.Admits (.addParameter name v type) where
  fromBound _ h := nomatch h
  nodup := List.nodup_singleton _
  free p hp := by
    rw [List.mem_singleton.1 hp]
    exact h

theorem admits_of_binds_nothing (hf : call.fragment? = none) (hp : call.ownParams = []) :
    s.Admits call where
  fromBound c h := by
    rw [hf] at h
    cases h
  nodup := by simp [hp]
  free := by simp [hp]

def Admissible (s : Select) : List Call → Prop
  | [] => True
  | call :: calls => s.Admits call ∧ ∀ t, s.apply call = .ok t → t.Admissible calls

structure Extends (s t : Select) : Prop where
  conditions : s.conditions <+: t.conditions
  params : s.params <+: t.params

theorem Extends.refl (s : Select) : s.Extends s := ⟨List.prefix_rfl, List.prefix_rfl⟩

theorem Extends.trans {u : Select} (h : s.Extends t) (h' : t.Extends u) : s.Extends u :=
  ⟨h.conditions.trans h'.conditions, h.params.trans h'.params⟩

theorem extends_addCondition (s : Select) (combinator : Combinator) (text : String) :
    s.Extends (s.addCondition combinator text) := by
  refine ⟨?_, ?_⟩
  · rw [conditions_addCondition]
    exact List.prefix_append _ _
  · rw [params_addCondition]

theorem extends_addParameters (s : Select) (ps : List Parameter) :
    s.Extends (s.addParameters ps) :=
  ⟨List.prefix_rfl, List.prefix_append _ _⟩

/-- A call adds a compiled condition, or only parameters with names of their own. -/
theorem apply_cases (h : s.apply call = .ok t) :
    (∃ c, call.fragment? = some c ∧ t = s.filter c) ∨
      (call.fragment? = none ∧ s.Extends t ∧ t.params = s.params ++ call.ownParams) := by
  cases call with
  | filter c => exact .inl ⟨c, rfl, (Except.ok.inj h).symm⟩
  | filterPredicate o p =>
    cases hc : o.compile p with
    | error e =>
      rw [apply, filterPredicate, hc] at h
      cases h
    | ok c =>
      rw [apply, filterPredicate, hc] at h
      exact .inl ⟨c, by rw [Call.fragment?, hc]; rfl, (Except.ok.inj h).symm⟩
  | condition combinator text =>
    obtain rfl := Except.ok.inj h
    exact .inr ⟨rfl, s.extends_addCondition _ _, by simp [Call.ownParams]⟩
  | columnTest column test =>
    obtain rfl := Except.ok.inj h
    exact .inr ⟨rfl, s.extends_addCondition _ _, by simp [Call.ownParams]⟩
  | addFilter lead name v =>
    obtain rfl := Except.ok.inj h
    refine .inr ⟨rfl, ?_⟩
    by_cases hb : Text.allBlank lead ∨ Text.allBlank name
    · rw [addFilter, if_pos hb, Call.ownParams, if_pos hb, List.append_nil]
      exact ⟨.refl s, rfl⟩
    · have hadd : s.addFilter lead name v = (s.addCondition .and
          (Text.trim lead ++ " " ++ (Parameter.inferred name v).name)).addParameters
            [.inferred name v] := by
        rw [addFilter, if_neg hb]
        rfl
      rw [hadd, Call.ownParams, if_neg hb, params_addParameters, params_addCondition]
      exact ⟨(s.extends_addCondition _ _).trans (extends_addParameters _ _), rfl⟩
  | addParameter name v type =>
    obtain rfl := Except.ok.inj h
    exact .inr ⟨rfl, s.extends_addParameters [.named name v type], rfl⟩
  | bindParameters b =>
    obtain rfl := Except.ok.inj h
    exact .inr ⟨rfl, s.extends_addParameters b.params, rfl⟩
  | select columns =>
    obtain rfl := Except.ok.inj h
    refine .inr ⟨rfl, ?_⟩
    simp only [select, Call.ownParams, List.append_nil]
    split <;> exact ⟨⟨List.prefix_rfl, List.prefix_rfl⟩, rfl⟩
  | addColumn column =>
    obtain rfl := Except.ok.inj h
    refine .inr ⟨rfl, ?_⟩
    simp only [addColumn, Call.ownParams, List.append_nil]
    split <;> exact ⟨⟨List.prefix_rfl, List.prefix_rfl⟩, rfl⟩
  | addRowCount | source | grouping | order | page | cte | options =>
    obtain rfl := Except.ok.inj h
    exact .inr ⟨rfl, ⟨List.prefix_rfl, List.prefix_rfl⟩, (List.append_nil _).symm⟩

theorem extends_apply (h : s.apply call = .ok t) : s.Extends t := by
  rcases apply_cases h with ⟨c, _, rfl⟩ | ⟨_, hext, _⟩
  · rw [filter_eq]
    exact (s.extends_addCondition _ _).trans (extends_addParameters _ _)
  · exact hext

theorem nodup_apply (ha : s.Admits call) (h : s.apply call = .ok t) (hs : s.paramNames.Nodup) :
    t.paramNames.Nodup := by
  rcases apply_cases h with ⟨c, _, rfl⟩ | ⟨_, _, hparams⟩
  · exact nodup_filter c hs
  · rw [paramNames, hparams, List.map_append]
    refine List.nodup_append.2 ⟨hs, ha.nodup, fun n hn m hm h => ?_⟩
    obtain ⟨p, hp, rfl⟩ := List.mem_map.1 hm
    exact ha.free p hp (h ▸ hn)

theorem applyAll_cons_eq_ok {calls : List Call} :
    s.applyAll (call :: calls) = .ok t ↔ ∃ u, s.apply call = .ok u ∧ u.applyAll calls = .ok t := by
  rw [applyAll, List.foldlM_cons, bind_eq_ok]
  rfl

theorem extends_applyAll {calls : List Call} (h : s.applyAll calls = .ok t) : s.Extends t := by
  induction calls generalizing s with
  | nil =>
    cases h
    exact .refl _
  | cons call calls ih =>
    obtain ⟨u, hu, h⟩ := applyAll_cons_eq_ok.1 h
    exact (extends_apply hu).trans (ih h)

theorem nodup_applyAll {calls : List Call} (hcalls : s.Admissible calls)
    (h : s.applyAll calls = .ok t) (hs : s.paramNames.Nodup) : t.paramNames.Nodup := by
  induction calls generalizing s with
  | nil =>
    cases h
    exact hs
  | cons call calls ih =>
    obtain ⟨u, hu, h⟩ := applyAll_cons_eq_ok.1 h
    exact ih (hcalls.2 u hu) h (nodup_apply hcalls.1 hu hs)

theorem Extends.carries {text : String} (h : s.Extends t) (hc : s.Carries c text) :
    t.Carries c text := by
  refine hc.imp fun n p hp => ?_
  obtain ⟨rest, hrest⟩ := h.params
  rw [PreparedQuery.param?] at hp ⊢
  change (s.params.find? _) = _ at hp
  change (t.params.find? _) = _
  rw [← hrest, List.find?_append, hp, Option.some_or]

theorem Admissible.split {before after : List Call} (h : s.Admissible (before ++ after))
    (hs : s.applyAll before = .ok t) : s.Admissible before ∧ t.Admissible after := by
  induction before generalizing s with
  | nil =>
    cases hs
    exact ⟨trivial, h⟩
  | cons call before ih =>
    obtain ⟨u, hu, hs⟩ := applyAll_cons_eq_ok.1 hs
    obtain ⟨hcall, hrest⟩ := h
    refine ⟨⟨hcall, fun v hv => ?_⟩, (ih (hrest u hu) hs).2⟩
    rw [hu] at hv
    cases hv
    exact (ih (hrest u hu) hs).1

theorem applyAll_append {before after : List Call} (hs : s.applyAll before = .ok t) :
    s.applyAll (before ++ after) = t.applyAll after := by
  rw [applyAll, List.foldlM_append, ← applyAll, hs]
  rfl

/--
After an admissible run no two parameters share a name, and every compiled condition that was added
on the way stands in the statement as its text with other placeholders, each of which still names
what it was compiled for.
-/
theorem applyAll_carries {calls : List Call} (hcalls : Admissible {} calls)
    (hs : applyAll {} calls = .ok s) :
    s.paramNames.Nodup ∧
    ∀ before call after s₀ c, calls = before ++ call :: after → applyAll {} before = .ok s₀ →
      call.fragment? = some c → c.isEmpty = false →
      ∃ f, Renames f ∧ s.conditions[s₀.conditions.length]? = some ⟨.and, rename f c.sql⟩ ∧
        s.Carries c (rename f c.sql) := by
  have hempty : (({} : Select).paramNames).Nodup := List.nodup_nil
  refine ⟨nodup_applyAll hcalls hs hempty, ?_⟩
  rintro before call after s₀ c rfl hs₀ hfrag hne
  obtain ⟨hbefore, hadmits, _⟩ := hcalls.split hs₀
  rw [applyAll_append hs₀] at hs
  obtain ⟨u, hu, hrest⟩ := applyAll_cons_eq_ok.1 hs
  have hc : c.Matched := (hadmits.fromBound c hfrag).matched
  have hu' : u = s₀.filter c := by
    rcases apply_cases hu with ⟨c', hc', rfl⟩ | ⟨hnone, _⟩
    · rw [hfrag] at hc'
      rw [Option.some.inj hc']
    · rw [hfrag] at hnone
      cases hnone
  subst hu'
  -- Later calls only add behind what the call has left.
  have hext := extends_applyAll hrest
  have hconds : (s₀.filter c).conditions = s₀.conditions ++ [s₀.stored c] := by
    simp [conditions_filter, hne]
  refine ⟨(s₀.renumbered c).2.rename, s₀.renames_renumbered hc, ?_,
    hext.carries (carries_stored hc (nodup_applyAll hbefore hs₀ hempty))⟩
  obtain ⟨rest, hrest⟩ := hext.conditions
  rw [← hrest, hconds, List.append_assoc, List.getElem?_append_right (Nat.le_refl _)]
  simp [stored]

/-- Both compilations start at `@p0`, and `@p1` is taken. -/
def collidingCalls : List Call :=
  [.addParameter "p1" (.int 7) .bigInt,
    .filterPredicate ⟨.bound, .reject, "p"⟩ (.eq (.member "Name") (.lit (.string "a'b"))),
    .condition .or "Age > 18",
    .filterPredicate ⟨.bound, .reject, "p"⟩ (.eq (.member "City") (.lit (.string "@p0")))]

theorem applyAll_carries_collidingCalls :
    ∃ s, applyAll {} collidingCalls = .ok s ∧ s.paramNames = ["@p1", "@p0", "@p2"] ∧
      s.paramNames.Nodup ∧
      ∃ f, Renames f ∧ s.conditions[2]? = some ⟨.and, rename f "City = @p0"⟩ ∧
        s.Carries ⟨"City = @p0", [⟨"@p0", .string "@p0", .nVarChar⟩]⟩ (rename f "City = @p0") := by
  have hname : (Predicate.eq (.member "Name") (.lit (.string "a'b"))).PathsUnmarked := by decide
  have hcity : (Predicate.eq (.member "City") (.lit (.string "@p0"))).PathsUnmarked := by decide
  have hcalls : Admissible {} collidingCalls :=
    ⟨admits_addParameter _ _ (by decide), fun _ _ =>
      ⟨admits_filterPredicate _ _ (by decide) hname, fun _ _ =>
        ⟨admits_of_binds_nothing rfl rfl, fun _ _ =>
          ⟨admits_filterPredicate _ _ (by decide) hcity, fun _ _ => trivial⟩⟩⟩⟩
  have hfrag : (Call.filterPredicate ⟨.bound, .reject, "p"⟩
      (.eq (.member "City") (.lit (.string "@p0")))).fragment? =
        some ⟨"City = @p0", [⟨"@p0", .string "@p0", .nVarChar⟩]⟩ := by decide
  have hrun : (applyAll {} collidingCalls).toOption.map paramNames =
      some ["@p1", "@p0", "@p2"] := by decide +kernel
  have hrun₀ : (applyAll {} (collidingCalls.take 3)).toOption.map (·.conditions.length) =
      some 2 := by decide +kernel
  obtain ⟨s, hs, hnames⟩ := exists_of_map_toOption hrun
  obtain ⟨s₀, hs₀, hlen⟩ := exists_of_map_toOption hrun₀
  obtain ⟨hnodup, hcarries⟩ := applyAll_carries hcalls hs
  have hsplit : collidingCalls = collidingCalls.take 3 ++ [.filterPredicate
      ⟨.bound, .reject, "p"⟩ (.eq (.member "City") (.lit (.string "@p0")))] := rfl
  have h := hcarries _ _ [] s₀ _ hsplit hs₀ hfrag (by decide)
  rw [hlen] at h
  exact ⟨s, hs, hnames, hnodup, h⟩

end Select

end SqlFilter
