import SqlFilter.Definition.Basic
import SqlFilter.Proofs.Lists
import SqlFilter.Proofs.ParameterHygiene

/-!
The parameters of a statement that is described as data. The literals of its condition come first,
under generated names, and the parameters it declares follow under their own, which are not checked
against the generated ones.
-/
namespace SqlFilter

theorem Parameter.Worded.placeholder_eq {p : Parameter} (h : p.Worded) :
    placeholder p.name = p.name := by
  rw [placeholder, ← h.name_eq]

theorem Parameter.getElem?_numbered (nameAt : Nat → String) (i k : Nat)
    (ls : List (Value × ValueType)) :
    (numbered nameAt i ls)[k]? =
      ls[k]?.map fun l => ⟨nameAt (i + k), l.1, SqlType.ofValue l.1 l.2⟩ := by
  induction ls generalizing i k with
  | nil => simp [numbered]
  | cons l ls ih =>
    cases k with
    | zero => simp [numbered]
    | succ k => simp [numbered, ih, Nat.add_assoc, Nat.add_comm 1]

/-- The literal in the k-th hole of a bound compilation is the parameter of the k-th placeholder. -/
theorem CompileOptions.literals_compile {o : CompileOptions} (ho : o.literals = .bound)
    {p : Predicate} {c : CompiledFilter} (h : o.compile p = .ok c) :
    c.sql = Fragment.boundText (Binder.empty o.stem).nameAt 0 (p.pieces o.convert) ∧
      ∀ k v type, (p.pieces o.convert).literals[k]? = some (v, type) →
        ⟨(Binder.empty o.stem).nameAt k, v, SqlType.ofValue v type⟩ ∈ c.params := by
  obtain ⟨mode, policy, stem⟩ := o
  obtain rfl : mode = .bound := ho
  rw [compile_bound] at h
  split at h
  · cases h
  obtain rfl := Except.ok.inj h
  refine ⟨rfl, fun k v type hk => ?_⟩
  apply List.mem_of_getElem? (i := k)
  rw [Parameter.getElem?_numbered, hk, Option.map_some, Nat.zero_add]

theorem ParameterDefinition.name_parameter {x : ParameterDefinition} {r : Parameter}
    (h : x.parameter = .ok r) : r.name = placeholder x.name := by
  obtain ⟨v, _, h⟩ := bind_eq_ok.1 h
  obtain rfl := Except.ok.inj h
  rfl

namespace Select

variable {s t : Select} {c : CompiledFilter}

theorem filter_of_params_eq_nil (hs : s.params = [])
    (hc : (c.params.map Parameter.name).Nodup) :
    s.filter c = (s.addCondition .and c.sql).addParameters c.params := by
  have hbound : (s.entry c).bound = [] := by simp [entry, paramNames, hs]
  obtain ⟨hparams, hrenames⟩ := Renumbering.run_eq_self (r := s.entry c) hc fun p _ => by
    simp [hbound]
  have hrename : (s.renumbered c).2.rename = fun _ => none := by
    funext n
    rw [Renumbering.rename, renumbered, hrenames]
    rfl
  rw [filter_eq, stored, hrename, Placeholder.rename_none]
  exact congrArg _ hparams

theorem foldl_keeps {α β : Type} (π : Select → β) {f : Select → α → Select}
    (h : ∀ s x, π (f s x) = π s) (xs : List α) (s : Select) : π (xs.foldl f s) = π s := by
  induction xs generalizing s with
  | nil => rfl
  | cons x xs ih => rw [List.foldl_cons, ih, h]

theorem params_addOrder (s : Select) (item : OrderItem) :
    (s.addOrder item).params = s.params := rfl

theorem conditions_addOrder (s : Select) (item : OrderItem) :
    (s.addOrder item).conditions = s.conditions := rfl

end Select

namespace QueryDefinition

open Select

variable {d : QueryDefinition} {compiler : CompileOptions} {o : QueryOptions} {s : Select}

def compiled (d : QueryDefinition) (compiler : CompileOptions) : Except Error CompiledFilter :=
  match d.predicate with
  | some p => compiler.compile p
  | none => .ok ⟨"", []⟩

theorem exists_base (d : QueryDefinition) (o : QueryOptions) :
    ∃ s : Select, s.params = [] ∧ s.conditions = [] ∧
      d.base o = d.conditions.foldl (fun s c => s.addCondition c.combinator c.text) s := by
  let kept (s : Select) := (s.params, s.conditions)
  have hcte (s : Select) (cte : Cte) : kept (s.addCte cte) = kept s := rfl
  have hsource (s : Select) (source : Source) : kept (s.addSource source) = kept s := rfl
  have hselect (s : Select) (columns : String) : kept (s.select columns) = kept s := by
    simp only [Select.select]
    split <;> rfl
  have hcolumn (s : Select) (column : String) : kept (s.addColumn column) = kept s := by
    unfold addColumn
    split <;> rfl
  have hcount (s : Select) : kept (if d.rowCount then s.addRowCount else s) = kept s := by
    split <;> rfl
  have hfrom (s : Select) :
      kept ((d.from?.map fun table => s.addSource (.table table)).getD s) = kept s := by
    cases d.from? <;> rfl
  have hcolumns (s : Select) : kept ((d.select.map s.select).getD s) = kept s := by
    cases d.select with
    | none => rfl
    | some columns => rw [Option.map_some, Option.getD_some, hselect]
  suffices h : ∃ s : Select, kept s = ([], []) ∧
      d.base o = d.conditions.foldl (fun s c => s.addCondition c.combinator c.text) s by
    obtain ⟨s, hs, hbase⟩ := h
    obtain ⟨hparams, hconditions⟩ := Prod.mk.inj hs
    exact ⟨s, hparams, hconditions, hbase⟩
  refine ⟨_, ?_, rfl⟩
  rw [foldl_keeps kept hsource, hfrom, hcount, foldl_keeps kept hcolumn, hcolumns,
    foldl_keeps kept hcte]
  rfl

theorem params_base (d : QueryDefinition) (o : QueryOptions) : (d.base o).params = [] := by
  obtain ⟨s, hparams, _, hbase⟩ := d.exists_base o
  rw [hbase, foldl_keeps params fun s x => params_addCondition s _ _, hparams]

theorem conditions_base (d : QueryDefinition) (o : QueryOptions) :
    (d.base o).conditions = d.conditions.filter (!Text.allBlank ·.text) := by
  have hfold (cs : List Condition) (s : Select) :
      (cs.foldl (fun s c => s.addCondition c.combinator c.text) s).conditions =
        s.conditions ++ cs.filter (!Text.allBlank ·.text) := by
    induction cs generalizing s with
    | nil => simp
    | cons c cs ih =>
      rw [List.foldl_cons, ih, conditions_addCondition, List.append_assoc]
      by_cases hc : Text.allBlank c.text
      · simp [hc]
      · simp [hc]
  obtain ⟨s, _, hconditions, hbase⟩ := d.exists_base o
  rw [hbase, hfold, hconditions, List.nil_append]

def complete (d : QueryDefinition) (s : Select) (items : List OrderItem) (ps : List Parameter) :
    Select :=
  let s := items.foldl addOrder (d.group s)
  ((d.page.map s.setPage).getD s).addParameters ps

theorem complete_keeps (d : QueryDefinition) (s : Select) (items : List OrderItem)
    (ps : List Parameter) :
    (d.complete s items ps).params = s.params ++ ps ∧
      (d.complete s items ps).conditions = s.conditions := by
  have hgroup : (d.group s).params = s.params ∧ (d.group s).conditions = s.conditions := by
    unfold group
    cases d.groupBy <;> cases d.having <;> exact ⟨rfl, rfl⟩
  have hpage (t : Select) : ((d.page.map t.setPage).getD t).params = t.params ∧
      ((d.page.map t.setPage).getD t).conditions = t.conditions := by
    cases d.page <;> exact ⟨rfl, rfl⟩
  have hparams := foldl_keeps params params_addOrder items (d.group s)
  have hconditions := foldl_keeps Select.conditions conditions_addOrder items (d.group s)
  simp only [complete, params_addParameters, conditions_addParameters, hpage, hparams,
    hconditions, hgroup, and_self]

theorem nodup_compiled {c : CompiledFilter} (h : d.compiled compiler = .ok c) :
    (c.params.map Parameter.name).Nodup := by
  unfold compiled at h
  split at h
  · exact CompileOptions.nodup_compile h
  · cases h
    exact List.nodup_nil

theorem compose_eq (d : QueryDefinition) (compiler : CompileOptions) (o : QueryOptions) :
    d.compose compiler o = do
      let c ← d.compiled compiler
      let items ← d.order.mapM OrderDefinition.item
      let ps ← d.parameters.mapM ParameterDefinition.parameter
      return d.complete ((d.base o).filter c) items ps := by
  unfold compose compiled
  cases d.predicate with
  | none =>
    have hblank : (d.base o).filter ⟨"", []⟩ = d.base o := by
      rw [filter_of_params_eq_nil (c := ⟨"", []⟩) (d.params_base o) List.nodup_nil]
      simp [addParameters, addCondition, Text.allBlank]
    change _ = (do
      let items ← d.order.mapM OrderDefinition.item
      let ps ← d.parameters.mapM ParameterDefinition.parameter
      return d.complete ((d.base o).filter ⟨"", []⟩) items ps)
    rw [hblank]
    rfl
  | some p =>
    cases hc : compiler.compile p with
    | error e =>
      simp only [filterPredicate, hc]
      rfl
    | ok c =>
      simp only [filterPredicate, hc]
      rfl

/-- The condition of a definition comes to a statement in which nothing is bound. -/
theorem compose_eq_ok (h : d.compose compiler o = .ok s) :
    ∃ c ps, d.compiled compiler = .ok c ∧
      d.parameters.mapM ParameterDefinition.parameter = .ok ps ∧
      s.params = c.params ++ ps ∧
      s.conditions = (d.base o).conditions ++ if c.isEmpty then [] else [⟨.and, c.sql⟩] := by
  rw [compose_eq] at h
  obtain ⟨c, hc, h⟩ := bind_eq_ok.1 h
  obtain ⟨items, _, h⟩ := bind_eq_ok.1 h
  obtain ⟨ps, hps, h⟩ := bind_eq_ok.1 h
  obtain rfl := Except.ok.inj h
  obtain ⟨hparams, hconditions⟩ := d.complete_keeps ((d.base o).filter c) items ps
  have hbase := d.params_base o
  refine ⟨c, ps, hc, hps, ?_, ?_⟩
  · rw [hparams, filter_of_params_eq_nil hbase (nodup_compiled hc), params_addParameters,
      params_addCondition, hbase, List.nil_append]
  · rw [hconditions, filter_of_params_eq_nil hbase (nodup_compiled hc),
      conditions_addParameters, conditions_addCondition]
    rfl

theorem worded_compiled {c : CompiledFilter} (hstem : Text.isWordText compiler.stem)
    (h : d.compiled compiler = .ok c) : ∀ r ∈ c.params, r.Worded := by
  unfold compiled at h
  split at h
  · exact CompileOptions.worded_compile hstem h
  · cases h
    exact fun r hr => absurd hr List.not_mem_nil

theorem exists_parameter {xs : List ParameterDefinition} {ps : List Parameter}
    (h : List.Forall₂ (fun x r => ParameterDefinition.parameter x = .ok r) xs ps)
    {x : ParameterDefinition} (hx : x ∈ xs) : ∃ r ∈ ps, x.parameter = .ok r := by
  induction h with
  | nil => exact absurd hx List.not_mem_nil
  | cons hy _ ih =>
    rcases List.mem_cons.1 hx with rfl | hx
    · exact ⟨_, List.mem_cons_self, hy⟩
    · obtain ⟨r, hr, hxr⟩ := ih hx
      exact ⟨r, List.mem_cons_of_mem _ hr, hxr⟩

theorem names_parameters {xs : List ParameterDefinition} {ps : List Parameter}
    (h : List.Forall₂ (fun x r => ParameterDefinition.parameter x = .ok r) xs ps) :
    ps.map Parameter.name = xs.map fun x => placeholder x.name := by
  induction h with
  | nil => rfl
  | cons hx _ ih => rw [List.map_cons, List.map_cons, ih, ParameterDefinition.name_parameter hx]

/--
The literals of the condition are found under their placeholders in any case. The names are distinct
exactly if no declared name is a generated one, and a declared parameter whose name is not generated
is found under it.
-/
theorem compose_finds_parameters (hd : (d.parameters.map fun x => placeholder x.name).Nodup)
    (hstem : Text.isWordText compiler.stem) (h : d.compose compiler o = .ok s) :
    ∃ c, d.compiled compiler = .ok c ∧
      s.conditions = (d.base o).conditions ++ (if c.isEmpty then [] else [⟨.and, c.sql⟩]) ∧
      (∀ p, d.predicate = some p → compiler.literals = .bound →
        let f := p.pieces compiler.convert
        let nameAt := (Binder.empty compiler.stem).nameAt
        c.sql = Fragment.boundText nameAt 0 f ∧
        ∀ k v type, f.literals[k]? = some (v, type) →
          s.build.param? (nameAt k) = some ⟨nameAt k, v, SqlType.ofValue v type⟩) ∧
      (s.paramNames.Nodup ↔
        ∀ x ∈ d.parameters, placeholder x.name ∉ c.params.map Parameter.name) ∧
      ∀ x ∈ d.parameters, placeholder x.name ∉ c.params.map Parameter.name →
        ∃ r, x.parameter = .ok r ∧ s.build.param? x.name = some r := by
  obtain ⟨c, ps, hc, hps, hparams, hconditions⟩ := compose_eq_ok h
  have hforall := mapM_eq_ok_iff.1 hps
  have hnames := names_parameters hforall
  -- The first parameter of a name is found, and those of the condition come first.
  have hlit : ∀ r ∈ c.params, s.build.param? r.name = some r := by
    intro r hr
    have hfind := Parameter.find?_of_mem (nodup_compiled hc) hr
    rw [PreparedQuery.param?, (worded_compiled hstem hc r hr).placeholder_eq]
    change s.params.find? _ = _
    rw [hparams, List.find?_append, hfind, Option.some_or]
  refine ⟨c, hc, hconditions, ?_, ?_, ?_⟩
  · intro p hp hmode f nameAt
    have hbound : compiler.compile p = .ok c := by
      rw [compiled, hp] at hc
      exact hc
    obtain ⟨hsql, hmem⟩ := CompileOptions.literals_compile hmode hbound
    refine ⟨hsql, fun k v type hk => ?_⟩
    have hfind := hlit _ (hmem k v type hk)
    exact hfind
  · have hdisjoint : (∀ a ∈ c.params.map Parameter.name,
        ∀ b ∈ d.parameters.map fun x => placeholder x.name, a ≠ b) ↔
          ∀ x ∈ d.parameters, placeholder x.name ∉ c.params.map Parameter.name := by
      constructor
      · exact fun h x hx hmem => h _ hmem _ (List.mem_map_of_mem hx) rfl
      · rintro h a ha b hb rfl
        obtain ⟨x, hx, rfl⟩ := List.mem_map.1 hb
        exact h x hx ha
    rw [paramNames, hparams, List.map_append, hnames, List.nodup_append, hdisjoint]
    exact ⟨fun h => h.2.2, fun h => ⟨nodup_compiled hc, hd, h⟩⟩
  · intro x hx hfree
    obtain ⟨r, hr, hxr⟩ := exists_parameter hforall hx
    have hname := ParameterDefinition.name_parameter hxr
    have hnone : c.params.find? (·.name == placeholder x.name) = none := by
      rw [List.find?_eq_none]
      intro q hq heq
      exact hfree (by simpa using ⟨q, hq, by simpa using heq⟩)
    have hfind := Parameter.find?_of_mem (hnames ▸ hd) hr
    refine ⟨r, hxr, ?_⟩
    change s.params.find? _ = _
    rw [hparams, List.find?_append, hnone, Option.none_or, ← hname, hfind]

def shadowedDefinition : QueryDefinition where
  from? := "Users"
  predicate := some (.eq (.member "Name") (.lit (.string "Ann")))
  parameters := [⟨"p0", .integer 1, none⟩]

/-- Distinct declared names do not suffice: the literal is found in place of the parameter. -/
theorem compose_shadows_declared :
    (shadowedDefinition.parameters.map fun x => placeholder x.name) = ["@p0"] ∧
    ∃ s, shadowedDefinition.compose ⟨.bound, .reject, "p"⟩ {} = .ok s ∧
      s.params = [⟨"@p0", .string "Ann", .nVarChar⟩, ⟨"@p0", .int 1, .bigInt⟩] ∧
      ¬ s.paramNames.Nodup ∧
      s.build.param? "p0" = some ⟨"@p0", .string "Ann", .nVarChar⟩ := by
  have hrun : (shadowedDefinition.compose ⟨.bound, .reject, "p"⟩ {}).toOption.map params =
      some [⟨"@p0", .string "Ann", .nVarChar⟩, ⟨"@p0", .int 1, .bigInt⟩] := by decide +kernel
  obtain ⟨s, hs, hparams⟩ := exists_of_map_toOption hrun
  refine ⟨by decide, s, hs, hparams, ?_, ?_⟩
  · rw [paramNames, hparams]
    decide
  · change s.params.find? _ = _
    rw [hparams]
    decide

def definitionOfAge : QueryDefinition where
  from? := "Users"
  conditions := [⟨.and, "Age > @MinAge"⟩]
  predicate := some (.eq (.member "Name") (.lit (.string "Ann")))
  parameters := [⟨"MinAge", .integer 18, some .int⟩]

theorem compose_finds_parameters_definitionOfAge :
    ∃ s, definitionOfAge.compose ⟨.bound, .reject, "p"⟩ {} = .ok s ∧ s.paramNames.Nodup ∧
      s.build.param? "@p0" = some ⟨"@p0", .string "Ann", .nVarChar⟩ ∧
      s.build.param? "MinAge" = some ⟨"@MinAge", .int 18, .int⟩ := by
  have hrun : (definitionOfAge.compose ⟨.bound, .reject, "p"⟩ {}).toOption.map paramNames =
      some ["@p0", "@MinAge"] := by decide +kernel
  obtain ⟨s, hs, _⟩ := exists_of_map_toOption hrun
  obtain ⟨c, hc, _, hlit, hnodup, hown⟩ := compose_finds_parameters (by decide) (by decide) hs
  have hnames : c.params.map Parameter.name = ["@p0"] := by
    have hcompiled : (definitionOfAge.compiled ⟨.bound, .reject, "p"⟩).toOption.map
        (·.params.map Parameter.name) = some ["@p0"] := by decide
    simpa [hc, Except.toOption] using hcompiled
  have hfree : ∀ x ∈ definitionOfAge.parameters,
      placeholder x.name ∉ c.params.map Parameter.name := by
    rw [hnames]
    decide
  obtain ⟨_, hfind⟩ := hlit _ rfl rfl
  obtain ⟨r, hr, hparam⟩ := hown _ List.mem_cons_self (hfree _ List.mem_cons_self)
  have hr' : r = ⟨"@MinAge", .int 18, .int⟩ := (Except.ok.inj hr).symm
  exact ⟨s, hs, hnodup.2 hfree, hfind 0 (.string "Ann") .string (by decide), hr' ▸ hparam⟩

end QueryDefinition

end SqlFilter
