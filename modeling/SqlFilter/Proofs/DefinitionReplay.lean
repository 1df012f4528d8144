import SqlFilter.Proofs.CallOrder
import SqlFilter.Proofs.DefinitionParameters
import SqlFilter.Proofs.TomlParameters

/-!
Definitions and the calls that they stand for. A definition fails with its first fault, in its
condition, its ordering or its parameters. Without one it is the statement that its calls make, and
each clause of that holds what the definition lists for it. The sections may be called in any order,
but for five pairs of which one has to precede the other.
-/
namespace SqlFilter

inductive Section
  | options
  | ctes
  | select
  | columns
  | rowCount
  | table
  | joins
  | conditions
  | predicate
  | groupBy
  | having
  | order
  | page
  | parameters
  deriving DecidableEq

namespace Section

/-- Which sections have to be called before which. -/
def precedes : Section → Section → Bool
  | .select, .columns | .table, .joins | .groupBy, .having | .conditions, .predicate
  | .predicate, .parameters => true
  | _, _ => false

def part : Section → Select.Part
  | .options => .options
  | .ctes => .ctes
  | .select | .columns => .columns
  | .rowCount => .rowCount
  | .table | .joins => .sources
  | .conditions | .predicate | .parameters => .conditions
  | .groupBy | .having => .grouping
  | .order => .order
  | .page => .page

def inOrder : List Section :=
  [.options, .ctes, .select, .columns, .rowCount, .table, .joins, .conditions, .predicate,
    .groupBy, .having, .order, .page, .parameters]

theorem mem_inOrder (σ : Section) : σ ∈ inOrder := by cases σ <;> decide

theorem nodup_inOrder : inOrder.Nodup := by decide

theorem not_precedes_self (σ : Section) : ¬ σ.precedes σ := by cases σ <;> decide

theorem ordered_inOrder : inOrder.Pairwise fun σ τ => ¬ τ.precedes σ := by decide

/-- Only conditions and parameters share a part and may yet be called in any order. -/
theorem cases_of_part_eq (σ τ : Section) (hne : σ ≠ τ) (hpart : σ.part = τ.part)
    (hστ : ¬ σ.precedes τ) (hτσ : ¬ τ.precedes σ) :
    (σ = .conditions ∧ τ = .parameters) ∨ (σ = .parameters ∧ τ = .conditions) := by
  have hcases : ∀ σ ∈ inOrder, ∀ τ ∈ inOrder, σ ≠ τ → σ.part = τ.part → ¬ σ.precedes τ →
      ¬ τ.precedes σ →
        (σ = .conditions ∧ τ = .parameters) ∨ (σ = .parameters ∧ τ = .conditions) := by
    decide
  exact hcases σ σ.mem_inOrder τ τ.mem_inOrder hne hpart hστ hτσ

end Section

namespace Select

theorem Call.Commute.symm {a b : Call} (h : a.Commute b) : b.Commute a := fun s => (h s).symm

theorem commute_addParameter (combinator : Combinator) (text name : String) (v : Value)
    (type : SqlType) : (Call.condition combinator text).Commute (.addParameter name v type) := by
  intro s
  change Except.ok _ = Except.ok _
  congr 1
  unfold addCondition
  split <;> rfl

variable {α β : Type}

/-- Steps that append to a list append what all of them give, in order. -/
theorem foldl_grows {f : Select → α → Select} (put : List β → Select) {g : α → List β}
    (h : ∀ ys x, f (put ys) x = put (ys ++ g x)) (ys : List β) (xs : List α) :
    xs.foldl f (put ys) = put (ys ++ xs.flatMap g) := by
  rw [List.foldl_hom put (fun ys x => h ys x), List.foldl_append_eq_append, List.flatMap_def]

theorem foldl_appends {f : Select → α → Select} (put : List α → Select)
    (h : ∀ ys x, f (put ys) x = put (ys ++ [x])) (ys xs : List α) :
    xs.foldl f (put ys) = put (ys ++ xs) := by
  rw [foldl_grows put h, List.flatMap_singleton']

theorem foldl_addCte (s : Select) (ctes : List Cte) :
    ctes.foldl addCte s = { s with ctes := s.ctes ++ ctes } :=
  foldl_appends (fun ctes => { s with ctes := ctes }) (fun _ _ => rfl) s.ctes ctes

theorem foldl_addSource (s : Select) (sources : List Source) :
    sources.foldl addSource s = { s with sources := s.sources ++ sources } :=
  foldl_appends (fun sources => { s with sources := sources }) (fun _ _ => rfl) s.sources sources

theorem foldl_addOrder (s : Select) (items : List OrderItem) :
    items.foldl addOrder s = { s with order := s.order ++ items } :=
  foldl_appends (fun order => { s with order := order }) (fun _ _ => rfl) s.order items

theorem addCondition_eq (s : Select) (combinator : Combinator) (text : String) :
    s.addCondition combinator text =
      { s with conditions :=
          s.conditions ++ if Text.allBlank text then [] else [⟨combinator, text⟩] } := by
  unfold addCondition
  split <;> simp

theorem foldl_addCondition (s : Select) (cs : List Condition) :
    cs.foldl (fun s c => s.addCondition c.combinator c.text) s =
      { s with conditions := s.conditions ++ cs.filter (!Text.allBlank ·.text) } := by
  have hgrows := foldl_grows (f := fun s c => s.addCondition c.combinator c.text)
    (fun conditions => { s with conditions := conditions })
    (fun _ _ => addCondition_eq ..) s.conditions cs
  have hfilter (cs : List Condition) :
      (cs.flatMap fun c => if Text.allBlank c.text then [] else [⟨c.combinator, c.text⟩]) =
        cs.filter (!Text.allBlank ·.text) := by
    induction cs with
    | nil => rfl
    | cons c cs ih => by_cases hc : Text.allBlank c.text <;> simp [ih, hc]
  rwa [hfilter] at hgrows

theorem addColumn_eq (s : Select) (column : String) :
    s.addColumn column =
      { s with columns := s.columns ++ if column ∈ s.columns then [] else [column] } := by
  unfold addColumn
  split <;> simp

/-- Of the columns that are added, those stay that are new, each of them once. -/
theorem foldl_addColumn (s : Select) (columns : List String) :
    columns.foldl addColumn s =
      { s with columns := s.columns ++ (columns.filter (· ∉ s.columns)).eraseDups } := by
  induction columns generalizing s with
  | nil => simp
  | cons column columns ih =>
    rw [List.foldl_cons, ih, addColumn_eq]
    by_cases hmem : column ∈ s.columns
    · simp [hmem]
    · have hfilter : columns.filter (· ∉ s.columns ++ [column]) =
          (columns.filter (· ∉ s.columns)).filter (!· == column) := by
        rw [List.filter_filter]
        refine List.filter_congr fun x _ => ?_
        by_cases hx : x = column <;> simp [hx]
      rw [if_neg hmem, hfilter, List.filter_cons_of_pos (by simpa using hmem), List.eraseDups_cons,
        List.append_assoc]
      rfl

theorem applyAll_map {f : α → Call} {g : Select → α → Select}
    (h : ∀ (s : Select) x, s.apply (f x) = .ok (g s x)) (s : Select) (xs : List α) :
    s.applyAll (xs.map f) = .ok (xs.foldl g s) := by
  induction xs generalizing s with
  | nil => rfl
  | cons x xs ih =>
    rw [List.map_cons, applyAll_cons, h, List.foldl_cons, ← ih]
    rfl

theorem applyAll_toList {f : α → Call} {g : Select → α → Select}
    (h : ∀ (s : Select) x, s.apply (f x) = .ok (g s x)) (s : Select) (x : Option α) :
    s.applyAll (x.toList.map f) = .ok ((x.map (g s)).getD s) := by
  rw [applyAll_map h]
  cases x <;> rfl

end Select

def OrderDefinition.fault? (x : OrderDefinition) : Option ConfigFault :=
  if x.column.isSome = x.case.isSome then some .columnOrCase
  else if x.case.isSome ∧ x.default = none then some .caseWithoutDefault
  else none

theorem OrderDefinition.faultOf_item (x : OrderDefinition) :
    faultOf x.item = x.fault?.map .config := by
  obtain ⟨column, branches, default, direction⟩ := x
  cases column <;> cases branches <;> cases default <;> rfl

theorem ParameterDefinition.faultOf_parameter (x : ParameterDefinition) :
    faultOf x.parameter = faultOf x.value.toValue := by
  refine (faultOf_bind x.value.toValue (e := none) fun v => ?_).trans Option.or_none
  rfl

namespace QueryDefinition

open Select

variable {d : QueryDefinition} {compiler : CompileOptions} {o : QueryOptions}
  {items : List OrderItem} {ps : List Parameter} {s : Select}

/-- Everything that is wrong with a definition: its condition, its ordering, its parameters. -/
def faults (d : QueryDefinition) (compiler : CompileOptions) : List Error :=
  (d.predicate.toList.filterMap fun p => faultOf (compiler.compile p)) ++
    (d.order.filterMap fun x => x.fault?.map .config) ++
    d.parameters.filterMap fun x => faultOf x.value.toValue

theorem faults_ne_nil_iff (d : QueryDefinition) (compiler : CompileOptions) :
    d.faults compiler ≠ [] ↔
      (∃ p, d.predicate = some p ∧ ∃ e, compiler.compile p = .error e) ∨
      (∃ x ∈ d.order, x.column.isSome = x.case.isSome ∨ (x.case.isSome ∧ x.default = none)) ∨
      ∃ x ∈ d.parameters, ∃ e, x.value.toValue = .error e := by
  have hfilterMap {α : Type} (f : α → Option Error) (xs : List α) :
      xs.filterMap f ≠ [] ↔ ∃ x ∈ xs, ∃ e, f x = some e := by
    simp [List.filterMap_eq_nil_iff, Option.ne_none_iff_exists']
  have happend (xs ys : List Error) : xs ++ ys ≠ [] ↔ xs ≠ [] ∨ ys ≠ [] := by
    rw [Ne, List.append_eq_nil_iff, not_and_or]
  have horder (x : OrderDefinition) : (∃ e, x.fault?.map Error.config = some e) ↔
      x.column.isSome = x.case.isSome ∨ (x.case.isSome ∧ x.default = none) := by
    unfold OrderDefinition.fault?
    split
    · simp_all
    · split <;> simp_all
  simp only [faults, happend, hfilterMap, horder, faultOf_eq_some_iff, Option.mem_toList, or_assoc]

theorem faultOf_compiled (d : QueryDefinition) (compiler : CompileOptions) :
    faultOf (d.compiled compiler) =
      (d.predicate.toList.filterMap fun p => faultOf (compiler.compile p)).head? := by
  unfold compiled
  cases d.predicate with
  | none => rfl
  | some p =>
    rw [List.head?_filterMap, Option.toList_some, findSome?_cons_eq_or]
    exact (Option.or_none).symm

theorem faultOf_compose (d : QueryDefinition) (compiler : CompileOptions) (o : QueryOptions) :
    faultOf (d.compose compiler o) = (d.faults compiler).head? := by
  have hitems : faultOf (d.order.mapM OrderDefinition.item) =
      (d.order.filterMap fun x => x.fault?.map Error.config).head? := by
    rw [faultOf_mapM, List.head?_filterMap]
    exact congrArg (List.findSome? · _) (funext OrderDefinition.faultOf_item)
  have hparams : faultOf (d.parameters.mapM ParameterDefinition.parameter) =
      (d.parameters.filterMap fun x => faultOf x.value.toValue).head? := by
    rw [faultOf_mapM, List.head?_filterMap]
    exact congrArg (List.findSome? · _) (funext ParameterDefinition.faultOf_parameter)
  have hlast (c : CompiledFilter) (items : List OrderItem) :
      faultOf (d.parameters.mapM ParameterDefinition.parameter >>= fun ps =>
        pure (d.complete ((d.base o).filter c) items ps)) =
      faultOf (d.parameters.mapM ParameterDefinition.parameter) := by
    refine (faultOf_bind _ (e := none) fun ps => ?_).trans Option.or_none
    rfl
  have hmiddle (c : CompiledFilter) := faultOf_bind (d.order.mapM OrderDefinition.item) (hlast c)
  rw [compose_eq, faultOf_bind _ hmiddle, faultOf_compiled, hitems, hparams, faults,
    List.head?_append, List.head?_append, Option.or_assoc]

def calls (d : QueryDefinition) (compiler : CompileOptions) (o : QueryOptions)
    (items : List OrderItem) (ps : List Parameter) : Section → List Call
  | .options => [.options o]
  | .ctes => d.ctes.map .cte
  | .select => d.select.toList.map .select
  | .columns => d.columns.map .addColumn
  | .rowCount => if d.rowCount then [.addRowCount] else []
  | .table => d.from?.toList.map fun table => .source (.table table)
  | .joins => d.joins.map .source
  | .conditions => d.conditions.map fun c => .condition c.combinator c.text
  | .predicate => d.predicate.toList.map (.filterPredicate compiler)
  | .groupBy => d.groupBy.toList.map fun columns => .grouping (.groupBy columns)
  | .having => d.having.toList.map fun condition => .grouping (.having condition)
  | .order => items.map .order
  | .page => d.page.toList.map .page
  | .parameters => (d.parameters.zip ps).map fun x => .addParameter x.1.name x.2.value x.2.type

/-- A run of the calls of all sections, each in its own order, and none before what precedes it. -/
structure Replays (d : QueryDefinition) (compiler : CompileOptions) (o : QueryOptions)
    (items : List OrderItem) (ps : List Parameter) (run : List (Section × Call)) : Prop where
  calls_eq : ∀ σ, (run.filter (·.1 = σ)).map Prod.snd = d.calls compiler o items ps σ
  ordered : run.Pairwise fun a b => ¬ b.1.precedes a.1

theorem part_of_mem_calls {σ : Section} {call : Call} (h : call ∈ d.calls compiler o items ps σ) :
    call.part = σ.part := by
  cases σ with
  | options =>
    obtain rfl := List.mem_singleton.1 h
    rfl
  | rowCount =>
    rw [calls] at h
    split at h
    · obtain rfl := List.mem_singleton.1 h
      rfl
    · cases h
  | _ =>
    obtain ⟨x, -, rfl⟩ := List.mem_map.1 h
    rfl

theorem commute_of_mem_calls {σ τ : Section} {a b : Call} (hne : σ ≠ τ) (hστ : ¬ σ.precedes τ)
    (hτσ : ¬ τ.precedes σ) (ha : a ∈ d.calls compiler o items ps σ)
    (hb : b ∈ d.calls compiler o items ps τ) : a.Commute b := by
  by_cases hpart : σ.part = τ.part
  · rcases Section.cases_of_part_eq σ τ hne hpart hστ hτσ with ⟨rfl, rfl⟩ | ⟨rfl, rfl⟩
    · obtain ⟨x, -, rfl⟩ := List.mem_map.1 ha
      obtain ⟨y, -, rfl⟩ := List.mem_map.1 hb
      exact commute_addParameter _ _ _ _ _
    · obtain ⟨x, -, rfl⟩ := List.mem_map.1 ha
      obtain ⟨y, -, rfl⟩ := List.mem_map.1 hb
      exact (commute_addParameter _ _ _ _ _).symm
  · intro s
    apply apply_comm s
    rwa [part_of_mem_calls ha, part_of_mem_calls hb]

/-- Runs with the same calls for each section end alike if no call in them is out of order. -/
theorem applyAll_eq_of_ordered {run run' : List (Section × Call)}
    (hsame : ∀ σ, run.filter (·.1 = σ) = run'.filter (·.1 = σ))
    (hcalls : ∀ x ∈ run, x.2 ∈ d.calls compiler o items ps x.1)
    (hrun : run.Pairwise fun a b => ¬ b.1.precedes a.1)
    (hrun' : run'.Pairwise fun a b => ¬ b.1.precedes a.1) (s : Select) :
    s.applyAll (run.map Prod.snd) = s.applyAll (run'.map Prod.snd) := by
  induction run generalizing run' s with
  | nil =>
    cases run' with
    | nil => rfl
    | cons b run' => simpa using hsame b.1
  | cons a run ih =>
    have hfirst : run'.filter (·.1 = a.1) = a :: run.filter (·.1 = a.1) := by
      rw [← hsame a.1]
      simp
    obtain ⟨before, after, rfl, hbefore, -, hafter⟩ := List.filter_eq_cons_iff.1 hfirst
    obtain ⟨ha, hcalls⟩ := List.forall_mem_cons.1 hcalls
    obtain ⟨hlater, hrun⟩ := List.pairwise_cons.1 hrun
    -- What comes before `a` in one run and after it in the other is not ordered with it.
    have hcomm : ∀ b ∈ before, b.2.Commute a.2 := by
      intro b hb
      have hne : b.1 ≠ a.1 := by simpa using hbefore b hb
      have hmem : b ∈ run := by
        have hb' : b ∈ (before ++ a :: after).filter (·.1 = b.1) := by simp [hb]
        rw [← hsame b.1] at hb'
        rcases List.mem_cons.1 (List.mem_of_mem_filter hb') with rfl | hb'
        · exact absurd rfl hne
        · exact hb'
      have hba := (List.pairwise_append.1 hrun').2.2 b hb a List.mem_cons_self
      exact commute_of_mem_calls hne (hlater b hmem) hba (hcalls b hmem) ha
    have hrest (σ : Section) :
        run.filter (·.1 = σ) = (before ++ after).filter (·.1 = σ) := by
      by_cases heq : a.1 = σ
      · subst heq
        rw [List.filter_append, List.filter_eq_nil_iff.2 hbefore, hafter, List.nil_append]
      · simpa [heq] using hsame σ
    have hsub : (before ++ after).Sublist (before ++ a :: after) :=
      (List.sublist_cons_self a after).append_left before
    have hfront : s.applyAll ((before ++ a :: after).map Prod.snd) =
        s.applyAll (a.2 :: (before ++ after).map Prod.snd) := by
      rw [List.map_append, List.map_cons, List.map_append]
      exact applyAll_call_first s (List.forall_mem_map.2 hcomm)
    rw [hfront, List.map_cons, applyAll_cons, applyAll_cons]
    simp only [ih hrest hcalls hrun (hrun'.sublist hsub)]

def replay (d : QueryDefinition) (compiler : CompileOptions) (o : QueryOptions)
    (items : List OrderItem) (ps : List Parameter) : List (Section × Call) :=
  Section.inOrder.flatMap fun σ => (d.calls compiler o items ps σ).map (σ, ·)

theorem filter_flatMap_of_nodup {α : Type} (f : Section → List α) {σs : List Section}
    (hσs : σs.Nodup) {σ : Section} (hσ : σ ∈ σs) :
    (σs.flatMap fun τ => (f τ).map (τ, ·)).filter (·.1 = σ) = (f σ).map (σ, ·) := by
  have hself : ((f σ).map (σ, ·)).filter (·.1 = σ) = (f σ).map (σ, ·) := by simp
  have hother {τ : Section} (h : τ ≠ σ) : ((f τ).map (τ, ·)).filter (·.1 = σ) = [] := by simp [h]
  induction σs with
  | nil => cases hσ
  | cons τ σs ih =>
    obtain ⟨hτ, hσs⟩ := List.nodup_cons.1 hσs
    rw [List.flatMap_cons, List.filter_append]
    rcases List.mem_cons.1 hσ with rfl | hσ
    · rw [hself, List.filter_flatMap, List.flatMap_eq_nil_iff.2, List.append_nil]
      exact fun τ' hτ' => hother fun h => hτ (h ▸ hτ')
    · have hne : τ ≠ σ := fun h => hτ (h ▸ hσ)
      rw [ih hσs hσ, hother hne, List.nil_append]

theorem replays_replay (d : QueryDefinition) (compiler : CompileOptions) (o : QueryOptions)
    (items : List OrderItem) (ps : List Parameter) :
    d.Replays compiler o items ps (d.replay compiler o items ps) where
  calls_eq σ := by
    rw [replay, filter_flatMap_of_nodup _ Section.nodup_inOrder σ.mem_inOrder, List.map_map]
    exact List.map_id _
  ordered := by
    refine List.pairwise_flatMap.2 ⟨fun σ _ => ?_, Section.ordered_inOrder.imp fun h => ?_⟩
    · exact List.pairwise_map.2 (List.pairwise_of_forall fun _ _ => σ.not_precedes_self)
    · intro a ha b hb
      obtain ⟨_, -, rfl⟩ := List.mem_map.1 ha
      obtain ⟨_, -, rfl⟩ := List.mem_map.1 hb
      exact h

def selected (d : QueryDefinition) : List String :=
  ((d.select.map ({} : Select).select).getD {}).columns

/-- The statement that has each list of a definition in its clause. -/
def statement (d : QueryDefinition) (o : QueryOptions) (c : CompiledFilter)
    (items : List OrderItem) (ps : List Parameter) : Select where
  columns := d.selected ++ (d.columns.filter (· ∉ d.selected)).eraseDups
  rowCount := d.rowCount
  ctes := d.ctes
  sources := (d.from?.map Source.table).toList ++ d.joins
  conditions := d.conditions.filter (!Text.allBlank ·.text) ++
    if c.isEmpty then [] else [⟨.and, c.sql⟩]
  grouping := (d.groupBy.map Grouping.groupBy).toList ++ (d.having.map Grouping.having).toList
  order := items
  page := d.page
  params := c.params ++ ps
  options := o

theorem selected_eq (d : QueryDefinition) {s : Select} (hs : s.columns = []) :
    (d.select.map s.select).getD s = { s with columns := d.selected } := by
  have hself : s = { s with columns := [] } := by rw [← hs]
  unfold selected
  cases d.select with
  | none => exact hself
  | some text =>
    simp only [Option.map_some, Option.getD_some, Select.select]
    by_cases hblank : (Text.trim text).isEmpty ∨ Text.trim text = "*"
    · rw [if_pos hblank, if_pos hblank]
      exact hself
    · rw [if_neg hblank, if_neg hblank]

theorem base_eq (d : QueryDefinition) (o : QueryOptions) :
    d.base o =
      { columns := d.selected ++ (d.columns.filter (· ∉ d.selected)).eraseDups
        rowCount := d.rowCount
        ctes := d.ctes
        sources := (d.from?.map Source.table).toList ++ d.joins
        conditions := d.conditions.filter (!Text.allBlank ·.text)
        options := o } := by
  have hcount (s : Select) (hs : s.rowCount = false) :
      (if d.rowCount then s.addRowCount else s) = { s with rowCount := d.rowCount } := by
    cases d.rowCount with
    | false => simp [← hs]
    | true => rfl
  have htable (s : Select) : (d.from?.map fun table => s.addSource (.table table)).getD s =
      { s with sources := s.sources ++ (d.from?.map Source.table).toList } := by
    cases d.from? <;> simp [addSource]
  have hctes : d.ctes.foldl addCte (({} : Select).withOptions o) =
      { ctes := d.ctes, options := o } := foldl_addCte ..
  rw [base, hctes, selected_eq d rfl, foldl_addColumn, hcount _ rfl, htable, foldl_addSource,
    foldl_addCondition]
  rfl

theorem complete_eq (d : QueryDefinition) (s : Select) (items : List OrderItem)
    (ps : List Parameter) :
    d.complete s items ps =
      { s with
        grouping := s.grouping ++ ((d.groupBy.map Grouping.groupBy).toList ++
          (d.having.map Grouping.having).toList)
        order := s.order ++ items
        page := d.page.or s.page
        params := s.params ++ ps } := by
  have hgroup : d.group s = { s with
      grouping := s.grouping ++ ((d.groupBy.map Grouping.groupBy).toList ++
        (d.having.map Grouping.having).toList) } := by
    unfold group
    cases d.groupBy <;> cases d.having <;> simp [addGrouping]
  have hpage (s : Select) :
      (d.page.map s.setPage).getD s = { s with page := d.page.or s.page } := by
    cases d.page <;> rfl
  rw [complete, hgroup, foldl_addOrder, hpage]
  rfl

theorem complete_filter_base {c : CompiledFilter} (hc : d.compiled compiler = .ok c)
    (o : QueryOptions) (items : List OrderItem) (ps : List Parameter) :
    d.complete ((d.base o).filter c) items ps = d.statement o c items ps := by
  rw [filter_of_params_eq_nil (d.params_base o) (nodup_compiled hc), addCondition_eq, base_eq,
    complete_eq]
  simp [addParameters, statement]
  rfl

/-- A definition without faults is the statement with its lists. -/
theorem compose_eq_ok_iff : d.compose compiler o = .ok s ↔ ∃ c items ps,
    d.compiled compiler = .ok c ∧
    List.Forall₂ (fun x item => OrderDefinition.item x = .ok item) d.order items ∧
    List.Forall₂ (fun x r => ParameterDefinition.parameter x = .ok r) d.parameters ps ∧
    s = d.statement o c items ps := by
  simp only [compose_eq, bind_eq_ok, mapM_eq_ok_iff]
  constructor
  · rintro ⟨c, hc, items, hitems, ps, hps, h⟩
    obtain rfl := Except.ok.inj h
    exact ⟨c, items, ps, hc, hitems, hps, complete_filter_base hc o items ps⟩
  · rintro ⟨c, items, ps, hc, hitems, hps, rfl⟩
    exact ⟨c, hc, items, hitems, ps, hps, congrArg Except.ok (complete_filter_base hc o items ps)⟩

theorem applyAll_parameters
    (h : List.Forall₂ (fun x r => ParameterDefinition.parameter x = .ok r) d.parameters ps)
    (s : Select) :
    s.applyAll (d.calls compiler o items ps .parameters) = .ok (s.addParameters ps) := by
  rw [calls]
  generalize d.parameters = xs at h ⊢
  induction h generalizing s with
  | nil => simp [applyAll, addParameters, pure, Except.pure]
  | @cons x r xs ps hx _ ih =>
    obtain ⟨v, -, hr⟩ := bind_eq_ok.1 hx
    obtain rfl := Except.ok.inj hr
    rw [List.zip_cons_cons, List.map_cons, applyAll_cons]
    refine (ih _).trans ?_
    simp [addParameters, addParameter, Parameter.named]

theorem applyAll_base (d : QueryDefinition) (compiler : CompileOptions) (o : QueryOptions)
    (items : List OrderItem) (ps : List Parameter) :
    applyAll {} ([.options, .ctes, .select, .columns, .rowCount, .table, .joins,
      .conditions].flatMap (d.calls compiler o items ps)) = .ok (d.base o) := by
  have hcount (s : Select) : s.applyAll (if d.rowCount then [.addRowCount] else []) =
      .ok (if d.rowCount then s.addRowCount else s) := by
    split <;> rfl
  simp only [List.flatMap_cons, List.flatMap_nil, List.append_nil, calls]
  rw [applyAll_append (t := ({} : Select).withOptions o) rfl,
    applyAll_append (applyAll_map (g := addCte) (fun _ _ => rfl) _ _),
    applyAll_append (applyAll_toList (g := Select.select) (fun _ _ => rfl) _ _),
    applyAll_append (applyAll_map (g := addColumn) (fun _ _ => rfl) _ _),
    applyAll_append (hcount _),
    applyAll_append (applyAll_toList (g := fun s table => s.addSource (.table table))
      (fun _ _ => rfl) _ _),
    applyAll_append (applyAll_map (g := addSource) (fun _ _ => rfl) _ _),
    applyAll_map (g := fun s c => s.addCondition c.combinator c.text) (fun _ _ => rfl)]
  rfl

theorem applyAll_predicate {c : CompiledFilter} (hc : d.compiled compiler = .ok c)
    (hs : s.params = []) :
    s.applyAll (d.calls compiler o items ps .predicate) = .ok (s.filter c) := by
  unfold compiled at hc
  unfold calls
  cases hp : d.predicate with
  | none =>
    rw [hp] at hc
    obtain rfl := Except.ok.inj hc
    rw [filter_of_params_eq_nil (c := ⟨"", []⟩) hs List.nodup_nil]
    simp [applyAll, addParameters, addCondition, Text.allBlank, pure, Except.pure]
  | some p =>
    have hp : compiler.compile p = .ok c := by rwa [hp] at hc
    change s.applyAll [.filterPredicate compiler p] = _
    rw [applyAll_cons, apply, filterPredicate, hp]
    rfl

theorem applyAll_complete
    (hps : List.Forall₂ (fun x r => ParameterDefinition.parameter x = .ok r) d.parameters ps)
    (s : Select) :
    s.applyAll ([.groupBy, .having, .order, .page, .parameters].flatMap
      (d.calls compiler o items ps)) = .ok (d.complete s items ps) := by
  simp only [List.flatMap_cons, List.flatMap_nil, List.append_nil]
  rw [calls, applyAll_append (applyAll_toList (g := fun s columns =>
      s.addGrouping (.groupBy columns)) (fun _ _ => rfl) _ _),
    calls, applyAll_append (applyAll_toList (g := fun s condition =>
      s.addGrouping (.having condition)) (fun _ _ => rfl) _ _),
    calls, applyAll_append (applyAll_map (g := addOrder) (fun _ _ => rfl) _ _),
    calls, applyAll_append (applyAll_toList (g := setPage) (fun _ _ => rfl) _ _),
    applyAll_parameters hps]
  rfl

theorem applyAll_replay {c : CompiledFilter} (hc : d.compiled compiler = .ok c)
    (hps : List.Forall₂ (fun x r => ParameterDefinition.parameter x = .ok r) d.parameters ps) :
    applyAll {} ((d.replay compiler o items ps).map Prod.snd) =
      .ok (d.complete ((d.base o).filter c) items ps) := by
  have hcalls : (d.replay compiler o items ps).map Prod.snd =
      [.options, .ctes, .select, .columns, .rowCount, .table, .joins, .conditions].flatMap
          (d.calls compiler o items ps) ++
        (d.calls compiler o items ps .predicate ++
          [.groupBy, .having, .order, .page, .parameters].flatMap
            (d.calls compiler o items ps)) := by
    simp [replay, Section.inOrder, Function.comp_def]
  rw [hcalls, applyAll_append (d.applyAll_base compiler o items ps),
    applyAll_append (applyAll_predicate hc (d.params_base o)), applyAll_complete hps]

theorem Replays.calls_mem {run : List (Section × Call)}
    (h : d.Replays compiler o items ps run) {x : Section × Call} (hx : x ∈ run) :
    x.2 ∈ d.calls compiler o items ps x.1 := by
  rw [← h.calls_eq]
  exact List.mem_map_of_mem (List.mem_filter.2 ⟨hx, by simp⟩)

theorem Replays.filter_eq {run : List (Section × Call)}
    (h : d.Replays compiler o items ps run) (σ : Section) :
    run.filter (·.1 = σ) = (d.calls compiler o items ps σ).map (σ, ·) := by
  rw [← h.calls_eq, List.map_map]
  refine (List.map_id _).symm.trans (List.map_congr_left fun x hx => ?_)
  obtain rfl : x.1 = σ := by simpa using (List.mem_filter.1 hx).2
  rfl

theorem Replays.applyAll_eq {run run' : List (Section × Call)}
    (h : d.Replays compiler o items ps run) (h' : d.Replays compiler o items ps run')
    (s : Select) : s.applyAll (run.map Prod.snd) = s.applyAll (run'.map Prod.snd) :=
  applyAll_eq_of_ordered (fun σ => (h.filter_eq σ).trans (h'.filter_eq σ).symm)
    (fun _ => h.calls_mem) h.ordered h'.ordered s

/--
A definition fails with its first fault. Otherwise it is the statement with its lists, and any run
of its calls makes the same statement, if the sections that precede others do so in it.
-/
theorem compose_replays (d : QueryDefinition) (compiler : CompileOptions) (o : QueryOptions) :
    (∀ e, d.compose compiler o = .error e ↔ (d.faults compiler).head? = some e) ∧
    ((∃ e, d.compose compiler o = .error e) ↔
      (∃ p, d.predicate = some p ∧ ∃ e, compiler.compile p = .error e) ∨
      (∃ x ∈ d.order, x.column.isSome = x.case.isSome ∨ (x.case.isSome ∧ x.default = none)) ∨
      ∃ x ∈ d.parameters, ∃ e, x.value.toValue = .error e) ∧
    ∀ s, d.compose compiler o = .ok s → ∃ c items ps,
      d.compiled compiler = .ok c ∧
      List.Forall₂ (fun x item => OrderDefinition.item x = .ok item) d.order items ∧
      List.Forall₂ (fun x r => ParameterDefinition.parameter x = .ok r) d.parameters ps ∧
      s = d.statement o c items ps ∧
      (∃ run, d.Replays compiler o items ps run) ∧
      ∀ run, d.Replays compiler o items ps run →
        applyAll {} (run.map Prod.snd) = .ok s := by
  refine ⟨fun e => ?_, ?_, fun s hs => ?_⟩
  · rw [← faultOf_compose, faultOf_eq_some_iff]
  · rw [← faults_ne_nil_iff, Ne, ← List.head?_eq_none_iff, ← faultOf_compose d compiler o,
      ← Ne, Option.ne_none_iff_exists']
    simp only [faultOf_eq_some_iff]
  · obtain ⟨c, items, ps, hc, hitems, hps, rfl⟩ := compose_eq_ok_iff.1 hs
    have hreplay := d.replays_replay compiler o items ps
    refine ⟨c, items, ps, hc, hitems, hps, rfl, ⟨_, hreplay⟩, fun run hrun => ?_⟩
    rw [hrun.applyAll_eq hreplay, applyAll_replay hc hps, complete_filter_base hc]

def definitionOfRoles : QueryDefinition where
  columns := ["Id", "Id"]
  from? := "Users"
  joins := [.join .left "Roles" "r" "r.Id = Users.RoleId"]
  conditions := [⟨.and, " "⟩]

/-- Its calls, the join before the table that it joins. -/
def joinsFirst : List (Section × Call) :=
  [(.options, .options {}), (.columns, .addColumn "Id"), (.columns, .addColumn "Id"),
    (.joins, .source (.join .left "Roles" "r" "r.Id = Users.RoleId")),
    (.table, .source (.table "Users")), (.conditions, .condition .and " ")]

/-- Where a join is called before the table, the statement is another one, and it means nothing. -/
theorem compose_differs_joins_first :
    (∀ σ, (joinsFirst.filter (·.1 = σ)).map Prod.snd = definitionOfRoles.calls {} {} [] [] σ) ∧
    (joinsFirst.Pairwise fun a b => b.1.precedes a.1 → a.1 = .joins ∧ b.1 = .table) ∧
    ∃ s t, definitionOfRoles.compose {} {} = .ok s ∧
      s.sql = "SELECT Id\nFROM Users\nLEFT JOIN Roles AS r ON r.Id = Users.RoleId" ∧
      applyAll {} (joinsFirst.map Prod.snd) = .ok t ∧
      t.sql = "SELECT Id\nLEFT JOIN Roles AS r ON r.Id = Users.RoleId\nFROM Users" := by
  refine ⟨fun σ => ?_, ?_, ?_⟩
  · cases σ <;> rfl
  · simp [joinsFirst, Section.precedes]
  · have hs : (definitionOfRoles.compose {} {}).toOption.map sql =
        some "SELECT Id\nFROM Users\nLEFT JOIN Roles AS r ON r.Id = Users.RoleId" := by
      decide +kernel
    have ht : (applyAll {} (joinsFirst.map Prod.snd)).toOption.map sql =
        some "SELECT Id\nLEFT JOIN Roles AS r ON r.Id = Users.RoleId\nFROM Users" := by
      decide +kernel
    obtain ⟨s, hs, hsql⟩ := exists_of_map_toOption hs
    obtain ⟨t, ht, htsql⟩ := exists_of_map_toOption ht
    exact ⟨s, t, hs, hsql, ht, htsql⟩

end QueryDefinition

end SqlFilter
