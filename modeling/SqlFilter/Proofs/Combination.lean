import SqlFilter.Repository
import SqlFilter.Proofs.DefinitionParameters
import SqlFilter.Proofs.OperandSlots

/-!
Combinations of criteria. A criterion that is no constraint for itself binds nothing and adds no
fault to a combination. It is a criterion all the same: a constant true is written as `1`.
-/
namespace SqlFilter

namespace Predicate
open Fragment

variable {policy : ConvertPolicy}

theorem isAlwaysTrue_combine (ps : List Predicate) : (combine ps).isAlwaysTrue = ps.isEmpty := by
  cases ps using List.reverseRecOn with
  | nil => rfl
  | append_singleton ps p => simp [and, isAlwaysTrue]

theorem pieces_combine {ps : List Predicate} (hps : ps ≠ []) :
    (combine ps).pieces policy = (combine ps).fragment policy := by
  rw [pieces, isAlwaysTrue_combine, if_neg (by simpa using hps)]

theorem fault?_pieces_combine (ps : List Predicate) :
    ((combine ps).pieces policy).fault? = ((combine ps).fragment policy).fault? := by
  rcases eq_or_ne ps [] with rfl | hps
  · rfl
  · rw [pieces_combine hps]

theorem literals_pieces_combine (ps : List Predicate) :
    ((combine ps).pieces policy).literals = ((combine ps).fragment policy).literals := by
  rcases eq_or_ne ps [] with rfl | hps
  · rfl
  · rw [pieces_combine hps]

theorem fragment_combine_singleton (p : Predicate) :
    (combine [p]).fragment policy = .text "(" :: (p.fragment policy ++ [.text ")"]) := rfl

theorem fragment_combine_concat {ps : List Predicate} (hps : ps ≠ []) (p : Predicate) :
    (combine (ps ++ [p])).fragment policy =
      .text "(" :: ((combine ps).fragment policy ++ .text " AND " ::
        (p.fragment policy ++ [.text ")"])) := by
  have hbase : (combine ps).isAlwaysTrue = false := by simp [isAlwaysTrue_combine, hps]
  have hkeyword : " " ++ LogicalOp.and.keyword ++ " " = " AND " := by decide
  rw [combine_concat, and, fragment, hbase, if_neg (by simp), hkeyword]

theorem literals_combine (ps : List Predicate) :
    ((combine ps).fragment policy).literals =
      ps.flatMap fun p => (p.fragment policy).literals := by
  induction ps using List.reverseRecOn with
  | nil => rfl
  | append_singleton ps p ih =>
    rcases eq_or_ne ps [] with rfl | hps
    · simp [fragment_combine_singleton, Fragment.literals, Piece.literals]
    · rw [fragment_combine_concat hps, List.flatMap_append, ← ih]
      simp [Fragment.literals, Piece.literals]

theorem fault?_combine (ps : List Predicate) :
    ((combine ps).fragment policy).fault? =
      ps.findSome? fun p => (p.fragment policy).fault? := by
  induction ps using List.reverseRecOn with
  | nil => rfl
  | append_singleton ps p ih =>
    rcases eq_or_ne ps [] with rfl | hps
    · have hclose : fault? [.text ")"] = none := rfl
      rw [List.nil_append, fragment_combine_singleton, fault?_cons rfl, fault?_append, hclose]
      simp
    · have hclose : fault? [.text ")"] = none := rfl
      rw [fragment_combine_concat hps, fault?_cons rfl, fault?_append, fault?_cons rfl,
        fault?_append, hclose, Option.or_none, ih, List.findSome?_append, List.findSome?_singleton]

theorem exists_fragment_combine (policy : ConvertPolicy) (before after : List Predicate) :
    ∃ f g, ∀ p, (combine (before ++ p :: after)).fragment policy = f ++ p.fragment policy ++ g := by
  induction after using List.reverseRecOn with
  | nil =>
    rcases eq_or_ne before [] with rfl | hne
    · exact ⟨[.text "("], [.text ")"], fun p => rfl⟩
    · refine ⟨.text "(" :: ((combine before).fragment policy ++ [.text " AND "]), [.text ")"],
        fun p => ?_⟩
      rw [fragment_combine_concat hne]
      simp only [List.cons_append, List.append_assoc, List.nil_append]
  | append_singleton after r ih =>
    obtain ⟨f, g, hfg⟩ := ih
    refine ⟨.text "(" :: f, g ++ .text " AND " :: (r.fragment policy ++ [.text ")"]), fun p => ?_⟩
    rw [← List.cons_append, ← List.append_assoc, fragment_combine_concat (by simp), hfg]
    simp only [List.cons_append, List.append_assoc]

/--
A condition as a criterion of a combination, which is a criterion of a combination, and so on. From
the inside to the outside, the criteria before it and after it.
-/
def nest (p : Predicate) : List (List Predicate × List Predicate) → Predicate
  | [] => p
  | (before, after) :: outer => (combine (before ++ p :: after)).nest outer

theorem exists_fragment_nest (policy : ConvertPolicy)
    (outer : List (List Predicate × List Predicate)) :
    ∃ f g, ∀ p, (nest p outer).fragment policy = f ++ p.fragment policy ++ g := by
  induction outer with
  | nil => exact ⟨[], [], fun p => by simp [nest]⟩
  | cons level outer ih =>
    obtain ⟨before, after⟩ := level
    obtain ⟨f, g, hfg⟩ := exists_fragment_combine policy before after
    obtain ⟨f', g', hfg'⟩ := ih
    refine ⟨f' ++ f, g ++ g', fun p => ?_⟩
    rw [nest, hfg', hfg]
    simp only [List.append_assoc]

theorem isAlwaysTrue_nest {outer : List (List Predicate × List Predicate)} (h : outer ≠ [])
    (p : Predicate) : (p.nest outer).isAlwaysTrue = false := by
  induction outer generalizing p with
  | nil => exact absurd rfl h
  | cons level outer ih =>
    rcases eq_or_ne outer [] with rfl | hne
    · simp [nest, isAlwaysTrue_combine]
    · exact ih hne _

end Predicate

def conjoined : List String → String
  | [] => ""
  | s :: ss => ss.foldl (fun t s => "(" ++ t ++ " AND " ++ s ++ ")") ("(" ++ s ++ ")")

theorem conjoined_concat {ss : List String} (h : ss ≠ []) (s : String) :
    conjoined (ss ++ [s]) = "(" ++ conjoined ss ++ " AND " ++ s ++ ")" := by
  cases ss with
  | nil => exact absurd rfl h
  | cons t ts => simp [conjoined]

theorem length_conjoined {ss : List String} (h : ss ≠ []) :
    (conjoined ss).length + 5 = (ss.map String.length).sum + 7 * ss.length := by
  induction ss using List.reverseRecOn with
  | nil => exact absurd rfl h
  | append_singleton ss s ih =>
    have hlengths : "(".length = 1 ∧ " AND ".length = 5 ∧ ")".length = 1 := by decide
    rcases eq_or_ne ss [] with rfl | hss
    · simp only [conjoined, List.nil_append, List.foldl_nil, String.length_append, hlengths,
        List.map_cons, List.map_nil, List.sum_cons, List.sum_nil, List.length_cons, List.length_nil]
      omega
    · have ih := ih hss
      rw [conjoined_concat hss]
      simp only [String.length_append, hlengths, List.map_append, List.sum_append, List.map_cons,
        List.map_nil, List.sum_cons, List.sum_nil, List.length_append, List.length_singleton]
      omega

theorem length_conjoined_lt {ss ts : List String} (h : ss.Sublist ts) (hss : ss ≠ [])
    (hlt : ss.length < ts.length) : (conjoined ss).length < (conjoined ts).length := by
  have hsum : (ss.map String.length).sum ≤ (ts.map String.length).sum :=
    (h.map String.length).sum_le_sum fun _ _ => Nat.zero_le _
  have hts : ts ≠ [] := List.ne_nil_of_length_pos (by omega)
  have hs := length_conjoined hss
  have ht := length_conjoined hts
  omega

namespace CompileOptions
open Predicate

variable {o : CompileOptions} {p : Predicate}

def criterionTexts (o : CompileOptions) (i : Nat) : List Predicate → List String
  | [] => []
  | p :: ps =>
    let f := p.fragment o.convert
    o.write i f :: o.criterionTexts (i + f.literals.length) ps

@[simp] theorem length_criterionTexts (o : CompileOptions) (i : Nat) (ps : List Predicate) :
    (o.criterionTexts i ps).length = ps.length := by
  induction ps generalizing i with
  | nil => rfl
  | cons p ps ih => simp [criterionTexts, ih]

theorem criterionTexts_ne_nil (o : CompileOptions) (i : Nat) {ps : List Predicate}
    (h : ps ≠ []) : o.criterionTexts i ps ≠ [] := by
  rw [← List.length_pos_iff] at h ⊢
  rwa [length_criterionTexts]

theorem criterionTexts_concat (o : CompileOptions) (i : Nat) (ps : List Predicate)
    (p : Predicate) :
    o.criterionTexts i (ps ++ [p]) = o.criterionTexts i ps ++
      [o.write (i + ((combine ps).fragment o.convert).literals.length)
        (p.fragment o.convert)] := by
  rw [literals_combine]
  induction ps generalizing i with
  | nil => simp [criterionTexts]
  | cons q ps ih => simp [criterionTexts, ih, Nat.add_assoc]

theorem write_combine (o : CompileOptions) (i : Nat) {ps : List Predicate} (hps : ps ≠ []) :
    o.write i ((combine ps).fragment o.convert) = conjoined (o.criterionTexts i ps) := by
  induction ps using List.reverseRecOn with
  | nil => exact absurd rfl hps
  | append_singleton ps p ih =>
    rcases eq_or_ne ps [] with rfl | hne
    · simp [fragment_combine_singleton, write_text_cons, write_append, write_nil, criterionTexts,
        conjoined, String.append_assoc]
    · have htexts := o.criterionTexts_ne_nil i hne
      rw [fragment_combine_concat hne, criterionTexts_concat, conjoined_concat htexts, ← ih hne]
      simp only [write_text_cons, write_append, write_nil, String.append_assoc,
        String.append_empty]

theorem write_combine_nil (o : CompileOptions) (i : Nat) :
    o.write i ((combine []).fragment o.convert) = "1" := by
  unfold write
  cases o.literals <;> rfl

def unconstraining (o : CompileOptions) (p : Predicate) : Bool :=
  match o.compile p with
  | .ok c => c.isEmpty
  | .error _ => false

theorem unconstraining_iff :
    o.unconstraining p ↔
      (p.pieces o.convert).fault? = none ∧ Text.allBlank (o.write 0 (p.pieces o.convert)) := by
  rw [unconstraining, compile_eq]
  cases (p.pieces o.convert).fault? <;> simp [CompiledFilter.isEmpty]

theorem literals_eq_nil_of_allBlank_singleton (o : CompileOptions) (i : Nat) {p : Piece}
    (h : Text.allBlank (o.write i [p])) : p.literals = [] := by
  cases p with
  | text s => rfl
  | fault cause => rfl
  | scalar v type => simp [o.allBlank_write_singleton i (p := .scalar v type) rfl] at h
  | items vs element =>
    cases vs with
    | nil => rfl
    | cons v vs =>
      have hlist : Text.allBlank (Value.inList (v :: vs) element) = false := by
        unfold Value.inList
        split
        · exact Value.allBlank_quoted _
        · exact Text.allBlank_intercalate_cons _ (v.allBlank_literal element) _
      have hnames := Text.allBlank_intercalate_cons ", " (allBlank_nameAt o.stem i)
        ((List.range' (i + 1) vs.length).map (Binder.empty o.stem).nameAt)
      unfold write at h
      cases ho : o.literals with
      | inline => simp [ho, Fragment.inlineText, Piece.inlineText, hlist] at h
      | bound =>
        simp [ho, Fragment.boundText, Piece.boundText, List.range'_succ, hnames] at h

theorem literals_eq_nil_of_allBlank (o : CompileOptions) (i : Nat) {f : Fragment}
    (h : Text.allBlank (o.write i f)) : f.literals = [] := by
  induction f generalizing i with
  | nil => rfl
  | cons p f ih =>
    rw [← List.singleton_append, write_append, Text.allBlank_append, Bool.and_eq_true] at h
    have hp : p.literals = [] := literals_eq_nil_of_allBlank_singleton o i h.1
    rw [Fragment.literals, List.flatMap_cons, hp]
    exact ih _ h.2

/-- A criterion that is no constraint binds nothing and has no fault. -/
theorem fragment_of_unconstraining (h : o.unconstraining p) :
    (p.fragment o.convert).fault? = none ∧ (p.fragment o.convert).literals = [] := by
  obtain ⟨hfault, hblank⟩ := unconstraining_iff.1 h
  unfold pieces at hfault hblank
  split at hfault
  · next htrue =>
    obtain ⟨declared, rfl⟩ := exists_of_isAlwaysTrue htrue
    exact ⟨rfl, rfl⟩
  · next htrue =>
    rw [if_neg htrue] at hblank
    exact ⟨hfault, literals_eq_nil_of_allBlank o 0 hblank⟩

theorem write_of_isAlwaysTrue (o : CompileOptions) (i : Nat) (h : p.isAlwaysTrue) :
    o.write i (p.fragment o.convert) = "1" := by
  obtain ⟨declared, rfl⟩ := exists_of_isAlwaysTrue h
  unfold write
  cases o.literals <;> rfl

def constraining (o : CompileOptions) (ps : List Predicate) : List Predicate :=
  ps.filter (!o.unconstraining ·)

theorem literals_combine_constraining (o : CompileOptions) (ps : List Predicate) :
    ((combine (o.constraining ps)).fragment o.convert).literals =
      ((combine ps).fragment o.convert).literals := by
  rw [literals_combine, literals_combine, constraining]
  induction ps with
  | nil => rfl
  | cons p ps ih =>
    cases hp : o.unconstraining p with
    | false => simp [hp, ih]
    | true => simp [hp, ih, (fragment_of_unconstraining hp).2]

theorem fault?_combine_constraining (o : CompileOptions) (ps : List Predicate) :
    ((combine (o.constraining ps)).fragment o.convert).fault? =
      ((combine ps).fragment o.convert).fault? := by
  rw [fault?_combine, fault?_combine, constraining]
  induction ps with
  | nil => rfl
  | cons p ps ih =>
    cases hp : o.unconstraining p with
    | false => simp [hp, List.findSome?_cons, ih]
    | true => simp [hp, ih, (fragment_of_unconstraining hp).1]

/-- A criterion that is left out shifts no placeholder of the others. -/
theorem criterionTexts_constraining_sublist (o : CompileOptions) (i : Nat)
    (ps : List Predicate) :
    (o.criterionTexts i (o.constraining ps)).Sublist (o.criterionTexts i ps) := by
  induction ps generalizing i with
  | nil => exact List.Sublist.refl _
  | cons p ps ih =>
    cases hp : o.unconstraining p with
    | false =>
      rw [constraining, List.filter_cons_of_pos (by simp [hp])]
      exact (ih _).cons_cons _
    | true =>
      rw [constraining, List.filter_cons_of_neg (by simp [hp]), criterionTexts,
        (fragment_of_unconstraining hp).2]
      exact (ih _).cons _

theorem length_constraining_lt {ps : List Predicate} (h : o.constraining ps ≠ ps) :
    (o.constraining ps).length < ps.length :=
  lt_of_le_of_ne List.filter_sublist.length_le fun hlen => h (List.filter_sublist.eq_of_length hlen)

theorem ne_nil_of_constraining_ne {ps : List Predicate} (h : o.constraining ps ≠ ps) :
    ps ≠ [] := by
  rintro rfl
  exact h rfl

theorem length_write_combine_lt (i : Nat) {ps : List Predicate} (h : o.constraining ps ≠ ps) :
    (o.write i ((combine (o.constraining ps)).fragment o.convert)).length <
      (o.write i ((combine ps).fragment o.convert)).length := by
  have hlt := length_constraining_lt h
  have hps := ne_nil_of_constraining_ne h
  rw [write_combine o i hps]
  rcases eq_or_ne (o.constraining ps) [] with hnil | hne
  · have htexts := o.criterionTexts_ne_nil i hps
    have hlen := length_conjoined htexts
    have hpos := List.length_pos_iff.2 htexts
    have hone : "1".length = 1 := by decide
    rw [hnil, write_combine_nil, hone]
    omega
  · rw [write_combine o i hne]
    exact length_conjoined_lt (criterionTexts_constraining_sublist o i ps)
      (o.criterionTexts_ne_nil i hne) (by simpa using hlt)

theorem length_write_pieces_combine_lt {ps : List Predicate} (h : o.constraining ps ≠ ps) :
    (o.write 0 ((combine (o.constraining ps)).pieces o.convert)).length <
      (o.write 0 ((combine ps).pieces o.convert)).length := by
  have hlt := length_write_combine_lt 0 h
  rw [pieces_combine (ne_nil_of_constraining_ne h)]
  rcases eq_or_ne (o.constraining ps) [] with hnil | hne
  · have hpieces : (combine []).pieces o.convert = [] := rfl
    rw [hnil, hpieces, write_nil]
    exact lt_of_le_of_lt (Nat.zero_le _) hlt
  · rwa [pieces_combine hne]

/--
Without the criteria that are no constraint a combination has the same fault and the same literals,
however deep it stands in other combinations, and the same text only if there are none of them.
-/
theorem pieces_nest_constraining (o : CompileOptions) (ps : List Predicate)
    (outer : List (List Predicate × List Predicate)) :
    let f := ((combine ps).nest outer).pieces o.convert
    let g := ((combine (o.constraining ps)).nest outer).pieces o.convert
    f.fault? = g.fault? ∧ f.literals = g.literals ∧
      (o.write 0 f = o.write 0 g → o.constraining ps = ps) := by
  intro f g
  have hfault := fault?_combine_constraining o ps
  have hliterals := literals_combine_constraining o ps
  -- Only the outermost condition may be the constant true that leaves no text.
  rcases eq_or_ne outer [] with rfl | houter
  · refine ⟨?_, ?_, fun h => by_contra fun hne => ?_⟩
    · exact (fault?_pieces_combine _).trans (hfault.symm.trans (fault?_pieces_combine _).symm)
    · exact (literals_pieces_combine _).trans
        (hliterals.symm.trans (literals_pieces_combine _).symm)
    · exact (length_write_pieces_combine_lt hne).ne' (congrArg String.length h)
  · obtain ⟨before, after, hfragment⟩ := exists_fragment_nest o.convert outer
    have hpieces (p : Predicate) :
        (p.nest outer).pieces o.convert = before ++ p.fragment o.convert ++ after := by
      rw [pieces, isAlwaysTrue_nest houter, ← hfragment, if_neg (by simp)]
    rw [show f = _ from hpieces _, show g = _ from hpieces _]
    refine ⟨?_, ?_, fun h => by_contra fun hne => ?_⟩
    · simp only [Fragment.fault?_append, hfault]
    · simp only [Fragment.literals_append, hliterals]
    · have hlt := length_write_combine_lt (0 + before.literals.length) hne
      have hlength := congrArg String.length h
      simp only [write_append, String.length_append, Fragment.literals_append, hliterals]
        at hlength
      omega

end CompileOptions

namespace Repository
open CompileOptions Predicate

theorem exists_foldl_addColumn (columns : List String) (s : Select) :
    ∃ cs, columns.foldl Select.addColumn s = { s with columns := cs } := by
  induction columns generalizing s with
  | nil => exact ⟨s.columns, rfl⟩
  | cons c columns ih =>
    obtain ⟨cs, hcs⟩ := ih (s.addColumn c)
    refine ⟨cs, ?_⟩
    rw [List.foldl_cons, hcs]
    unfold Select.addColumn
    split <;> rfl

def linesAround (r : Repository) (q : EntityQuery) (criteria : List String) : List String :=
  Select.selectLine (q.columns.foldl Select.addColumn r.start).columns false ::
    (Source.table r.table.name).text ::
      (criteria ++ Select.orderLine (q.order.toList.map fun o => .column o.1 o.2))

theorem allBlank_compile_combine {o : CompileOptions} {ps : List Predicate} {c : CompiledFilter}
    (hps : ps ≠ []) (hc : o.compile (combine ps) = .ok c) : Text.allBlank c.sql = false := by
  obtain ⟨-, rfl⟩ := compile_eq_ok_iff.1 hc
  refine o.allBlank_write 0 (p := .text "(") ?_ (by decide)
  rw [pieces_combine hps]
  cases ps using List.reverseRecOn with
  | nil => exact absurd rfl hps
  | append_singleton ps p =>
    rcases eq_or_ne ps [] with rfl | hne
    · exact List.mem_cons_self
    · rw [fragment_combine_concat hne]
      exact List.mem_cons_self

theorem build_ordered (r : Repository) (q : EntityQuery) {s : Select}
    {conditions : List Condition} {params : List Parameter}
    (hs : s = { q.columns.foldl Select.addColumn r.start with conditions, params }) :
    (q.order.elim s fun o => s.addOrder (.column o.1 o.2)).build =
      ⟨"\n".intercalate (r.linesAround q (Select.whereLine conditions)), params⟩ := by
  obtain ⟨cs, hcs⟩ := exists_foldl_addColumn q.columns r.start
  subst hs
  unfold linesAround
  rw [hcs]
  cases q.order <;>
    simp [Select.build, Select.sql, Select.lines, Select.withLine, Select.orderLine,
      Select.pageLine, Select.addOrder, start, Select.addSource, Select.withOptions]

theorem find_eq (r : Repository) (q : EntityQuery) :
    r.find q = (r.config.compiler.compile (combine q.criteria)).map fun c =>
      ⟨"\n".intercalate (r.linesAround q
        (if q.criteria = [] then [] else ["WHERE " ++ c.sql])), c.params⟩ := by
  obtain ⟨cs, hcs⟩ := exists_foldl_addColumn q.columns r.start
  unfold find EntityQuery.condition?
  rcases eq_or_ne q.criteria [] with hnil | hne
  · have hcompile : r.config.compiler.compile (combine []) = .ok ⟨"", []⟩ := by
      refine compile_eq_ok_iff.2 ⟨rfl, ?_⟩
      have hpieces : (combine []).pieces r.config.compiler.convert = [] := rfl
      rw [hpieces, write_nil]
      unfold collect
      split <;> rfl
    have hs : q.columns.foldl Select.addColumn r.start =
        { q.columns.foldl Select.addColumn r.start with conditions := [], params := [] } := by
      rw [hcs]
      rfl
    rw [hnil, hcompile]
    exact congrArg Except.ok (build_ordered r q hs)
  · rw [if_neg (by simpa using hne)]
    simp only [if_neg hne, Select.filterPredicate]
    cases hc : r.config.compiler.compile (combine q.criteria) with
    | error e => rfl
    | ok c =>
      have hs : (q.columns.foldl Select.addColumn r.start).filter c =
          { q.columns.foldl Select.addColumn r.start with
            conditions := [⟨.and, c.sql⟩], params := c.params } := by
        rw [Select.filter_of_params_eq_nil (by rw [hcs]; rfl) (nodup_compile hc),
          Select.addCondition, if_neg (by simp [allBlank_compile_combine hne hc]), hcs]
        rfl
      exact congrArg Except.ok (build_ordered r q hs)

end Repository

namespace CompileOptions
open Predicate

variable {o : CompileOptions} {ps : List Predicate}

def UnconstrainedByTrue (o : CompileOptions) (ps : List Predicate) : Prop :=
  ∀ p ∈ ps, o.unconstraining p → p.isAlwaysTrue

/--
Criteria that are no constraint for themselves change neither success nor parameters of a
combination, however deep it stands in other combinations. A constant true among them is not left
out of the text: it stands there as `1`, and a look-up has a line for its criteria if it has any.
-/
theorem compile_combine_constraining (o : CompileOptions) (ps : List Predicate) :
    let qs := o.constraining ps
    (∀ outer,
      (∃ e, o.compile ((combine ps).nest outer) = .error e ∧
        o.compile ((combine qs).nest outer) = .error e) ∨
      ∃ c d, o.compile ((combine ps).nest outer) = .ok c ∧
        o.compile ((combine qs).nest outer) = .ok d ∧ c.params = d.params ∧
        (o.UnconstrainedByTrue ps → (c.sql = d.sql ↔ qs = ps))) ∧
    (o.UnconstrainedByTrue ps →
      (∀ p ∈ ps, o.unconstraining p → ∀ i, o.write i (p.fragment o.convert) = "1") ∧
      (∀ c, o.compile (combine ps) = .ok c → c.sql = conjoined (o.criterionTexts 0 ps)) ∧
      ∀ (r : Repository) (q : EntityQuery), r.config.compiler = o → q.criteria = ps →
        r.find q = (o.compile (combine ps)).map fun c =>
          ⟨"\n".intercalate (r.linesAround q (if ps = [] then [] else ["WHERE " ++ c.sql])),
            c.params⟩) := by
  intro qs
  refine ⟨fun outer => ?_, fun hps => ⟨fun p hp h i => ?_, fun c hc => ?_, ?_⟩⟩
  · obtain ⟨hfault, hliterals, hsql⟩ := o.pieces_nest_constraining ps outer
    rw [compile_eq, compile_eq, hfault]
    cases (((combine qs).nest outer).pieces o.convert).fault? with
    | some cause => exact .inl ⟨_, rfl, rfl⟩
    | none =>
      have hparams : o.collect (((combine ps).nest outer).pieces o.convert) =
          o.collect (((combine qs).nest outer).pieces o.convert) := by
        unfold collect
        rw [hliterals]
      exact .inr ⟨_, _, rfl, rfl, hparams, fun _ => ⟨hsql, fun h => by rw [h]⟩⟩
  · exact o.write_of_isAlwaysTrue i (hps p hp h)
  · obtain ⟨-, rfl⟩ := compile_eq_ok_iff.1 hc
    rcases eq_or_ne ps [] with rfl | hne
    · exact o.write_nil 0
    · rw [pieces_combine hne, write_combine o 0 hne]
  · rintro r q rfl rfl
    exact r.find_eq q

/-- A constant true before a comparison, and the combination of both as a criterion. -/
theorem compile_combine_constraining_true :
    let o : CompileOptions := {}
    let ps := [Predicate.always, .eq (.member "A") (.lit (.int 1))]
    let outer := [([Predicate.isNull "B"], [])]
    o.UnconstrainedByTrue ps ∧
    ∃ c d, o.compile ((combine ps).nest outer) = .ok c ∧
      o.compile ((combine (o.constraining ps)).nest outer) = .ok d ∧ c.params = d.params ∧
      c.sql ≠ d.sql := by
  intro o ps outer
  have hps : o.UnconstrainedByTrue ps := by
    unfold UnconstrainedByTrue
    decide +kernel
  refine ⟨hps, ?_⟩
  obtain ⟨e, he, _⟩ | ⟨c, d, hc, hd, hparams, hsql⟩ :=
    (compile_combine_constraining o ps).1 outer
  · cases he
  · refine ⟨c, d, hc, hd, hparams, fun h => ?_⟩
    have hlength := congrArg List.length ((hsql hps).1 h)
    exact absurd hlength (by decide +kernel)

/-- A constant true alone is no constraint, and is one as the only criterion. -/
theorem compile_combine_always :
    let o : CompileOptions := {}
    let ps := [Predicate.always]
    let r : Repository := ⟨⟨"Users", "ID"⟩, {}⟩
    o.constraining ps = [] ∧ o.compile (combine ps) = .ok ⟨"(1)", []⟩ ∧
      o.compile (combine (o.constraining ps)) = .ok ⟨"", []⟩ ∧
      r.find ⟨ps, [], none⟩ = .ok ⟨"SELECT *\nFROM Users\nWHERE (1)", []⟩ := by
  decide +kernel

end CompileOptions

end SqlFilter
