import SqlFilter.Proofs.Snippets
import SqlFilter.Proofs.SupportedNodes

/-!
One binder for many compilations. Each of them adds its parameters behind those that are there, a
failing one those of the literals before the node that fails, and none hands out a placeholder that
is taken.
-/
namespace SqlFilter

namespace Predicate

/--
A node of a condition where it is written: the condition itself, or what fills one of its slots,
between what is before and what is after.
-/
inductive Occurs (policy : ConvertPolicy) (p : Predicate) : Fragment → Predicate → Fragment → Prop
  | whole : Occurs policy p [] p []
  | slot {before after : Fragment} {q : Predicate} (h : Slot policy p before q after) :
    Occurs policy p before q after

variable {policy : ConvertPolicy} {p q : Predicate} {before after : Fragment} {cause : Unsupported}

theorem Occurs.fragment_eq (h : Occurs policy p before q after) :
    p.fragment policy = before ++ q.fragment policy ++ after := by
  cases h with
  | whole => simp
  | slot h => exact h.fragment_eq

theorem membershipSegments_of_fault {collection value : Predicate}
    (h : .piece (.fault cause) ∈ membershipSegments collection value) :
    membershipSegments collection value = [.piece (.fault cause)] ∧
      collection.collectionFault? = some cause := by
  fun_cases membershipSegments collection value <;>
    simp_all [membershipSegments, collectionFault?, Segment.text]

/-- A node with a fault among its own pieces has no other piece and no operand. -/
theorem segments_of_fault (h : .piece (.fault cause) ∈ p.segments policy) :
    p.segments policy = [.piece (.fault cause)] ∧ p.ownFault? = some cause := by
  fun_cases segments policy p with
  | case3 _ op left right hbase =>
    rw [segments, if_neg hbase] at h
    simp [Segment.text] at h
  | case13 _ method collection value hm | case14 _ method collection value hm =>
    simp only [segments, hm] at h
    simpa only [ownFault?, hm] using membershipSegments_of_fault h
  | _ => simp_all [segments, ownFault?, Segment.text]

/-- The first fault of a condition is that of a node, and nothing written before it fails. -/
theorem exists_occurs_of_fault (h : (p.fragment policy).fault? = some cause) :
    ∃ before q after, Occurs policy p before q after ∧ before.fault? = none ∧
      q.ownFault? = some cause ∧ q.fragment policy = [.fault cause] := by
  induction p using induction_operands with
  | h p ih =>
    rw [fragment_eq_assemble, Segment.assemble, Fragment.fault?, findSome?_flatMap] at h
    obtain ⟨a, s, b, hsegments, hs, ha⟩ := List.findSome?_eq_some_iff.1 h
    have hbefore : (Segment.assemble policy a).fault? = none := by
      rw [Segment.assemble, Fragment.fault?, findSome?_flatMap]
      exact List.findSome?_eq_none_iff.2 ha
    have hmem : s ∈ p.segments policy := by simp [hsegments]
    cases s with
    | piece x =>
      obtain rfl : x = .fault cause := by
        cases x <;> simp [Segment.fragment, Piece.fault?] at hs
        rw [hs]
      obtain ⟨hown, hfault⟩ := segments_of_fault hmem
      refine ⟨[], p, [], .whole, rfl, hfault, ?_⟩
      rw [fragment_eq_assemble, hown]
      rfl
    | operand q =>
      obtain ⟨before, r, after, hr, hclean, hfault, hr'⟩ :=
        ih q (mem_operands_of_mem_segments hmem) hs
      cases hr with
      | whole => exact ⟨_, q, _, .slot (.own hsegments), hbefore, hfault, hr'⟩
      | slot hslot =>
        refine ⟨_, r, _, .slot (.within hsegments hslot), ?_, hfault, hr'⟩
        rw [Fragment.fault?_append, hbefore, hclean]
        rfl

end Predicate

theorem Fragment.reached_append_fault {f : Fragment} (h : f.fault? = none) (cause : Unsupported)
    (g : Fragment) : reached (f ++ .fault cause :: g) = f := by
  have hf : ∀ x ∈ f, x.fault?.isNone := by simpa [fault?] using h
  rw [reached, List.takeWhile_append_of_pos hf]
  simp [Piece.fault?]

namespace Binder

/-- Compiles conditions one after the other. A failing one keeps what it has bound. -/
def compileAll (b : Binder) :
    List (CompileOptions × Predicate) → List (Except Error String) × Binder
  | [] => ([], b)
  | (o, p) :: calls =>
    let (r, b) := b.compile o p
    let (rs, b) := b.compileAll calls
    (r :: rs, b)

def placeholders (o : CompileOptions) (b : Binder) (p : Predicate) : List String :=
  (p.snippets o.convert (.bound b)).flatMap Snippet.names

def names (b : Binder) : List String := b.params.map Parameter.name

variable {o : CompileOptions} {b : Binder} {p : Predicate} {stem : String}

theorem compile_eq (o : CompileOptions) (b : Binder) (p : Predicate) :
    b.compile o p =
      (((p.pieces o.convert).outcome
          (Fragment.boundText b.nameAt b.index (p.pieces o.convert))).mapError .unsupported,
        b.extend (p.pieces o.convert).reached.literals) := by
  rw [compile, Predicate.compileInto_eq_walk, Fragment.run_walk_bound]

/-- The index counts the parameters, which have the numbers from zero on. -/
structure Numbered (stem : String) (b : Binder) : Prop where
  stem_eq : b.stem = stem
  index_eq : b.index = b.params.length
  names_eq : b.names = (List.range b.params.length).map fun i => "@" ++ stem ++ toString i

theorem numbered_nil (stem : String) : Numbered stem (.empty stem) := ⟨rfl, rfl, rfl⟩

theorem Numbered.nameAt_eq (h : b.Numbered stem) :
    b.nameAt = fun i => "@" ++ stem ++ toString i := by
  funext i
  rw [nameAt, h.stem_eq]

theorem Numbered.nodup (h : b.Numbered stem) : b.names.Nodup := by
  rw [h.names_eq]
  exact List.nodup_range.map (Select.numbered_injective stem)

theorem Numbered.extend (h : b.Numbered stem) (ls : List (Value × ValueType)) :
    (b.extend ls).Numbered stem where
  stem_eq := h.stem_eq
  index_eq := by simp [Binder.extend, h.index_eq]
  names_eq := by
    have hnames : (b.extend ls).names =
        b.names ++ (List.range' b.params.length ls.length).map b.nameAt := by
      rw [names, Binder.extend, List.map_append, Parameter.map_name_numbered, h.index_eq, names]
    have hlength : (b.extend ls).params.length = b.params.length + ls.length := by
      simp [Binder.extend]
    rw [hnames, hlength, h.names_eq, h.nameAt_eq, ← List.map_append, List.range_eq_range',
      List.range_eq_range', ← List.range'_append_1, Nat.zero_add]

theorem Numbered.compile (h : b.Numbered stem) (o : CompileOptions) (p : Predicate) :
    (b.compile o p).2.Numbered stem := by
  rw [compile_eq]
  exact h.extend _

theorem params_compile (o : CompileOptions) (b : Binder) (p : Predicate) :
    b.params <+: (b.compile o p).2.params := by
  rw [compile_eq]
  exact List.prefix_append _ _

theorem Numbered.compileAll (h : b.Numbered stem) (calls : List (CompileOptions × Predicate)) :
    (b.compileAll calls).2.Numbered stem := by
  induction calls generalizing b with
  | nil => exact h
  | cons call calls ih => exact ih (h.compile call.1 call.2)

theorem params_compileAll (b : Binder) (calls : List (CompileOptions × Predicate)) :
    b.params <+: (b.compileAll calls).2.params := by
  induction calls generalizing b with
  | nil => exact List.prefix_refl _
  | cons call calls ih => exact (params_compile call.1 b call.2).trans (ih _)

theorem placeholders_eq (o : CompileOptions) (b : Binder) (p : Predicate) :
    b.placeholders o p =
      (List.range' b.index (p.pieces o.convert).reached.literals.length).map b.nameAt :=
  Fragment.names_snippets_some b.nameAt b.index _

/-- A compilation adds the parameters of the placeholders that it hands out, also if it fails. -/
theorem names_compile (o : CompileOptions) (b : Binder) (p : Predicate) :
    (b.compile o p).2.names = b.names ++ b.placeholders o p := by
  rw [compile_eq, placeholders_eq, names, extend, List.map_append, Parameter.map_name_numbered,
    names]

theorem fst_compile (o : CompileOptions) (b : Binder) (p : Predicate) :
    (b.compile o p).1 = (p.compileInto o.convert (.bound b)).1.mapError .unsupported := by
  unfold compile
  split <;> next hr => rw [hr]

theorem compile_eq_ok {sql : String} (h : (b.compile o p).1 = .ok sql) :
    (p.pieces o.convert).fault? = none ∧ sql = Snippet.join (p.snippets o.convert (.bound b)) := by
  rw [fst_compile] at h
  refine Predicate.join_snippets ?_
  cases hr : (p.compileInto o.convert (.bound b)).1 with
  | error cause =>
    rw [hr] at h
    cases h
  | ok s =>
    rw [hr] at h
    exact congrArg Except.ok (Except.ok.inj h)

/-- A failing compilation adds the parameters of the literals before the node that fails. -/
theorem compile_eq_error {e : Error} (h : (b.compile o p).1 = .error e) :
    ∃ before q after cause, Predicate.Occurs o.convert p before q after ∧
      before.fault? = none ∧ q.ownFault? = some cause ∧ q.fragment o.convert = [.fault cause] ∧
      e = .unsupported cause ∧ (b.compile o p).2 = b.extend before.literals := by
  rw [compile_eq] at h ⊢
  cases hf : (p.pieces o.convert).fault? with
  | none =>
    rw [Fragment.outcome, hf] at h
    cases h
  | some cause =>
    rw [Fragment.outcome, hf] at h
    have hpieces : p.pieces o.convert = p.fragment o.convert := by
      unfold Predicate.pieces at hf ⊢
      split at hf
      · cases hf
      · next hp => rw [if_neg hp]
    rw [hpieces] at hf ⊢
    obtain ⟨before, q, after, hq, hbefore, hown, hfragment⟩ := Predicate.exists_occurs_of_fault hf
    refine ⟨before, q, after, cause, hq, hbefore, hown, hfragment, (Except.error.inj h).symm, ?_⟩
    rw [hq.fragment_eq, hfragment, List.append_assoc, List.singleton_append,
      Fragment.reached_append_fault hbefore]

/-- Under a word, and without marks in paths, the scanner finds the placeholders in the text. -/
theorem Numbered.occurrences_compile (h : b.Numbered stem) (hstem : Text.isWordText stem)
    (hp : p.PathsUnmarked) {sql : String} (hsql : (b.compile o p).1 = .ok sql) :
    (Placeholder.occurrences sql).map ("@" ++ ·) = b.placeholders o p := by
  have hscans := Predicate.scans_pieces hstem o.convert hp b.index [] (by
    simp [Placeholder.Stops])
  have hname : (Binder.empty stem).nameAt = b.nameAt := by
    rw [h.nameAt_eq]
    rfl
  obtain ⟨hfault, hjoin⟩ := compile_eq_ok hsql
  have htext : sql = Fragment.boundText b.nameAt b.index (p.pieces o.convert) := by
    rw [hjoin, Predicate.snippets, Fragment.reached_of_fault?_eq_none hfault]
    exact Fragment.join_snippets_some _ _ _
  rw [hname, ← htext, List.append_nil, Placeholder.scan_nil, List.append_nil] at hscans
  rw [Placeholder.occurrences_eq_scan, hscans, placeholders_eq,
    Fragment.reached_of_fault?_eq_none hfault, h.nameAt_eq, List.map_map]
  exact List.map_congr_left fun k _ => String.append_assoc.symm

/-- What is written after more compilations takes no placeholder that is there already. -/
theorem Numbered.not_mem_names (h : b.Numbered stem) (later : List (CompileOptions × Predicate)) :
    ∀ n ∈ (b.compileAll later).2.placeholders o p, n ∉ b.names := by
  intro n hn hmem
  have hle := (b.params_compileAll later).length_le
  have hlater := h.compileAll later
  rw [placeholders_eq, hlater.nameAt_eq, hlater.index_eq] at hn
  rw [h.names_eq] at hmem
  obtain ⟨i, hi, rfl⟩ := List.mem_map.1 hn
  obtain ⟨j, hj, hij⟩ := List.mem_map.1 hmem
  obtain rfl := Select.numbered_injective stem hij
  rw [List.mem_range'_1] at hi
  rw [List.mem_range] at hj
  omega

/--
After each of any number of compilations the index is the number of the parameters, these have the
numbers from zero on, and the next placeholder has the index. What was there before stays in front,
and behind it come the placeholders that the compilation hands out, in order. A successful one has
them in its text; a failing one adds the parameters of the literals before the node that fails. No
later text takes a placeholder that is there, whoever left it.
-/
theorem compileAll_keeps_numbers (stem : String) (calls : List (CompileOptions × Predicate))
    (o : CompileOptions) (p : Predicate) :
    let b := (compileAll (.empty stem) calls).2
    let b' := (b.compile o p).2
    b'.index = b'.params.length ∧
    b'.names = (List.range b'.params.length).map (fun i => "@" ++ stem ++ toString i) ∧
    b'.names.Nodup ∧
    (∀ v type, (b'.bind v type).1 = "@" ++ stem ++ toString b'.params.length) ∧
    b.params <+: b'.params ∧
    b'.names = b.names ++ b.placeholders o p ∧
    (∀ sql, (b.compile o p).1 = .ok sql →
      sql = Snippet.join (p.snippets o.convert (.bound b)) ∧
      (Text.isWordText stem → p.PathsUnmarked →
        (Placeholder.occurrences sql).map ("@" ++ ·) = b.placeholders o p)) ∧
    (∀ e, (b.compile o p).1 = .error e →
      ∃ before q after cause, Predicate.Occurs o.convert p before q after ∧
        before.fault? = none ∧ q.ownFault? = some cause ∧ q.fragment o.convert = [.fault cause] ∧
        e = .unsupported cause ∧
        b'.params =
          b.params ++ Parameter.numbered b.nameAt b.params.length before.literals ∧
        b'.index = b.index + before.literals.length) ∧
    ∀ later o' q, ∀ n ∈ (b'.compileAll later).2.placeholders o' q, n ∉ b'.names := by
  intro b b'
  have hb : b.Numbered stem := (numbered_nil stem).compileAll calls
  have hb' : b'.Numbered stem := hb.compile o p
  refine ⟨hb'.index_eq, hb'.names_eq, hb'.nodup, fun v type => ?_, params_compile o b p,
    names_compile o b p, fun sql hsql => ?_, fun e he => ?_,
    fun later o' q => hb'.not_mem_names later⟩
  · rw [bind_eq, hb'.nameAt_eq, hb'.index_eq]
  · exact ⟨(compile_eq_ok hsql).2, fun hstem hp => hb.occurrences_compile hstem hp hsql⟩
  · obtain ⟨before, q, after, cause, hq, hbefore, hown, hfragment, hcause, hbinder⟩ :=
      compile_eq_error he
    have hb'_eq : b' = b.extend before.literals := hbinder
    refine ⟨before, q, after, cause, hq, hbefore, hown, hfragment, hcause, ?_, ?_⟩
    · rw [hb'_eq, extend, hb.index_eq]
    · rw [hb'_eq, extend]

/-- The literal before a record that fails is bound; the next condition goes on after it. -/
example :
    let older : Predicate := .eq (.member "Age") (.lit (.int 30))
    let calls := [({}, .and older (.parameter "x")), ({}, older)]
    (compileAll {} calls).1.map Except.toOption = [none, some "Age = @p1"] ∧
      (compileAll {} calls).2.names = ["@p0", "@p1"] := by
  decide

end Binder

end SqlFilter
