import SqlFilter.Proofs.ParameterHygiene

/-!
Which placeholders a renumbering can capture. New names avoid the names that are bound and those
that come, and no placeholder of the condition itself has one; they do not avoid placeholders of
other texts that are to be bound later.
-/
namespace SqlFilter

namespace Placeholder

/-- The words behind the `@` signs of a text, wherever these stand. -/
def mentions : List Char → List String
  | [] => []
  | c :: cs => if c = '@' then .ofList (run Text.isWord cs).1 :: mentions cs else mentions cs

variable {m : String} {cs rest : List Char}

theorem mentions_append_of_no_at (h : '@' ∉ cs) (rest : List Char) :
    mentions (cs ++ rest) = mentions rest := by
  induction cs with
  | nil => rfl
  | cons c cs ih =>
    rw [List.mem_cons, not_or] at h
    rw [List.cons_append, mentions, if_neg (Ne.symm h.1), ih h.2]

theorem mem_mentions_append (cs : List Char) (h : m ∈ mentions rest) :
    m ∈ mentions (cs ++ rest) := by
  induction cs with
  | nil => exact h
  | cons c cs ih =>
    rw [List.cons_append, mentions]
    split
    · exact List.mem_cons_of_mem _ ih
    · exact ih

theorem not_mem_at_of_isWord (h : ∀ c ∈ cs, Text.isWord c) : '@' ∉ cs := by
  intro hat
  exact absurd (h '@' hat) (by decide)

theorem mentions_placeholder (hw : ∀ c ∈ cs, Text.isWord c) (hr : Stops Text.isWord rest) :
    mentions ('@' :: (cs ++ rest)) = .ofList cs :: mentions rest := by
  rw [mentions, if_pos rfl, run_eq hw hr, mentions_append_of_no_at (not_mem_at_of_isWord hw)]

/-- Every placeholder that the scanner finds is a mention. -/
theorem mem_mentions_of_mem_scan (h : m ∈ scan cs) : m ∈ mentions cs := by
  rw [scan] at h
  fun_induction tokens cs with
  | case1 => simp at h
  | case2 c cs ih =>
    have hbefore := before_next c cs
    have hchars := chars_next c cs
    generalize next c cs = t at hbefore hchars h ih
    obtain ⟨token, rest⟩ := t
    rw [← hchars]
    cases token with
    | verbatim text => exact mem_mentions_append _ (ih h)
    | placeholder name =>
      cases hbefore with
      | placeholder hne hw hr =>
        rw [Token.chars, List.cons_append, mentions_placeholder hw hr]
        rcases List.mem_cons.1 h with rfl | h
        · exact List.mem_cons_self
        · exact List.mem_cons_of_mem _ (ih h)

theorem not_mem_at_of_unmarked {s : String} (h : unmarked s) : '@' ∉ s.toList := by
  intro hat
  exact absurd (List.all_eq_true.1 h '@' hat) (by decide)

theorem finder_mentions : Fragment.Finder mentions where
  skip h rest := mentions_append_of_no_at (not_mem_at_of_unmarked h) rest
  placeholder _ hw hr := mentions_placeholder hw hr

end Placeholder

open Placeholder

/-- Without `@` in paths, every placeholder in a compiled condition is that of a parameter. -/
theorem CompileOptions.mem_names_of_mem_occurrences {policy : ConvertPolicy} {stem : String}
    (hstem : Text.isWordText stem) {p : Predicate} (hp : ∀ path ∈ p.paths, '@' ∉ path.toList)
    {c : CompiledFilter} (hc : compile ⟨.bound, policy, stem⟩ p = .ok c) :
    ∀ m ∈ occurrences c.sql, "@" ++ m ∈ c.params.map Parameter.name := by
  have hfinds := Predicate.finds_pieces finder_mentions hstem policy fun path hpath =>
    mentions_append_of_no_at (hp path hpath)
  intro m hm
  rw [compile_bound] at hc
  split at hc
  · cases hc
  cases hc
  have hmentions := hfinds 0 [] (by simp [Stops])
  have hmem := mem_mentions_of_mem_scan hm
  rw [List.append_nil, mentions, List.append_nil] at hmentions
  rw [hmentions] at hmem
  obtain ⟨k, hk, rfl⟩ := List.mem_map.1 hmem
  rw [Parameter.map_name_numbered]
  exact List.mem_map.2 ⟨k, hk, String.append_assoc⟩

theorem Parameter.find?_eq_none {ps : List Parameter} {n : String}
    (h : n ∉ ps.map Parameter.name) : ps.find? (·.name == n) = none := by
  refine List.find?_eq_none.2 fun q hq hname => h (List.mem_map.2 ⟨q, hq, ?_⟩)
  simpa using hname

namespace Select

theorem nameStem_append_toString {stem : String} (hstem : Text.isWordText stem) (k : Nat) :
    nameStem ("@" ++ stem ++ toString k) = nameStem ("@" ++ stem) := by
  have hdigits : ∀ c ∈ (toString k).toList.reverse, c.isDigit := by
    intro c hc
    exact Text.isDigit_of_mem_repr (List.mem_reverse.1 hc)
  have hword := isWordText_append_toString (isWordText_iff.1 hstem).2 k
  rw [nameStem, nameStem, String.append_assoc, bareName_of_isWordText hword,
    bareName_of_isWordText hstem, Text.dropLastWhile, Text.dropLastWhile, String.toList_append,
    List.reverse_append, List.dropWhile_append_of_pos hdigits]

theorem Renumbering.mem_run_names {r : Renumbering} {ps : List Parameter} {n : String}
    (h : n ∈ (r.run ps).1.map Parameter.name) :
    ∃ p ∈ ps, n = p.name ∨ ∃ taken, n = nextFreeName p.name taken := by
  induction ps generalizing r with
  | nil => cases h
  | cons p ps ih =>
    rw [run_cons, List.map_cons, List.mem_cons] at h
    rcases h with rfl | h
    · refine ⟨p, List.mem_cons_self, ?_⟩
      by_cases hp : p.name ∈ r.bound
      · rw [step_of_mem hp]
        exact .inr ⟨_, rfl⟩
      · rw [step_of_not_mem hp]
        exact .inl rfl
    · obtain ⟨q, hq, hn⟩ := ih h
      exact ⟨q, List.mem_cons_of_mem _ hq, hn⟩

/-- The names that a renumbering makes up: neither bound before nor compiled. -/
def freshNames (s : Select) (c : CompiledFilter) : List String :=
  ((s.renumbered c).1.map Parameter.name).filter
    fun n => n ∉ s.paramNames ∧ n ∉ c.params.map Parameter.name

def texts (s : Select) : List String :=
  s.conditions.map Condition.text ++ s.sources.map Source.text ++ s.ctes.map Cte.text ++
    s.grouping.map Grouping.text ++ s.order.map OrderItem.text

variable {s : Select} {c : CompiledFilter} {n m : String}

theorem mem_freshNames :
    n ∈ s.freshNames c ↔ n ∈ (s.renumbered c).1.map Parameter.name ∧ n ∉ s.paramNames ∧
      n ∉ c.params.map Parameter.name := by
  simp [freshNames]

theorem nodup_renumbered (s : Select) (c : CompiledFilter) :
    ((s.renumbered c).1.map Parameter.name).Nodup :=
  (s.covers_entry c).run_names.1

theorem param?_filter_of_mem (hm : Text.isWordText m) (h : "@" ++ m ∈ s.paramNames) :
    (s.filter c).build.param? m = s.build.param? m := by
  obtain ⟨q, hq, hname⟩ := List.mem_map.1 h
  have hsome : (s.params.find? (·.name == "@" ++ m)).isSome :=
    List.find?_isSome.2 ⟨q, hq, by simp [hname]⟩
  rw [PreparedQuery.param?, PreparedQuery.param?, placeholder_of_isWordText hm]
  change (s.filter c).params.find? _ = s.params.find? _
  rw [params_filter, List.find?_append, Option.or_of_isSome hsome]

theorem param?_filter_addParameter (hm : Text.isWordText m) (h : "@" ++ m ∉ s.paramNames)
    (v : Value) (type : SqlType) :
    ((s.filter c).addParameter (.named m v type)).build.param? m =
      ((s.renumbered c).1.find? (·.name == "@" ++ m)).or (some (.named m v type)) := by
  have hnone : s.params.find? (·.name == "@" ++ m) = none := Parameter.find?_eq_none h
  have hnamed : (Parameter.named m v type).name = "@" ++ m := placeholder_of_isWordText hm
  rw [PreparedQuery.param?, placeholder_of_isWordText hm]
  change ((s.filter c).params ++ [_]).find? _ = _
  rw [params_filter, List.find?_append, List.find?_append, hnone, Option.none_or,
    List.find?_singleton, hnamed, beq_self_eq_true, if_pos rfl]

/--
A new name is the prefix of the compilation without its last digits, with a number, and is neither
bound nor compiled. No placeholder of the compiled condition has it, if no path of a field holds
`@`. Among the placeholders of the other texts those that are bound do not have it and keep their
values. One that is bound later gets its value, unless its name is among those that the condition
brings.
-/
theorem filter_spares_bound_placeholders {policy : ConvertPolicy} {stem : String} {p : Predicate}
    (s : Select) (hstem : Text.isWordText stem)
    (hc : CompileOptions.compile ⟨.bound, policy, stem⟩ p = .ok c) :
    (∀ n ∈ s.freshNames c, n ∉ s.paramNames ∧ n ∉ c.params.map Parameter.name ∧
      ∃ i, n = numbered (nameStem ("@" ++ stem)) i) ∧
    ((∀ path ∈ p.paths, '@' ∉ path.toList) →
      ∀ m ∈ occurrences c.sql, "@" ++ m ∉ s.freshNames c) ∧
    ∀ text ∈ s.texts, ∀ m ∈ occurrences text,
      ("@" ++ m ∈ s.paramNames →
        "@" ++ m ∉ s.freshNames c ∧ (s.filter c).build.param? m = s.build.param? m) ∧
      ("@" ++ m ∉ s.paramNames → ∀ v type,
        let t := (s.filter c).addParameter (.named m v type)
        ("@" ++ m ∉ (s.renumbered c).1.map Parameter.name →
          t.build.param? m = some (.named m v type)) ∧
        ∀ q ∈ (s.renumbered c).1, q.name = "@" ++ m → t.build.param? m = some q) := by
  refine ⟨fun n hn => ?_, fun hpaths m hm hfresh => ?_, fun text _ m hm => ⟨fun h => ?_, ?_⟩⟩
  · obtain ⟨hnew, hbound, hcompiled⟩ := mem_freshNames.1 hn
    refine ⟨hbound, hcompiled, ?_⟩
    obtain ⟨q, hq, rfl | ⟨taken, rfl⟩⟩ := Renumbering.mem_run_names hnew
    · exact absurd (List.mem_map_of_mem hq) hcompiled
    · obtain ⟨i, hi, _⟩ := nextFreeName_eq q.name taken
      have hname := CompileOptions.names_compile hc ▸ List.mem_map_of_mem hq
      obtain ⟨k, _, hk⟩ := List.mem_map.1 hname
      refine ⟨i, ?_⟩
      rw [hi, ← hk]
      exact congrArg (numbered · i) (nameStem_append_toString hstem k)
  · exact (mem_freshNames.1 hfresh).2.2
      (CompileOptions.mem_names_of_mem_occurrences hstem hpaths hc m hm)
  · exact ⟨fun hfresh => (mem_freshNames.1 hfresh).2.1 h,
      param?_filter_of_mem (isWordText_of_mem_occurrences hm) h⟩
  · intro h v type t
    have ht := param?_filter_addParameter (c := c) (isWordText_of_mem_occurrences hm) h v type
    constructor
    · intro hfree
      rw [ht, Parameter.find?_eq_none hfree, Option.none_or]
    · intro q hq hname
      rw [ht, ← hname, Parameter.find?_of_mem (nodup_renumbered s c) hq]
      rfl

/-- A placeholder that is bound keeps its value when the same name comes with a condition. -/
theorem filter_spares_bound_placeholder_p0 :
    let o : CompileOptions := ⟨.bound, .reject, "p"⟩
    let owned := ({} : Select).addCondition .first "Owner = @p0"
    let s := owned.addParameter (.named "p0" (.int 9) .int)
    ∃ c, o.compile (.eq (.member "A") (.lit (.int 1))) = .ok c ∧
      s.freshNames c = ["@p1"] ∧ "p0" ∈ occurrences "Owner = @p0" ∧
      (s.filter c).build.param? "p0" = s.build.param? "p0" := by
  intro o owned s
  have hc : o.compile (.eq (.member "A") (.lit (.int 1))) =
      .ok ⟨"A = @p0", [⟨"@p0", .int 1, .bigInt⟩]⟩ := by decide +kernel
  have hstem : Text.isWordText "p" := by decide
  have htext : "Owner = @p0" ∈ s.texts := by decide +kernel
  have hm : "p0" ∈ occurrences "Owner = @p0" := by decide +kernel
  have hbound : "@" ++ "p0" ∈ s.paramNames := by decide +kernel
  obtain ⟨_, _, hkeeps⟩ := filter_spares_bound_placeholders s hstem hc
  exact ⟨_, hc, by decide +kernel, hm, ((hkeeps _ htext _ hm).1 hbound).2⟩

/-- A placeholder that is not bound yet comes to name a literal that gets its name. -/
theorem filter_captures_unbound_placeholder :
    let o : CompileOptions := ⟨.bound, .reject, "p"⟩
    let owned := ({} : Select).addCondition .first "Owner = @p1"
    let s := owned.addParameter (.named "p0" (.int 9) .int)
    let c : CompiledFilter := ⟨"A = @p0", [⟨"@p0", .int 1, .bigInt⟩]⟩
    o.compile (.eq (.member "A") (.lit (.int 1))) = .ok c ∧
      s.freshNames c = ["@p1"] ∧ "p1" ∈ occurrences "Owner = @p1" ∧
      ((s.filter c).addParameter (.named "p1" (.string "Ann") .nVarChar)).build.param? "p1" =
        some ⟨"@p1", .int 1, .bigInt⟩ := by
  decide +kernel

end Select

end SqlFilter
