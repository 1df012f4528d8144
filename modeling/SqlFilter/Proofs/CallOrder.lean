import SqlFilter.Proofs.ParameterHygiene

/-!
The order of the calls that compose a statement. A call acts on one part of the statement, whatever
the other parts hold, so two runs that have the same calls for each part make the same statement.
The clauses of its text stand in a fixed order, each of them if its part holds anything.
-/
namespace SqlFilter.Select

/-- What calls act on. Conditions and parameters are one part: a filter adds to both. -/
inductive Part
  | columns
  | rowCount
  | sources
  | conditions
  | grouping
  | order
  | page
  | ctes
  | options
  deriving DecidableEq, Repr

def Call.part : Call → Part
  | .select _ | .addColumn _ => .columns
  | .addRowCount => .rowCount
  | .source _ => .sources
  | .condition .. | .columnTest .. | .addFilter .. | .filter _ | .filterPredicate ..
  | .addParameter .. | .bindParameters _ => .conditions
  | .grouping _ => .grouping
  | .order _ => .order
  | .page _ => .page
  | .cte _ => .ctes
  | .options _ => .options

def withPart (s t : Select) : Part → Select
  | .columns => { s with columns := t.columns }
  | .rowCount => { s with rowCount := t.rowCount }
  | .sources => { s with sources := t.sources }
  | .conditions => { s with conditions := t.conditions, params := t.params }
  | .grouping => { s with grouping := t.grouping }
  | .order => { s with order := t.order }
  | .page => { s with page := t.page }
  | .ctes => { s with ctes := t.ctes }
  | .options => { s with options := t.options }

variable {s t u : Select} {a b : Call} {calls calls' : List Call}

@[simp] theorem withPart_self (s : Select) (part : Part) : s.withPart s part = s := by
  cases part <;> rfl

theorem withPart_comm (s t u : Select) {p q : Part} (hne : p ≠ q) :
    (s.withPart t p).withPart u q = (s.withPart u q).withPart t p := by
  cases p <;> cases q <;> simp [withPart] at hne ⊢

theorem addCondition_withPart (s t : Select) (combinator : Combinator) (text : String) :
    (s.withPart t .conditions).addCondition combinator text =
      s.withPart (t.addCondition combinator text) .conditions := by
  unfold addCondition
  split <;> rfl

theorem addColumn_withPart (s t : Select) (column : String) :
    (s.withPart t .columns).addColumn column = s.withPart (t.addColumn column) .columns := by
  by_cases h : column ∈ t.columns
  · rw [addColumn, addColumn, if_pos h]
    exact if_pos h
  · rw [addColumn, addColumn, if_neg h]
    exact if_neg h

theorem addParameter_withPart (s t : Select) (p : Parameter) :
    (s.withPart t .conditions).addParameter p = s.withPart (t.addParameter p) .conditions := rfl

theorem addParameters_withPart (s t : Select) (ps : List Parameter) :
    (s.withPart t .conditions).addParameters ps =
      s.withPart (t.addParameters ps) .conditions := rfl

theorem filter_withPart (s t : Select) (c : CompiledFilter) :
    (s.withPart t .conditions).filter c = s.withPart (t.filter c) .conditions := by
  rw [filter_eq, filter_eq, ← addParameters_withPart, ← addCondition_withPart]
  rfl

theorem addFilter_withPart (s t : Select) (lead name : String) (v : Value) :
    (s.withPart t .conditions).addFilter lead name v =
      s.withPart (t.addFilter lead name v) .conditions := by
  unfold addFilter
  split
  · rfl
  · simp only [addCondition_withPart, addParameter_withPart]

/-- A call does to its part what it does in any other statement with this part, and no more. -/
theorem apply_withPart (s t : Select) (call : Call) :
    (s.withPart t call.part).apply call = (t.apply call).map (s.withPart · call.part) := by
  cases call with
  | select columns =>
    simp only [Call.part, apply, select, Except.map]
    generalize columnNames (Text.trim columns) = names
    split <;> rfl
  | addColumn column => exact congrArg Except.ok (addColumn_withPart s t column)
  | condition combinator text => exact congrArg Except.ok (addCondition_withPart s t _ _)
  | columnTest column test => exact congrArg Except.ok (addCondition_withPart s t _ _)
  | addFilter lead name v => exact congrArg Except.ok (addFilter_withPart s t lead name v)
  | filter c => exact congrArg Except.ok (filter_withPart s t c)
  | filterPredicate o p =>
    simp only [Call.part, apply, filterPredicate]
    cases hc : o.compile p with
    | error e => simp only [Except.map]
    | ok c => simp only [Except.map, filter_withPart]
  | addRowCount | source | grouping | order | page | cte | options | addParameter
  | bindParameters => rfl

theorem eq_withPart_of_apply (h : s.apply a = .ok t) : t = s.withPart t a.part := by
  have hframe := apply_withPart s s a
  rw [withPart_self, h] at hframe
  exact Except.ok.inj hframe

theorem part_of_apply_eq_error {e : Error} (h : s.apply a = .error e) : a.part = .conditions := by
  cases a with
  | filterPredicate o p => rfl
  | _ => cases h

theorem apply_of_apply (hne : a.part ≠ b.part) (h : s.apply a = .ok t) :
    t.apply b = (s.apply b).map (t.withPart · b.part) := by
  have hpart : t.withPart s b.part = t := by
    rw [eq_withPart_of_apply h, withPart_comm _ _ _ hne, withPart_self]
  conv_lhs => rw [← hpart]
  exact apply_withPart t s b

/-- Calls for different parts may be exchanged. At most one of them can fail. -/
theorem apply_comm (s : Select) (hne : a.part ≠ b.part) :
    (s.apply a >>= (apply · b)) = (s.apply b >>= (apply · a)) := by
  cases ha : s.apply a with
  | error e =>
    cases hb : s.apply b with
    | error e' =>
      exact absurd ((part_of_apply_eq_error ha).trans (part_of_apply_eq_error hb).symm) hne
    | ok u =>
      change _ = u.apply a
      rw [apply_of_apply hne.symm hb, ha]
      rfl
  | ok t =>
    change t.apply b = _
    rw [apply_of_apply hne ha]
    cases hb : s.apply b with
    | error e => rfl
    | ok u =>
      change Except.ok (t.withPart u b.part) = u.apply a
      rw [apply_of_apply hne.symm hb, ha]
      refine congrArg Except.ok ?_
      -- Both are `s` with the part of `a` from `t` and the part of `b` from `u`.
      calc t.withPart u b.part
          = (s.withPart t a.part).withPart u b.part := by rw [← eq_withPart_of_apply ha]
        _ = (s.withPart u b.part).withPart t a.part := withPart_comm s t u hne
        _ = u.withPart t a.part := by rw [← eq_withPart_of_apply hb]

theorem applyAll_cons (s : Select) (a : Call) (calls : List Call) :
    s.applyAll (a :: calls) = s.apply a >>= (applyAll · calls) := List.foldlM_cons

def Call.Commute (a b : Call) : Prop :=
  ∀ s : Select, (s.apply a >>= (apply · b)) = (s.apply b >>= (apply · a))

/-- A call may be made before calls that precede it if it commutes with each of them. -/
theorem applyAll_call_first (s : Select) {before after : List Call}
    (hbefore : ∀ b ∈ before, b.Commute a) :
    s.applyAll (before ++ a :: after) = s.applyAll (a :: (before ++ after)) := by
  induction before generalizing s with
  | nil => rfl
  | cons b before ih =>
    have hcomm : b.Commute a := hbefore b List.mem_cons_self
    have hrest : ∀ c ∈ before, c.Commute a := fun c hc => hbefore c (List.mem_cons_of_mem _ hc)
    calc s.applyAll (b :: before ++ a :: after)
        = s.apply b >>= (applyAll · (a :: (before ++ after))) := by
          simp only [List.cons_append, applyAll_cons s b, ih _ hrest]
      _ = (s.apply b >>= (apply · a)) >>= (applyAll · (before ++ after)) := by
          simp only [applyAll_cons _ a, bind_assoc]
      _ = (s.apply a >>= (apply · b)) >>= (applyAll · (before ++ after)) := by
          rw [hcomm]
      _ = s.applyAll (a :: b :: before ++ after) := by
          simp only [List.cons_append, applyAll_cons, bind_assoc]

def callsFor (calls : List Call) (part : Part) : List Call := calls.filter (·.part = part)

/-- Runs with the same calls for each part end alike, also in their failures. -/
theorem applyAll_congr (s : Select) (h : ∀ part, callsFor calls part = callsFor calls' part) :
    s.applyAll calls = s.applyAll calls' := by
  induction calls generalizing s calls' with
  | nil =>
    cases calls' with
    | nil => rfl
    | cons b calls' => simpa [callsFor] using h b.part
  | cons a calls ih =>
    have hfirst : callsFor calls' a.part = a :: callsFor calls a.part := by
      rw [← h a.part]
      simp [callsFor]
    obtain ⟨before, after, rfl, hbefore, -, hafter⟩ := List.filter_eq_cons_iff.1 hfirst
    have hother : ∀ b ∈ before, b.Commute a := fun b hb s =>
      apply_comm s (by simpa using hbefore b hb)
    rw [applyAll_call_first s hother, applyAll_cons, applyAll_cons]
    have hrest (part : Part) : callsFor calls part = callsFor (before ++ after) part := by
      by_cases heq : a.part = part
      · subst heq
        rw [callsFor, callsFor, List.filter_append, List.filter_eq_nil_iff.2 hbefore, hafter,
          List.nil_append]
        rfl
      · simpa [callsFor, heq] using h part
    simp only [ih _ hrest]

inductive Clause
  | ctes
  | columns
  | sources
  | conditions
  | grouping
  | order
  | page
  deriving DecidableEq, Repr

namespace Clause

def inOrder : List Clause := [.ctes, .columns, .sources, .conditions, .grouping, .order, .page]

def keywords : Clause → List String
  | .ctes => ["WITH "]
  | .columns => ["SELECT "]
  | .sources =>
    ["FROM ", "INNER JOIN ", "LEFT JOIN ", "RIGHT JOIN ", "LEFT OUTER JOIN ", "RIGHT OUTER JOIN "]
  | .conditions => ["WHERE "]
  | .grouping => ["GROUP BY ", "HAVING "]
  | .order => ["ORDER BY "]
  | .page => ["OFFSET "]

end Clause

def clauseLines (s : Select) : Clause → List String
  | .ctes => withLine s.ctes
  | .columns => [selectLine s.columns s.rowCount]
  | .sources => s.sources.map Source.text
  | .conditions => whereLine s.conditions
  | .grouping => s.grouping.map Grouping.text
  | .order => orderLine s.order
  | .page => pageLine s.page s.options

/-- Whether there is anything to write in a clause. Columns are always written. -/
def Holds (s : Select) : Clause → Prop
  | .ctes => s.ctes ≠ []
  | .columns => True
  | .sources => s.sources ≠ []
  | .conditions => s.conditions ≠ []
  | .grouping => s.grouping ≠ []
  | .order => s.order ≠ []
  | .page => s.page ≠ none

theorem lines_eq_flatMap_clauses (s : Select) : s.lines = Clause.inOrder.flatMap s.clauseLines := by
  simp [lines, Clause.inOrder, clauseLines]

theorem clauseLines_ne_nil_iff (s : Select) (clause : Clause) :
    s.clauseLines clause ≠ [] ↔ s.Holds clause := by
  cases clause with
  | ctes => simp [clauseLines, Holds, withLine]
  | columns => simp [clauseLines, Holds]
  | sources => simp [clauseLines, Holds]
  | conditions => cases h : s.conditions <;> simp [clauseLines, Holds, whereLine, h]
  | grouping => simp [clauseLines, Holds]
  | order => simp [clauseLines, Holds, orderLine]
  | page => cases h : s.page <;> simp [clauseLines, Holds, pageLine, h]

theorem Source.keyword_of_text (source : Source) :
    ∃ k ∈ Clause.sources.keywords, ∃ rest, source.text = k ++ rest := by
  cases source with
  | table name => exact ⟨"FROM ", by simp [Clause.keywords], name, rfl⟩
  | join kind name shortName on =>
    refine ⟨kind.keyword ++ " ", ?_, name ++ " AS " ++ shortName ++ " ON " ++ on, ?_⟩
    · cases kind <;> decide
    · simp only [Source.text, String.append_assoc]

theorem Grouping.keyword_of_text (g : Grouping) :
    ∃ k ∈ Clause.grouping.keywords, ∃ rest, g.text = k ++ rest := by
  cases g with
  | groupBy columns => exact ⟨"GROUP BY ", by simp [Clause.keywords], columns, rfl⟩
  | having condition => exact ⟨"HAVING ", by simp [Clause.keywords], condition, rfl⟩

theorem keyword_of_mem_pageLine {page : Option Pagination} {o : QueryOptions} {line : String}
    (h : line ∈ pageLine page o) : ∃ rest, line = "OFFSET " ++ rest := by
  cases page with
  | none => exact absurd h List.not_mem_nil
  | some page =>
    have htext : ∃ rest, page.text = "OFFSET " ++ rest := ⟨_, by
      simp only [Pagination.text, String.append_assoc]; rfl⟩
    obtain ⟨rest, hrest⟩ := htext
    obtain rfl := List.mem_singleton.1 h
    split
    · exact ⟨rest ++ " " ++ recompileText, by simp only [hrest, String.append_assoc]⟩
    · exact ⟨rest, hrest⟩

theorem keyword_of_mem_clauseLines {clause : Clause} {line : String}
    (h : line ∈ s.clauseLines clause) : ∃ k ∈ clause.keywords, ∃ rest, line = k ++ rest := by
  cases clause with
  | ctes =>
    rw [clauseLines, withLine] at h
    split at h
    · exact absurd h List.not_mem_nil
    · exact ⟨"WITH ", List.mem_singleton_self _, _, List.mem_singleton.1 h⟩
  | columns => exact ⟨"SELECT ", List.mem_singleton_self _, _, List.mem_singleton.1 h⟩
  | sources =>
    obtain ⟨source, -, rfl⟩ := List.mem_map.1 h
    exact Source.keyword_of_text source
  | conditions =>
    rw [clauseLines, whereLine.eq_def] at h
    split at h
    · exact absurd h List.not_mem_nil
    · exact ⟨"WHERE ", List.mem_singleton_self _, _, List.mem_singleton.1 h⟩
  | grouping =>
    obtain ⟨g, -, rfl⟩ := List.mem_map.1 h
    exact Grouping.keyword_of_text g
  | order =>
    rw [clauseLines, orderLine] at h
    split at h
    · exact absurd h List.not_mem_nil
    · exact ⟨"ORDER BY ", List.mem_singleton_self _, _, List.mem_singleton.1 h⟩
  | page =>
    obtain ⟨rest, hrest⟩ := keyword_of_mem_pageLine h
    exact ⟨"OFFSET ", List.mem_singleton_self _, rest, hrest⟩

/--
Two runs that have the same calls for each part make the same statement, or fail alike. Its text has
the clauses in their order, each under its keywords, and each just if there is anything to write.
-/
theorem applyAll_interleaved (s : Select)
    (h : ∀ part, callsFor calls part = callsFor calls' part) :
    s.applyAll calls = s.applyAll calls' ∧
    ∀ t, s.applyAll calls = .ok t →
      t.build = ⟨"\n".intercalate (Clause.inOrder.flatMap t.clauseLines), t.params⟩ ∧
      ∀ clause, (t.clauseLines clause ≠ [] ↔ t.Holds clause) ∧
        ∀ line ∈ t.clauseLines clause, ∃ k ∈ clause.keywords, ∃ rest, line = k ++ rest := by
  refine ⟨applyAll_congr s h, fun t _ => ⟨?_, fun clause => ?_⟩⟩
  · rw [build, sql, lines_eq_flatMap_clauses]
  · exact ⟨t.clauseLines_ne_nil_iff clause, fun line => keyword_of_mem_clauseLines⟩

/-- Filters that number their parameters apart, before and behind calls for other parts. -/
def groupedCalls : List Call :=
  [.select "Id,Name", .addColumn "Id", .source (.table "Users"),
    .filterPredicate ⟨.bound, .reject, "p"⟩ (.eq (.member "Age") (.lit (.int 18))),
    .addFilter "Name =" "p1" (.string "x"),
    .filterPredicate ⟨.bound, .reject, "p"⟩ (.eq (.member "City") (.lit (.string "a'b"))),
    .order (.column "Name" .asc), .page ⟨0, 10⟩, .options ⟨false⟩]

def scatteredCalls : List Call :=
  [.options ⟨false⟩,
    .filterPredicate ⟨.bound, .reject, "p"⟩ (.eq (.member "Age") (.lit (.int 18))),
    .order (.column "Name" .asc), .select "Id,Name",
    .addFilter "Name =" "p1" (.string "x"), .page ⟨0, 10⟩, .source (.table "Users"),
    .filterPredicate ⟨.bound, .reject, "p"⟩ (.eq (.member "City") (.lit (.string "a'b"))),
    .addColumn "Id"]

theorem callsFor_groupedCalls (part : Part) :
    callsFor groupedCalls part = callsFor scatteredCalls part := by
  cases part <;> rfl

theorem applyAll_groupedCalls :
    applyAll {} groupedCalls = applyAll {} scatteredCalls ∧
      ∃ t, applyAll {} scatteredCalls = .ok t ∧
        t.build.sql = "SELECT Id, Name\nFROM Users\n" ++
          "WHERE Age = @p0 AND Name = @p1 AND City = @p2\n" ++
          "ORDER BY Name ASC\nOFFSET 0 ROWS FETCH NEXT 10 ROWS ONLY" ∧
        ∀ clause, t.clauseLines clause ≠ [] ↔ t.Holds clause := by
  obtain ⟨hsame, hclauses⟩ := applyAll_interleaved {} callsFor_groupedCalls
  have hrun : (applyAll {} scatteredCalls).toOption.map (·.build.sql) =
      some ("SELECT Id, Name\nFROM Users\n" ++
        "WHERE Age = @p0 AND Name = @p1 AND City = @p2\n" ++
        "ORDER BY Name ASC\nOFFSET 0 ROWS FETCH NEXT 10 ROWS ONLY") := by decide +kernel
  obtain ⟨t, ht, hsql⟩ := exists_of_map_toOption hrun
  refine ⟨hsame, t, ht, hsql, fun clause => ?_⟩
  exact ((hclauses t (hsame.trans ht)).2 clause).1

end SqlFilter.Select
