import SqlFilter.Proofs.ParameterHygiene
import SqlFilter.Repository

/-!
Values for a statement that is written by hand. They are given by position: the value of a name is
the one at its rank, the number of other names that occur before it does for the first time.
-/
namespace SqlFilter

namespace Placeholder

theorem nodup_eraseDups : (l : List String) → l.eraseDups.Nodup
  | [] => List.nodup_nil
  | a :: l => by
    rw [List.eraseDups_cons]
    refine List.nodup_cons.2 ⟨fun ha => ?_, nodup_eraseDups (l.filter fun b => !b == a)⟩
    simp [List.mem_eraseDups] at ha
  termination_by l => l.length
  decreasing_by exact Nat.lt_succ_of_le (List.length_filter_le _ _)

theorem length_eraseDups (l : List String) : l.eraseDups.length = l.toFinset.card := by
  have hmem : l.eraseDups.toFinset = l.toFinset := by
    ext a
    simp only [List.mem_toFinset, List.mem_eraseDups]
  rw [← hmem, List.toFinset_card_of_nodup (nodup_eraseDups l)]

/-- How many other names occur before a name does for the first time. -/
def rank (sql name : String) : Nat := ((occurrences sql).takeWhile (· != name)).toFinset.card

variable {sql name : String}

theorem nodup_names (sql : String) : (names sql).Nodup := nodup_eraseDups _

theorem mem_names_iff : name ∈ names sql ↔ name ∈ occurrences sql := List.mem_eraseDups

theorem length_names (sql : String) : (names sql).length = (occurrences sql).toFinset.card :=
  length_eraseDups _

theorem getElem?_names_rank (h : name ∈ occurrences sql) :
    (names sql)[rank sql name]? = some name := by
  obtain ⟨before, after, hsplit, hfirst⟩ := List.eq_append_cons_of_mem h
  have hbefore : (occurrences sql).takeWhile (· != name) = before := by
    rw [hsplit, List.takeWhile_append_of_pos fun a ha => ?_]
    · simp
    · rw [bne_iff_ne]
      rintro rfl
      exact hfirst ha
  have hrest : (name :: after).removeAll before = name :: after.removeAll before := by
    simp [List.removeAll, hfirst]
  rw [rank, hbefore, names, hsplit, List.eraseDups_append, hrest, List.eraseDups_cons,
    ← length_eraseDups, List.getElem?_append_right (le_refl _), Nat.sub_self,
    List.getElem?_cons_zero]

end Placeholder

namespace Repository
open Placeholder

variable {sql : String} {values : List Value}

theorem raw_eq_ok (h : (names sql).length = values.length) :
    raw sql values = .ok ⟨sql, List.zipWith Parameter.inferred (names sql) values⟩ := if_pos h

theorem raw_eq_error (h : (names sql).length ≠ values.length) :
    raw sql values = .error (.parameterCount (names sql).length values.length) := if_neg h

theorem inferred_eq {w : String} (hw : Text.isWordText w) (v : Value) :
    Parameter.inferred w v = ⟨"@" ++ w, v, SqlType.inferred v⟩ := by
  rw [Parameter.inferred, Parameter.named, placeholder_of_isWordText hw]

theorem param?_mark (q : PreparedQuery) (name : String) :
    q.param? ("@" ++ name) = q.param? name := by
  have hplaceholder : placeholder ("@" ++ name) = placeholder name := by
    simp [placeholder, bareName]
  rw [PreparedQuery.param?, hplaceholder, PreparedQuery.param?]

/-- The parameters have the names of the text, in the order in which these first occur. -/
theorem map_name_zipWith_inferred (h : (names sql).length = values.length) :
    (List.zipWith Parameter.inferred (names sql) values).map Parameter.name =
      (names sql).map ("@" ++ ·) := by
  refine List.ext_getElem (by simp [h]) fun i hi hi' => ?_
  rw [List.length_map] at hi'
  have hmem : (names sql)[i] ∈ occurrences sql := mem_names_iff.1 (List.getElem_mem hi')
  rw [List.getElem_map, List.getElem_zipWith, List.getElem_map,
    inferred_eq (isWordText_of_mem_occurrences hmem)]

/--
A statement takes exactly as many values as it has different placeholders. Its parameters are then
named by these, each once, and every placeholder stands for the value at the rank of its name, with
the type that the value shows.
-/
theorem raw_binds_by_rank (sql : String) (values : List Value) :
    let count := (occurrences sql).toFinset.card
    (values.length ≠ count → raw sql values = .error (.parameterCount count values.length)) ∧
    (values.length = count → ∃ q, raw sql values = .ok q ∧ q.sql = sql ∧
      (q.params.map Parameter.name).Nodup ∧
      (∀ name, name ∈ q.params.map Parameter.name ↔ ∃ w ∈ occurrences sql, "@" ++ w = name) ∧
      ∀ w ∈ occurrences sql, ∃ v, values[rank sql w]? = some v ∧
        q.param? w = some ⟨"@" ++ w, v, SqlType.inferred v⟩ ∧
        q.param? ("@" ++ w) = some ⟨"@" ++ w, v, SqlType.inferred v⟩) := by
  intro count
  rw [show count = (names sql).length from (length_names sql).symm]
  refine ⟨fun h => raw_eq_error (Ne.symm h), fun h => ?_⟩
  have hnames := map_name_zipWith_inferred h.symm
  have hnodup : ((names sql).map ("@" ++ ·)).Nodup :=
    (nodup_names sql).map fun _ _ => (String.append_right_inj "@").1
  rw [← hnames] at hnodup
  refine ⟨_, raw_eq_ok h.symm, rfl, hnodup, fun name => ?_, fun w hw => ?_⟩
  · simp only [hnames, List.mem_map, mem_names_iff]
  · have hname := getElem?_names_rank hw
    obtain ⟨hlt, -⟩ := List.getElem?_eq_some_iff.1 hname
    obtain ⟨v, hv⟩ : ∃ v, values[rank sql w]? = some v :=
      ⟨_, List.getElem?_eq_getElem (h ▸ hlt)⟩
    have hword := isWordText_of_mem_occurrences hw
    have hmem : ⟨"@" ++ w, v, SqlType.inferred v⟩ ∈
        List.zipWith Parameter.inferred (names sql) values := by
      refine List.mem_of_getElem? (i := rank sql w) ?_
      rw [List.getElem?_zipWith, hname, hv]
      exact congrArg some (inferred_eq hword v)
    have hfind := PreparedQuery.param?_of_mem (q := ⟨sql, _⟩) hnodup hmem hword rfl
    exact ⟨v, hv, hfind, (param?_mark _ w).trans hfind⟩

/-- Two names, one of them twice, among marks that are no placeholders. -/
theorem raw_binds_by_rank_marks :
    let sql := "SELECT @@ROWCOUNT WHERE A = @b1 OR B = '@x' OR C > @b -- @y\nOR D = @b1"
    let values := [Value.int 7, .null]
    (occurrences sql = ["b1", "b", "b1"] ∧ values.length = (occurrences sql).toFinset.card) ∧
    ∃ q, raw sql values = .ok q ∧ q.sql = sql ∧
      q.param? "@b1" = some ⟨"@b1", .int 7, .bigInt⟩ ∧
      q.param? "b" = some ⟨"@b", .null, .nVarChar⟩ ∧
      raw sql [.int 7] = .error (.parameterCount 2 1) := by
  intro sql values
  have hoccurrences : occurrences sql = ["b1", "b", "b1"] := by decide +kernel
  have hcount : values.length = (occurrences sql).toFinset.card := by
    rw [hoccurrences]
    decide
  obtain ⟨q, hq, hsql, -, -, hbound⟩ := (raw_binds_by_rank sql values).2 hcount
  obtain ⟨v, hv, -, hfirst⟩ := hbound "b1" (by simp [hoccurrences])
  obtain ⟨w, hw, hsecond, -⟩ := hbound "b" (by simp [hoccurrences])
  have herror := (raw_binds_by_rank sql [.int 7]).1 (by rw [← hcount]; decide)
  rw [← hcount] at herror
  obtain rfl : Value.int 7 = v := by
    rw [rank, hoccurrences] at hv
    exact Option.some.inj hv
  obtain rfl : Value.null = w := by
    rw [rank, hoccurrences] at hw
    exact Option.some.inj hw
  exact ⟨⟨hoccurrences, hcount⟩, q, hq, hsql, hfirst, hsecond, herror⟩

end Repository

end SqlFilter
