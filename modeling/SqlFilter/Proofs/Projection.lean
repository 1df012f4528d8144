import SqlFilter.Proofs.CallOrder
import SqlFilter.Proofs.Lists
import Mathlib.Data.List.TakeWhile

/-!
The chosen columns of a statement. Once there are any, a call leaves some of them unless it selects
from a text of commas and blanks with a comma in it, which names no column and is not taken for a
blank one. So a run ends without columns just if it has such a call and none behind it that names a
column.
-/
namespace SqlFilter

namespace Text

theorem forall_mem_dropWhile {p : Char → Bool} {P : Char → Prop} (hP : ∀ c, p c → P c)
    (cs : List Char) : (∀ c ∈ cs.dropWhile p, P c) ↔ ∀ c ∈ cs, P c := by
  have htake : ∀ c ∈ cs.takeWhile p, P c := fun c hc => hP c (List.mem_takeWhile_imp hc)
  conv_rhs => rw [← List.takeWhile_append_dropWhile (p := p) (l := cs)]
  rw [List.forall_mem_append]
  exact ⟨fun h => ⟨htake, h⟩, And.right⟩

/-- What holds of blanks holds of a text if it holds of what is between the blanks at its ends. -/
theorem forall_mem_trim {P : Char → Prop} (hP : ∀ c, isBlank c → P c) (s : String) :
    (∀ c ∈ (trim s).toList, P c) ↔ ∀ c ∈ s.toList, P c := by
  simp only [trim, dropLastWhile, String.toList_ofList, List.mem_reverse,
    forall_mem_dropWhile hP]

theorem trim_eq_empty_iff (s : String) : trim s = "" ↔ ∀ c ∈ s.toList, isBlank c := by
  constructor
  · intro h
    rw [← forall_mem_trim (fun _ hc => hc), h]
    simp
  · intro h
    simp [trim, dropLastWhile, List.dropWhile_eq_nil_iff.2 h]

end Text

namespace Select

variable {s t : Select} {call : Call} {calls : List Call} {text : String}

def Separators (text : String) : Prop := ∀ c ∈ text.toList, c = ',' ∨ Text.isBlank c

instance (text : String) : Decidable (Separators text) :=
  List.decidableBAll (fun c => c = ',' ∨ Text.isBlank c = true) text.toList

def NamesNone (text : String) : Prop := Text.trim text = "*" ∨ Separators text

instance (text : String) : Decidable (NamesNone text) :=
  inferInstanceAs (Decidable (Text.trim text = "*" ∨ Separators text))

theorem columnNames_eq_nil_iff (text : String) : columnNames text = [] ↔ Separators text := by
  have hpart (cs : List Char) : ¬ (!(Text.trim (.ofList cs)).isEmpty) ↔
      ∀ c ∈ cs, Text.isBlank c := by
    simpa using Text.trim_eq_empty_iff (.ofList cs)
  rw [columnNames, List.filter_eq_nil_iff, List.forall_mem_map, Separators]
  simp only [hpart, forall_mem_splitOn]

theorem separators_trim_iff (text : String) : Separators (Text.trim text) ↔ Separators text :=
  Text.forall_mem_trim (fun _ => .inr) text

theorem not_mem_comma_of_trim_eq_star (h : Text.trim text = "*") : ',' ∉ text.toList := by
  have hne : ∀ c ∈ text.toList, c ≠ ',' := by
    rw [← Text.forall_mem_trim (by rintro c hc rfl; cases hc), h]
    rintro c hc rfl
    cases List.mem_singleton.1 hc
  exact fun hmem => hne ',' hmem rfl

/-- A comma that stands among blanks and commas takes all columns away. -/
theorem select_of_namesNone (s : Select) (h : NamesNone text) :
    s.select text = if ',' ∈ text.toList then { s with columns := [] } else s := by
  by_cases hstar : Text.trim text = "*"
  · rw [if_neg (not_mem_comma_of_trim_eq_star hstar), select, hstar]
    rfl
  have hsep : Separators text := h.resolve_left hstar
  by_cases hcomma : ',' ∈ text.toList
  · have hne : Text.trim text ≠ "" := fun hempty =>
      absurd ((Text.trim_eq_empty_iff text).1 hempty _ hcomma) (by decide)
    have hnone : columnNames (Text.trim text) = [] :=
      (columnNames_eq_nil_iff _).2 ((separators_trim_iff text).2 hsep)
    simp [select, hstar, hne, hcomma, hnone]
  · have hempty : Text.trim text = "" := by
      refine (Text.trim_eq_empty_iff text).2 fun c hc => (hsep c hc).resolve_left ?_
      rintro rfl
      exact hcomma hc
    simp [select, hempty, hcomma]

theorem columns_select_of_names (s : Select) (h : ¬ NamesNone text) :
    (s.select text).columns ≠ [] := by
  obtain ⟨hstar, hsep⟩ := not_or.1 h
  have hempty : Text.trim text ≠ "" := fun h =>
    hsep fun c hc => .inr ((Text.trim_eq_empty_iff text).1 h c hc)
  have hnames : columnNames (Text.trim text) ≠ [] := fun h =>
    hsep ((separators_trim_iff text).1 ((columnNames_eq_nil_iff _).1 h))
  simpa [select, hstar, hempty] using hnames

def Call.Names : Call → Prop
  | .select text => ¬ NamesNone text
  | .addColumn _ => True
  | _ => False

def Call.Erases : Call → Prop
  | .select text => Separators text ∧ ',' ∈ text.toList
  | _ => False

theorem columns_addColumn_ne_nil (s : Select) (column : String) :
    (s.addColumn column).columns ≠ [] := by
  unfold addColumn
  split
  · next h => exact List.ne_nil_of_mem h
  · simp

theorem columns_select_eq_nil_iff (s : Select) (text : String) :
    (s.select text).columns = [] ↔
      (Call.select text).Erases ∨ (s.columns = [] ∧ ¬ (Call.select text).Names) := by
  by_cases hnone : NamesNone text
  · by_cases hcomma : ',' ∈ text.toList
    · have hsep : Separators text :=
        hnone.resolve_left fun hstar => not_mem_comma_of_trim_eq_star hstar hcomma
      simp [select_of_namesNone s hnone, Call.Erases, hcomma, hsep]
    · simp [select_of_namesNone s hnone, Call.Erases, Call.Names, hcomma, hnone]
  · have hsep : ¬ Separators text := fun h => hnone (.inr h)
    simp [columns_select_of_names s hnone, Call.Erases, Call.Names, hnone, hsep]

/-- A call that names no column leaves none only where none were or if it takes them away. -/
theorem columns_apply_eq_nil_iff (h : s.apply call = .ok t) :
    t.columns = [] ↔ call.Erases ∨ (s.columns = [] ∧ ¬ call.Names) := by
  cases call with
  | select text =>
    obtain rfl := Except.ok.inj h
    exact columns_select_eq_nil_iff s text
  | addColumn column =>
    obtain rfl := Except.ok.inj h
    simp [columns_addColumn_ne_nil, Call.Erases, Call.Names]
  | _ =>
    -- The other calls act on other parts.
    have hcolumns : t.columns = s.columns := by
      rw [eq_withPart_of_apply h]
      rfl
    simp [hcolumns, Call.Erases, Call.Names]

theorem columns_applyAll_eq_nil_iff (h : s.applyAll calls = .ok t) :
    t.columns = [] ↔
      (∃ before call after, calls = before ++ call :: after ∧ call.Erases ∧
        ∀ c ∈ after, ¬ c.Names) ∨ (s.columns = [] ∧ ∀ c ∈ calls, ¬ c.Names) := by
  induction calls generalizing s with
  | nil =>
    obtain rfl := Except.ok.inj h
    simp
  | cons first calls ih =>
    rw [applyAll_cons] at h
    obtain ⟨u, hu, h⟩ := bind_eq_ok.1 h
    rw [ih h, columns_apply_eq_nil_iff hu]
    constructor
    · rintro (⟨before, call, after, rfl, hcall, hafter⟩ | ⟨hfirst | ⟨hs, hfirst⟩, hcalls⟩)
      · exact .inl ⟨first :: before, call, after, rfl, hcall, hafter⟩
      · exact .inl ⟨[], first, calls, rfl, hfirst, hcalls⟩
      · exact .inr ⟨hs, List.forall_mem_cons.2 ⟨hfirst, hcalls⟩⟩
    · rintro (⟨before, call, after, heq, hcall, hafter⟩ | ⟨hs, hcalls⟩)
      · cases before with
        | nil =>
          obtain ⟨rfl, rfl⟩ := List.cons.inj heq
          exact .inr ⟨.inl hcall, hafter⟩
        | cons b before =>
          obtain ⟨rfl, rfl⟩ := List.cons.inj heq
          exact .inl ⟨before, call, after, rfl, hcall, hafter⟩
      · obtain ⟨hfirst, hcalls⟩ := List.forall_mem_cons.1 hcalls
        exact .inr ⟨.inr ⟨hs, hfirst⟩, hcalls⟩

/--
Chosen columns are lost just by selecting from a text of commas and blanks with a comma in it, until
a column is named again. Other texts that name no column leave the statement as it is.
-/
theorem applyAll_widens_iff (hs : s.columns ≠ []) (h : s.applyAll calls = .ok t) :
    (∀ text, NamesNone text →
      t.select text = if ',' ∈ text.toList then { t with columns := [] } else t) ∧
    (t.columns = [] ↔ ∃ before text after, calls = before ++ .select text :: after ∧
      Separators text ∧ ',' ∈ text.toList ∧ ∀ c ∈ after, ¬ c.Names) := by
  refine ⟨fun text => t.select_of_namesNone, ?_⟩
  rw [columns_applyAll_eq_nil_iff h]
  constructor
  · rintro (⟨before, call, after, hcalls, herases, hafter⟩ | ⟨hnil, -⟩)
    · cases call with
      | select text =>
        obtain ⟨hsep, hcomma⟩ := herases
        exact ⟨before, text, after, hcalls, hsep, hcomma, hafter⟩
      | _ => exact herases.elim
    · exact absurd hnil hs
  · rintro ⟨before, text, after, hcalls, hsep, hcomma, hafter⟩
    exact .inl ⟨before, .select text, after, hcalls, ⟨hsep, hcomma⟩, hafter⟩

/-- Blanks beyond ASCII around the comma, and calls behind it that name no column. -/
def wideningCalls : List Call :=
  [.addColumn "Name", .select "\u3000,\u00a0", .addRowCount, .select " * "]

theorem applyAll_widens_wideningCalls :
    ∃ t, applyAll { columns := ["Id"] } wideningCalls = .ok t ∧ t.columns = [] ∧
      t.select " , " = { t with columns := [] } := by
  have hrun : applyAll { columns := ["Id"] } wideningCalls = .ok { rowCount := true } := by
    decide +kernel
  obtain ⟨hselect, hwidens⟩ := applyAll_widens_iff (by simp) hrun
  have hstar : NamesNone " * " := .inl (by decide +kernel)
  refine ⟨_, hrun, hwidens.2 ⟨[.addColumn "Name"], "\u3000,\u00a0", [.addRowCount, .select " * "],
    rfl, by decide +kernel, by decide +kernel, ?_⟩, hselect " , " (.inr (by decide +kernel))⟩
  simpa [Call.Names] using hstar

/-- A lone comma names no column, and yet the column that was chosen is gone. -/
theorem select_comma_widens :
    NamesNone "," ∧
    ∃ s t, applyAll {} [.select "Id", .source (.table "Users")] = .ok s ∧
      s.sql = "SELECT Id\nFROM Users" ∧ s.apply (.select ",") = .ok t ∧
      t.sql = "SELECT *\nFROM Users" := by
  refine ⟨.inr (by decide), { columns := ["Id"], sources := [.table "Users"] },
    { sources := [.table "Users"] }, ?_, ?_, ?_, ?_⟩
  all_goals decide +kernel

end Select

end SqlFilter
