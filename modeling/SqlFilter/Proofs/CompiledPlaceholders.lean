import SqlFilter.Proofs.Fragment
import SqlFilter.Proofs.Nodes
import SqlFilter.Proofs.Scanning

/-!
The placeholders in the SQL of a condition. Where no path of a field holds a mark, the scanner finds
in the text of a bound compilation exactly the placeholders of its parameters, in their order.
-/
namespace SqlFilter
open Placeholder

def Placeholder.unmarked (s : String) : Bool := s.toList.all (!isMark ·)

theorem Placeholder.scan_append_of_unmarked {s : String} (h : unmarked s) (cs : List Char) :
    scan (s.toList ++ cs) = scan cs :=
  scan_append_of_not_mark (by simpa [unmarked] using h) cs

namespace Predicate

mutual

def paths : Predicate → List String
  | .comparison _ l r | .logical _ l r => l.paths ++ r.paths
  | .not p | .convert p _ => p.paths
  | .member path => [path]
  | .conditional t a b => t.paths ++ a.paths ++ b.paths
  | .call _ none args => pathsAll args
  | .call _ (some r) args => r.paths ++ pathsAll args
  | .constant .. | .parameter _ => []

def pathsAll : List Predicate → List String
  | [] => []
  | p :: ps => p.paths ++ pathsAll ps

end

/-- No path of a field holds `@`, a quote or a dash. -/
def PathsUnmarked (p : Predicate) : Prop := ∀ path ∈ p.paths, unmarked path

instance (p : Predicate) : Decidable p.PathsUnmarked :=
  inferInstanceAs (Decidable (∀ path ∈ p.paths, unmarked path = true))

theorem mem_pathsAll {ps : List Predicate} {path : String} :
    path ∈ pathsAll ps ↔ ∃ p ∈ ps, path ∈ p.paths := by
  induction ps with
  | nil => simp [pathsAll]
  | cons p ps ih => simp [pathsAll, ih]

theorem mem_paths_of_mem_operands {p q : Predicate} (hq : q ∈ p.operands) {path : String}
    (h : path ∈ q.paths) : path ∈ p.paths := by
  cases p with
  | call method receiver args =>
    cases receiver <;> grind [operands, paths, mem_pathsAll]
  | _ => grind [operands, paths]

theorem mem_paths_of_member_mem_nodes {p : Predicate} {path : String}
    (h : .member path ∈ p.nodes) : path ∈ p.paths := by
  induction p using induction_operands with
  | h p ih =>
    rw [nodes_eq] at h
    rcases List.mem_cons.1 h with rfl | h
    · exact List.mem_singleton_self path
    · obtain ⟨q, hq, h⟩ := List.mem_flatMap.1 h
      exact mem_paths_of_mem_operands hq (ih q hq h)

end Predicate

namespace Fragment

variable {stem : String} {f g : Fragment}

/-- Texts that may follow a placeholder: they go on no word and mark no other. -/
def separates (s : String) : Bool := s.toList.head?.any (!Text.isWord ·) && unmarked s

theorem unmarked_of_separates {s : String} (h : separates s) : unmarked s :=
  (Bool.and_eq_true_iff.1 h).2

theorem stops_of_separates {s : String} (h : separates s) (rest : List Char) :
    Stops Text.isWord (s.toList ++ rest) := by
  intro c hc
  cases hs : s.toList with
  | nil => simp [separates, hs] at h
  | cons d ds =>
    simp [separates, hs] at h
    simp only [hs, List.cons_append, List.head?_cons, Option.mem_some_iff] at hc
    rw [← hc, h.1]

/-- A property that fragments keep when text without marks comes in front of or between them. -/
structure Joins (P : Fragment → Prop) : Prop where
  nil : P []
  fault : ∀ cause, P [.fault cause]
  text : ∀ {s f}, unmarked s → P f → P (.text s :: f)
  join : ∀ {s f g}, separates s → P f → P g → P (f ++ .text s :: g)

/-- Passes over text without marks, and finds a placeholder before what goes on no word. -/
structure Finder (find : List Char → List String) : Prop where
  skip : ∀ {s : String}, unmarked s → ∀ rest, find (s.toList ++ rest) = find rest
  placeholder : ∀ {w rest : List Char}, w ≠ [] → (∀ c ∈ w, Text.isWord c) →
    Stops Text.isWord rest → find ('@' :: (w ++ rest)) = .ofList w :: find rest

theorem finder_scan : Finder scan where
  skip h rest := scan_append_of_unmarked h rest
  placeholder hne hw hr := scan_placeholder hne hw hr

/-- Before what goes on no word, the placeholders of a fragment are found and no others. -/
def Finds (find : List Char → List String) (stem : String) (f : Fragment) : Prop :=
  ∀ i rest, Stops Text.isWord rest →
    find ((boundText (Binder.empty stem).nameAt i f).toList ++ rest) =
      (List.range' i f.literals.length).map (fun k => stem ++ toString k) ++ find rest

theorem boundText_append (nameAt : Nat → String) (i : Nat) (f g : Fragment) :
    boundText nameAt i (f ++ g) =
      boundText nameAt i f ++ boundText nameAt (i + f.literals.length) g := by
  induction f generalizing i with
  | nil => simp [boundText, literals]
  | cons p f ih =>
    simp [boundText, ih, literals, String.append_assoc, Nat.add_assoc]

section

variable {find : List Char → List String}

theorem finds_nil : Finds find stem [] := by
  intro i rest _
  simp [boundText, literals]

theorem finds_text_cons {s : String} (hs : ∀ rest, find (s.toList ++ rest) = find rest)
    (hf : Finds find stem f) : Finds find stem (.text s :: f) := by
  intro i rest hr
  rw [boundText, String.toList_append, List.append_assoc]
  exact (hs _).trans (hf i rest hr)

theorem finds_append_text (hfind : Finder find) {s : String} (hs : separates s)
    (hf : Finds find stem f) (hg : Finds find stem g) : Finds find stem (f ++ .text s :: g) := by
  intro i rest hr
  have hstop : Stops Text.isWord
      ((boundText (Binder.empty stem).nameAt (i + f.literals.length) (.text s :: g)).toList ++
        rest) := by
    rw [boundText, String.toList_append, List.append_assoc]
    exact stops_of_separates hs _
  -- The holes of `g` are numbered on from those of `f`.
  have hl : (literals (f ++ .text s :: g)).length = f.literals.length + g.literals.length := by
    simp [literals, Piece.literals]
  have htext := finds_text_cons (hfind.skip (unmarked_of_separates hs)) hg
  rw [boundText_append, String.toList_append, List.append_assoc, hf i _ hstop, htext _ rest hr, hl,
    ← List.range'_append_1, List.map_append, List.append_assoc]
  rfl

theorem finds_fault (cause : Unsupported) : Finds find stem [.fault cause] := by
  intro i rest _
  simp [boundText, literals, Piece.boundText, Piece.literals]

theorem toList_nameAt (stem : String) (i : Nat) :
    ((Binder.empty stem).nameAt i).toList = '@' :: (stem ++ toString i).toList := by
  simp [Binder.nameAt]

theorem find_nameAt (hfind : Finder find) (hstem : Text.isWordText stem) (i : Nat)
    {rest : List Char} (hr : Stops Text.isWord rest) :
    find (((Binder.empty stem).nameAt i).toList ++ rest) =
      (stem ++ toString i) :: find rest := by
  obtain ⟨hne, hw⟩ :=
    isWordText_iff.1 (isWordText_append_toString (isWordText_iff.1 hstem).2 i)
  rw [toList_nameAt, List.cons_append, hfind.placeholder hne hw hr, String.ofList_toList]

theorem unmarked_of_staysInline {v : Value} (h : v.staysInline) (type : ValueType) :
    unmarked (v.literal type) := by
  cases v with
  | null => simp only [Value.literal]; decide
  | bool b => cases b <;> simp only [Value.literal] <;> decide
  | decimal x =>
    have hx : x.isFinite = false := by simpa [Value.staysInline, Value.isSqlNull] using h
    simp only [Value.literal, hx, Bool.false_eq_true, if_false]
    decide
  | int n | string s | dateTime t | list vs => simp [Value.staysInline, Value.isSqlNull] at h

theorem finds_scalar (hfind : Finder find) (hstem : Text.isWordText stem) (v : Value)
    (type : ValueType) : Finds find stem [.scalar v type] := by
  intro i rest hr
  by_cases hv : v.staysInline
  · have hl : literals [.scalar v type] = [] := by simp [literals, Piece.literals, hv]
    simp only [hl, boundText, Piece.boundText, hv, if_true, String.append_empty]
    exact hfind.skip (unmarked_of_staysInline hv type) rest
  · have hl : literals [.scalar v type] = [(v, type)] := by simp [literals, Piece.literals, hv]
    simp only [hl, boundText, Piece.boundText, hv, if_false, String.append_empty,
      Bool.false_eq_true]
    exact find_nameAt hfind hstem i hr

theorem finds_items (hfind : Finder find) (hstem : Text.isWordText stem) (vs : List Value)
    (element : ValueType) : Finds find stem [.items vs element] := by
  intro i rest hr
  have hn : (literals [.items vs element]).length = vs.length := by
    simp [literals, Piece.literals]
  rw [hn]
  simp only [boundText, Piece.boundText, String.append_empty]
  induction vs.length generalizing i with
  | zero => exact hfind.skip (s := "") rfl rest
  | succ n ih =>
    cases n with
    | zero => simpa using find_nameAt hfind hstem i hr
    | succ n =>
      -- A comma stands before the next placeholder.
      have hcomma : separates ", " := by decide
      have hrest := ih (i + 1)
      simp only [List.range'_succ, List.map_cons, String.intercalate_cons_cons,
        String.toList_append, List.append_assoc] at hrest ⊢
      rw [find_nameAt hfind hstem i (stops_of_separates hcomma _),
        hfind.skip (unmarked_of_separates hcomma), hrest]
      rfl

theorem joins_finds (hfind : Finder find) (stem : String) : Joins (Finds find stem) where
  nil := finds_nil
  fault := finds_fault
  text hs hf := finds_text_cons (hfind.skip hs) hf
  join hs hf hg := finds_append_text hfind hs hf hg

end

end Fragment

namespace Predicate
open Fragment

theorem separates_operator (op : ComparisonOp) (right : Predicate) :
    separates (" " ++ operator op right ++ " ") := by
  unfold operator
  split <;> cases op <;> decide

theorem separates_keyword (op : LogicalOp) : separates (" " ++ op.keyword ++ " ") := by
  cases op <;> decide

structure LeavesFit (P : Fragment → Prop) (p : Predicate) : Prop where
  member : ∀ path, .member path ∈ p.nodes → P [.text path]
  scalar : ∀ v declared, .constant v declared ∈ p.nodes → P [.scalar v (declared.getD v.type)]
  items : ∀ vs declared, .constant (.list vs) declared ∈ p.nodes →
    P [.items vs (elementType vs (declared.getD .unknown))]

section

variable {P : Fragment → Prop} {p q : Predicate}

theorem LeavesFit.operand (h : p.LeavesFit P) (hq : q ∈ p.operands) : q.LeavesFit P where
  member path hm := h.member path (mem_nodes_of_mem_operands hq hm)
  scalar v declared hm := h.scalar v declared (mem_nodes_of_mem_operands hq hm)
  items vs declared hm := h.items vs declared (mem_nodes_of_mem_operands hq hm)

theorem joins_membershipPieces (hP : Joins P) {collection : Predicate} (hc : collection.LeavesFit P)
    {f : Fragment} (hf : P f) : P (membershipPieces collection f) := by
  fun_cases membershipPieces collection f with
  | case1 => exact hP.nil
  | case2 vs declared hne =>
    have hinside := hP.join (s := ")") (by decide) (hc.items vs declared (mem_nodes_self _)) hP.nil
    exact hP.join (by decide) hf hinside
  | case3 other h₁ h₂ => exact hP.fault _

/-- The fragment of a condition has each property of its leaves that joining keeps. -/
theorem joins_fragment (hP : Joins P) (policy : ConvertPolicy) (hp : p.LeavesFit P) :
    P (p.fragment policy) := by
  induction p using Predicate.fragment.induct policy with
  | case1 op left right ihl ihr =>
    have hl := hp.operand (q := left) (by simp [operands])
    have hr := hp.operand (q := right) (by simp [operands])
    exact hP.join (separates_operator op right) (ihl hl) (ihr hr)
  | case2 op left right hbase ih =>
    have hr := hp.operand (q := right) (by simp [operands])
    simp only [Predicate.fragment, if_pos hbase]
    exact hP.text (by decide) (hP.join (by decide) (ih hr) hP.nil)
  | case3 op left right hbase ihl ihr =>
    have hl := hp.operand (q := left) (by simp [operands])
    have hr := hp.operand (q := right) (by simp [operands])
    simp only [Predicate.fragment, if_neg hbase]
    exact hP.text (by decide) (hP.join (separates_keyword op) (ihl hl)
      (hP.join (by decide) (ihr hr) hP.nil))
  | case4 operand ih =>
    have ho := hp.operand (q := operand) (by simp [operands])
    exact hP.text (by decide) (hP.join (by decide) (ih ho) hP.nil)
  | case5 path => exact hp.member path (mem_nodes_self _)
  | case6 v declared => exact hp.scalar v declared (mem_nodes_self _)
  | case7 test ifTrue ifFalse iht iha ihb =>
    have ht := hp.operand (q := test) (by simp [operands])
    have ha := hp.operand (q := ifTrue) (by simp [operands])
    have hb := hp.operand (q := ifFalse) (by simp [operands])
    exact hP.text (by decide) (hP.join (by decide) (iht ht)
      (hP.join (by decide) (iha ha) (hP.join (by decide) (ihb hb) hP.nil)))
  | case8 operand target h =>
    subst h
    exact hP.fault _
  | case9 operand target h =>
    subst h
    exact hP.nil
  | case10 name => exact hP.fault _
  | case11 method left right hm ihl ihr =>
    have hl := hp.operand (q := left) (by simp [operands])
    have hr := hp.operand (q := right) (by simp [operands])
    simp only [Predicate.fragment, hm]
    exact hP.join (by decide) (ihl hl) (ihr hr)
  | case13 method collection value hm ih | case14 method collection value hm ih =>
    have hc := hp.operand (q := collection) (by simp [operands])
    have hv := hp.operand (q := value) (by simp [operands])
    simp only [Predicate.fragment, hm]
    exact joins_membershipPieces hP hc (ih hv)
  | case12 method receiver args hm | case15 method receiver args hm
  | case16 method receiver args hm =>
    simp only [Predicate.fragment, hm]
    exact hP.fault _

theorem joins_pieces (hP : Joins P) (policy : ConvertPolicy) (hp : p.LeavesFit P) :
    P (p.pieces policy) := by
  unfold pieces
  split
  · exact hP.nil
  · exact joins_fragment hP policy hp

end

/-- After every hole of a condition stands text that goes on no word. -/
theorem finds_pieces {find : List Char → List String} (hfind : Finder find) {stem : String}
    (hstem : Text.isWordText stem) (policy : ConvertPolicy) {p : Predicate}
    (hpaths : ∀ path ∈ p.paths, ∀ rest, find (path.toList ++ rest) = find rest) :
    Finds find stem (p.pieces policy) :=
  joins_pieces (joins_finds hfind stem) policy
    { member := fun path hm =>
        finds_text_cons (hpaths path (mem_paths_of_member_mem_nodes hm)) finds_nil
      scalar := fun v _ _ => finds_scalar hfind hstem v _
      items := fun vs _ _ => finds_items hfind hstem vs _ }

theorem scans_pieces {stem : String} (hstem : Text.isWordText stem) (policy : ConvertPolicy)
    {p : Predicate} (hp : p.PathsUnmarked) : Finds scan stem (p.pieces policy) :=
  finds_pieces finder_scan hstem policy fun path hpath => scan_append_of_unmarked (hp path hpath)

end Predicate

/-- The k-th placeholder in the text of a bound compilation is that of its k-th parameter. -/
theorem CompileOptions.occurrences_compile {policy : ConvertPolicy} {stem : String}
    (hstem : Text.isWordText stem) {p : Predicate} (hp : p.PathsUnmarked) {c : CompiledFilter}
    (hc : compile ⟨.bound, policy, stem⟩ p = .ok c) :
    occurrences c.sql = (List.range' 0 c.params.length).map (fun k => stem ++ toString k) ∧
    c.params.map Parameter.name = (occurrences c.sql).map ("@" ++ ·) := by
  have hscans := Predicate.scans_pieces hstem policy hp
  rw [compile_bound] at hc
  split at hc
  · cases hc
  cases hc
  have hocc := hscans 0 [] (by simp [Stops])
  simp only [List.append_nil, scan_nil] at hocc
  have hname (k : Nat) : (Binder.empty stem).nameAt k = "@" ++ (stem ++ toString k) := by
    simp [Binder.nameAt, String.append_assoc]
  constructor
  · rw [Parameter.length_numbered, occurrences_eq_scan, hocc]
  · rw [Parameter.map_name_numbered, occurrences_eq_scan, hocc, List.map_map]
    exact List.map_congr_left fun k _ => hname k

end SqlFilter
