import SqlFilter.Proofs.Nesting
import SqlFilter.Proofs.PlaceholderAgreement

/-!
Compiled conditions in a larger text. Quotes and parentheses of a compiled condition are balanced,
and its connectives all stand in parentheses, so that it is one operand wherever it is written.
-/
namespace SqlFilter
open Text
open Nesting (outer isSolid isSolid_of_isWord)

theorem isSolid_of_isDigit {c : Char} (h : c.isDigit) : isSolid c :=
  isSolid_of_isWord (isWord_of_isDigit h)

/-- A text with a digit in it is no connective. -/
theorem atomic_of_digit {s : String} (hs : s.toList.all isSolid) {c : Char} (hc : c ∈ s.toList)
    (hd : c.isDigit) : Atomic s :=
  atomic_of_isSolid hs (keyword_ne_of_mem (k := Char.isDigit) (by decide) hc hd)

theorem isSolid_repr (n : Nat) : n.repr.toList.all isSolid :=
  List.all_eq_true.2 fun _ hc => isSolid_of_isDigit (isDigit_of_mem_repr hc)

theorem atomic_toString (n : Int) : Atomic (toString n) := by
  cases n with
  | ofNat m =>
    obtain ⟨c, hc⟩ := exists_mem_repr m
    exact atomic_of_digit (isSolid_repr m) hc (isDigit_of_mem_repr hc)
  | negSucc m =>
    obtain ⟨c, hc⟩ := exists_mem_repr m.succ
    change Atomic ("-" ++ m.succ.repr)
    refine atomic_of_digit (c := c) ?_ ?_ (isDigit_of_mem_repr hc)
    · rw [String.toList_append, List.all_append, isSolid_repr]
      rfl
    · rw [String.toList_append]
      exact List.mem_append_right _ hc

theorem Decimal.atomic_text (x : Float) : Atomic (text x) := by
  unfold text Layout.text
  split
  · decide
  · split <;> decide
  · next m q _ =>
    obtain ⟨c, hc, hd⟩ := exists_digit_of_magnitude m q
    have hsolid : ∀ d ∈ Layout.sql.magnitude m q, isSolid d := by
      intro d hmem
      rcases isDigit_of_mem_magnitude hmem with rfl | hdigit
      · rfl
      · exact isSolid_of_isDigit hdigit
    refine atomic_of_digit (c := c) ?_ ?_ hd
    · rw [String.toList_ofList, List.all_eq_true]
      split
      · exact List.forall_mem_cons.2 ⟨rfl, hsolid⟩
      · exact hsolid
    · rw [String.toList_ofList]
      split
      · exact List.mem_cons_of_mem _ hc
      · exact hc

namespace Value

theorem atomic_quoted {s : String} (h : Text.quoteFree s) : Atomic (quoted s) :=
  .quoted fun c hc => by simpa using List.all_eq_true.1 h c hc

theorem atomic_quotedAs {s : String} (hs : Atomic s) (h : Text.quoteFree s) (type : ValueType) :
    Atomic (quotedAs type s) := by
  unfold quotedAs
  split
  · exact atomic_quoted h
  · exact hs

theorem atomic_castAsDate {s : String} (h : Text.quoteFree s) : Atomic (castAsDate s) := by
  have hinside : Balanced (quoted s ++ " AS DATE") :=
    (atomic_quoted h).balanced.append (by decide)
  have htext : castAsDate s = "CAST" ++ ("(" ++ (quoted s ++ " AS DATE") ++ ")") := by
    apply String.toList_injective
    simp [castAsDate]
  rw [htext]
  exact hinside.atomic_call (by decide)

mutual

theorem atomic_literal : ∀ {v : Value}, v.quoteFree → ∀ type, Atomic (v.literal type)
  | .null, _, _ => by simp only [literal]; decide
  | .bool b, _, _ => by cases b <;> simp only [literal] <;> decide
  | .int n, _, type =>
    atomic_quotedAs (atomic_toString n.toInt) (Placeholder.signed_toString n.toInt).quoteFree type
  | .decimal x, _, type => by
    unfold literal
    split
    · exact atomic_quotedAs (Decimal.atomic_text x) (Decimal.signed_text x).quoteFree type
    · decide
  | .string s, h, type => by
    unfold literal
    split
    · exact atomic_castAsDate h
    · exact atomic_quoted h
  | .dateTime t, _, _ => atomic_castAsDate t.quoteFree_text
  | .list vs, h, type => by
    have hitems : Balanced (", ".intercalate (literals vs (elementType vs type))) :=
      .intercalate (by decide) (balanced_literals h (elementType vs type))
    exact hitems.atomic

theorem balanced_literals : ∀ {vs : List Value}, allQuoteFree vs →
    ∀ type, ∀ t ∈ literals vs type, Balanced t
  | [], _, _ => by simp
  | v :: vs, h, type => by
    obtain ⟨hv, hvs⟩ := Bool.and_eq_true_iff.1 h
    exact List.forall_mem_cons.2 ⟨(atomic_literal hv type).balanced, balanced_literals hvs type⟩

end

theorem balanced_inList {vs : List Value} (h : allQuoteFree vs) (element : ValueType) :
    Balanced (inList vs element) := by
  unfold inList
  split
  · rw [← texts_eq_map]
    have hcomma {s t : String} (hs : Balanced s) (ht : Balanced t) : Balanced (s ++ "," ++ t) :=
      (hs.append (by decide)).append ht
    simpa using Placeholder.quoted_intercalate (s := "") (fun hs => (atomic_quoted hs).balanced)
      hcomma rfl (quoteFree_texts h)
  · rw [← literals_eq_map]
    exact .intercalate (by decide) (balanced_literals h element)

end Value

theorem isSolid_nameAt {stem : String} (hstem : isWordText stem) (i : Nat) :
    ((Binder.empty stem).nameAt i).toList.all isSolid := by
  have hword := (Placeholder.isWordText_iff.1 hstem).2
  have hname := (Placeholder.isWordText_iff.1 (Placeholder.isWordText_append_toString hword i)).2
  rw [Fragment.toList_nameAt, List.all_eq_true]
  exact List.forall_mem_cons.2 ⟨rfl, fun c hc => isSolid_of_isWord (hname c hc)⟩

theorem atomic_nameAt {stem : String} (hstem : isWordText stem) (i : Nat) :
    Atomic ((Binder.empty stem).nameAt i) := by
  have hmark : '@' ∈ ((Binder.empty stem).nameAt i).toList := by
    rw [Fragment.toList_nameAt]
    exact List.mem_cons_self
  exact atomic_of_isSolid (isSolid_nameAt hstem i)
    (keyword_ne_of_mem (k := (· == '@')) rfl hmark rfl)

namespace CompileOptions

variable {o : CompileOptions} {f g : Fragment}

theorem atomic_write_scalar (hstem : o.literals = .bound → isWordText o.stem) {v : Value}
    (hv : o.literals = .inline → v.quoteFree) (type : ValueType) (i : Nat) :
    Atomic (o.write i [.scalar v type]) := by
  unfold write
  cases hmode : o.literals with
  | inline =>
    simpa [Fragment.inlineText, Piece.inlineText] using Value.atomic_literal (hv hmode) type
  | bound =>
    simp only [Fragment.boundText, Piece.boundText, String.append_empty]
    split
    · next hinline =>
      refine Value.atomic_literal ?_ type
      cases v <;> first | rfl | simp [Value.staysInline, Value.isSqlNull] at hinline
    · exact atomic_nameAt (hstem hmode) i

theorem balanced_write_items (hstem : o.literals = .bound → isWordText o.stem) {vs : List Value}
    (hvs : o.literals = .inline → Value.allQuoteFree vs) (element : ValueType) (i : Nat) :
    Balanced (o.write i [.items vs element]) := by
  unfold write
  cases hmode : o.literals with
  | inline =>
    simpa [Fragment.inlineText, Piece.inlineText] using Value.balanced_inList (hvs hmode) element
  | bound =>
    simp only [Fragment.boundText, Piece.boundText, String.append_empty]
    refine .intercalate (by decide) fun t ht => ?_
    obtain ⟨k, _, rfl⟩ := List.mem_map.1 ht
    exact (atomic_nameAt (hstem hmode) k).balanced

theorem write_fault (o : CompileOptions) (i : Nat) (cause : Unsupported) :
    o.write i [.fault cause] = "" := by
  unfold write
  cases o.literals <;> rfl

theorem atomic_write_spaced {s : String} (hs : Atomic s) (hf : ∀ i, Atomic (o.write i f))
    (hg : ∀ i, Atomic (o.write i g)) (i : Nat) :
    Atomic (o.write i (f ++ .text (" " ++ s ++ " ") :: g)) := by
  have htext : o.write i (f ++ .text (" " ++ s ++ " ") :: g) =
      o.write i f ++ " " ++ s ++ " " ++ o.write (i + f.literals.length) g := by
    rw [write_append, write_text_cons]
    simp only [String.append_assoc]
  rw [htext]
  exact ((hf i).spaced hs).spaced (hg _)

end CompileOptions

namespace Predicate
open CompileOptions

/-- The fields and constants of a condition are written as atomic texts. -/
structure AtomicLeaves (o : CompileOptions) (p : Predicate) : Prop where
  member : ∀ path, .member path ∈ p.nodes → Atomic path
  scalar : ∀ v declared, .constant v declared ∈ p.nodes →
    ∀ type i, Atomic (o.write i [.scalar v type])
  items : ∀ vs declared, .constant (.list vs) declared ∈ p.nodes →
    ∀ element i, Balanced (o.write i [.items vs element])

variable {o : CompileOptions} {p q : Predicate}

theorem AtomicLeaves.operand (h : p.AtomicLeaves o) (hq : q ∈ p.operands) : q.AtomicLeaves o where
  member path hm := h.member path (mem_nodes_of_mem_operands hq hm)
  scalar v declared hm := h.scalar v declared (mem_nodes_of_mem_operands hq hm)
  items vs declared hm := h.items vs declared (mem_nodes_of_mem_operands hq hm)

theorem atomic_operator (op : ComparisonOp) (right : Predicate) : Atomic (operator op right) := by
  unfold operator
  split <;> cases op <;> decide

theorem atomic_write_membershipPieces {collection : Predicate} (hc : collection.AtomicLeaves o)
    {value : Fragment} (hv : ∀ i, Atomic (o.write i value)) (i : Nat) :
    Atomic (o.write i (membershipPieces collection value)) := by
  fun_cases membershipPieces collection value with
  | case1 =>
    rw [write_nil]
    decide
  | case2 vs declared hne =>
    have hinside := hc.items vs declared (mem_nodes_self _)
      (elementType vs (declared.getD .unknown)) (i + value.literals.length)
    rw [write_append, write_text_cons, ← List.singleton_append, write_append, write_text_cons,
      write_nil]
    generalize o.write _ [.items vs _] = inside at hinside ⊢
    have htext : o.write i value ++ (" IN (" ++ (inside ++ (")" ++ ""))) =
        o.write i value ++ " " ++ "IN" ++ " " ++ ("(" ++ inside ++ ")") := by
      apply String.toList_injective
      simp
    rw [htext]
    exact ((hv i).spaced (by decide)).spaced hinside.atomic
  | case3 other h₁ h₂ =>
    rw [write_fault]
    decide

/-- The connectives of a condition stand in the parentheses of its logical nodes. -/
theorem atomic_write_fragment (hp : p.AtomicLeaves o) (i : Nat) :
    Atomic (o.write i (p.fragment o.convert)) := by
  have hempty : Atomic "" := by decide
  induction p using Predicate.fragment.induct o.convert generalizing i with
  | case1 op left right ihl ihr =>
    have hl := hp.operand (q := left) (by simp [operands])
    have hr := hp.operand (q := right) (by simp [operands])
    exact atomic_write_spaced (atomic_operator op right) (ihl hl) (ihr hr) i
  | case2 op left right hbase ih =>
    have hr := hp.operand (q := right) (by simp [operands])
    simp only [fragment, if_pos hbase, write_text_cons, write_append, write_nil]
    rw [String.append_empty, ← String.append_assoc]
    exact (ih hr i).balanced.atomic
  | case3 op left right hbase ihl ihr =>
    have hl := hp.operand (q := left) (by simp [operands])
    have hr := hp.operand (q := right) (by simp [operands])
    have hkeyword : Balanced (" " ++ op.keyword ++ " ") := by cases op <;> decide
    have htext : o.write i (fragment o.convert (.logical op left right)) =
        "(" ++ (o.write i (left.fragment o.convert) ++ (" " ++ op.keyword ++ " ") ++
          o.write (i + (left.fragment o.convert).literals.length) (right.fragment o.convert)) ++
            ")" := by
      simp only [fragment, if_neg hbase, write_text_cons, write_append, write_nil,
        String.append_assoc, String.append_empty]
    rw [htext]
    exact (((ihl hl i).balanced.append hkeyword).append (ihr hr _).balanced).atomic
  | case4 operand ih =>
    have ho := hp.operand (q := operand) (by simp [operands])
    have htext : o.write i (fragment o.convert (.not operand)) =
        "(" ++ ("NOT " ++ o.write i (operand.fragment o.convert)) ++ ")" := by
      simp only [fragment, write_text_cons, write_append, write_nil]
      apply String.toList_injective
      simp
    rw [htext]
    exact (Balanced.append (by decide) (ih ho i).balanced).atomic
  | case5 path =>
    rw [fragment, write_text_cons, write_nil, String.append_empty]
    exact hp.member path (mem_nodes_self _)
  | case6 v declared => exact hp.scalar v declared (mem_nodes_self _) _ i
  | case7 test ifTrue ifFalse iht iha ihb =>
    have ht := hp.operand (q := test) (by simp [operands])
    have ha := hp.operand (q := ifTrue) (by simp [operands])
    have hb := hp.operand (q := ifFalse) (by simp [operands])
    have hthen : Balanced " THEN " := by decide
    have helse : Balanced " ELSE " := by decide
    let j := i + (test.fragment o.convert).literals.length
    let k := j + (ifTrue.fragment o.convert).literals.length
    have htext : o.write i (fragment o.convert (.conditional test ifTrue ifFalse)) =
        "(" ++ ("CASE WHEN " ++ o.write i (test.fragment o.convert) ++ " THEN " ++
          o.write j (ifTrue.fragment o.convert) ++ " ELSE " ++
            o.write k (ifFalse.fragment o.convert) ++ " END") ++ ")" := by
      simp only [fragment, write_text_cons, write_append, write_nil]
      apply String.toList_injective
      simp [j, k]
    have hcase := Balanced.append (s := "CASE WHEN ") (by decide) (iht ht i).balanced
    have hthen' := (hcase.append hthen).append (iha ha j).balanced
    have helse' := (hthen'.append helse).append (ihb hb k).balanced
    rw [htext]
    exact (helse'.append (by decide)).atomic
  | case8 operand target h =>
    simp only [fragment, h, write_fault]
    exact hempty
  | case9 operand target h =>
    simp only [fragment, h, write_nil]
    exact hempty
  | case10 name =>
    rw [fragment, write_fault]
    exact hempty
  | case11 method left right hm ihl ihr =>
    have hl := hp.operand (q := left) (by simp [operands])
    have hr := hp.operand (q := right) (by simp [operands])
    simp only [fragment, hm]
    exact atomic_write_spaced (s := "=") (by decide) (ihl hl) (ihr hr) i
  | case13 method collection value hm ih | case14 method collection value hm ih =>
    have hc := hp.operand (q := collection) (by simp [operands])
    have hv := hp.operand (q := value) (by simp [operands])
    simp only [fragment, hm]
    exact atomic_write_membershipPieces hc (ih hv) i
  | case12 method receiver args hm | case15 method receiver args hm
  | case16 method receiver args hm =>
    simp only [fragment, hm, write_fault]
    exact hempty

/-- A path of word characters and dots that is no connective. -/
def isPlainPath (path : String) : Bool :=
  path.toList.all (fun c => isWord c || c == '.') &&
    path != LogicalOp.and.keyword && path != LogicalOp.or.keyword

def PathsPlain (p : Predicate) : Prop := ∀ path ∈ p.paths, isPlainPath path

instance (p : Predicate) : Decidable p.PathsPlain :=
  inferInstanceAs (Decidable (∀ path ∈ p.paths, isPlainPath path = true))

theorem atomic_of_isPlainPath {path : String} (h : isPlainPath path) : Atomic path := by
  simp only [isPlainPath, Bool.and_eq_true, bne_iff_ne, List.all_eq_true, Bool.or_eq_true,
    beq_iff_eq] at h
  obtain ⟨⟨hchars, hand⟩, hor⟩ := h
  refine atomic_of_isSolid (List.all_eq_true.2 fun c hc => ?_) fun op => ?_
  · rcases hchars c hc with hword | rfl
    · exact isSolid_of_isWord hword
    · rfl
  · cases op with
    | and => exact hand.symm
    | or => exact hor.symm

theorem atomicLeaves (hstem : o.literals = .bound → isWordText o.stem) (hpaths : p.PathsPlain)
    (hquotes : o.literals = .inline → p.QuoteFree) : p.AtomicLeaves o where
  member path hm := atomic_of_isPlainPath (hpaths path (mem_paths_of_member_mem_nodes hm))
  scalar _ _ hm := atomic_write_scalar hstem fun hinline => hquotes hinline _ hm
  items _ _ hm := balanced_write_items hstem fun hinline => hquotes hinline _ hm

end Predicate

namespace CompileOptions

variable {o : CompileOptions} {p : Predicate} {c : CompiledFilter}

theorem atomic_compile (hp : p.AtomicLeaves o) (hc : o.compile p = .ok c) : Atomic c.sql := by
  obtain ⟨_, rfl⟩ := compile_eq_ok_iff.1 hc
  simp only [Predicate.pieces]
  split
  · rw [write_nil]
    decide
  · exact Predicate.atomic_write_fragment hp 0

/--
Outside of literals a compiled condition has balanced parentheses and no connective that is not in
parentheses. Among other texts, with blanks between them, it adds its own words and regroups none;
in parentheses it is one word.
-/
theorem compile_keeps_groups (hstem : o.literals = .bound → isWordText o.stem)
    (hpaths : p.PathsPlain) (hquotes : o.literals = .inline → p.QuoteFree)
    (hc : o.compile p = .ok c) :
    Balanced c.sql ∧
    (∀ op : LogicalOp, op.keyword ∉ words c.sql) ∧
    (∀ before after, (∀ t ∈ before ++ after, Balanced t) →
      words (" ".intercalate (before ++ c.sql :: after)) =
        before.flatMap words ++ words c.sql ++ after.flatMap words) ∧
    words ("NOT (" ++ c.sql ++ ")") = ["NOT", "(" ++ c.sql ++ ")"] := by
  have hatomic : Atomic c.sql := atomic_compile (Predicate.atomicLeaves hstem hpaths hquotes) hc
  refine ⟨hatomic.balanced, hatomic.keyword_not_mem, fun before after h => ?_, ?_⟩
  · have hall : ∀ t ∈ before ++ c.sql :: after, Balanced t := by
      intro t ht
      rcases List.mem_append.1 ht with ht | ht
      · exact h t (List.mem_append_left _ ht)
      · rcases List.mem_cons.1 ht with rfl | ht
        · exact hatomic.balanced
        · exact h t (List.mem_append_right _ ht)
    rw [words_intercalate (by simp) hall, List.flatMap_append, List.flatMap_cons,
      List.append_assoc]
  · have htext : "NOT (" ++ c.sql ++ ")" = "NOT" ++ " " ++ ("(" ++ c.sql ++ ")") := by
      apply String.toList_injective
      simp
    have hnot : words "NOT" = ["NOT"] := words_of_unbroken (unbroken_of_isSolid rfl outer)
    rw [htext, words_append_blank (by decide), hnot,
      words_of_unbroken hatomic.balanced.parenthesized.2]
    rfl

/-- Parentheses and a connective inside a string, and items that share one pair of quotes. -/
theorem compile_keeps_groups_quoted :
    let name : Predicate := .eq (.member "User.Name") (.lit (.string "x) OR (y"))
    let tags : Predicate := .containsAny (.lit (.list [.string "a", .string "b"])) (.member "Tag")
    let sql := "(User.Name = 'x) OR (y' AND Tag IN ('a',' b'))"
    let p := Predicate.and name tags
    compile {} p = .ok ⟨sql, []⟩ ∧ p.PathsPlain ∧ p.QuoteFree ∧ Balanced sql ∧
      ∀ op : LogicalOp, op.keyword ∉ words sql := by
  intro name tags sql p
  have hc : compile {} p = .ok ⟨sql, []⟩ := by decide +kernel
  have hpaths : p.PathsPlain := by decide
  have hquotes : p.QuoteFree := by decide +kernel
  obtain ⟨hbalanced, hwords, _⟩ := compile_keeps_groups (by decide) hpaths (fun _ => hquotes) hc
  exact ⟨hc, hpaths, hquotes, hbalanced, hwords⟩

end CompileOptions

end SqlFilter
