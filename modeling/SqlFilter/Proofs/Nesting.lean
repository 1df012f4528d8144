import SqlFilter.Proofs.Lists
import SqlFilter.Text.Word

/-!
Quotes and parentheses of an SQL text. At every place of a text it is known whether a quoted literal
is open and how many parentheses are; the words of a text are cut at the blanks outside of both.
-/
namespace SqlFilter

structure Nesting where
  quoted : Bool := false
  /-- The number of open parentheses, negative after one too many is closed. -/
  depth : Int := 0
  deriving DecidableEq, Repr

namespace Nesting

/-- The place after one more character. Inside a literal nothing but a quote counts. -/
def step (n : Nesting) (c : Char) : Nesting :=
  if c = '\'' then { n with quoted := !n.quoted }
  else if n.quoted then n
  else if c = '(' then { n with depth := n.depth + 1 }
  else if c = ')' then { n with depth := n.depth - 1 }
  else n

def after (n : Nesting) (cs : List Char) : Nesting := cs.foldl step n

/-- Outside of all literals and parentheses, as every text begins. -/
abbrev outer : Nesting := {}

variable {n : Nesting} {c : Char} {cs ds : List Char}

@[simp] theorem after_nil (n : Nesting) : n.after [] = n := rfl

@[simp] theorem after_cons (n : Nesting) (c : Char) (cs : List Char) :
    n.after (c :: cs) = (n.step c).after cs := rfl

theorem after_append (n : Nesting) (cs ds : List Char) :
    n.after (cs ++ ds) = (n.after cs).after ds := List.foldl_append

/-- How deep a text starts changes none of its steps. -/
theorem after_deeper (q : Bool) (d e : Int) (cs : List Char) :
    after ⟨q, d + e⟩ cs = ⟨(after ⟨q, e⟩ cs).quoted, d + (after ⟨q, e⟩ cs).depth⟩ := by
  induction cs generalizing q e with
  | nil => rfl
  | cons c cs ih =>
    have hstep : step ⟨q, d + e⟩ c = ⟨(step ⟨q, e⟩ c).quoted, d + (step ⟨q, e⟩ c).depth⟩ := by
      unfold step
      split_ifs <;> simp <;> omega
    rw [after_cons, hstep, ih, after_cons]

def isSolid (c : Char) : Bool := c != '\'' && c != '(' && c != ')' && c != ' '

theorem isSolid_of_isWord (h : Text.isWord c) : isSolid c := by
  have hmarks : ['\'', '(', ')', ' '].all (!Text.isWord ·) := by decide
  by_contra hc
  rw [isSolid] at hc
  have hc : c = '\'' ∨ c = '(' ∨ c = ')' ∨ c = ' ' := by
    simp only [Bool.and_eq_true, bne_iff_ne, ne_eq] at hc
    tauto
  rcases hc with rfl | rfl | rfl | rfl <;> simp [h] at hmarks

theorem step_of_isSolid (h : isSolid c) (n : Nesting) : n.step c = n := by
  simp only [isSolid, Bool.and_eq_true, bne_iff_ne, ne_eq] at h
  simp [step, h]

theorem after_of_isSolid (h : ∀ c ∈ cs, isSolid c) (n : Nesting) : n.after cs = n := by
  induction cs with
  | nil => rfl
  | cons c cs ih =>
    obtain ⟨hc, hcs⟩ := List.forall_mem_cons.1 h
    rw [after_cons, step_of_isSolid hc, ih hcs]

theorem after_of_quoted (h : ∀ c ∈ cs, c ≠ '\'') (d : Int) : after ⟨true, d⟩ cs = ⟨true, d⟩ := by
  induction cs with
  | nil => rfl
  | cons c cs ih =>
    obtain ⟨hc, hcs⟩ := List.forall_mem_cons.1 h
    rw [after_cons, step, if_neg hc, if_pos rfl, ih hcs]

/-- The words of a text that starts at a place: it is cut at every blank that is an outer one. -/
def words (n : Nesting) : List Char → List (List Char)
  | [] => [[]]
  | c :: cs =>
    if c = ' ' ∧ n = outer then [] :: words n cs else (words (n.step c) cs).modifyHead (c :: ·)

theorem words_ne_nil (n : Nesting) (cs : List Char) : n.words cs ≠ [] := by
  induction cs generalizing n with
  | nil => simp [words]
  | cons c cs ih =>
    rw [words]
    split
    · simp
    · simpa using ih (n.step c)

/-- Nothing is lost: with blanks between them, the words make up the text. -/
theorem intercalate_words (n : Nesting) (cs : List Char) : [' '].intercalate (n.words cs) = cs := by
  induction cs generalizing n with
  | nil => rfl
  | cons c cs ih =>
    obtain ⟨w, ws, hws⟩ := List.exists_cons_of_ne_nil (words_ne_nil (n.step c) cs)
    rw [words]
    split
    · next hcut =>
      rw [List.intercalate_cons_of_ne_nil (words_ne_nil n cs), ih, hcut.1]
      rfl
    · rw [hws, List.modifyHead_cons, List.intercalate_cons_cons_left, ← hws, ih]

/-- An outer blank ends a word, whatever comes before and after it. -/
theorem words_append_blank (h : n.after cs = outer) (ds : List Char) :
    n.words (cs ++ ' ' :: ds) = n.words cs ++ outer.words ds := by
  induction cs generalizing n with
  | nil =>
    obtain rfl : n = outer := h
    simp [words]
  | cons c cs ih =>
    rw [List.cons_append, words, words]
    split
    · next hcut =>
      have hrest : n.after cs = outer := by
        rw [hcut.1] at h
        simpa [step, hcut.2] using h
      rw [ih hrest, List.cons_append]
    · rw [ih h, modifyHead_append_of_ne_nil (words_ne_nil _ _)]

def Unbroken (n : Nesting) (cs : List Char) : Prop :=
  ∀ a b, cs = a ++ ' ' :: b → n.after a ≠ outer

theorem unbroken_of_no_blank (h : ' ' ∉ cs) (n : Nesting) : n.Unbroken cs := by
  rintro a b rfl
  simp at h

theorem Unbroken.append (hc : n.Unbroken cs) (hd : (n.after cs).Unbroken ds) :
    n.Unbroken (cs ++ ds) := by
  intro a b h
  rcases List.append_eq_append_iff.1 h with ⟨e, rfl, he⟩ | ⟨e, rfl, he⟩
  · rw [after_append]
    exact hd e b he
  · cases e with
    | nil =>
      rw [List.append_nil] at hd
      exact hd [] b he.symm
    | cons x e =>
      obtain ⟨rfl, _⟩ := List.cons.inj he
      exact hc a e rfl

theorem words_of_unbroken (h : n.Unbroken cs) : n.words cs = [cs] := by
  induction cs generalizing n with
  | nil => rfl
  | cons c cs ih =>
    have hcut : ¬(c = ' ' ∧ n = outer) := by
      rintro ⟨rfl, rfl⟩
      exact h [] cs rfl rfl
    have hrest : (n.step c).Unbroken cs := fun a b hab => h (c :: a) b (by rw [hab]; rfl)
    rw [words, if_neg hcut, ih hrest]
    rfl

end Nesting

namespace Text
open Nesting

/-- The words of a text, cut at the blanks outside of literals and parentheses. -/
def words (s : String) : List String := (outer.words s.toList).map String.ofList

/--
Outside of literals every parenthesis that is opened is closed, and none is closed that is not open.
No literal is left open.
-/
structure Balanced (s : String) : Prop where
  closed : outer.after s.toList = outer
  nonneg : ∀ cs ∈ s.toList.inits, 0 ≤ (outer.after cs).depth

instance : DecidablePred Balanced := fun s =>
  decidable_of_iff
    (outer.after s.toList = outer ∧ ∀ cs ∈ s.toList.inits, 0 ≤ (outer.after cs).depth)
    ⟨fun h => ⟨h.1, h.2⟩, fun h => ⟨h.closed, h.nonneg⟩⟩

variable {s t : String}

/-- A balanced text leads back to where it starts, in whatever parentheses it stands. -/
theorem Balanced.after_eq (h : Balanced s) (d : Int) : after ⟨false, d⟩ s.toList = ⟨false, d⟩ := by
  have hdeeper := after_deeper false d 0 s.toList
  rwa [add_zero, h.closed, add_zero] at hdeeper

theorem Balanced.le_depth (h : Balanced s) (d : Int) {cs : List Char} (hcs : cs <+: s.toList) :
    d ≤ (after ⟨false, d⟩ cs).depth := by
  have hdeeper := after_deeper false d 0 cs
  have hnonneg : 0 ≤ (after ⟨false, 0⟩ cs).depth := h.nonneg cs ((List.mem_inits _ _).2 hcs)
  rw [add_zero] at hdeeper
  rw [hdeeper]
  exact le_add_of_nonneg_right hnonneg

theorem Balanced.append (hs : Balanced s) (ht : Balanced t) : Balanced (s ++ t) where
  closed := by rw [String.toList_append, after_append, hs.closed, ht.closed]
  nonneg cs h := by
    obtain ⟨rest, h⟩ := (List.mem_inits _ _).1 h
    rw [String.toList_append] at h
    rcases List.append_eq_append_iff.1 h with ⟨e, hcs, _⟩ | ⟨e, rfl, he⟩
    · exact hs.nonneg cs ((List.mem_inits _ _).2 ⟨e, hcs.symm⟩)
    · rw [after_append, hs.closed]
      exact ht.nonneg e ((List.mem_inits _ _).2 ⟨rest, he.symm⟩)

theorem Balanced.intercalate (hs : Balanced s) {ts : List String} (hts : ∀ t ∈ ts, Balanced t) :
    Balanced (s.intercalate ts) := by
  induction ts with
  | nil => exact (by decide : Balanced "")
  | cons t ts ih =>
    obtain ⟨ht, hts⟩ := List.forall_mem_cons.1 hts
    cases ts with
    | nil => simpa using ht
    | cons u us =>
      rw [String.intercalate_cons_cons]
      exact (ht.append hs).append (ih hts)

theorem balanced_of_isSolid (h : s.toList.all isSolid) : Balanced s where
  closed := after_of_isSolid (List.all_eq_true.1 h) outer
  nonneg cs hcs := by
    have hsub := ((List.mem_inits _ _).1 hcs).subset
    rw [after_of_isSolid fun c hc => List.all_eq_true.1 h c (hsub hc)]

theorem unbroken_of_isSolid (h : s.toList.all isSolid) (n : Nesting) : n.Unbroken s.toList := by
  refine unbroken_of_no_blank (fun hblank => ?_) n
  have hsolid := List.all_eq_true.1 h ' ' hblank
  cases hsolid

/--
A text is balanced, and all its blanks are inside, if its last character alone leads back out of
what the first one opens.
-/
theorem balanced_enclosed {l r : Char} {cs : List Char} (hs : s.toList = l :: cs ++ [r])
    (hl : l ≠ ' ') (hr : r ≠ ' ')
    (hinside : ∀ ds, ds <+: cs → 0 ≤ (outer.after (l :: ds)).depth ∧ outer.after (l :: ds) ≠ outer)
    (hclosed : outer.after (l :: cs ++ [r]) = outer) : Balanced s ∧ outer.Unbroken s.toList := by
  rw [← hs] at hclosed
  refine ⟨⟨hclosed, fun ds hds => ?_⟩, fun a b hab => ?_⟩
  · have hprefix := (List.mem_inits _ _).1 hds
    rw [hs, List.prefix_concat_iff, List.prefix_cons_iff, ← hs] at hprefix
    rcases hprefix with rfl | rfl | ⟨e, rfl, he⟩
    · rw [hclosed]
    · exact le_refl 0
    · exact (hinside e he).1
  · have hprefix : a ++ [' '] <+: l :: cs ++ [r] := ⟨b, by rw [← hs, hab, List.append_assoc]; rfl⟩
    rw [List.prefix_concat_iff, List.prefix_cons_iff] at hprefix
    rcases hprefix with hlast | hnil | ⟨e, he, hcs⟩
    · obtain ⟨_, hblank⟩ := List.append_inj' hlast rfl
      exact absurd (List.cons.inj hblank).1.symm hr
    · simp at hnil
    · cases a with
      | nil => exact absurd (List.cons.inj he).1.symm hl
      | cons c a =>
        obtain ⟨rfl, rfl⟩ := List.cons.inj he
        exact (hinside a ((List.prefix_append a [' ']).trans hcs)).2

theorem Balanced.parenthesized (h : Balanced s) :
    Balanced ("(" ++ s ++ ")") ∧ outer.Unbroken ("(" ++ s ++ ")").toList := by
  have hchars : ("(" ++ s ++ ")").toList = '(' :: s.toList ++ [')'] := by simp
  refine balanced_enclosed hchars (by decide) (by decide) (fun ds hds => ?_) ?_
  · have hdepth : 1 ≤ (outer.after ('(' :: ds)).depth := h.le_depth 1 hds
    refine ⟨by omega, fun houter => ?_⟩
    rw [houter] at hdepth
    exact absurd hdepth (by decide)
  · have hinside : outer.after ('(' :: s.toList) = ⟨false, 1⟩ := h.after_eq 1
    rw [after_append, hinside]
    rfl

theorem balanced_quoted (h : ∀ c ∈ s.toList, c ≠ '\'') :
    Balanced ("'" ++ s ++ "'") ∧ outer.Unbroken ("'" ++ s ++ "'").toList := by
  have hinside {ds : List Char} (hds : ds <+: s.toList) :
      outer.after ('\'' :: ds) = ⟨true, 0⟩ :=
    after_of_quoted (fun c hc => h c (hds.subset hc)) 0
  have hchars : ("'" ++ s ++ "'").toList = '\'' :: s.toList ++ ['\''] := by simp
  refine balanced_enclosed hchars (by decide) (by decide) (fun ds hds => ?_) ?_
  · rw [hinside hds]
    exact ⟨le_refl 0, by decide⟩
  · rw [after_append, hinside (List.prefix_refl _)]
    rfl

/-- A balanced text in which no connective stands between outer blanks, or alone. -/
structure Atomic (s : String) : Prop where
  balanced : Balanced s
  keyword_not_mem (op : LogicalOp) : op.keyword ∉ words s

instance : DecidablePred Atomic := fun s =>
  decidable_of_iff (Balanced s ∧ LogicalOp.and.keyword ∉ words s ∧ LogicalOp.or.keyword ∉ words s)
    ⟨fun ⟨h, hand, hor⟩ => ⟨h, fun op => by cases op <;> assumption⟩,
      fun h => ⟨h.balanced, h.keyword_not_mem .and, h.keyword_not_mem .or⟩⟩

theorem words_append_blank (hs : Balanced s) (t : String) :
    words (s ++ " " ++ t) = words s ++ words t := by
  have hchars : (s ++ " " ++ t).toList = s.toList ++ ' ' :: t.toList := by simp
  rw [words, hchars, Nesting.words_append_blank hs.closed, List.map_append]
  rfl

theorem words_of_unbroken (h : outer.Unbroken s.toList) : words s = [s] := by
  rw [words, Nesting.words_of_unbroken h, List.map_singleton, String.ofList_toList]

theorem intercalate_words (s : String) : " ".intercalate (words s) = s := by
  apply String.toList_injective
  have hchars : (words s).map String.toList = outer.words s.toList := by
    simp [words, Function.comp_def]
  rw [String.toList_intercalate, hchars]
  exact Nesting.intercalate_words outer s.toList

theorem words_intercalate {ts : List String} (hne : ts ≠ []) (h : ∀ t ∈ ts, Balanced t) :
    words (" ".intercalate ts) = ts.flatMap words := by
  induction ts with
  | nil => exact absurd rfl hne
  | cons t ts ih =>
    obtain ⟨ht, hts⟩ := List.forall_mem_cons.1 h
    cases ts with
    | nil => simp
    | cons u us =>
      rw [String.intercalate_cons_cons, words_append_blank ht, ih (by simp) hts]
      rfl

theorem Atomic.spaced (hs : Atomic s) (ht : Atomic t) : Atomic (s ++ " " ++ t) where
  balanced := (hs.balanced.append (by decide)).append ht.balanced
  keyword_not_mem op := by
    rw [words_append_blank hs.balanced, List.mem_append, not_or]
    exact ⟨hs.keyword_not_mem op, ht.keyword_not_mem op⟩

theorem atomic_of_unbroken (hs : Balanced s) (h : outer.Unbroken s.toList)
    (hne : ∀ op : LogicalOp, op.keyword ≠ s) : Atomic s where
  balanced := hs
  keyword_not_mem op := by
    rw [words_of_unbroken h, List.mem_singleton]
    exact hne op

theorem atomic_of_isSolid (h : s.toList.all isSolid) (hne : ∀ op : LogicalOp, op.keyword ≠ s) :
    Atomic s :=
  atomic_of_unbroken (balanced_of_isSolid h) (unbroken_of_isSolid h outer) hne

/-- A text is no connective if it holds a character of a kind that their letters are not of. -/
theorem keyword_ne_of_mem {k : Char → Bool} (hk : ['A', 'N', 'D', 'O', 'R'].all (!k ·))
    {c : Char} (hc : c ∈ s.toList) (h : k c) (op : LogicalOp) : op.keyword ≠ s := by
  rintro rfl
  have hletters : ∀ d ∈ op.keyword.toList, d ∈ ['A', 'N', 'D', 'O', 'R'] := by
    cases op <;> simp [LogicalOp.keyword]
  have hother := List.all_eq_true.1 hk c (hletters c hc)
  simp [h] at hother

theorem Balanced.atomic_call (h : Balanced s) {name : String} (hname : name.toList.all isSolid) :
    Atomic (name ++ ("(" ++ s ++ ")")) := by
  obtain ⟨hbalanced, hunbroken⟩ := h.parenthesized
  have hname' := balanced_of_isSolid hname
  have hparenthesis : '(' ∈ (name ++ ("(" ++ s ++ ")")).toList := by simp
  refine atomic_of_unbroken (hname'.append hbalanced) ?_
    (keyword_ne_of_mem (k := (· == '(')) rfl hparenthesis rfl)
  rw [String.toList_append]
  refine (unbroken_of_isSolid hname outer).append ?_
  rwa [hname'.closed]

theorem Balanced.atomic (h : Balanced s) : Atomic ("(" ++ s ++ ")") := by
  have hcall := h.atomic_call (rfl : "".toList.all isSolid)
  rwa [String.empty_append] at hcall

theorem Atomic.quoted (h : ∀ c ∈ s.toList, c ≠ '\'') : Atomic ("'" ++ s ++ "'") := by
  obtain ⟨hbalanced, hunbroken⟩ := balanced_quoted h
  have hquote : '\'' ∈ ("'" ++ s ++ "'").toList := by simp
  exact atomic_of_unbroken hbalanced hunbroken
    (keyword_ne_of_mem (k := (· == '\'')) rfl hquote rfl)

end Text

end SqlFilter
