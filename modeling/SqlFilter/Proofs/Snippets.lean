import SqlFilter.Proofs.Atomicity

/-!
Snippets: the SQL of a condition taken apart as far as single scalars, which are literals of their
own, plain text between quotes that they share with others, or behind placeholders. Where no text
from outside holds a quote, each kind stands where it belongs.
-/
namespace SqlFilter

namespace Value

def isList : Value → Bool
  | .list _ => true
  | _ => false

mutual

/-- What holds of the scalars, and of a list if it does of its items, holds of every value. -/
@[elab_as_elim]
theorem induction_items {P : Value → Prop} (scalar : ∀ v, v.isList = false → P v)
    (list : ∀ items, (∀ v ∈ items, P v) → P (.list items)) : ∀ v, P v
  | .list items => list items (induction_itemsAll scalar list items)
  | .null | .bool _ | .int _ | .decimal _ | .string _ | .dateTime _ => scalar _ rfl

theorem induction_itemsAll {P : Value → Prop} (scalar : ∀ v, v.isList = false → P v)
    (list : ∀ items, (∀ v ∈ items, P v) → P (.list items)) : ∀ vs : List Value, ∀ v ∈ vs, P v
  | [] => by simp
  | v :: vs =>
    List.forall_mem_cons.2 ⟨induction_items scalar list v, induction_itemsAll scalar list vs⟩

end

end Value

inductive Style
  | literal (type : ValueType)
  | plain
  deriving DecidableEq, Repr

namespace Style

def isPlain : Style → Bool
  | .plain => true
  | .literal _ => false

def text : Style → Value → String
  | .literal type, v => v.literal type
  | .plain, v => v.text

def inside (items : List Value) : Style → Style
  | .literal type => .literal (elementType items type)
  | .plain => .plain

theorem isPlain_inside (items : List Value) (style : Style) :
    (style.inside items).isPlain = style.isPlain := by
  cases style <;> rfl

def opening : Style → String
  | .literal _ => "("
  | .plain => ""

def separator : Style → String
  | .literal _ => ", "
  | .plain => ","

def closing : Style → String
  | .literal _ => ")"
  | .plain => ""

end Style

inductive Snippet
  /-- What stands around the values. -/
  | mark (s : String)
  | scalar (v : Value) (style : Style)
  | placeholder (name : String) (v : Value)
  deriving DecidableEq, Repr

namespace Snippet

def text : Snippet → String
  | .mark s => s
  | .scalar v style => style.text v
  | .placeholder name _ => name

/-- The value that the data store receives beside the text. -/
def bound : Snippet → List Value
  | .placeholder _ v => [v]
  | .mark _ | .scalar .. => []

def names : Snippet → List String
  | .placeholder name _ => [name]
  | .mark _ | .scalar .. => []

def join (xs : List Snippet) : String := String.join (xs.map text)

def separated (s : String) (xss : List (List Snippet)) : List Snippet :=
  [Snippet.mark s].intercalate xss

theorem join_append (xs ys : List Snippet) : join (xs ++ ys) = join xs ++ join ys := by
  rw [join, List.map_append, String.join_append]
  rfl

theorem join_cons (x : Snippet) (xs : List Snippet) : join (x :: xs) = x.text ++ join xs := by
  rw [join, List.map_cons, String.join_cons]
  rfl

theorem join_singleton (x : Snippet) : join [x] = x.text := by
  rw [join_cons]
  exact String.append_empty

theorem separated_cons_cons (s : String) (xs ys : List Snippet) (xss : List (List Snippet)) :
    separated s (xs :: ys :: xss) = xs ++ .mark s :: separated s (ys :: xss) := by
  rw [separated, List.intercalate_cons_cons, List.append_assoc]
  rfl

theorem join_separated (s : String) (xss : List (List Snippet)) :
    join (separated s xss) = s.intercalate (xss.map join) := by
  induction xss with
  | nil => rfl
  | cons xs xss ih =>
    cases xss with
    | nil => simp [separated]
    | cons ys xss =>
      rw [separated_cons_cons, join_append, join_cons, ih, text]
      simp [String.append_assoc]

/-- Where a mark has nothing to give, the lists give what they do one after the other. -/
theorem flatMap_separated {β : Type} {f : Snippet → List β} {s : String} (hs : f (.mark s) = [])
    (xss : List (List Snippet)) : (separated s xss).flatMap f = xss.flatMap (·.flatMap f) := by
  induction xss with
  | nil => rfl
  | cons xs xss ih =>
    cases xss with
    | nil => simp [separated]
    | cons ys xss => simp [separated_cons_cons, hs, ih]

theorem mem_separated {s : String} {xss : List (List Snippet)} {x : Snippet}
    (h : x ∈ separated s xss) : x = .mark s ∨ ∃ xs ∈ xss, x ∈ xs := by
  induction xss with
  | nil => simp [separated] at h
  | cons xs xss ih =>
    cases xss with
    | nil => exact .inr ⟨xs, by simp, by simpa [separated] using h⟩
    | cons ys xss =>
      rw [separated_cons_cons, List.mem_append, List.mem_cons] at h
      rcases h with h | h | h
      · exact .inr ⟨xs, by simp, h⟩
      · exact .inl h
      · exact (ih h).imp_right fun ⟨zs, hzs, hx⟩ => ⟨zs, List.mem_cons_of_mem _ hzs, hx⟩

end Snippet

namespace Value
open Snippet

mutual

def snippets : Value → Style → List Snippet
  | .list items, style =>
    .mark style.opening ::
      (separated style.separator (snippetsAll items (style.inside items)) ++ [.mark style.closing])
  | v, style => [.scalar v style]

def snippetsAll : List Value → Style → List (List Snippet)
  | [], _ => []
  | v :: vs, style => v.snippets style :: snippetsAll vs style

end

@[simp] theorem snippetsAll_eq_map (vs : List Value) (style : Style) :
    snippetsAll vs style = vs.map (·.snippets style) := by
  induction vs with
  | nil => rfl
  | cons v vs ih => rw [snippetsAll, ih, List.map_cons]

theorem snippets_of_isList_eq_false {v : Value} (h : v.isList = false) (style : Style) :
    v.snippets style = [.scalar v style] := by
  cases v <;> first | rfl | cases h

theorem snippets_list (items : List Value) (style : Style) :
    (list items).snippets style =
      .mark style.opening ::
        (separated style.separator (items.map (·.snippets (style.inside items))) ++
          [.mark style.closing]) := by
  rw [snippets, snippetsAll_eq_map]

theorem join_snippets (v : Value) (style : Style) : join (v.snippets style) = style.text v := by
  induction v using induction_items generalizing style with
  | scalar v hv => rw [snippets_of_isList_eq_false hv, join_singleton, Snippet.text]
  | list items ih =>
    have hitems : (items.map (·.snippets (style.inside items))).map join =
        items.map (style.inside items).text := by
      rw [List.map_map]
      exact List.map_congr_left fun v hv => ih v hv _
    rw [snippets_list, join_cons, join_append, join_separated, hitems, join_singleton]
    cases style with
    | literal type =>
      rw [Style.text, literal, literals_eq_map, String.append_assoc]
      rfl
    | plain =>
      rw [Style.text, text, texts_eq_map]
      exact String.empty_append.trans String.append_empty

theorem names_snippets (v : Value) (style : Style) : (v.snippets style).flatMap names = [] := by
  induction v using induction_items generalizing style with
  | scalar v hv =>
    rw [snippets_of_isList_eq_false hv]
    rfl
  | list items ih =>
    have hitems : ∀ v ∈ items, (v.snippets (style.inside items)).flatMap names = [] :=
      fun v hv => ih v hv _
    rw [snippets_list, List.flatMap_cons, List.flatMap_append, flatMap_separated rfl,
      List.flatMap_map, List.flatMap_congr hitems]
    simp [names]

def inListSnippets (items : List Value) (element : ValueType) : List Snippet :=
  if element.isQuoted then
    .mark "'" :: (separated "',' " (items.map (·.snippets .plain)) ++ [.mark "'"])
  else separated "," (items.map (·.snippets (.literal element)))

theorem join_inListSnippets (vs : List Value) (element : ValueType) :
    join (inListSnippets vs element) = inList vs element := by
  have hitems (style : Style) : (vs.map (·.snippets style)).map join = vs.map style.text := by
    rw [List.map_map]
    exact List.map_congr_left fun v _ => join_snippets v style
  unfold inListSnippets inList
  split
  · rw [join_cons, join_append, join_separated, hitems, join_singleton, quoted, String.append_assoc]
    rfl
  · rw [join_separated, hitems]
    rfl

theorem names_inListSnippets (vs : List Value) (element : ValueType) :
    (inListSnippets vs element).flatMap names = [] := by
  have hitems (style : Style) : (vs.map (·.snippets style)).flatMap (·.flatMap names) = [] := by
    rw [List.flatMap_map, List.flatMap_eq_nil_iff]
    exact fun v _ => v.names_snippets style
  unfold inListSnippets
  split
  · rw [List.flatMap_cons, List.flatMap_append, flatMap_separated rfl, hitems]
    rfl
  · rw [flatMap_separated rfl, hitems]

end Value

namespace Piece
open Snippet

/-- Pieces whose literals a binder takes. -/
def isTaken : Piece → Bool
  | .scalar v _ => !v.staysInline
  | .items .. => true
  | .text _ | .fault _ => false

theorem literals_of_isTaken_eq_false {p : Piece} (h : p.isTaken = false) : p.literals = [] := by
  cases p <;> simp_all [isTaken, literals]

def inlineSnippets : Piece → List Snippet
  | .text s => [.mark s]
  | .scalar v type => v.snippets (.literal type)
  | .items vs element => Value.inListSnippets vs element
  | .fault _ => []

def placeholders (nameAt : Nat → String) (i : Nat) (ls : List (Value × ValueType)) :
    List Snippet :=
  separated ", " ((ls.zipIdx i).map fun x => [.placeholder (nameAt x.2) x.1.1])

def snippets (nameAt? : Option (Nat → String)) (i : Nat) (p : Piece) : List Snippet :=
  match nameAt? with
  | some nameAt => if p.isTaken then placeholders nameAt i p.literals else p.inlineSnippets
  | none => p.inlineSnippets

theorem join_inlineSnippets (p : Piece) : join p.inlineSnippets = p.inlineText := by
  cases p with
  | text s => exact join_singleton _
  | scalar v type => exact v.join_snippets _
  | items vs element => exact Value.join_inListSnippets vs element
  | fault cause => rfl

/-- Only what a binder takes leaves placeholders. -/
theorem names_inlineSnippets (p : Piece) : p.inlineSnippets.flatMap names = [] := by
  cases p with
  | text s => rfl
  | scalar v type => exact v.names_snippets _
  | items vs element => exact Value.names_inListSnippets vs element
  | fault cause => rfl

theorem names_placeholders (nameAt : Nat → String) (i : Nat) (ls : List (Value × ValueType)) :
    (placeholders nameAt i ls).flatMap names = (List.range' i ls.length).map nameAt := by
  rw [placeholders, flatMap_separated rfl, List.flatMap_map, ← List.zipIdx_map_snd i ls,
    List.map_map, List.map_eq_flatMap]
  rfl

theorem join_placeholders (nameAt : Nat → String) (i : Nat) (ls : List (Value × ValueType)) :
    join (placeholders nameAt i ls) = ", ".intercalate ((List.range' i ls.length).map nameAt) := by
  have hnames : ((ls.zipIdx i).map fun x => [Snippet.placeholder (nameAt x.2) x.1.1]).map join =
      (List.range' i ls.length).map nameAt := by
    rw [← List.zipIdx_map_snd i ls, List.map_map, List.map_map]
    exact List.map_congr_left fun x _ => join_singleton _
  rw [placeholders, join_separated, hnames]

/-- The literals of a piece stand in its text, or each of them behind a placeholder. -/
theorem snippets_cases (nameAt? : Option (Nat → String)) (i : Nat) (p : Piece) :
    (nameAt? = none ∨ p.isTaken = false) ∧ p.snippets nameAt? i = p.inlineSnippets ∨
      ∃ nameAt, nameAt? = some nameAt ∧ p.isTaken ∧
        p.snippets nameAt? i = placeholders nameAt i p.literals := by
  cases nameAt? with
  | none => exact .inl ⟨.inl rfl, rfl⟩
  | some nameAt =>
    cases htaken : p.isTaken with
    | false => exact .inl ⟨.inr rfl, by simp [snippets, htaken]⟩
    | true => exact .inr ⟨nameAt, rfl, rfl, by simp [snippets, htaken]⟩

theorem join_snippets_some (nameAt : Nat → String) (i : Nat) (p : Piece) :
    join (p.snippets (some nameAt) i) = p.boundText nameAt i := by
  rw [snippets]
  cases p with
  | text s => exact join_singleton _
  | fault cause => rfl
  | items vs element => simp [isTaken, join_placeholders, boundText, literals]
  | scalar v type =>
    by_cases hv : v.staysInline
    · simp [isTaken, boundText, hv, inlineSnippets, Value.join_snippets, Style.text]
    · simp [isTaken, boundText, hv, join_placeholders, literals]

theorem names_snippets_some (nameAt : Nat → String) (i : Nat) (p : Piece) :
    (p.snippets (some nameAt) i).flatMap names =
      (List.range' i p.literals.length).map nameAt := by
  rw [snippets]
  cases htaken : p.isTaken with
  | true => exact names_placeholders nameAt i p.literals
  | false =>
    rw [literals_of_isTaken_eq_false htaken]
    exact p.names_inlineSnippets

end Piece

namespace Fragment
open Snippet

def snippets (nameAt? : Option (Nat → String)) (i : Nat) : Fragment → List Snippet
  | [] => []
  | p :: f => p.snippets nameAt? i ++ snippets nameAt? (i + p.literals.length) f

theorem join_snippets_none (i : Nat) (f : Fragment) : join (f.snippets none i) = f.inlineText := by
  induction f generalizing i with
  | nil => rfl
  | cons p f ih =>
    rw [snippets, join_append, Piece.snippets, Piece.join_inlineSnippets, ih, inlineText,
      inlineText, List.map_cons, String.join_cons]

theorem join_snippets_some (nameAt : Nat → String) (i : Nat) (f : Fragment) :
    join (f.snippets (some nameAt) i) = f.boundText nameAt i := by
  induction f generalizing i with
  | nil => rfl
  | cons p f ih => rw [snippets, join_append, Piece.join_snippets_some, ih, boundText]

/-- The placeholders among the snippets are numbered from `i` on, one for each literal. -/
theorem names_snippets_some (nameAt : Nat → String) (i : Nat) (f : Fragment) :
    (f.snippets (some nameAt) i).flatMap names =
      (List.range' i f.literals.length).map nameAt := by
  induction f generalizing i with
  | nil => rfl
  | cons p f ih =>
    have hlength : (literals (p :: f)).length = p.literals.length + (literals f).length := by
      simp [literals]
    rw [snippets, List.flatMap_append, Piece.names_snippets_some, ih, hlength,
      ← List.range'_append_1, List.map_append]

variable {nameAt? : Option (Nat → String)}

theorem snippets_append (i : Nat) (f g : Fragment) :
    (f ++ g).snippets nameAt? i =
      f.snippets nameAt? i ++ g.snippets nameAt? (i + f.literals.length) := by
  induction f generalizing i with
  | nil => simp [snippets, literals]
  | cons p f ih =>
    have hlength : (literals (p :: f)).length = p.literals.length + (literals f).length := by
      simp [literals]
    rw [List.cons_append, snippets, ih, snippets, List.append_assoc, hlength, Nat.add_assoc]

theorem mem_snippets {f : Fragment} {i : Nat} {x : Snippet} (h : x ∈ f.snippets nameAt? i) :
    ∃ p ∈ f, ∃ k, x ∈ p.snippets nameAt? k := by
  induction f generalizing i with
  | nil => exact absurd h List.not_mem_nil
  | cons p f ih =>
    rcases List.mem_append.1 h with h | h
    · exact ⟨p, List.mem_cons_self, i, h⟩
    · obtain ⟨q, hq, hx⟩ := ih h
      exact ⟨q, List.mem_cons_of_mem p hq, hx⟩

end Fragment

namespace Text
open Nesting (outer)

/-- Whether a literal is open at the end of a text. -/
def endsQuoted (s : String) : Bool := (outer.after s.toList).quoted

theorem quoted_after (n : Nesting) (cs : List Char) :
    (n.after cs).quoted = (n.quoted ^^ (outer.after cs).quoted) := by
  have hstep (n : Nesting) (c : Char) :
      (n.step c).quoted = (n.quoted ^^ (outer.step c).quoted) := by
    unfold Nesting.step
    split_ifs <;> simp_all
  induction cs generalizing n with
  | nil => simp
  | cons c cs ih =>
    rw [Nesting.after_cons, ih, hstep, Nesting.after_cons, ih (outer.step c), Bool.xor_assoc]

theorem endsQuoted_append (s t : String) :
    endsQuoted (s ++ t) = (endsQuoted s ^^ endsQuoted t) := by
  rw [endsQuoted, String.toList_append, Nesting.after_append, quoted_after]
  rfl

theorem endsQuoted_of_balanced {s : String} (h : Balanced s) : endsQuoted s = false := by
  rw [endsQuoted, h.closed]

theorem endsQuoted_of_quoteFree {s : String} (h : quoteFree s) : endsQuoted s = false := by
  have hchars : ∀ c ∈ s.toList, c ≠ '\'' := by simpa [quoteFree] using h
  have hquoted := quoted_after ⟨true, 0⟩ s.toList
  rw [Nesting.after_of_quoted hchars] at hquoted
  simpa [endsQuoted] using hquoted

end Text

namespace Snippet
open Text

/-- A literal or a placeholder outside of quotes, or a plain text inside of them. -/
def Fits (quoted : Bool) : Snippet → Prop
  | .mark _ => True
  | .scalar _ style => style.isPlain = quoted
  | .placeholder .. => quoted = false

def Sits (quoted : Bool) : List Snippet → Prop
  | [] => True
  | x :: xs => x.Fits quoted ∧ Sits (quoted ^^ endsQuoted x.text) xs

variable {quoted : Bool} {xs ys : List Snippet}

theorem sits_append :
    Sits quoted (xs ++ ys) ↔ Sits quoted xs ∧ Sits (quoted ^^ endsQuoted (join xs)) ys := by
  induction xs generalizing quoted with
  | nil =>
    have hempty : endsQuoted (join []) = false := by decide
    simp [Sits, hempty]
  | cons x xs ih =>
    rw [List.cons_append, Sits, ih, Sits, join_cons, endsQuoted_append, Bool.xor_assoc, and_assoc]

/-- What sits at its place stands between quotes just if it is plain text. -/
theorem Sits.endsQuoted_eq {before after : List Snippet} {v : Value} {style : Style}
    (h : Sits false (before ++ .scalar v style :: after)) :
    endsQuoted (join before) = style.isPlain := by
  have hfits : style.isPlain = (false ^^ endsQuoted (join before)) := (sits_append.1 h).2.1
  rw [hfits, Bool.false_xor]

/-- Snippets that sit at their place and open no literal that they do not close. -/
structure Settled (quoted : Bool) (xs : List Snippet) : Prop where
  sits : Sits quoted xs
  closed : endsQuoted (join xs) = false

theorem settled_nil (quoted : Bool) : Settled quoted [] := ⟨trivial, by decide⟩

theorem Settled.append (hx : Settled quoted xs) (hy : Settled quoted ys) :
    Settled quoted (xs ++ ys) where
  sits := by
    rw [sits_append, hx.closed, Bool.xor_false]
    exact ⟨hx.sits, hy.sits⟩
  closed := by
    rw [join_append, endsQuoted_append, hx.closed, hy.closed]
    rfl

theorem settled_singleton {x : Snippet} (h : x.Fits quoted) (hx : endsQuoted x.text = false) :
    Settled quoted [x] where
  sits := ⟨h, trivial⟩
  closed := by rw [join_singleton, hx]

theorem settled_mark {s : String} (hs : endsQuoted s = false) : Settled quoted [.mark s] :=
  settled_singleton trivial hs

theorem settled_separated {s : String} (hs : endsQuoted s = false) {xss : List (List Snippet)}
    (h : ∀ xs ∈ xss, Settled quoted xs) : Settled quoted (separated s xss) := by
  induction xss with
  | nil => exact settled_nil quoted
  | cons xs xss ih =>
    obtain ⟨hxs, hxss⟩ := List.forall_mem_cons.1 h
    cases xss with
    | nil => simpa [separated] using hxs
    | cons ys xss =>
      rw [separated_cons_cons, ← List.singleton_append]
      exact hxs.append ((settled_mark hs).append (ih hxss))

end Snippet

namespace Value
open Snippet Text

theorem quoteFree_of_mem {vs : List Value} (h : allQuoteFree vs) : ∀ v ∈ vs, v.quoteFree := by
  induction vs with
  | nil => simp
  | cons v vs ih =>
    obtain ⟨hv, hvs⟩ := Bool.and_eq_true_iff.1 h
    exact List.forall_mem_cons.2 ⟨hv, ih hvs⟩

theorem endsQuoted_marks (style : Style) :
    endsQuoted style.opening = false ∧ endsQuoted style.separator = false ∧
      endsQuoted style.closing = false := by
  have hmarks : ∀ s ∈ ["(", ", ", ")", "", ","], endsQuoted s = false := by decide
  exact ⟨hmarks _ (by cases style <;> simp [Style.opening]),
    hmarks _ (by cases style <;> simp [Style.separator]),
    hmarks _ (by cases style <;> simp [Style.closing])⟩

theorem settled_snippets {v : Value} (h : v.quoteFree) (style : Style) :
    Settled style.isPlain (v.snippets style) := by
  induction v using induction_items generalizing style with
  | scalar v hv =>
    rw [snippets_of_isList_eq_false hv]
    refine settled_singleton rfl ?_
    cases style with
    | literal type => exact endsQuoted_of_balanced (atomic_literal h type).balanced
    | plain => exact endsQuoted_of_quoteFree (quoteFree_text h)
  | list items ih =>
    have hitems : ∀ xs ∈ items.map (·.snippets (style.inside items)),
        Settled style.isPlain xs := by
      intro xs hxs
      obtain ⟨v, hv, rfl⟩ := List.mem_map.1 hxs
      rw [← Style.isPlain_inside items]
      exact ih v hv (quoteFree_of_mem h v hv) _
    obtain ⟨hopening, hseparator, hclosing⟩ := endsQuoted_marks style
    rw [snippets_list, ← List.singleton_append]
    exact (settled_mark hopening).append
      ((settled_separated hseparator hitems).append (settled_mark hclosing))

theorem settled_inListSnippets {vs : List Value} (h : allQuoteFree vs) (element : ValueType) :
    Settled false (inListSnippets vs element) := by
  have hitems (style : Style) : ∀ xs ∈ vs.map (·.snippets style), Settled style.isPlain xs := by
    intro xs hxs
    obtain ⟨v, hv, rfl⟩ := List.mem_map.1 hxs
    exact settled_snippets (quoteFree_of_mem h v hv) style
  unfold inListSnippets
  split
  · -- The first quote opens a literal, in which the items stand, and the last one closes it.
    have hquote : endsQuoted "'" = true := by decide
    obtain ⟨hsits, hclosed⟩ := settled_separated (s := "',' ") (by decide) (hitems .plain)
    constructor
    · refine ⟨trivial, sits_append.2 ⟨?_, trivial, trivial⟩⟩
      rw [Snippet.text, hquote]
      exact hsits
    · rw [join_cons, join_append, join_singleton, Snippet.text, endsQuoted_append,
        endsQuoted_append, hclosed, hquote]
      rfl
  · exact settled_separated (by decide) (hitems (.literal element))

end Value

namespace Fragment
open Snippet Text Placeholder

def Quotes (nameAt? : Option (Nat → String)) (f : Fragment) : Prop :=
  ∀ i, Settled false (f.snippets nameAt? i)

variable {nameAt? : Option (Nat → String)}

theorem quotes_text_cons {s : String} (hs : endsQuoted s = false) {f : Fragment}
    (hf : f.Quotes nameAt?) : Quotes nameAt? (.text s :: f) := by
  intro i
  have htext : Piece.snippets nameAt? i (.text s) = [.mark s] := by cases nameAt? <;> rfl
  rw [snippets, htext]
  exact (settled_mark hs).append (hf _)

theorem joins_quotes : Joins (Quotes nameAt?) where
  nil _ := settled_nil false
  fault cause i := by
    have hfault : Piece.snippets nameAt? i (.fault cause) = [] := by cases nameAt? <;> rfl
    rw [snippets, hfault]
    exact settled_nil false
  text hs hf := quotes_text_cons (endsQuoted_of_quoteFree (quoteFree_of_unmarked hs)) hf
  join {s f g} hs hf hg := by
    intro i
    rw [snippets_append]
    exact (hf i).append (quotes_text_cons (endsQuoted_of_quoteFree
      (quoteFree_of_unmarked (unmarked_of_separates hs))) hg _)

/-- A piece that is settled inline keeps so with placeholders, whose names open no literal. -/
theorem quotes_singleton {p : Piece}
    (hinline : nameAt? = none ∨ p.isTaken = false → Settled false p.inlineSnippets)
    (hnames : ∀ nameAt ∈ nameAt?, ∀ i, endsQuoted (nameAt i) = false) : Quotes nameAt? [p] := by
  intro i
  rw [snippets, snippets, List.append_nil]
  rcases p.snippets_cases nameAt? i with ⟨hin, hp⟩ | ⟨nameAt, rfl, -, hp⟩
  · rw [hp]
    exact hinline hin
  · rw [hp]
    refine settled_separated (by decide) fun xs hxs => ?_
    obtain ⟨x, _, rfl⟩ := List.mem_map.1 hxs
    exact settled_singleton rfl (hnames nameAt rfl x.2)

theorem quotes_pieces (policy : ConvertPolicy) {p : Predicate}
    (hpaths : ∀ path ∈ p.paths, quoteFree path) (hstrings : nameAt? = none → p.QuoteFree)
    (hnames : ∀ nameAt ∈ nameAt?, ∀ i, endsQuoted (nameAt i) = false) :
    Quotes nameAt? (p.pieces policy) := by
  refine Predicate.joins_pieces joins_quotes policy ⟨?member, ?scalar, ?items⟩
  case member =>
    intro path hm
    have hpath := hpaths path (Predicate.mem_paths_of_member_mem_nodes hm)
    exact quotes_text_cons (endsQuoted_of_quoteFree hpath) joins_quotes.nil
  case scalar =>
    refine fun v declared hm => quotes_singleton (fun hinline => ?_) hnames
    refine Value.settled_snippets ?_ (.literal _)
    rcases hinline with hnone | hstays
    · exact hstrings hnone _ hm
    · cases v <;> first | rfl | simp [Piece.isTaken, Value.staysInline, Value.isSqlNull] at hstays
  case items =>
    refine fun vs declared hm => quotes_singleton (fun hinline => ?_) hnames
    rcases hinline with hnone | hstays
    · exact Value.settled_inListSnippets (hstrings hnone _ hm) _
    · cases hstays

end Fragment

def Channel.nameAt? : Channel → Option (Nat → String)
  | .inline => none
  | .bound b => some b.nameAt

def Channel.index : Channel → Nat
  | .inline => 0
  | .bound b => b.index

namespace Predicate
open Fragment Snippet Text

/-- The snippets that a compilation writes, up to the first fault. -/
def snippets (policy : ConvertPolicy) (p : Predicate) (c : Channel) : List Snippet :=
  (p.pieces policy).reached.snippets c.nameAt? c.index

theorem join_snippets {policy : ConvertPolicy} {p : Predicate} {c : Channel} {sql : String}
    (h : (p.compileInto policy c).1 = .ok sql) :
    (p.pieces policy).fault? = none ∧ sql = join (p.snippets policy c) := by
  have houtcome {s : String} (hs : (p.pieces policy).outcome s = .ok sql) :
      (p.pieces policy).fault? = none ∧ sql = s := by
    unfold outcome at hs
    split at hs
    · cases hs
    · next hfault => exact ⟨hfault, (Except.ok.inj hs).symm⟩
  unfold snippets
  cases c with
  | inline =>
    rw [(compileInto_fills_pieces policy p {}).1] at h
    obtain ⟨hfault, rfl⟩ := houtcome h
    rw [reached_of_fault?_eq_none hfault]
    exact ⟨hfault, (join_snippets_none _ _).symm⟩
  | bound b =>
    rw [(compileInto_fills_pieces policy p b).2.1] at h
    obtain ⟨hfault, rfl⟩ := houtcome h
    rw [reached_of_fault?_eq_none hfault]
    exact ⟨hfault, (join_snippets_some _ _ _).symm⟩

/-- No text that comes from outside and is written holds a quote. -/
def NoQuotes (p : Predicate) (c : Channel) : Prop :=
  (∀ path ∈ p.paths, quoteFree path) ∧ match c with
    | .inline => p.QuoteFree
    | .bound b => quoteFree b.stem

theorem sits_snippets (policy : ConvertPolicy) {p : Predicate} {c : Channel} (h : p.NoQuotes c) :
    Sits false (p.snippets policy c) := by
  have hquotes : Quotes c.nameAt? (p.pieces policy) := by
    cases c with
    | inline => exact quotes_pieces policy h.1 (fun _ => h.2) (by simp [Channel.nameAt?])
    | bound b =>
      refine quotes_pieces policy h.1 nofun fun nameAt hname i => ?_
      have hstem : endsQuoted b.stem = false := endsQuoted_of_quoteFree h.2
      have hindex : endsQuoted (toString i) = false :=
        endsQuoted_of_balanced (balanced_of_isSolid (isSolid_repr i))
      obtain rfl := Option.some.inj hname
      rw [Binder.nameAt, endsQuoted_append, endsQuoted_append, hstem, hindex]
      decide
  have hsplit : (p.pieces policy).reached ++ (p.pieces policy).dropWhile (·.fault?.isNone) =
      p.pieces policy := List.takeWhile_append_dropWhile
  have hsits := (hquotes c.index).sits
  rw [← hsplit, snippets_append, sits_append] at hsits
  exact hsits.1

end Predicate

end SqlFilter
