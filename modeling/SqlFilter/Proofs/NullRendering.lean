import SqlFilter.Proofs.Snippets
import SqlFilter.Proofs.SupportedNodes

/-!
What stands for the values that SQL can only write as `NULL`. A scalar is written as a literal of
its own, as plain text between quotes that it shares with others, or as a placeholder; only the
first of these shows a null as `NULL`.
-/
namespace SqlFilter

namespace Value

mutual

/-- The nulls of a value, at any depth and in order. -/
def nulls : Value → List Value
  | .list items => nullsAll items
  | v => if v.isSqlNull then [v] else []

def nullsAll : List Value → List Value
  | [] => []
  | v :: vs => v.nulls ++ nullsAll vs

end

@[simp] theorem nullsAll_eq_flatMap (vs : List Value) : nullsAll vs = vs.flatMap nulls := by
  induction vs with
  | nil => rfl
  | cons v vs ih => rw [nullsAll, ih, List.flatMap_cons]

theorem nulls_of_isList_eq_false {v : Value} (h : v.isList = false) :
    v.nulls = if v.isSqlNull then [v] else [] := by
  cases v <;> first | rfl | cases h

end Value

namespace Snippet

def nulls : Snippet → List Value
  | .mark _ => []
  | .scalar v _ | .placeholder _ v => v.nulls

def isLiteral : Snippet → Bool
  | .scalar _ style => !style.isPlain
  | _ => false

/-- The nulls that do not stay a literal of the text. -/
def concealed (x : Snippet) : List Value := if x.isLiteral then [] else x.nulls

/-- What a text without placeholders is made of: its lists are taken apart. -/
def isWritten : Snippet → Bool
  | .mark _ => true
  | .scalar v _ => !v.isList
  | .placeholder .. => false

structure Styled (literal : Bool) (x : Snippet) : Prop where
  isWritten : x.isWritten
  isLiteral_eq : x.nulls ≠ [] → x.isLiteral = literal

theorem styled_mark (literal : Bool) (s : String) : Styled literal (.mark s) :=
  ⟨rfl, fun h => absurd rfl h⟩

theorem styled_separated {literal : Bool} {s : String} {xss : List (List Snippet)}
    (h : ∀ xs ∈ xss, ∀ x ∈ xs, Styled literal x) : ∀ x ∈ separated s xss, Styled literal x := by
  intro x hx
  rcases mem_separated hx with rfl | ⟨xs, hxs, hx⟩
  · exact styled_mark literal s
  · exact h xs hxs x hx

theorem styled_enclosed {literal : Bool} {l r : String} {xs : List Snippet}
    (h : ∀ x ∈ xs, Styled literal x) : ∀ x ∈ .mark l :: (xs ++ [.mark r]), Styled literal x := by
  intro x hx
  rw [List.mem_cons, List.mem_append, List.mem_singleton] at hx
  rcases hx with rfl | hx | rfl
  · exact styled_mark literal l
  · exact h x hx
  · exact styled_mark literal r

theorem flatMap_concealed_of_isLiteral_eq {literal : Bool} {xs : List Snippet}
    (h : ∀ x ∈ xs, x.nulls ≠ [] → x.isLiteral = literal) :
    xs.flatMap concealed = if literal then [] else xs.flatMap nulls := by
  have hx : ∀ x ∈ xs, x.concealed = if literal then [] else x.nulls := by
    intro x hx
    by_cases hnulls : x.nulls = []
    · simp [concealed, hnulls]
    · rw [concealed, h x hx hnulls]
  rw [List.flatMap_congr hx]
  cases literal <;> simp

theorem flatMap_bound_of_styled {literal : Bool} {xs : List Snippet}
    (h : ∀ x ∈ xs, Styled literal x) : xs.flatMap bound = [] := by
  refine List.flatMap_eq_nil_iff.2 fun x hx => ?_
  have hwritten := (h x hx).isWritten
  cases x <;> first | rfl | cases hwritten

theorem Styled.text_eq {literal : Bool} {x : Snippet} (h : Styled literal x) (hx : x.isLiteral)
    (hnulls : x.nulls ≠ []) : x.text = "NULL" := by
  cases x with
  | mark s | placeholder name v => cases hx
  | scalar v style =>
    cases style with
    | plain => cases hx
    | literal type =>
      have hv : v.isList = false := by simpa [Snippet.isWritten] using h.isWritten
      refine Value.literal_of_isSqlNull ?_ type
      by_contra hnull
      simp [Snippet.nulls, Value.nulls_of_isList_eq_false hv, hnull] at hnulls

/-- Every null is an unquoted `NULL` in the text, and no parameter is or holds one. -/
structure ShowNulls (xs : List Snippet) : Prop where
  text : ∀ x ∈ xs, x.nulls ≠ [] → x.isLiteral ∧ x.text = "NULL"
  values : ∀ v ∈ xs.flatMap bound, v.nulls = []

theorem showNulls_iff {xs : List Snippet}
    (h : ∀ x ∈ xs, x.isLiteral → x.nulls ≠ [] → x.text = "NULL") :
    ShowNulls xs ↔ xs.flatMap concealed = [] := by
  rw [List.flatMap_eq_nil_iff]
  constructor
  · intro hshow x hx
    by_cases hnulls : x.nulls = []
    · simp [concealed, hnulls]
    · simp [concealed, (hshow.text x hx hnulls).1]
  · refine fun hnone => ⟨fun x hx hnulls => ?_, fun v hv => ?_⟩
    · have hliteral : x.isLiteral := by
        by_contra hliteral
        have hconcealed := hnone x hx
        rw [concealed, if_neg hliteral] at hconcealed
        exact hnulls hconcealed
      exact ⟨hliteral, h x hx hliteral hnulls⟩
    · obtain ⟨x, hx, hvalue⟩ := List.mem_flatMap.1 hv
      cases x with
      | mark s | scalar w style => cases hvalue
      | placeholder name w =>
        obtain rfl := List.mem_singleton.1 hvalue
        exact hnone _ hx

end Snippet

namespace Value
open Snippet

/-- Every null of a value is in one of its snippets. -/
theorem flatMap_nulls_snippets (v : Value) (style : Style) :
    (v.snippets style).flatMap Snippet.nulls = v.nulls := by
  induction v using induction_items generalizing style with
  | scalar v hv =>
    rw [snippets_of_isList_eq_false hv]
    exact List.append_nil _
  | list items ih =>
    have hitems : (items.map (·.snippets (style.inside items))).flatMap (·.flatMap Snippet.nulls) =
        items.flatMap nulls := by
      rw [List.flatMap_map]
      exact List.flatMap_congr fun v hv => ih v hv _
    rw [snippets_list, List.flatMap_cons, List.flatMap_append, flatMap_separated rfl, hitems,
      nulls, nullsAll_eq_flatMap]
    exact List.append_nil _

theorem styled_snippets (v : Value) (style : Style) :
    ∀ x ∈ v.snippets style, Styled (!style.isPlain) x := by
  induction v using induction_items generalizing style with
  | scalar v hv =>
    intro x hx
    rw [snippets_of_isList_eq_false hv] at hx
    obtain rfl := List.mem_singleton.1 hx
    exact ⟨by simp [isWritten, hv], fun _ => rfl⟩
  | list items ih =>
    rw [snippets_list]
    refine styled_enclosed (styled_separated fun xs hxs => ?_)
    obtain ⟨v, hv, rfl⟩ := List.mem_map.1 hxs
    rw [← Style.isPlain_inside items]
    exact ih v hv _

theorem flatMap_nulls_inListSnippets (vs : List Value) (element : ValueType) :
    (inListSnippets vs element).flatMap Snippet.nulls = vs.flatMap nulls := by
  have hitems (style : Style) :
      (vs.map (·.snippets style)).flatMap (·.flatMap Snippet.nulls) = vs.flatMap nulls := by
    rw [List.flatMap_map]
    exact List.flatMap_congr fun v _ => flatMap_nulls_snippets v style
  unfold inListSnippets
  split
  · rw [List.flatMap_cons, List.flatMap_append, flatMap_separated rfl, hitems]
    exact List.append_nil _
  · rw [flatMap_separated rfl, hitems]

theorem styled_inListSnippets (vs : List Value) (element : ValueType) :
    ∀ x ∈ inListSnippets vs element, Styled (!element.isQuoted) x := by
  have hitems (style : Style) : ∀ xs ∈ vs.map (·.snippets style), ∀ x ∈ xs,
      Styled (!style.isPlain) x := by
    intro xs hxs
    obtain ⟨v, _, rfl⟩ := List.mem_map.1 hxs
    exact v.styled_snippets style
  unfold inListSnippets
  split
  · next hquoted =>
    rw [hquoted]
    exact styled_enclosed (styled_separated (hitems .plain))
  · next hquoted =>
    rw [Bool.eq_false_of_not_eq_true hquoted]
    exact styled_separated (hitems (.literal element))

end Value

namespace Piece
open Snippet

def nulls : Piece → List Value
  | .scalar v _ => v.nulls
  | .items vs _ => vs.flatMap Value.nulls
  | .text _ | .fault _ => []

def isQuoted : Piece → Bool
  | .items _ element => element.isQuoted
  | .text _ | .scalar .. | .fault _ => false

def concealed (bound : Bool) (p : Piece) : List Value :=
  if bound && p.isTaken || p.isQuoted then p.nulls else []

theorem flatMap_nulls_inlineSnippets (p : Piece) :
    p.inlineSnippets.flatMap Snippet.nulls = p.nulls := by
  cases p with
  | text s | fault cause => rfl
  | scalar v type => exact v.flatMap_nulls_snippets _
  | items vs element => exact Value.flatMap_nulls_inListSnippets vs element

theorem styled_inlineSnippets (p : Piece) : ∀ x ∈ p.inlineSnippets, Styled (!p.isQuoted) x := by
  cases p with
  | text s =>
    intro x hx
    obtain rfl := List.mem_singleton.1 hx
    exact styled_mark true s
  | fault cause => exact fun x hx => absurd hx List.not_mem_nil
  | scalar v type => exact v.styled_snippets _
  | items vs element => exact Value.styled_inListSnippets vs element

theorem flatMap_nulls_literals {p : Piece} (h : p.isTaken) :
    p.literals.flatMap (·.1.nulls) = p.nulls := by
  cases p <;> simp_all [isTaken, literals, nulls, List.flatMap_map]

theorem flatMap_placeholders {β : Type} {f : Snippet → List β} {g : Value → List β}
    (hmark : ∀ s, f (.mark s) = []) (hplaceholder : ∀ name v, f (.placeholder name v) = g v)
    (nameAt : Nat → String) (i : Nat) (ls : List (Value × ValueType)) :
    (placeholders nameAt i ls).flatMap f = ls.flatMap fun l => g l.1 := by
  rw [placeholders, flatMap_separated (hmark _), List.flatMap_map]
  conv_rhs => rw [← List.zipIdx_map_fst i ls, List.flatMap_map]
  exact List.flatMap_congr fun x _ => by simp [hplaceholder]

theorem isLiteral_of_mem_placeholders {nameAt : Nat → String} {i : Nat}
    {ls : List (Value × ValueType)} {x : Snippet} (h : x ∈ placeholders nameAt i ls) :
    x.isLiteral = false := by
  rcases mem_separated h with rfl | ⟨xs, hxs, hx⟩
  · rfl
  · obtain ⟨y, _, rfl⟩ := List.mem_map.1 hxs
    obtain rfl := List.mem_singleton.1 hx
    rfl

section

variable (nameAt? : Option (Nat → String)) (i : Nat) (p : Piece)

theorem flatMap_nulls_snippets :
    (p.snippets nameAt? i).flatMap Snippet.nulls = p.nulls := by
  rcases p.snippets_cases nameAt? i with ⟨-, hp⟩ | ⟨nameAt, -, htaken, hp⟩
  · rw [hp, flatMap_nulls_inlineSnippets]
  · rw [hp, flatMap_placeholders (fun _ => rfl) (fun _ _ => rfl), flatMap_nulls_literals htaken]

theorem flatMap_bound_snippets :
    (p.snippets nameAt? i).flatMap Snippet.bound =
      if nameAt?.isSome then p.literals.map Prod.fst else [] := by
  rcases p.snippets_cases nameAt? i with ⟨hinline, hp⟩ | ⟨nameAt, rfl, -, hp⟩
  · rw [hp, flatMap_bound_of_styled p.styled_inlineSnippets]
    rcases hinline with rfl | htaken
    · rfl
    · simp [literals_of_isTaken_eq_false htaken]
  · rw [hp, flatMap_placeholders (g := fun v => [v]) (fun _ => rfl) (fun _ _ => rfl),
      ← List.map_eq_flatMap]
    rfl

/-- Which nulls are no literals of the text does not depend on the other pieces. -/
theorem flatMap_concealed_snippets :
    (p.snippets nameAt? i).flatMap Snippet.concealed = p.concealed nameAt?.isSome := by
  rcases p.snippets_cases nameAt? i with ⟨hinline, hp⟩ | ⟨nameAt, rfl, htaken, hp⟩
  · have hbound : (nameAt?.isSome && p.isTaken) = false := by
      rcases hinline with rfl | htaken
      · rfl
      · rw [htaken, Bool.and_false]
    rw [hp, flatMap_concealed_of_isLiteral_eq fun x hx =>
      (p.styled_inlineSnippets x hx).isLiteral_eq, flatMap_nulls_inlineSnippets, concealed, hbound]
    cases p.isQuoted <;> rfl
  · rw [flatMap_concealed_of_isLiteral_eq fun x hx _ =>
      isLiteral_of_mem_placeholders (hp ▸ hx), flatMap_nulls_snippets, concealed, htaken]
    rfl

variable {nameAt? i p} in
theorem text_of_isLiteral {x : Snippet} (hx : x ∈ p.snippets nameAt? i) (hliteral : x.isLiteral)
    (hnulls : x.nulls ≠ []) : x.text = "NULL" := by
  rcases p.snippets_cases nameAt? i with ⟨-, hp⟩ | ⟨nameAt, -, -, hp⟩
  · exact (p.styled_inlineSnippets x (hp ▸ hx)).text_eq hliteral hnulls
  · rw [isLiteral_of_mem_placeholders (hp ▸ hx)] at hliteral
    cases hliteral

end

end Piece

namespace Fragment
open Snippet

section

variable (nameAt? : Option (Nat → String)) (i : Nat) (f : Fragment)

theorem flatMap_snippets {β : Type} {g : Snippet → List β} {h : Piece → List β}
    (hp : ∀ (p : Piece) i, (p.snippets nameAt? i).flatMap g = h p) :
    (f.snippets nameAt? i).flatMap g = f.flatMap h := by
  induction f generalizing i with
  | nil => rfl
  | cons p f ih => rw [snippets, List.flatMap_append, hp, ih, List.flatMap_cons]

theorem flatMap_bound_snippets :
    (f.snippets nameAt? i).flatMap Snippet.bound =
      if nameAt?.isSome then f.literals.map Prod.fst else [] := by
  rw [flatMap_snippets nameAt? i f fun p i => p.flatMap_bound_snippets nameAt? i]
  split
  · rw [literals, List.map_flatMap]
  · exact List.flatMap_eq_nil_iff.2 fun _ _ => rfl

theorem showNulls_snippets_iff :
    ShowNulls (f.snippets nameAt? i) ↔ ∀ p ∈ f, p.concealed nameAt?.isSome = [] := by
  have htext : ∀ x ∈ f.snippets nameAt? i, x.isLiteral → x.nulls ≠ [] → x.text = "NULL" := by
    intro x hx
    obtain ⟨p, _, k, hxp⟩ := mem_snippets hx
    exact Piece.text_of_isLiteral hxp
  rw [showNulls_iff htext,
    flatMap_snippets nameAt? i f fun p i => p.flatMap_concealed_snippets nameAt? i,
    List.flatMap_eq_nil_iff]

end

end Fragment

namespace Predicate
open Fragment Snippet

/-- Nodes that leave no text of what is below them: an empty membership test, a dropped cast. -/
def hidesOperands (policy : ConvertPolicy) (p : Predicate) : Bool :=
  match p with
  | .convert .. => policy = .drop
  | p => p.vanishes

/-- What the nodes of a tree hold that are not below such a node. -/
def held {β : Type} (own : Predicate → List β) (policy : ConvertPolicy) (p : Predicate) : List β :=
  (p.nodesUnless (hidesOperands policy)).flatMap own

def ownNulls : Predicate → List Value
  | .constant v _ => v.nulls
  | _ => []

def nulls (policy : ConvertPolicy) (p : Predicate) : List Value :=
  (p.nodesUnless (hidesOperands policy)).flatMap ownNulls

def isMembership : Predicate → Bool
  | .call method _ _ => Method.ofName? method = some .containsAny
  | _ => false

/--
Nodes hold what the pieces that are written for them do: a constant what its hole does, a membership
test and its collection together what the hole of the list does, and other nodes nothing.
-/
structure HoldsAlike {β : Type} (own : Predicate → List β) (piece : Piece → List β) : Prop where
  text : ∀ s, piece (.text s) = []
  /-- The constant that conjunctions start from may be left out. -/
  base : ∀ type, piece (.scalar (.bool true) type) = []
  scalar : ∀ v declared, own (.constant v declared) = piece (.scalar v (declared.getD v.type))
  items : ∀ {p items declared value}, p.isMembership →
    p.operands = [.constant (.list items) declared, value] → items ≠ [] →
      own p ++ own (.constant (.list items) declared) =
        piece (.items items (elementType items (declared.getD .unknown)))
  none : ∀ p, p.kind ≠ .constant → (p.isMembership → p.vanishes) → own p = []

section

variable {β : Type} {own : Predicate → List β} {piece : Piece → List β} {policy : ConvertPolicy}
  {p : Predicate}

theorem held_eq (own : Predicate → List β) (policy : ConvertPolicy) (p : Predicate) :
    p.held own policy = own p ++
      if p.hidesOperands policy then [] else p.operands.flatMap (held own policy) := by
  rw [held, nodesUnless_eq, List.flatMap_cons]
  split
  · rfl
  · rw [List.flatMap_assoc]
    rfl

theorem held_of_operands (hhides : p.hidesOperands policy = false) :
    p.held own policy = own p ++ p.operands.flatMap (held own policy) := by
  rw [held_eq, hhides]
  rfl

theorem held_constant (policy : ConvertPolicy) (v : Value) (declared : Option ValueType) :
    (constant v declared).held own policy = own (.constant v declared) := by
  simp [held_eq, hidesOperands, vanishes, operands]

/-- What a membership test holds: in the text its value comes first. -/
theorem perm_held_membershipPieces (halike : HoldsAlike own piece) {collection value : Predicate}
    {f : Fragment} (hmember : p.isMembership) (hoperands : p.operands = [collection, value])
    (hhides : p.hidesOperands policy = p.vanishes)
    (hvanishes : p.vanishes ↔ ∃ declared, collection = .constant (.list []) declared)
    (hf : f.fault? = none → (f.flatMap piece).Perm (value.held own policy))
    (h : (membershipPieces collection f).fault? = none) :
    ((membershipPieces collection f).flatMap piece).Perm (p.held own policy) := by
  have hne : p.kind ≠ .constant := by
    cases p with
    | call method receiver args => exact nofun
    | _ => cases hmember
  revert h
  fun_cases membershipPieces collection f with
  | case1 declared =>
    intro _
    have hv : p.vanishes := hvanishes.2 ⟨declared, rfl⟩
    rw [held_eq, halike.none p hne fun _ => hv, hhides, if_pos hv]
    exact .nil
  | case2 items declared hitems =>
    intro h
    have hnil : items ≠ [] := fun hnil => hitems hnil
    have hshown : p.vanishes = false := by
      rw [← Bool.not_eq_true, hvanishes]
      rintro ⟨d, h⟩
      cases h
      exact hnil rfl
    have hvalue := hf (by simpa [Fragment.fault?_append] using h)
    have hpiece := halike.items hmember hoperands hnil
    rw [held_of_operands (hhides.trans hshown), hoperands]
    have hperm := (hvalue.append_right (own p ++ own (.constant (.list items) declared))).trans
      List.perm_append_comm
    simpa [halike.text, held_constant, ← hpiece] using hperm
  | case3 => exact fun h => by cases h

/-- What is written holds what the tree does, each as often as it stands there. -/
theorem perm_held_fragment (halike : HoldsAlike own piece) (policy : ConvertPolicy)
    (h : (p.fragment policy).fault? = none) :
    ((p.fragment policy).flatMap piece).Perm (p.held own policy) := by
  -- A node that is no constant and no call holds nothing itself.
  have hown {q : Predicate} (hq : q.isMembership = false) (hne : q.kind ≠ .constant) :
      own q = [] := halike.none q hne fun hmember => absurd hmember (by simp [hq])
  induction p using Predicate.fragment.induct policy with
  | case1 op left right ihl ihr =>
    simp only [fragment, Fragment.fault?_append, Fragment.fault?_text_cons,
      Option.or_eq_none_iff] at h
    rw [held_of_operands rfl, hown rfl (by simp [kind])]
    simpa [fragment, operands, halike.text] using (ihl h.1).append (ihr h.2)
  | case2 op left right hbase ih =>
    obtain ⟨declared, rfl⟩ := exists_of_isAlwaysTrue hbase.2
    simp only [fragment, if_pos hbase, Fragment.fault?_append, Fragment.fault?_text_cons,
      Option.or_eq_none_iff] at h
    rw [held_of_operands rfl, hown rfl (by simp [kind])]
    simpa [fragment, hbase, operands, halike.text, held_constant, halike.scalar, halike.base]
      using ih h.1
  | case3 op left right hbase ihl ihr =>
    simp only [fragment, if_neg hbase, Fragment.fault?_append, Fragment.fault?_text_cons,
      Option.or_eq_none_iff] at h
    rw [held_of_operands rfl, hown rfl (by simp [kind])]
    simpa [fragment, hbase, operands, halike.text] using (ihl h.1).append (ihr h.2.1)
  | case4 operand ih =>
    simp only [fragment, Fragment.fault?_append, Fragment.fault?_text_cons,
      Option.or_eq_none_iff] at h
    rw [held_of_operands rfl, hown rfl (by simp [kind])]
    simpa [fragment, operands, halike.text] using ih h.1
  | case5 path =>
    rw [held_of_operands rfl, hown rfl (by simp [kind])]
    simp [fragment, operands, halike.text]
  | case6 v declared =>
    rw [held_constant, halike.scalar]
    simp [fragment]
  | case7 test ifTrue ifFalse iht iha ihb =>
    simp only [fragment, Fragment.fault?_append, Fragment.fault?_text_cons,
      Option.or_eq_none_iff] at h
    rw [held_of_operands rfl, hown rfl (by simp [kind])]
    simpa [fragment, operands, halike.text] using
      (iht h.1).append ((iha h.2.1).append (ihb h.2.2.1))
  | case8 operand target hpolicy =>
    subst hpolicy
    cases h
  | case9 operand target hpolicy =>
    subst hpolicy
    rw [held_eq, hown rfl (by simp [kind])]
    exact .nil
  | case10 name => cases h
  | case11 method left right hm ihl ihr =>
    simp only [fragment, hm, Fragment.fault?_append, Fragment.fault?_text_cons,
      Option.or_eq_none_iff] at h
    have hmember : isMembership (.call method (some left) [right]) = false := by
      simp [isMembership, hm]
    have hshown : hidesOperands policy (.call method (some left) [right]) = false := by
      simp [hidesOperands, vanishes, hm]
    rw [held_of_operands hshown, hown hmember (by simp [kind])]
    simpa [fragment, hm, operands, halike.text] using (ihl h.1).append (ihr h.2)
  | case13 method collection value hm ih | case14 method collection value hm ih =>
    simp only [fragment, hm] at h ⊢
    refine perm_held_membershipPieces halike (by simp [isMembership, hm]) rfl rfl ?_ ih h
    simp only [vanishes, hm]
    split <;> simp_all
  | case12 method receiver args hm | case15 method receiver args hm
  | case16 method receiver args hm =>
    simp only [fragment, hm] at h
    cases h

theorem perm_held_pieces (halike : HoldsAlike own piece) (policy : ConvertPolicy)
    (h : (p.pieces policy).fault? = none) :
    ((p.pieces policy).flatMap piece).Perm (p.held own policy) := by
  unfold pieces at h ⊢
  split at h
  · next htrue =>
    obtain ⟨declared, rfl⟩ := exists_of_isAlwaysTrue htrue
    rw [if_pos htrue, held_constant, halike.scalar, halike.base]
    exact .nil
  · next htrue =>
    rw [if_neg htrue]
    exact perm_held_fragment halike policy h

end

theorem nulls_eq (policy : ConvertPolicy) (p : Predicate) :
    p.nulls policy = p.ownNulls ++
      if p.hidesOperands policy then [] else p.operands.flatMap (nulls policy) :=
  held_eq ownNulls policy p

theorem holdsAlike_nulls : HoldsAlike ownNulls Piece.nulls where
  text _ := rfl
  base _ := rfl
  scalar _ _ := rfl
  items := by
    intro p items declared value hmember _ _
    cases p with
    | constant v declared => cases hmember
    | _ => simp [ownNulls, Piece.nulls, Value.nulls]
  none p hne _ := by
    cases p with
    | constant v declared => exact absurd rfl hne
    | _ => rfl

theorem perm_nulls_pieces (policy : ConvertPolicy) {p : Predicate}
    (h : (p.pieces policy).fault? = none) :
    ((p.pieces policy).flatMap Piece.nulls).Perm (p.nulls policy) :=
  perm_held_pieces holdsAlike_nulls policy h

theorem perm_nulls_snippets {policy : ConvertPolicy} {p : Predicate} (c : Channel)
    (h : (p.pieces policy).fault? = none) :
    ((p.snippets policy c).flatMap Snippet.nulls).Perm (p.nulls policy) := by
  rw [snippets, reached_of_fault?_eq_none h,
    flatMap_snippets _ _ _ fun q i => q.flatMap_nulls_snippets c.nameAt? i]
  exact perm_nulls_pieces policy h

/-- The new parameters have the values of the placeholders, also after a fault. -/
theorem map_value_compileInto (policy : ConvertPolicy) (p : Predicate) (c : Channel) :
    (p.compileInto policy c).2.params.map Parameter.value =
      c.params.map Parameter.value ++ (p.snippets policy c).flatMap Snippet.bound := by
  rw [snippets, flatMap_bound_snippets]
  cases c with
  | inline =>
    obtain ⟨hinline, -, -⟩ := compileInto_fills_pieces policy p {}
    rw [hinline]
    rfl
  | bound b =>
    obtain ⟨-, hbound, -⟩ := compileInto_fills_pieces policy p b
    rw [hbound]
    simp [Channel.params, Channel.nameAt?, Parameter.map_value_numbered]

/--
Every null of a tree is in one snippet of its SQL. All of them are written as an unquoted `NULL`,
and no new parameter is or holds one, exactly if none is an item of an `IN` list that is bound or of
a quoted type, or in a list that is bound as a whole.
-/
theorem compileInto_shows_nulls (policy : ConvertPolicy) (p : Predicate) (c : Channel) :
    let xs := p.snippets policy c
    (∀ sql, (p.compileInto policy c).1 = .ok sql →
      sql = join xs ∧ (xs.flatMap Snippet.nulls).Perm (p.nulls policy)) ∧
    (p.compileInto policy c).2.params.map Parameter.value =
      c.params.map Parameter.value ++ xs.flatMap Snippet.bound ∧
    (ShowNulls xs ↔ ∀ q ∈ (p.pieces policy).reached, q.concealed c.nameAt?.isSome = []) ∧
    (p.NoQuotes c → ∀ before v style after, xs = before ++ .scalar v style :: after →
      Text.endsQuoted (join before) = style.isPlain) := by
  intro xs
  have hshow : ShowNulls xs ↔ _ :=
    showNulls_snippets_iff c.nameAt? c.index (p.pieces policy).reached
  refine ⟨fun sql h => ?_, map_value_compileInto policy p c, hshow,
    fun h before v style after hxs => ?_⟩
  · obtain ⟨hfault, hsql⟩ := join_snippets h
    exact ⟨hsql, perm_nulls_snippets c hfault⟩
  · have hsits : Sits false xs := sits_snippets policy h
    rw [hxs] at hsits
    exact hsits.endsQuoted_eq

/-- A comparison with a decimal that is not finite, beside a quoted list without nulls. -/
theorem compileInto_shows_nulls_nan :
    let nan := Value.decimal (0 / 0)
    let p := Predicate.and (.eq (.member "A") (.lit nan))
      (.containsAny (.listOf .string [.string "a"]) (.member "B"))
    (p.compileInto .reject .inline).1 = .ok "(A = NULL AND B IN ('a'))" ∧ p.NoQuotes .inline ∧
      (∀ q ∈ (p.pieces .reject).reached, q.concealed false = []) ∧
      ShowNulls (p.snippets .reject .inline) ∧
      ((p.snippets .reject .inline).flatMap Snippet.nulls).Perm (p.nulls .reject) ∧
      p.nulls .reject = [nan] ∧
      Text.endsQuoted (join [.mark "(", .mark "A", .mark " = "]) = false := by
  intro nan p
  have hcompile : (p.compileInto .reject .inline).1 = .ok "(A = NULL AND B IN ('a'))" := by
    decide +kernel
  have hconceals : ∀ q ∈ (p.pieces .reject).reached, q.concealed false = [] := by
    decide +kernel
  have hquotes : p.NoQuotes .inline := by
    refine ⟨by decide +kernel, ?_⟩
    change p.QuoteFree
    decide +kernel
  have hsnippets : p.snippets .reject .inline =
      [.mark "(", .mark "A", .mark " = ", .scalar nan (.literal .decimal), .mark " AND ",
        .mark "B", .mark " IN (", .mark "'", .scalar (.string "a") .plain, .mark "'", .mark ")",
        .mark ")"] := by
    decide +kernel
  have hnulls : p.nulls .reject = [nan] := by
    have hnan : nan.nulls = [nan] := by decide +kernel
    simp [p, nulls_eq, hidesOperands, vanishes, operands, ownNulls, Predicate.and, Predicate.eq,
      containsAny, listOf, lit, Value.nulls, hnan, Value.isSqlNull]
  obtain ⟨hsql, -, hshow, hquoted⟩ := compileInto_shows_nulls .reject p .inline
  have hperm := (hsql _ hcompile).2
  have hshown := hshow.2 hconceals
  have hends := hquoted hquotes [.mark "(", .mark "A", .mark " = "] _ _ _ hsnippets
  exact ⟨hcompile, hquotes, hconceals, hshown, hperm, hnulls, hends⟩

/-- A null is quoted in a list of strings, and bound as an item of a bound list. -/
theorem compile_conceals_nulls :
    let nan := Value.decimal (0 / 0)
    nan.isSqlNull ∧
      CompileOptions.compile {} (.containsAny (.listOf .string [nan]) (.member "A")) =
        .ok ⟨"A IN ('NaN')", []⟩ ∧
      CompileOptions.compile { literals := .bound }
          (.containsAny (.lit (.list [nan])) (.member "A")) =
        .ok ⟨"A IN (@p0)", [⟨"@p0", nan, .decimal⟩]⟩ := by
  decide +kernel

end Predicate

end SqlFilter
