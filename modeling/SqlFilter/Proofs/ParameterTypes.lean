import SqlFilter.Proofs.NullRendering

/-!
The types of bound literals. Where no constant declares a type of its own, a scalar comes with the
type that fits it. The items of a list all come with the type that fits the first of them, unless
that is null or a list, so in a list of several kinds some items have a type that does not fit.
-/
namespace SqlFilter

namespace SqlType

/--
The type that an item of a list comes with. It fits the first item if that is a scalar, and else the
item itself.
-/
def itemType (items : List Value) (v : Value) : SqlType :=
  match items with
  | [] | .null :: _ | .list _ :: _ => inferred v
  | first :: _ => inferred first

example : itemType [.int 1, .string "x"] (.string "x") = .bigInt := by decide
example : itemType [.null, .string "x", .int 1] (.int 1) = .bigInt := by decide

theorem ofValue_elementType (items : List Value) (v : Value) :
    ofValue v (elementType items .unknown) = itemType items v := by
  match items with
  | [] | .null :: _ | .list [] :: _ | .list (_ :: _) :: _ => exact (inferred_eq_ofKind v).symm
  | .bool _ :: _ | .int _ :: _ | .decimal _ :: _ | .string _ :: _ | .dateTime _ :: _ => rfl

end SqlType

/-- A list type that is declared for a list of this type says nothing new about its items. -/
theorem elementType_getD {items : List Value} {declared : Option ValueType}
    (h : declared.getD (Value.list items).type = (Value.list items).type) :
    elementType items (declared.getD .unknown) = elementType items .unknown := by
  cases declared with
  | none => rfl
  | some type =>
    obtain rfl : type = (Value.list items).type := h
    match items with
    | [] | .null :: _ | .list [] :: _ | .list (_ :: _) :: _ => rfl
    | .bool _ :: _ | .int _ :: _ | .decimal _ :: _ | .string _ :: _ | .dateTime _ :: _ => rfl

theorem Parameter.map_type_numbered (nameAt : Nat → String) (i : Nat)
    (ls : List (Value × ValueType)) :
    (numbered nameAt i ls).map (fun r => (r.value, r.type)) =
      ls.map fun l => (l.1, SqlType.ofValue l.1 l.2) := by
  induction ls generalizing i with
  | nil => rfl
  | cons l ls ih => simp [numbered, ih]

namespace Piece

/-- What a binder takes of a piece, with the types that it comes with if none is declared. -/
def typed : Piece → List (Value × SqlType)
  | .scalar v _ => if v.staysInline then [] else [(v, SqlType.inferred v)]
  | .items vs _ => vs.map fun v => (v, SqlType.itemType vs v)
  | .text _ | .fault _ => []

def collections : Piece → List (List Value)
  | .items vs _ => [vs]
  | .text _ | .scalar .. | .fault _ => []

/-- A hole of the type that its contents show. -/
def IsPlain : Piece → Prop
  | .scalar v type => type = v.type
  | .items vs element => element = elementType vs .unknown
  | .text _ | .fault _ => True

theorem map_literals_of_isPlain {q : Piece} (h : q.IsPlain) :
    q.literals.map (fun l => (l.1, SqlType.ofValue l.1 l.2)) = q.typed := by
  cases q with
  | text | fault => rfl
  | scalar v type =>
    obtain rfl : type = v.type := h
    by_cases hv : v.staysInline <;> simp [literals, typed, hv, SqlType.inferred]
  | items vs element =>
    obtain rfl : element = elementType vs .unknown := h
    simp [literals, typed, SqlType.ofValue_elementType, Function.comp_def]

/-- Only items of lists may have a type that does not fit. -/
theorem forall_mem_typed_iff (q : Piece) :
    (∀ x ∈ q.typed, x.2 = SqlType.inferred x.1) ↔
      ∀ vs ∈ q.collections, ∀ v ∈ vs, SqlType.itemType vs v = SqlType.inferred v := by
  cases q with
  | text | fault => simp [typed, collections]
  | scalar v type => by_cases hv : v.staysInline <;> simp [typed, collections, hv]
  | items vs element => simp [typed, collections]

theorem joins_isPlain : Fragment.Joins fun f => ∀ q ∈ f, q.IsPlain where
  nil := by simp
  fault cause := by simp [IsPlain]
  text _ hf := List.forall_mem_cons.2 ⟨trivial, hf⟩
  join _ hf hg := List.forall_mem_append.2 ⟨hf, List.forall_mem_cons.2 ⟨trivial, hg⟩⟩

end Piece

namespace Predicate

/-- No constant has a declared type other than the one that it shows. -/
def TypedByValues (p : Predicate) : Prop :=
  ∀ v declared, .constant v declared ∈ p.nodes → declared.getD v.type = v.type

theorem isPlain_pieces {p : Predicate} (hp : p.TypedByValues) (policy : ConvertPolicy) :
    ∀ q ∈ p.pieces policy, q.IsPlain :=
  joins_pieces Piece.joins_isPlain policy
    { member := fun path _ => by simp [Piece.IsPlain]
      scalar := fun v declared h => by simpa [Piece.IsPlain] using hp v declared h
      items := fun vs declared h => by
        simpa [Piece.IsPlain] using elementType_getD (hp _ declared h) }

def ownCollections : Predicate → List (List Value)
  | .call method receiver args =>
    match Method.ofName? method, receiver, args with
    | some .containsAny, none, [.constant (.list items) _, _]
    | some .containsAny, some (.constant (.list items) _), [_] =>
      if items = [] then [] else [items]
    | _, _, _ => []
  | _ => []

def collections (policy : ConvertPolicy) (p : Predicate) : List (List Value) :=
  p.held ownCollections policy

theorem holdsAlike_collections : HoldsAlike ownCollections Piece.collections where
  text _ := rfl
  base _ := rfl
  scalar _ _ := rfl
  items := by
    intro p items declared value hmember hoperands hne
    cases p with
    | call method receiver args =>
      have hm : Method.ofName? method = some .containsAny := by simpa [isMembership] using hmember
      cases receiver with
      | none =>
        obtain rfl : args = _ := hoperands
        simp [ownCollections, hm, hne, Piece.collections]
      | some receiver =>
        obtain ⟨rfl, rfl⟩ := List.cons.inj hoperands
        simp [ownCollections, hm, hne, Piece.collections]
    | _ => cases hmember
  none := by
    intro p hne hvanishes
    cases p with
    | call method receiver args =>
      simp only [ownCollections]
      split
      -- A collection that is looked at and left out is empty.
      iterate 2
        next hm =>
          have hv := hvanishes (by simp [isMembership, hm])
          simp only [vanishes, hm] at hv
          split at hv <;> simp_all
      · rfl
    | _ => rfl

/--
A compilation into a binder adds every scalar with the type that fits it, and every item of a list
with that of the first one. So all types fit exactly if they do in each list that is compiled.
-/
theorem compileInto_types_literals {p : Predicate} (hp : p.TypedByValues) {policy : ConvertPolicy}
    {b : Binder} {sql : String} (h : (p.compileInto policy (.bound b)).1 = .ok sql) :
    let f := p.pieces policy
    sql = Fragment.boundText b.nameAt b.index f ∧
    (f.flatMap Piece.collections).Perm (p.collections policy) ∧
    ∃ rs, (p.compileInto policy (.bound b)).2 =
        .bound { b with index := b.index + rs.length, params := b.params ++ rs } ∧
      rs.map (fun r => (r.value, r.type)) = f.flatMap Piece.typed ∧
      ((∀ r ∈ rs, r.type = SqlType.inferred r.value) ↔
        ∀ vs ∈ p.collections policy, ∀ v ∈ vs, SqlType.itemType vs v = SqlType.inferred v) := by
  intro f
  obtain ⟨-, hbound, -⟩ := p.compileInto_fills_pieces policy b
  rw [hbound] at h ⊢
  have hfault : f.fault? = none := by
    by_contra hne
    obtain ⟨cause, hcause⟩ := Option.ne_none_iff_exists'.1 hne
    simp [Fragment.outcome, f, hcause] at h
  have hsql : sql = Fragment.boundText b.nameAt b.index f := by
    simpa [Fragment.outcome, f, hfault, eq_comm] using h
  have hcollections : (f.flatMap Piece.collections).Perm (p.collections policy) :=
    perm_held_pieces holdsAlike_collections policy hfault
  have htyped : (Parameter.numbered b.nameAt b.index f.literals).map
      (fun r => (r.value, r.type)) = f.flatMap Piece.typed := by
    rw [Parameter.map_type_numbered, Fragment.literals, List.map_flatMap]
    exact List.flatMap_congr fun q hq =>
      Piece.map_literals_of_isPlain (isPlain_pieces hp policy q hq)
  rw [Fragment.reached_of_fault?_eq_none hfault]
  refine ⟨hsql, hcollections, _, by rw [Parameter.length_numbered], htyped, ?_⟩
  calc (∀ r ∈ Parameter.numbered b.nameAt b.index f.literals,
        r.type = SqlType.inferred r.value)
      ↔ ∀ x ∈ f.flatMap Piece.typed, x.2 = SqlType.inferred x.1 := by
        rw [← htyped, List.forall_mem_map]
    _ ↔ ∀ vs ∈ f.flatMap Piece.collections, ∀ v ∈ vs,
          SqlType.itemType vs v = SqlType.inferred v := by
        simp only [List.forall_mem_flatMap, Piece.forall_mem_typed_iff]
    _ ↔ ∀ vs ∈ p.collections policy, ∀ v ∈ vs,
          SqlType.itemType vs v = SqlType.inferred v := by
        simp only [hcollections.mem_iff]

/-- A list that begins with null, beside one of a number and a text, under a binder in use. -/
theorem compileInto_types_mixed :
    let p := Predicate.and .always (.and
      (.containsAny (.lit (.list [.null, .int 1])) (.member "A"))
      (.containsAny (.lit (.list [.int 2, .string "x"])) (.member "B")))
    let b : Binder := ⟨"p", 1, [⟨"@p0", .string "Ann", .nVarChar⟩]⟩
    let sql := "((A IN (@p1, @p2) AND B IN (@p3, @p4)))"
    p.TypedByValues ∧ (p.compileInto .reject (.bound b)).1 = .ok sql ∧
      ([[.null, .int 1], [.int 2, .string "x"]] : List (List Value)).Perm (p.collections .reject) ∧
      ∃ rs, (p.compileInto .reject (.bound b)).2 =
          .bound { b with index := b.index + rs.length, params := b.params ++ rs } ∧
        rs.map (fun r => (r.value, r.type)) =
          [(.null, .nVarChar), (.int 1, .bigInt), (.int 2, .bigInt), (.string "x", .bigInt)] ∧
        ¬ ∀ r ∈ rs, r.type = SqlType.inferred r.value := by
  intro p b sql
  have hp : p.TypedByValues := by
    have hnodes (v : Value) (declared : Option ValueType) : .constant v declared ∈ p.nodes ↔
        (v = .bool true ∧ declared = some .boolean) ∨
        (v = .list [.null, .int 1] ∧ declared = none) ∨
        (v = .list [.int 2, .string "x"] ∧ declared = none) := by
      simp [p, Predicate.and, always, containsAny, lit, nodes_eq, operands]
    intro v declared h
    rcases (hnodes v declared).1 h with ⟨rfl, rfl⟩ | ⟨rfl, rfl⟩ | ⟨rfl, rfl⟩ <;> rfl
  have hcompile : (p.compileInto .reject (.bound b)).1 = .ok sql := by decide
  obtain ⟨-, hcollections, rs, hrs, htyped, hfit⟩ := compileInto_types_literals hp hcompile
  refine ⟨hp, hcompile, hcollections, rs, hrs, htyped, fun hall => ?_⟩
  have hmem : [.int 2, .string "x"] ∈ p.collections .reject :=
    hcollections.mem_iff.1 (List.mem_cons_of_mem _ List.mem_cons_self)
  cases hfit.1 hall _ hmem (.string "x") (List.mem_cons_of_mem _ List.mem_cons_self)

/-- A text in a list that begins with a number comes as a number. -/
theorem compile_misfits_item :
    let p := Predicate.containsAny (.lit (.list [.int 1, .string "x"])) (.member "A")
    (∀ v declared, .constant v declared ∈ p.nodes → declared = none) ∧
      CompileOptions.compile { literals := .bound } p =
        .ok ⟨"A IN (@p0, @p1)", [⟨"@p0", .int 1, .bigInt⟩, ⟨"@p1", .string "x", .bigInt⟩]⟩ ∧
      SqlType.inferred (.string "x") = .nVarChar := by
  refine ⟨?_, by decide, rfl⟩
  simp [containsAny, lit, nodes_eq, operands]

end Predicate

end SqlFilter
