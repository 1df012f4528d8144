import SqlFilter.Proofs.Lists
import SqlFilter.Proofs.Nodes
import SqlFilter.Proofs.OperandSlots

/-!
The nodes of a condition and what becomes of those without an SQL form. A compilation fails with the
first of them in the order of the tree; only below a membership test in an empty collection it sees
none.
-/
namespace SqlFilter

namespace Predicate

/-- The nodes of a tree that are not below a membership test in an empty collection. -/
def shown (p : Predicate) : List Predicate := p.nodesUnless vanishes

theorem shown_eq (p : Predicate) :
    p.shown = p :: if p.vanishes then [] else p.operands.flatMap shown :=
  nodesUnless_eq vanishes p

theorem shown_sublist_nodes (p : Predicate) : p.shown.Sublist p.nodes :=
  nodesUnless_sublist_nodes vanishes p

theorem operands_ne_nil_of_vanishes {p : Predicate} (h : p.vanishes) : p.operands ≠ [] := by
  unfold vanishes at h
  split at h
  · split at h <;> simp_all [operands]
  · cases h

theorem eq_of_flatMap_eq {α β : Type} {l : List α} {f g : α → List β}
    (h : ∀ a ∈ l, (f a).Sublist (g a)) (heq : l.flatMap f = l.flatMap g) : ∀ a ∈ l, f a = g a := by
  induction l with
  | nil => exact fun a ha => absurd ha List.not_mem_nil
  | cons a l ih =>
    obtain ⟨ha, hl⟩ := List.forall_mem_cons.1 h
    have hlength := congrArg List.length heq
    have hhead := ha.length_le
    have htail := (List.Sublist.flatMap_right l hl).length_le
    simp only [List.flatMap_cons, List.length_append] at heq hlength
    obtain ⟨heqa, heql⟩ := List.append_inj heq (by omega)
    exact List.forall_mem_cons.2 ⟨heqa, ih hl heql⟩

/-- Nothing is hidden exactly if there is no membership test in an empty collection. -/
theorem shown_eq_nodes_iff (p : Predicate) :
    p.shown = p.nodes ↔ ∀ q ∈ p.nodes, q.vanishes = false := by
  induction p using induction_operands with
  | h p ih =>
    constructor
    · intro h
      rw [shown_eq, nodes_eq] at h
      have hbelow := (List.cons.inj h).2
      have hp : p.vanishes = false := by
        by_contra hv
        rw [Bool.not_eq_false] at hv
        obtain ⟨q, hq⟩ := List.exists_mem_of_ne_nil _ (operands_ne_nil_of_vanishes hv)
        rw [if_pos hv] at hbelow
        exact List.ne_nil_of_mem (List.mem_flatMap.2 ⟨q, hq, mem_nodes_self q⟩) hbelow.symm
      rw [hp] at hbelow
      have hoperands := eq_of_flatMap_eq (fun q _ => shown_sublist_nodes q) hbelow
      intro r hr
      rw [nodes_eq] at hr
      rcases List.mem_cons.1 hr with rfl | hr
      · exact hp
      · obtain ⟨q, hq, hr⟩ := List.mem_flatMap.1 hr
        exact (ih q hq).1 (hoperands q hq) r hr
    · intro h
      have hp : p.vanishes = false := h p (mem_nodes_self p)
      have hoperands : p.operands.flatMap shown = p.operands.flatMap nodes :=
        List.flatMap_congr fun q hq =>
          (ih q hq).2 fun r hr => h r (mem_nodes_of_mem_operands hq hr)
      rw [shown_eq, nodes_eq, hp, hoperands]
      rfl

/-- A node that has an SQL form as far as it depends on the node itself. -/
inductive Supported : Predicate → Prop
  | comparison (op : ComparisonOp) (left right : Predicate) : Supported (.comparison op left right)
  | logical (op : LogicalOp) (left right : Predicate) : Supported (.logical op left right)
  | not (operand : Predicate) : Supported (.not operand)
  | member (path : String) : Supported (.member path)
  | constant (v : Value) (declared : Option ValueType) : Supported (.constant v declared)
  | conditional (test ifTrue ifFalse : Predicate) : Supported (.conditional test ifTrue ifFalse)
  | equals {method : String} (hm : Method.ofName? method = some .equals)
      (receiver arg : Predicate) : Supported (.call method (some receiver) [arg])
  | memberOf {method : String} (hm : Method.ofName? method = some .containsAny)
      (items : List Value) (declared : Option ValueType) (value : Predicate) :
      Supported (.call method none [.constant (.list items) declared, value])
  | memberOfReceiver {method : String} (hm : Method.ofName? method = some .containsAny)
      (items : List Value) (declared : Option ValueType) (value : Predicate) :
      Supported (.call method (some (.constant (.list items) declared)) [value])

def collectionFault? : Predicate → Option Unsupported
  | .constant (.list _) _ => none
  | other => some (.collection other.kind)

/-- Why a node has no SQL form, as far as it depends on the node itself. -/
def ownFault? : Predicate → Option Unsupported
  | .convert _ target => some (.cast target)
  | .parameter name => some (.record name)
  | .call method receiver args =>
    match Method.ofName? method, receiver, args with
    | some .equals, some _, [_] => none
    | some .equals, _, _ => some .equalsOperands
    | some .containsAny, none, [collection, _] => collection.collectionFault?
    | some .containsAny, some collection, [_] => collection.collectionFault?
    | some .containsAny, _, _ => some .membershipOperands
    | none, _, _ => some (.method method)
  | .comparison .. | .logical .. | .not _ | .member _ | .constant .. | .conditional .. => none

theorem collectionFault?_eq_none_iff {p : Predicate} :
    p.collectionFault? = none ↔ ∃ items declared, p = .constant (.list items) declared := by
  fun_cases collectionFault? p with
  | case1 items declared => simp
  | case2 other h => simp_all

theorem supported_iff (p : Predicate) : p.Supported ↔ p.ownFault? = none := by
  constructor
  · intro h
    cases h <;> simp_all [ownFault?, collectionFault?]
  · intro h
    unfold ownFault? at h
    split at h
    · cases h
    · cases h
    · split at h
      · next hm => exact .equals hm _ _
      · cases h
      · next hm =>
        obtain ⟨items, declared, rfl⟩ := collectionFault?_eq_none_iff.1 h
        exact .memberOf hm _ _ _
      · next hm =>
        obtain ⟨items, declared, rfl⟩ := collectionFault?_eq_none_iff.1 h
        exact .memberOfReceiver hm _ _ _
      · cases h
      · cases h
    all_goals constructor

def firstFault? (p : Predicate) : Option Unsupported := p.shown.findSome? ownFault?

theorem firstFault?_eq (p : Predicate) :
    p.firstFault? =
      p.ownFault?.or (if p.vanishes then none else p.operands.findSome? firstFault?) := by
  rw [firstFault?, shown_eq, findSome?_cons_eq_or]
  split
  · rfl
  · rw [findSome?_flatMap]
    rfl

theorem firstFault?_of_fault {p : Predicate} {cause : Unsupported} (h : p.ownFault? = some cause) :
    p.firstFault? = some cause := by
  rw [firstFault?_eq, h]
  rfl

theorem firstFault?_of_vanishes {p : Predicate} (h : p.ownFault? = none) (hv : p.vanishes) :
    p.firstFault? = none := by
  rw [firstFault?_eq, h, if_pos hv]
  rfl

/-- Where a node has no fault itself, the first one is that of the first node below it with one. -/
theorem firstFault?_of_operands {p : Predicate} (h : p.ownFault? = none) (hv : p.vanishes = false) :
    p.firstFault? = p.operands.findSome? firstFault? := by
  rw [firstFault?_eq, h, hv]
  rfl

theorem firstFault?_constant (v : Value) (declared : Option ValueType) :
    firstFault? (.constant v declared) = none := firstFault?_of_operands rfl rfl

end Predicate

namespace Fragment

@[simp] theorem fault?_nil : fault? [] = none := rfl

@[simp] theorem fault?_text_cons (s : String) (f : Fragment) : fault? (.text s :: f) = f.fault? :=
  fault?_cons rfl f

@[simp] theorem fault?_items_cons (vs : List Value) (element : ValueType) (f : Fragment) :
    fault? (.items vs element :: f) = f.fault? :=
  fault?_cons rfl f

end Fragment

namespace Predicate

/-- A membership test has the fault of its collection or, with items to look for, of its value. -/
theorem fault?_membershipPieces {p collection value : Predicate} {f : Fragment}
    (hfault : p.ownFault? = collection.collectionFault?)
    (hoperands : p.operands = [collection, value])
    (hv : p.vanishes ↔ ∃ declared, collection = .constant (.list []) declared)
    (hf : f.fault? = value.firstFault?) :
    (membershipPieces collection f).fault? = p.firstFault? := by
  fun_cases membershipPieces collection f with
  | case1 declared =>
    exact (firstFault?_of_vanishes hfault (hv.2 ⟨declared, rfl⟩)).symm
  | case2 items declared hne =>
    have hshown : p.vanishes = false := by
      rw [← Bool.not_eq_true, hv]
      rintro ⟨d, h⟩
      cases h
      exact hne rfl
    rw [firstFault?_of_operands hfault hshown, hoperands]
    simp [Fragment.fault?_append, hf, findSome?_cons_eq_or, firstFault?_constant]
  | case3 _ _ hlist =>
    have hcollection : collection.collectionFault? = some (.collection collection.kind) := by
      rw [collectionFault?]
      exact hlist
    rw [firstFault?_of_fault (hfault.trans hcollection)]
    rfl

theorem fault?_fragment (p : Predicate) : (p.fragment .reject).fault? = p.firstFault? := by
  induction p using Predicate.fragment.induct .reject with
  | case1 op left right ihl ihr =>
    rw [firstFault?_of_operands rfl rfl]
    simp [fragment, Fragment.fault?_append, ihl, ihr, operands, findSome?_cons_eq_or]
  | case2 op left right hbase ih =>
    -- The constant that leaves no text has no fault either.
    obtain ⟨declared, rfl⟩ := exists_of_isAlwaysTrue hbase.2
    rw [firstFault?_of_operands rfl rfl]
    simp [fragment, hbase, Fragment.fault?_append, ih, operands, findSome?_cons_eq_or,
      firstFault?_constant]
  | case3 op left right hbase ihl ihr =>
    rw [firstFault?_of_operands rfl rfl]
    simp [fragment, hbase, Fragment.fault?_append, ihl, ihr, operands, findSome?_cons_eq_or]
  | case4 operand ih =>
    rw [firstFault?_of_operands rfl rfl]
    simp [fragment, Fragment.fault?_append, ih, operands, findSome?_cons_eq_or]
  | case5 path => exact (firstFault?_of_operands (p := .member path) rfl rfl).symm
  | case6 v declared => exact (firstFault?_constant v declared).symm
  | case7 test ifTrue ifFalse iht iha ihb =>
    rw [firstFault?_of_operands rfl rfl]
    simp [fragment, Fragment.fault?_append, iht, iha, ihb, operands, findSome?_cons_eq_or]
  | case8 operand target h => exact (firstFault?_of_fault rfl).symm
  | case9 operand target h => cases h
  | case10 name => exact (firstFault?_of_fault rfl).symm
  | case11 method left right hm ihl ihr =>
    rw [firstFault?_of_operands (by simp [ownFault?, hm]) (by simp [vanishes, hm])]
    simp [fragment, hm, Fragment.fault?_append, ihl, ihr, operands, findSome?_cons_eq_or]
  | case13 method collection value hm ih | case14 method collection value hm ih =>
    simp only [fragment, hm]
    refine fault?_membershipPieces ?_ rfl ?_ ih
    · simp only [ownFault?, hm]
    · simp only [vanishes, hm]
      split <;> simp_all
  | case12 method receiver args hm | case15 method receiver args hm
  | case16 method receiver args hm =>
    simp only [fragment, hm]
    refine (firstFault?_of_fault ?_).symm
    simp only [ownFault?, hm]

theorem toSql_eq (p : Predicate) :
    p.toSql =
      match p.firstFault? with
      | some cause => .error (.unsupported cause)
      | none => .ok (CompileOptions.write {} 0 (p.pieces .reject)) := by
  have hpieces : (p.pieces .reject).fault? = p.firstFault? := by
    unfold pieces
    split
    · next htrue =>
      obtain ⟨declared, rfl⟩ := exists_of_isAlwaysTrue htrue
      exact (firstFault?_constant _ _).symm
    · exact fault?_fragment p
  rw [toSql, CompileOptions.compile_eq, hpieces]
  cases p.firstFault? <;> rfl

/--
A condition has SQL exactly if all its nodes have a form in SQL but those below a membership test in
an empty collection, which are not seen. It fails with the fault of the first other node.
-/
theorem toSql_succeeds_iff (p : Predicate) :
    ((∃ sql, p.toSql = .ok sql) ↔ ∀ q ∈ p.shown, q.Supported) ∧
    (∀ e, p.toSql = .error e ↔ ∃ cause, p.shown.findSome? ownFault? = some cause ∧
      e = .unsupported cause) ∧
    p.shown.Sublist p.nodes ∧
    (p.shown = p.nodes ↔ ∀ q ∈ p.nodes, q.vanishes = false) := by
  refine ⟨?_, fun e => ?_, shown_sublist_nodes p, shown_eq_nodes_iff p⟩
  · have hsupported : (∀ q ∈ p.shown, q.Supported) ↔ p.firstFault? = none := by
      rw [firstFault?, List.findSome?_eq_none_iff]
      exact forall₂_congr fun q _ => supported_iff q
    rw [hsupported, toSql_eq]
    cases p.firstFault? <;> simp
  · rw [toSql_eq, firstFault?]
    cases p.shown.findSome? ownFault? <;> simp [eq_comm]

/-- A node without an SQL form is not seen below a membership test in an empty collection. -/
theorem toSql_hides_record :
    let record := Predicate.parameter "x"
    let p := Predicate.containsAny (.lit (.list [])) record
    p.toSql = .ok "" ∧ record ∈ p.nodes ∧ ¬ record.Supported := by
  intro record p
  have hchild : record ∈ p.operands := by simp [p, containsAny, operands]
  refine ⟨by decide, mem_nodes_of_mem_operands hchild (mem_nodes_self record), ?_⟩
  rw [supported_iff]
  simp [record, ownFault?]

end Predicate

end SqlFilter
