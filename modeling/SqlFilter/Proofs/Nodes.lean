import SqlFilter.Predicate
import Mathlib.Tactic

/-!
The nodes of a condition. What a node has right below it are its operands, and a tree is walked from
its root through the operands of each node.
-/
namespace SqlFilter.Predicate

/-- The operands of a node in order; a call has its receiver first. -/
def operands : Predicate → List Predicate
  | .comparison _ l r | .logical _ l r => [l, r]
  | .not p | .convert p _ => [p]
  | .conditional t a b => [t, a, b]
  | .call _ receiver args => receiver.toList ++ args
  | .member _ | .constant .. | .parameter _ => []

theorem nodeCounts_eq_sum (ps : List Predicate) : nodeCounts ps = (ps.map nodeCount).sum := by
  rw [nodeCounts_eq_foldr, List.sum_eq_foldr, List.foldr_map]

theorem nodeCount_eq_operands (p : Predicate) :
    p.nodeCount = 1 + (p.operands.map nodeCount).sum := by
  cases p with
  | call method receiver args =>
    cases receiver <;> simp [nodeCount, operands, nodeCounts_eq_sum, Nat.add_assoc]
  | _ => simp [nodeCount, operands, Nat.add_assoc]

theorem nodeCount_lt_of_mem_operands {p q : Predicate} (h : q ∈ p.operands) :
    q.nodeCount < p.nodeCount := by
  have hle : q.nodeCount ≤ (p.operands.map nodeCount).sum :=
    List.le_sum_of_mem (List.mem_map_of_mem h)
  rw [nodeCount_eq_operands p]
  omega

/-- What holds of a node if it holds of its operands holds of every node. -/
theorem induction_operands {P : Predicate → Prop} (h : ∀ p, (∀ q ∈ p.operands, P q) → P p)
    (p : Predicate) : P p := by
  induction hn : p.nodeCount using Nat.strongRecOn generalizing p with
  | ind n ih => exact h p fun q hq => ih _ (hn ▸ nodeCount_lt_of_mem_operands hq) q rfl

/-- The nodes of a tree, each before those below it, without those below a node that hides them. -/
def nodesUnless (hides : Predicate → Bool) (p : Predicate) : List Predicate :=
  p :: if hides p then [] else (p.operands.attach.map fun q => q.1.nodesUnless hides).flatten
  termination_by p.nodeCount
  decreasing_by exact nodeCount_lt_of_mem_operands q.2

def nodes (p : Predicate) : List Predicate := p.nodesUnless fun _ => false

theorem nodesUnless_eq (hides : Predicate → Bool) (p : Predicate) :
    p.nodesUnless hides =
      p :: if hides p then [] else p.operands.flatMap (nodesUnless hides) := by
  rw [nodesUnless, List.attach_map_val, List.flatMap_def]

theorem nodes_eq (p : Predicate) : p.nodes = p :: p.operands.flatMap nodes :=
  nodesUnless_eq _ p

theorem nodesUnless_sublist_nodes (hides : Predicate → Bool) (p : Predicate) :
    (p.nodesUnless hides).Sublist p.nodes := by
  induction p using induction_operands with
  | h p ih =>
    rw [nodesUnless_eq, nodes_eq]
    refine List.Sublist.cons_cons p ?_
    split
    · exact List.nil_sublist _
    · exact .flatMap_right _ ih

theorem mem_nodes_self (p : Predicate) : p ∈ p.nodes := by
  rw [nodes_eq]
  exact List.mem_cons_self

theorem mem_nodes_of_mem_operands {p q r : Predicate} (hq : q ∈ p.operands) (hr : r ∈ q.nodes) :
    r ∈ p.nodes := by
  rw [nodes_eq]
  exact List.mem_cons_of_mem _ (List.mem_flatMap.2 ⟨q, hq, hr⟩)

end SqlFilter.Predicate
