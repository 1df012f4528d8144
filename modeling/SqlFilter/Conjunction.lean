import SqlFilter.Predicate

/-! Independent criteria, folded into one conjunction that starts from the constant true. -/
namespace SqlFilter

/-- The conjunction of criteria, in order. Of none it is the constant true alone. -/
def combine (ps : List Predicate) : Predicate := ps.foldl Predicate.and .always

@[simp] theorem combine_nil : combine [] = .always := rfl

@[simp] theorem combine_concat (ps : List Predicate) (p : Predicate) :
    combine (ps ++ [p]) = (combine ps).and p := by simp [combine]

structure Conjunction where
  predicate : Predicate := .always
  size : Nat := 0
  deriving Repr

namespace Conjunction

def add (c : Conjunction) (p : Predicate) : Conjunction := ⟨c.predicate.and p, c.size + 1⟩

def addIf (c : Conjunction) (wanted : Bool) (p : Predicate) : Conjunction :=
  if wanted then c.add p else c

def ofList (ps : List Predicate) : Conjunction := ps.foldl add {}

def isEmpty (c : Conjunction) : Bool := c.size == 0

def build? (c : Conjunction) : Option Predicate := if c.isEmpty then none else some c.predicate

theorem ofList_concat (ps : List Predicate) (p : Predicate) :
    ofList (ps ++ [p]) = (ofList ps).add p := by simp [ofList]

end Conjunction

end SqlFilter
