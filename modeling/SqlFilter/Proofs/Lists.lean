import SqlFilter.Error
import Mathlib.Data.List.SplitBy
import Mathlib.Tactic

/-!
Lists that are cut into parts, that are searched for a first result, and that an operation runs
through which can fail: the run fails as the first of its elements does.
-/
namespace SqlFilter

section
variable {α : Type}

theorem modifyHead_append_of_ne_nil {l : List α} (h : l ≠ []) (f : α → α) (k : List α) :
    (l ++ k).modifyHead f = l.modifyHead f ++ k := by
  obtain ⟨a, l, rfl⟩ := List.exists_cons_of_ne_nil h
  rfl

/-- An element that is related to the next one stands in the same part. -/
theorem splitBy_cons_of_rel {r : α → α → Bool} {a b : α} (h : r a b) (l : List α) :
    (a :: b :: l).splitBy r = ((b :: l).splitBy r).modifyHead (a :: ·) := by
  obtain ⟨g, gs, hg⟩ := List.exists_cons_of_ne_nil
    (List.splitBy_ne_nil (r := r).2 (List.cons_ne_nil b l))
  obtain ⟨hflat, hne, hchain, hcut⟩ := List.splitBy_eq_iff.1 hg
  cases g with
  | nil => exact absurd List.mem_cons_self hne
  | cons c g =>
    obtain ⟨rfl, rfl⟩ := List.cons.inj hflat
    rw [hg, List.modifyHead_cons, List.splitBy_eq_iff]
    refine ⟨rfl, by simpa using hne, List.forall_mem_cons.2 ⟨?_, fun m hm => ?_⟩, ?_⟩
    · exact (hchain _ List.mem_cons_self).cons_cons h
    · exact hchain m (List.mem_cons_of_mem _ hm)
    · simpa [List.isChain_cons] using hcut

theorem not_mem_intercalate {x y : α} (h : x ≠ y) {ls : List (List α)} (hls : ∀ l ∈ ls, x ∉ l) :
    x ∉ [y].intercalate ls := by
  induction ls with
  | nil => simp
  | cons l ls ih =>
    obtain ⟨hl, hls⟩ := List.forall_mem_cons.1 hls
    cases ls with
    | nil => simpa using hl
    | cons k ks =>
      rw [List.intercalate_cons_cons, List.append_assoc, List.mem_append, List.mem_append,
        List.mem_singleton]
      exact not_or.2 ⟨hl, not_or.2 ⟨h, ih hls⟩⟩

theorem forall_mem_splitOn [DecidableEq α] {x : α} {P : α → Prop} (l : List α) :
    (∀ ys ∈ l.splitOn x, ∀ y ∈ ys, P y) ↔ ∀ y ∈ l, y = x ∨ P y := by
  induction l with
  | nil => simp
  | cons z l ih =>
    obtain ⟨ys, yss, hsplit⟩ := List.exists_cons_of_ne_nil (List.splitOn_ne_nil x l)
    rw [List.splitOn_cons_eq_if_modifyHead, List.forall_mem_cons, ← ih]
    by_cases hz : z = x
    · simp [hz]
    · simp [hz, hsplit, and_assoc]

end

section
variable {α β γ : Type}

theorem findSome?_cons_eq_or (f : α → Option β) (a : α) (l : List α) :
    (a :: l).findSome? f = (f a).or (l.findSome? f) := by
  cases h : f a <;> simp [h]

theorem findSome?_flatMap (f : α → List β) (g : β → Option γ) (l : List α) :
    (l.flatMap f).findSome? g = l.findSome? fun a => (f a).findSome? g := by
  induction l with
  | nil => rfl
  | cons a l ih => rw [List.flatMap_cons, List.findSome?_append, ih, findSome?_cons_eq_or]

theorem findSome?_congr {f g : α → Option β} {xs : List α} (h : ∀ x ∈ xs, f x = g x) :
    xs.findSome? f = xs.findSome? g := by
  induction xs with
  | nil => rfl
  | cons x xs ih =>
    obtain ⟨hx, hxs⟩ := List.forall_mem_cons.1 h
    rw [List.findSome?_cons, List.findSome?_cons, hx, ih hxs]

theorem forall₂_congr_of_mem {R S : α → β → Prop} {xs : List α} {ys : List β}
    (h : ∀ x ∈ xs, ∀ y, R x y ↔ S x y) : List.Forall₂ R xs ys ↔ List.Forall₂ S xs ys := by
  induction xs generalizing ys with
  | nil => simp
  | cons x xs ih =>
    obtain ⟨hx, hxs⟩ := List.forall_mem_cons.1 h
    simp only [List.forall₂_cons_left_iff, hx, ih hxs]

theorem exists_forall₂_iff {R : α → β → Prop} {xs : List α} :
    (∃ ys, List.Forall₂ R xs ys) ↔ ∀ x ∈ xs, ∃ y, R x y := by
  induction xs with
  | nil => simp
  | cons x xs ih =>
    rw [List.forall_mem_cons, ← ih]
    constructor
    · rintro ⟨_, _ | ⟨hy, hys⟩⟩
      exact ⟨⟨_, hy⟩, _, hys⟩
    · rintro ⟨⟨y, hy⟩, ys, hys⟩
      exact ⟨y :: ys, .cons hy hys⟩

end

section
variable {ε α β : Type}

def faultOf : Except ε α → Option ε
  | .error e => some e
  | .ok _ => none

theorem faultOf_eq_some_iff {x : Except ε α} {e : ε} : faultOf x = some e ↔ x = .error e := by
  cases x <;> simp [faultOf]

theorem faultOf_map (f : α → β) (x : Except ε α) : faultOf (x.map f) = faultOf x := by
  cases x <;> rfl

/-- Where what follows fails alike for all values, the first failure decides. -/
theorem faultOf_bind (x : Except ε α) {f : α → Except ε β} {e : Option ε}
    (h : ∀ a, faultOf (f a) = e) : faultOf (x >>= f) = (faultOf x).or e := by
  cases x with
  | error _ => rfl
  | ok a => exact h a

theorem faultOf_mapM (f : α → Except ε β) (xs : List α) :
    faultOf (xs.mapM f) = xs.findSome? fun x => faultOf (f x) := by
  induction xs with
  | nil => rfl
  | cons x xs ih =>
    rw [List.mapM_cons, List.findSome?_cons, ← ih]
    cases f x with
    | error e => rfl
    | ok y => cases xs.mapM f <;> rfl

theorem mapM_eq_ok_iff {f : α → Except ε β} {xs : List α} {ys : List β} :
    xs.mapM f = .ok ys ↔ List.Forall₂ (fun x y => f x = .ok y) xs ys := by
  induction xs generalizing ys with
  | nil =>
    rw [List.mapM_nil, List.forall₂_nil_left_iff]
    exact ⟨fun h => (Except.ok.inj h).symm, fun h => h ▸ rfl⟩
  | cons x xs ih =>
    simp only [List.mapM_cons, bind_eq_ok, List.forall₂_cons_left_iff, ih]
    constructor
    · rintro ⟨y, hy, ys', hys, h⟩
      exact ⟨y, ys', hy, hys, (Except.ok.inj h).symm⟩
    · rintro ⟨y, ys', hy, hys, rfl⟩
      exact ⟨y, hy, ys', hys, rfl⟩

end

end SqlFilter
