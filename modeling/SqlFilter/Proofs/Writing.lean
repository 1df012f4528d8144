import SqlFilter.Proofs.CompiledPlaceholders

/-!
What a compilation writes, under all options at once: the text of the pieces, in which a literal
stands as it is or as its placeholder, and the parameters that are collected on the way.
-/
namespace SqlFilter

namespace Fragment

theorem literals_append (f g : Fragment) : literals (f ++ g) = f.literals ++ g.literals := by
  simp [literals]

theorem inlineText_append (f g : Fragment) :
    inlineText (f ++ g) = f.inlineText ++ g.inlineText := by
  induction f with
  | nil => simp [inlineText]
  | cons p f ih =>
    simp only [inlineText, List.cons_append, List.map_cons, String.join_cons] at ih ⊢
    rw [ih, String.append_assoc]

theorem fault?_append (f g : Fragment) : fault? (f ++ g) = f.fault?.or g.fault? := by
  simp [fault?, List.findSome?_append]

end Fragment

namespace CompileOptions

/-- The text of a fragment, with placeholders numbered from `i` if literals are bound. -/
def write (o : CompileOptions) (i : Nat) (f : Fragment) : String :=
  match o.literals with
  | .inline => f.inlineText
  | .bound => Fragment.boundText (Binder.empty o.stem).nameAt i f

def collect (o : CompileOptions) (f : Fragment) : List Parameter :=
  match o.literals with
  | .inline => []
  | .bound => Parameter.numbered (Binder.empty o.stem).nameAt 0 f.literals

/-- A compilation writes the pieces of its condition, unless there is a fault among them. -/
theorem compile_eq (o : CompileOptions) (p : Predicate) :
    o.compile p =
      match (p.pieces o.convert).fault? with
      | some cause => .error (.unsupported cause)
      | none => .ok ⟨o.write 0 (p.pieces o.convert), o.collect (p.pieces o.convert)⟩ := by
  obtain ⟨mode, policy, stem⟩ := o
  cases mode with
  | inline => exact compile_inline policy stem p
  | bound => exact compile_bound policy stem p

theorem compile_eq_ok_iff {o : CompileOptions} {p : Predicate} {c : CompiledFilter} :
    o.compile p = .ok c ↔
      (p.pieces o.convert).fault? = none ∧
        c = ⟨o.write 0 (p.pieces o.convert), o.collect (p.pieces o.convert)⟩ := by
  rw [compile_eq]
  cases (p.pieces o.convert).fault? with
  | some cause => simp
  | none => simp [eq_comm]

theorem write_nil (o : CompileOptions) (i : Nat) : o.write i [] = "" := by
  unfold write
  cases o.literals <;> rfl

/-- The placeholders of what follows are numbered on. -/
theorem write_append (o : CompileOptions) (i : Nat) (f g : Fragment) :
    o.write i (f ++ g) = o.write i f ++ o.write (i + f.literals.length) g := by
  unfold write
  cases o.literals with
  | inline => exact Fragment.inlineText_append f g
  | bound => exact Fragment.boundText_append _ i f g

theorem write_text_cons (o : CompileOptions) (i : Nat) (s : String) (f : Fragment) :
    o.write i (.text s :: f) = s ++ o.write i f := by
  unfold write
  cases o.literals with
  | inline => simp [Fragment.inlineText, Piece.inlineText]
  | bound => simp [Fragment.boundText, Piece.boundText, Piece.literals]

end CompileOptions

end SqlFilter
