import SqlFilter.Proofs.SharedBinder
import SqlFilter.Proofs.OperandSlots

/-!
Equality with `NULL`. A comparison with the constant `NULL` is written with `IS`, or with `IS NOT`
for a difference; a call of `equals` is always written with `=`. Where the argument is not `NULL`
the call compiles as the comparison.
-/
namespace SqlFilter

theorem ne_null_of_mem {s : String} {c : Char} (hc : c ∈ s.toList) (hne : c ∉ "NULL".toList) :
    s ≠ "NULL" := by
  rintro rfl
  exact hne hc

theorem not_mem_null_of_isDigit {c : Char} (h : c.isDigit) : c ∉ "NULL".toList := by
  intro hc
  have hletters : "NULL".toList.all (!·.isDigit) := by decide
  have hletter := List.all_eq_true.1 hletters c hc
  rw [h] at hletter
  cases hletter

theorem repr_ne_null (n : Nat) : n.repr ≠ "NULL" := by
  obtain ⟨c, hc⟩ := Text.exists_mem_repr n
  exact ne_null_of_mem hc (not_mem_null_of_isDigit (Text.isDigit_of_mem_repr hc))

theorem toString_ne_null (n : Int) : toString n ≠ "NULL" := by
  cases n with
  | ofNat m => exact repr_ne_null m
  | negSucc m =>
    exact ne_null_of_mem (s := "-" ++ m.succ.repr) (c := '-') (by simp) (by decide)

theorem Decimal.text_ne_null (x : Float) : text x ≠ "NULL" := by
  unfold text Layout.text
  split
  · decide
  · split <;> decide
  · next m q _ =>
    obtain ⟨c, hc, hd⟩ := exists_digit_of_magnitude m q
    refine ne_null_of_mem (c := c) ?_ (not_mem_null_of_isDigit hd)
    rw [String.toList_ofList]
    split
    · exact List.mem_cons_of_mem _ hc
    · exact hc

namespace Value

def isNonFinite : Value → Bool
  | .decimal x => !x.isFinite
  | _ => false

theorem isSqlNull_iff {v : Value} : v.isSqlNull ↔ v = .null ∨ v.isNonFinite := by
  cases v <;> simp [isSqlNull, isNonFinite]

theorem quoted_ne_null (s : String) : quoted s ≠ "NULL" :=
  ne_null_of_mem (c := '\'') (by simp [quoted]) (by decide)

theorem quotedAs_ne_null {s : String} (h : s ≠ "NULL") (type : ValueType) :
    quotedAs type s ≠ "NULL" := by
  unfold quotedAs
  split
  · exact quoted_ne_null s
  · exact h

theorem castAsDate_ne_null (s : String) : castAsDate s ≠ "NULL" :=
  ne_null_of_mem (c := '\'') (by simp [castAsDate, quoted]) (by decide)

/-- Only values that SQL has no other literal for are written as `NULL`, whatever their type. -/
theorem literal_eq_null_iff {v : Value} {type : ValueType} :
    v.literal type = "NULL" ↔ v.isSqlNull := by
  refine ⟨fun h => ?_, fun h => literal_of_isSqlNull h type⟩
  by_contra hv
  revert h
  cases v with
  | null => exact (hv rfl).elim
  | bool b => cases b <;> simp only [literal] <;> decide
  | int n => exact quotedAs_ne_null (toString_ne_null n.toInt) type
  | decimal x =>
    have hfinite : x.isFinite := by simpa [isSqlNull] using hv
    rw [literal, if_pos hfinite]
    exact quotedAs_ne_null (Decimal.text_ne_null x) type
  | string s =>
    rw [literal]
    split
    · exact castAsDate_ne_null s
    · exact quoted_ne_null s
  | dateTime t => exact castAsDate_ne_null t.text
  | list items =>
    rw [literal]
    exact ne_null_of_mem (c := '(') (by simp) (by decide)

end Value

namespace CompileOptions
open Predicate

variable {o : CompileOptions} {p : Predicate} {c : CompiledFilter} {before after : Fragment}

/-- A literal is written as `NULL` in both modes just if it has to be: a placeholder has a sign. -/
theorem write_scalar_eq_null_iff (o : CompileOptions) (i : Nat) (v : Value) (type : ValueType) :
    o.write i [.scalar v type] = "NULL" ↔ v.isSqlNull := by
  unfold write
  cases o.literals with
  | inline => simp [Fragment.inlineText, Piece.inlineText, Value.literal_eq_null_iff]
  | bound =>
    simp only [Fragment.boundText, Piece.boundText, String.append_empty]
    by_cases hv : v.staysInline
    · simp [hv, Value.literal_eq_null_iff]
    · have hname : (Binder.empty o.stem).nameAt i ≠ "NULL" :=
        ne_null_of_mem (c := '@') (by simp [Binder.nameAt]) (by decide)
      have hnull : v.isSqlNull = false := by
        cases h : v.isSqlNull with
        | false => rfl
        | true => simp [Value.staysInline, h] at hv
      simp [hv, hname, hnull]

/-- The text of a compiled condition around a node with an operator between two operands. -/
theorem sql_eq_of_operator (hc : o.compile p = .ok c) {q : Predicate}
    (hq : Occurs o.convert p before q after) {l r : Fragment} {operator : String}
    (hfragment : q.fragment o.convert = l ++ .text operator :: r) :
    c.sql = o.write 0 (before ++ l) ++ operator ++ o.write (before ++ l).literals.length r ++
      o.write (before ++ l ++ r).literals.length after := by
  obtain ⟨-, rfl⟩ := compile_eq_ok_iff.1 hc
  have htrue : p.isAlwaysTrue = false := by
    cases h : p.isAlwaysTrue with
    | false => rfl
    | true =>
      obtain ⟨declared, rfl⟩ := exists_of_isAlwaysTrue h
      cases hq with
      | whole =>
        have hscalar : .text operator ∈ [Piece.scalar (.bool true) (declared.getD .boolean)] := by
          rw [fragment] at hfragment
          exact hfragment ▸ List.mem_append_right _ List.mem_cons_self
        simp at hscalar
      | slot hs => exact (not_slot (by simp [segments]) hs).elim
  have hpieces : p.pieces o.convert = before ++ l ++ .text operator :: (r ++ after) := by
    rw [pieces, htrue, if_neg Bool.false_ne_true, hq.fragment_eq, hfragment]
    simp
  have hsplit := o.write_append (before ++ l).literals.length r after
  rw [← List.length_append, ← Fragment.literals_append] at hsplit
  simp only [hpieces, write_append _ _ (before ++ l), write_text_cons, Nat.zero_add, hsplit,
    String.append_assoc]

theorem fragment_comparison (policy : ConvertPolicy) (op : ComparisonOp) (left right : Predicate) :
    (comparison op left right).fragment policy =
      left.fragment policy ++ .text (" " ++ operator op right ++ " ") :: right.fragment policy := by
  simp only [fragment]

theorem fragment_equals (policy : ConvertPolicy) {method : String} (receiver arg : Predicate)
    (hmethod : Method.ofName? method = some .equals) :
    (call method (some receiver) [arg]).fragment policy =
      receiver.fragment policy ++ .text " = " :: arg.fragment policy := by
  simp only [fragment, hmethod]

theorem operator_constant {op : ComparisonOp} {keyword : String}
    (hop : op.nullKeyword? = some keyword) {v : Value} (hv : v.isNonFinite = false)
    (declared : Option ValueType) :
    operator op (.constant v declared) = if v.isSqlNull then keyword else op.symbol := by
  cases v <;> simp_all [operator, isNullLiteral, Value.isSqlNull, Value.isNonFinite]

theorem compile_equals_eq_compile_eq (o : CompileOptions) (receiver : Predicate) {arg : Predicate}
    (harg : arg.isNullLiteral = false) :
    o.compile (.equals receiver arg) = o.compile (.eq receiver arg) := by
  have hoperator : operator .eq arg = "=" := by simp [operator, harg, ComparisonOp.symbol]
  have hpieces : (Predicate.equals receiver arg).pieces o.convert =
      (Predicate.eq receiver arg).pieces o.convert := by
    change fragment o.convert _ = fragment o.convert _
    rw [equals, fragment_equals _ _ _ (Method.ofName?_name .equals), Predicate.eq,
      fragment_comparison, hoperator]
    rfl
  rw [compile_eq, compile_eq, hpieces]

theorem compile_eq_of_null (o : CompileOptions) {p : Predicate} {l : Fragment}
    {operator : String} {type : ValueType}
    (hpieces : p.pieces o.convert = l ++ [.text operator, .scalar .null type]) :
    o.compile p =
      l.fault?.elim (.ok ⟨o.write 0 l ++ operator ++ "NULL", o.collect l⟩)
        fun cause => .error (.unsupported cause) := by
  have hliterals : (p.pieces o.convert).literals = l.literals := by
    rw [hpieces, Fragment.literals_append]
    simp [Fragment.literals, Piece.literals, Value.staysInline, Value.isSqlNull]
  have hfault : (p.pieces o.convert).fault? = l.fault? := by
    rw [hpieces, Fragment.fault?_append]
    exact Option.or_none
  have hnull : o.write l.literals.length [.scalar .null type] = "NULL" :=
    (o.write_scalar_eq_null_iff _ _ _).2 rfl
  have hcollect : o.collect (p.pieces o.convert) = o.collect l := by
    rw [collect, collect, hliterals]
  rw [compile_eq, hfault, hcollect, hpieces, write_append, write_text_cons, Nat.zero_add, hnull,
    ← String.append_assoc]
  cases l.fault? <;> rfl

/-- With `NULL` the call and the comparison fail alike, or differ in the operator alone. -/
theorem compile_equals_null (o : CompileOptions) (receiver : Predicate)
    (declared : Option ValueType) :
    (∃ e, o.compile (.equals receiver (.constant .null declared)) = .error e ∧
      o.compile (.eq receiver (.constant .null declared)) = .error e) ∨
    ∃ l ps, o.compile (.equals receiver (.constant .null declared)) = .ok ⟨l ++ " = NULL", ps⟩ ∧
      o.compile (.eq receiver (.constant .null declared)) = .ok ⟨l ++ " IS NULL", ps⟩ := by
  have hequals : (equals receiver (.constant .null declared)).pieces o.convert =
      receiver.fragment o.convert ++ [.text " = ", .scalar .null (declared.getD .null)] := by
    change fragment o.convert _ = _
    rw [equals, fragment_equals _ _ _ (Method.ofName?_name .equals), fragment]
    rfl
  have heq : (Predicate.eq receiver (.constant .null declared)).pieces o.convert =
      receiver.fragment o.convert ++ [.text " IS ", .scalar .null (declared.getD .null)] := by
    change fragment o.convert _ = _
    rw [Predicate.eq, fragment_comparison, fragment]
    rfl
  rw [compile_eq_of_null o hequals, compile_eq_of_null o heq]
  cases (receiver.fragment o.convert).fault? with
  | some cause => exact .inl ⟨_, rfl, rfl⟩
  | none =>
    refine .inr ⟨o.write 0 (receiver.fragment o.convert), o.collect (receiver.fragment o.convert),
      ?_, ?_⟩
    · rw [Option.elim_none, String.append_assoc]
      rfl
    · rw [Option.elim_none, String.append_assoc]
      rfl

/--
Wherever a constant is tested for equality or difference by a comparison, decimals that are not
finite apart, the operator is the one for `NULL` exactly if the constant is written so, which is
exactly if it is null. A call of `equals` has the sign `=` in front of every argument, `NULL` too.
The call compiles as the comparison unless the argument is written as `NULL`; for null itself the
texts differ in the operator alone.
-/
theorem equality_operator (o : CompileOptions) :
    (∀ p c before op left v declared after keyword, o.compile p = .ok c →
      Occurs o.convert p before (.comparison op left (.constant v declared)) after →
      op.nullKeyword? = some keyword → v.isNonFinite = false →
      let l := before ++ left.fragment o.convert
      let right : Fragment := [.scalar v (declared.getD v.type)]
      let r := o.write l.literals.length right
      (r = "NULL" ↔ v = .null) ∧
      c.sql = o.write 0 l ++ " " ++ (if r = "NULL" then keyword else op.symbol) ++ " " ++ r ++
        o.write (l ++ right).literals.length after) ∧
    (∀ p c before method receiver arg after, o.compile p = .ok c →
      Occurs o.convert p before (.call method (some receiver) [arg]) after →
      Method.ofName? method = some .equals →
      let l := before ++ receiver.fragment o.convert
      let right := arg.fragment o.convert
      c.sql = o.write 0 l ++ " = " ++ o.write l.literals.length right ++
        o.write (l ++ right).literals.length after) ∧
    (∀ receiver arg, (∀ v declared, arg = .constant v declared → v.isSqlNull = false) →
      o.compile (.equals receiver arg) = o.compile (.eq receiver arg)) ∧
    ∀ receiver declared,
      (∃ e, o.compile (.equals receiver (.constant .null declared)) = .error e ∧
        o.compile (.eq receiver (.constant .null declared)) = .error e) ∨
      ∃ l ps, o.compile (.equals receiver (.constant .null declared)) = .ok ⟨l ++ " = NULL", ps⟩ ∧
        o.compile (.eq receiver (.constant .null declared)) = .ok ⟨l ++ " IS NULL", ps⟩ := by
  refine ⟨?_, ?_, ?_, compile_equals_null o⟩
  · intro p c before op left v declared after keyword hc hq hop hv l right r
    have hnull : r = "NULL" ↔ v.isSqlNull := o.write_scalar_eq_null_iff _ v _
    have hsql := sql_eq_of_operator hc hq (fragment_comparison o.convert op left _)
    rw [operator_constant hop hv, fragment] at hsql
    constructor
    · rw [hnull, Value.isSqlNull_iff, hv]
      simp
    · rw [hsql]
      simp only [hnull, String.append_assoc]
      rfl
  · intro p c before method receiver arg after hc hq hmethod l right
    exact sql_eq_of_operator hc hq (fragment_equals o.convert receiver arg hmethod)
  · intro receiver arg harg
    refine compile_equals_eq_compile_eq o receiver ?_
    cases arg with
    | constant v declared =>
      have hv := harg v declared rfl
      cases v <;> simp_all [isNullLiteral, Value.isSqlNull]
    | _ => rfl

/-- A difference with `NULL` behind a bound literal. -/
theorem equality_operator_bound :
    let o : CompileOptions := ⟨.bound, .reject, "p"⟩
    let age := Predicate.eq (.member "Age") (.lit (.int 30))
    let gone := Predicate.isNotNull "Gone"
    let before := Segment.assemble .reject [.text "(", .operand age, .text (" " ++ "AND" ++ " ")]
    let l := before ++ [.text "Gone"]
    ∃ c, o.compile (.and age gone) = .ok c ∧ c.sql = "(Age = @p0 AND Gone IS NOT NULL)" ∧
      o.write l.literals.length [.scalar .null .null] = "NULL" ∧
      c.sql = o.write 0 l ++ " " ++ "IS NOT" ++ " " ++ "NULL" ++ o.write 1 [.text ")"] := by
  intro o age gone before l
  have hoccurs : Occurs .reject (.and age gone) before gone [.text ")"] :=
    .slot (.own (b := [.text ")"]) rfl)
  have hc : o.compile (.and age gone) = .ok ⟨"(Age = @p0 AND Gone IS NOT NULL)",
      o.collect ((Predicate.and age gone).pieces .reject)⟩ := by decide +kernel
  obtain ⟨hnull, hsql⟩ := (equality_operator o).1 _ _ _ _ _ _ _ _ "IS NOT" hc hoccurs rfl rfl
  have hwritten := hnull.2 rfl
  refine ⟨_, hc, rfl, hwritten, ?_⟩
  rw [if_pos hwritten, hwritten] at hsql
  exact hsql

/-- A call of `equals` compares with `NULL` by the sign, where the comparison tests for it. -/
theorem compile_equals_null_sign :
    let equals := Predicate.equals (.member "A") (.lit .null)
    let eq := Predicate.eq (.member "A") (.lit .null)
    compile {} equals = .ok ⟨"A = NULL", []⟩ ∧ compile {} eq = .ok ⟨"A IS NULL", []⟩ := by
  decide

end CompileOptions

end SqlFilter
