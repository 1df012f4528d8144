import SqlFilter.Proofs.LiteralIndependence
import SqlFilter.Proofs.Writing

/-!
The text of a bound compilation as lexemes. Words stand between blanks, commas and parentheses; a
placeholder is a hole, whatever its number.
-/
namespace SqlFilter

inductive Keyword
  | not
  | is
  | isIn
  | case
  | when
  | thenArm
  | elseArm
  | caseEnd
  deriving DecidableEq, Repr

inductive Lexeme
  | opening
  | closing
  | hole
  | null
  | bit (b : Bool)
  | symbol (op : ComparisonOp)
  | connective (op : LogicalOp)
  | keyword (k : Keyword)
  | field (path : String)
  deriving DecidableEq, Repr

namespace Lexeme

def vocabulary : List (String × Lexeme) :=
  [("NULL", .null), ("1", .bit true), ("0", .bit false), ("=", .symbol .eq), ("<>", .symbol .neq),
    ("<", .symbol .lt), ("<=", .symbol .lte), (">", .symbol .gt), (">=", .symbol .gte),
    ("AND", .connective .and), ("OR", .connective .or), ("NOT", .keyword .not),
    ("IS", .keyword .is), ("IN", .keyword .isIn), ("CASE", .keyword .case),
    ("WHEN", .keyword .when), ("THEN", .keyword .thenArm), ("ELSE", .keyword .elseArm),
    ("END", .keyword .caseEnd)]

def ofWord (word : List Char) : Lexeme :=
  if word.head? = some '@' then .hole
  else (vocabulary.lookup (.ofList word)).getD (.field (.ofList word))

def isBreak (c : Char) : Bool := c == ' ' || c == ',' || c == '(' || c == ')'

/-- The lexemes that a break is for itself. -/
def ofBreak (c : Char) : List Lexeme :=
  if c = '(' then [.opening] else if c = ')' then [.closing] else []

def flush : List Char × List Lexeme → List Lexeme
  | ([], ls) => ls
  | (c :: cs, ls) => ofWord (c :: cs) :: ls

/-- One character more in front: of the word that the rest starts with, or a break. -/
def step (c : Char) (s : List Char × List Lexeme) : List Char × List Lexeme :=
  if isBreak c then ([], ofBreak c ++ flush s) else (c :: s.1, s.2)

def lex (s : String) : List Lexeme := flush (s.toList.foldr step ([], []))

@[simp] theorem flush_nil (ls : List Lexeme) : flush ([], ls) = ls := rfl

theorem step_of_isBreak {c : Char} (hc : isBreak c) (s : List Char × List Lexeme) :
    step c s = ([], ofBreak c ++ flush s) := if_pos hc

theorem flush_append (w : List Char) (ks ls : List Lexeme) :
    flush (w, ks ++ ls) = flush (w, ks) ++ ls := by
  cases w <;> rfl

/-- What follows a break is kept as it is. -/
theorem foldr_step (cs : List Char) (ls : List Lexeme) :
    cs.foldr step ([], ls) =
      ((cs.foldr step ([], [])).1, (cs.foldr step ([], [])).2 ++ ls) := by
  induction cs with
  | nil => rfl
  | cons c cs ih =>
    rw [List.foldr_cons, List.foldr_cons, ih, step, step]
    split
    · rw [flush_append, List.append_assoc]
    · rfl

theorem flush_foldr_step (s : String) (ls : List Lexeme) :
    flush (s.toList.foldr step ([], ls)) = lex s ++ ls := by
  rw [foldr_step, flush_append]
  rfl

@[simp] theorem lex_empty : lex "" = [] := rfl

def Delimits (s : String) (ks : List Lexeme) : Prop :=
  s.toList.head?.any isBreak ∧ s.toList.getLast?.any isBreak ∧ lex s = ks

instance (s : String) (ks : List Lexeme) : Decidable (Delimits s ks) :=
  inferInstanceAs (Decidable (_ ∧ _ ∧ _))

/-- No lexeme reaches over a text with a break at both ends. -/
theorem lex_append_append {s : String} {ks : List Lexeme} (hs : Delimits s ks) (a b : String) :
    lex (a ++ s ++ b) = lex a ++ ks ++ lex b := by
  obtain ⟨hhead, hlast, rfl⟩ := hs
  -- The last break ends the word that `b` may start with, the first one that of `a`.
  have hend : s.toList.foldr step (b.toList.foldr step ([], [])) =
      s.toList.foldr step ([], lex b) := by
    cases h : s.toList using List.reverseRecOn with
    | nil => simp [h] at hlast
    | append_singleton cs c =>
      have hc : isBreak c := by simpa [h] using hlast
      rw [List.foldr_append, List.foldr_append, List.foldr_cons, List.foldr_cons,
        step_of_isBreak hc, step_of_isBreak hc]
      rfl
  have hstart : s.toList.foldr step ([], lex b) = ([], lex s ++ lex b) := by
    rw [← flush_foldr_step]
    cases h : s.toList with
    | nil => simp [h] at hhead
    | cons c cs =>
      have hc : isBreak c := by simpa [h] using hhead
      rw [List.foldr_cons, step_of_isBreak hc, flush_nil]
  rw [lex, String.toList_append, String.toList_append, List.foldr_append, List.foldr_append, hend,
    hstart, flush_foldr_step, List.append_assoc]

theorem lex_word {s : String} (hne : s.toList ≠ []) (hs : ∀ c ∈ s.toList, isBreak c = false) :
    lex s = [ofWord s.toList] := by
  have hfold (cs : List Char) (hcs : ∀ c ∈ cs, isBreak c = false) :
      cs.foldr step ([], []) = (cs, []) := by
    induction cs with
    | nil => rfl
    | cons c cs ih =>
      obtain ⟨hc, hcs⟩ := List.forall_mem_cons.1 hcs
      rw [List.foldr_cons, ih hcs, step, hc]
      rfl
  rw [lex, hfold _ hs]
  cases h : s.toList with
  | nil => exact absurd h hne
  | cons c cs => rfl

theorem isBreak_of_isWord {c : Char} (h : Text.isWord c) : isBreak c = false := by
  simp only [isBreak, Bool.or_eq_false_iff, beq_eq_false_iff_ne]
  refine ⟨⟨⟨?_, ?_⟩, ?_⟩, ?_⟩ <;>
    · rintro rfl
      exact absurd h (by decide)

theorem lex_nameAt {stem : String} (hstem : Text.isWordText stem) (i : Nat) :
    lex ((Binder.empty stem).nameAt i) = [.hole] := by
  obtain ⟨-, hword⟩ := Placeholder.isWordText_iff.1
    (Placeholder.isWordText_append_toString (Placeholder.isWordText_iff.1 hstem).2 i)
  rw [lex_word, Fragment.toList_nameAt]
  · rfl
  · simp [Fragment.toList_nameAt]
  · rw [Fragment.toList_nameAt]
    exact List.forall_mem_cons.2 ⟨by decide, fun c hc => isBreak_of_isWord (hword c hc)⟩

end Lexeme

def reservedWords : List String :=
  ["AND", "OR", "NOT", "CASE", "WHEN", "THEN", "ELSE", "END", "IS", "IN", "NULL"]

/-- A letter, followed by letters, digits, underscores and points, that is no reserved word. -/
def isFieldPath (s : String) : Bool :=
  s.toList.head?.any Char.isAlpha && s.toList.all (fun c => c.isAlphanum || c == '_' || c == '.') &&
    s ∉ reservedWords

theorem Lexeme.lookup_vocabulary {path : String} (h : isFieldPath path) :
    vocabulary.lookup path = none := by
  have hwords : ∀ e ∈ vocabulary, isFieldPath e.1 = false := by decide
  refine List.lookup_eq_none_iff.2 fun e he => ?_
  rw [bne_iff_ne]
  rintro rfl
  rw [hwords e he] at h
  cases h

theorem Lexeme.lex_field {path : String} (h : isFieldPath path) : lex path = [.field path] := by
  have hlookup := lookup_vocabulary h
  simp only [isFieldPath, Bool.and_eq_true, List.all_eq_true] at h
  obtain ⟨⟨hhead, hchars⟩, -⟩ := h
  rw [lex_word, ofWord, if_neg, String.ofList_toList, hlookup]
  · rfl
  · intro hat
    rw [hat] at hhead
    cases hhead
  · rintro hnil
    simp [hnil] at hhead
  · intro c hc
    have hword := hchars c hc
    simp only [Bool.or_eq_true, beq_iff_eq] at hword
    rcases hword with (hword | rfl) | rfl
    · exact isBreak_of_isWord (by simp [Text.isWord, Text.isAlphanumeric_of_isAlphanum hword])
    · decide
    · decide

/-- What a node stands for: a condition, or a value that is compared. -/
inductive Role
  | condition
  | operand
  deriving DecidableEq, Repr

/-- Trees in which comparisons are of values, and connectives are of conditions. -/
inductive Predicate.Sorted : Role → Predicate → Prop
  | field {role : Role} {path : String} (h : isFieldPath path) : Sorted role (.member path)
  | constant {v : Value} (h : v.isSqlNull → v = .null) : Sorted .operand (.lit v)
  | conditional {test ifTrue ifFalse : Predicate} (ht : Sorted .condition test)
      (ha : Sorted .operand ifTrue) (hb : Sorted .operand ifFalse) :
      Sorted .operand (.conditional test ifTrue ifFalse)
  | comparison (op : ComparisonOp) {left right : Predicate} (hl : Sorted .operand left)
      (hr : Sorted .operand right) : Sorted .condition (.comparison op left right)
  | logical (op : LogicalOp) {left right : Predicate} (hl : Sorted .condition left)
      (hr : Sorted .condition right) : Sorted .condition (.logical op left right)
  /-- The constant true that a conjunction starts from. -/
  | based {right : Predicate} (hr : Sorted .condition right) :
      Sorted .condition (.and .always right)
  | not {operand : Predicate} (h : Sorted .condition operand) : Sorted .condition (.not operand)
  | membership {items : List Value} (hne : items ≠ []) {value : Predicate}
      (hv : Sorted .operand value) : Sorted .condition (.containsAny (.lit (.list items)) value)

theorem Predicate.Sorted.isAlwaysTrue_eq_false {p : Predicate} (h : Sorted .condition p) :
    p.isAlwaysTrue = false := by
  cases h <;> rfl

def Value.lexeme : Value → Lexeme
  | .null => .null
  | .bool b => .bit b
  | _ => .hole

/-- Of the values that stand for themselves only null and the booleans are written as they are. -/
theorem Value.eq_null_or_eq_bool_or_hole {v : Value} (h : v.isSqlNull → v = .null) :
    v = .null ∨ (∃ b, v = .bool b) ∨ (v.staysInline = false ∧ v.lexeme = .hole) := by
  cases hnull : v.isSqlNull with
  | true => exact .inl (h hnull)
  | false =>
    cases v with
    | null => exact .inl rfl
    | bool b => exact .inr (.inl ⟨b, rfl⟩)
    | _ => exact .inr (.inr ⟨by simp [staysInline, hnull], rfl⟩)

namespace Predicate
open Lexeme

def operatorLexemes (op : ComparisonOp) (right : Predicate) : List Lexeme :=
  if right.isNullLiteral then
    match op with
    | .eq => [.keyword .is]
    | .neq => [.keyword .is, .keyword .not]
    | op => [.symbol op]
  else [.symbol op]

def lexemes : Predicate → List Lexeme
  | .comparison op left right => left.lexemes ++ operatorLexemes op right ++ right.lexemes
  | .logical op left right =>
    if op = .and ∧ left.isAlwaysTrue then .opening :: right.lexemes ++ [.closing]
    else .opening :: left.lexemes ++ .connective op :: right.lexemes ++ [.closing]
  | .not operand => .opening :: .keyword .not :: operand.lexemes ++ [.closing]
  | .member path => [.field path]
  | .constant v _ => [v.lexeme]
  | .conditional test ifTrue ifFalse =>
    .opening :: .keyword .case :: .keyword .when :: test.lexemes ++ .keyword .thenArm ::
      ifTrue.lexemes ++ .keyword .elseArm :: ifFalse.lexemes ++ [.keyword .caseEnd, .closing]
  | .call _ none [.constant (.list items) _, value] =>
    value.lexemes ++ .keyword .isIn :: .opening :: List.replicate items.length .hole ++ [.closing]
  | .call .. | .convert .. | .parameter _ => []

theorem delimits_operator (op : ComparisonOp) (right : Predicate) :
    Delimits (" " ++ operator op right ++ " ") (operatorLexemes op right) := by
  unfold operator operatorLexemes
  split <;> cases op <;> decide

theorem delimits_keyword (op : LogicalOp) :
    Delimits (" " ++ op.keyword ++ " ") [.connective op] := by
  cases op <;> decide

theorem fragment_containsAny {policy : ConvertPolicy} {items : List Value} (hne : items ≠ [])
    (value : Predicate) :
    (containsAny (lit (.list items)) value).fragment policy =
      value.fragment policy ++
        [.text " IN (", .items items (elementType items .unknown), .text ")"] := by
  cases items with
  | nil => exact absurd rfl hne
  | cons v vs => rfl

end Predicate

namespace CompileOptions
open Lexeme Predicate

theorem lex_write_text_cons (o : CompileOptions) (i : Nat) {s : String} {ks : List Lexeme}
    (hs : Delimits s ks) (f : Fragment) :
    lex (o.write i (.text s :: f)) = ks ++ lex (o.write i f) := by
  have h := lex_append_append hs "" (o.write i f)
  rw [String.empty_append, lex_empty, List.nil_append] at h
  rw [write_text_cons, h]

theorem lex_write_append_text (o : CompileOptions) (i : Nat) {s : String} {ks : List Lexeme}
    (hs : Delimits s ks) (f g : Fragment) :
    lex (o.write i (f ++ .text s :: g)) =
      lex (o.write i f) ++ (ks ++ lex (o.write (i + f.literals.length) g)) := by
  rw [write_append, write_text_cons, ← String.append_assoc, lex_append_append hs, List.append_assoc]

variable {policy : ConvertPolicy} {stem : String} {role : Role} {p : Predicate}

theorem lex_write_constant (hstem : Text.isWordText stem) (i : Nat) {v : Value}
    (h : v.isSqlNull → v = .null) (type : ValueType) :
    lex (write ⟨.bound, policy, stem⟩ i [.scalar v type]) = [v.lexeme] := by
  have hwrite : write ⟨.bound, policy, stem⟩ i [.scalar v type] =
      if v.staysInline then v.literal type else (Binder.empty stem).nameAt i := by
    simp only [write, Fragment.boundText, Piece.boundText, String.append_empty]
  rw [hwrite]
  rcases Value.eq_null_or_eq_bool_or_hole h with rfl | ⟨b, rfl⟩ | ⟨hv, hhole⟩
  · rw [if_pos (show Value.null.staysInline from rfl), Value.literal]
    decide
  · rw [if_pos (show (Value.bool b).staysInline from rfl), Value.literal]
    cases b <;> decide
  · rw [if_neg (by simp [hv]), lex_nameAt hstem, hhole]

theorem lex_write_items (hstem : Text.isWordText stem) (i : Nat) (items : List Value)
    (element : ValueType) :
    lex (write ⟨.bound, policy, stem⟩ i [.items items element]) =
      List.replicate items.length .hole := by
  have hcomma : Delimits ", " [] := by decide
  have hnames (n i : Nat) :
      lex (", ".intercalate ((List.range' i n).map (Binder.empty stem).nameAt)) =
        List.replicate n .hole := by
    induction n generalizing i with
    | zero => rfl
    | succ n ih =>
      cases n with
      | zero => simpa using lex_nameAt hstem i
      | succ n =>
        specialize ih (i + 1)
        rw [List.range'_succ, List.map_cons] at ih ⊢
        rw [List.range'_succ, List.map_cons, String.intercalate_cons_cons,
          lex_append_append hcomma, ih, lex_nameAt hstem]
        rfl
  simpa [write, Fragment.boundText, Piece.boundText] using hnames items.length i

/--
A bound compilation writes the lexemes of a sorted condition, whatever the number of its first
placeholder.
-/
theorem lex_write_fragment (hstem : Text.isWordText stem) (h : Sorted role p) (i : Nat) :
    lex (write ⟨.bound, policy, stem⟩ i (p.fragment policy)) = p.lexemes := by
  have hopening : Delimits "(" [.opening] := by decide
  have hclosing : Delimits ")" [.closing] := by decide
  induction h generalizing i with
  | field h => simpa [fragment, lexemes, write_text_cons, write_nil] using lex_field h
  | constant h => exact lex_write_constant hstem i h _
  | conditional ht ha hb iht iha ihb =>
    have hcase : Delimits "(CASE WHEN " [.opening, .keyword .case, .keyword .when] := by decide
    have hthen : Delimits " THEN " [.keyword .thenArm] := by decide
    have helse : Delimits " ELSE " [.keyword .elseArm] := by decide
    have hend : Delimits " END)" [.keyword .caseEnd, .closing] := by decide
    rw [fragment, lex_write_text_cons _ _ hcase, lex_write_append_text _ _ hthen, iht,
      lex_write_append_text _ _ helse, iha, lex_write_append_text _ _ hend, ihb, write_nil, lexemes]
    simp
  | comparison op hl hr ihl ihr =>
    rw [fragment, lex_write_append_text _ _ (delimits_operator _ _), ihl, ihr, lexemes,
      List.append_assoc]
  | @logical op left right hl hr ihl ihr =>
    rw [fragment, if_neg (by simp [hl.isAlwaysTrue_eq_false]), lex_write_text_cons _ _ hopening,
      lex_write_append_text _ _ (delimits_keyword op), ihl, lex_write_append_text _ _ hclosing,
      ihr, write_nil, lexemes, if_neg (by simp [hl.isAlwaysTrue_eq_false])]
    simp
  | based hr ih =>
    rw [Predicate.and, fragment, if_pos ⟨rfl, rfl⟩, lex_write_text_cons _ _ hopening,
      lex_write_append_text _ _ hclosing, ih, write_nil, lexemes, if_pos ⟨rfl, rfl⟩]
    simp
  | not h ih =>
    have hnot : Delimits "(NOT " [.opening, .keyword .not] := by decide
    rw [fragment, lex_write_text_cons _ _ hnot, lex_write_append_text _ _ hclosing, ih, write_nil,
      lexemes]
    simp
  | @membership items hne value hv ih =>
    have hin : Delimits " IN (" [.keyword .isIn, .opening] := by decide
    have hitems (j : Nat) (element : ValueType) :
        lex (write ⟨.bound, policy, stem⟩ j [.items items element, .text ")"]) =
          List.replicate items.length .hole ++ [.closing] := by
      have h := lex_write_append_text ⟨.bound, policy, stem⟩ j hclosing [.items items element] []
      rwa [lex_write_items hstem, write_nil] at h
    rw [fragment_containsAny hne, lex_write_append_text _ _ hin, ih, hitems, containsAny, lit,
      lexemes]
    simp

end CompileOptions

end SqlFilter
