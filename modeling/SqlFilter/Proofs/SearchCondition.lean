import SqlFilter.Proofs.WhereClause

/-!
Search conditions, as they are read: AND and OR join conditions wherever they stand as words of
their own, outside of literals, quoted names, comments and parentheses, and are not part of a
BETWEEN or a CASE. The WHERE clause of a statement is read as its conditions in segments, and OR
begins a segment.
-/
namespace SqlFilter
open Text WhereClause

namespace SearchCondition

/-- Where a place of a text is, with the number of open parentheses. -/
inductive Position
  | plain (depth : Nat)
  /-- After a character that begins a comment together with the given one. -/
  | mark (second : Char) (depth : Nat)
  /-- In a literal, a quoted name or a comment that the given character closes. -/
  | quoted (close : Char) (depth : Nat)
  /-- Between `/*` and `*/`, in so many other comments of this kind, after the last character. -/
  | comment (level : Nat) (last : Char) (depth : Nat)
  /-- After a parenthesis that closes none. No text leads out of here. -/
  | lost
  deriving DecidableEq, Repr

namespace Position

def plainStep (depth : Nat) (c : Char) : Position :=
  match c with
  | '(' => .plain (depth + 1)
  | ')' => if depth = 0 then .lost else .plain (depth - 1)
  | '[' => .quoted ']' depth
  | '\'' | '"' => .quoted c depth
  | '-' => .mark '-' depth
  | '/' => .mark '*' depth
  | _ => .plain depth

def step : Position → Char → Position
  | .plain depth, c => plainStep depth c
  | .mark second depth, c =>
    if c ≠ second then plainStep depth c
    else if c = '-' then .quoted '\n' depth
    else .comment 0 ' ' depth
  | .quoted close depth, c => if c = close then .plain depth else .quoted close depth
  | .comment level last depth, c =>
    if last = '/' ∧ c = '*' then .comment (level + 1) ' ' depth
    else if last ≠ '*' ∨ c ≠ '/' then .comment level c depth
    else if level = 0 then .plain depth
    else .comment (level - 1) ' ' depth
  | .lost, _ => .lost

def after (p : Position) (cs : List Char) : Position := cs.foldl step p

/-- Outside of all quotes, comments and parentheses, as every text begins. -/
abbrev outer : Position := .plain 0

def isOuter : Position → Bool
  | .plain depth | .mark _ depth => depth == 0
  | _ => false

def deeper : Position → Position
  | .plain depth => .plain (depth + 1)
  | .mark second depth => .mark second (depth + 1)
  | .quoted close depth => .quoted close (depth + 1)
  | .comment level last depth => .comment level last (depth + 1)
  | .lost => .lost

variable {p : Position} {c : Char} {cs ds : List Char}

theorem after_append (p : Position) (cs ds : List Char) :
    p.after (cs ++ ds) = (p.after cs).after ds := List.foldl_append

theorem after_cons (p : Position) (c : Char) (cs : List Char) :
    p.after (c :: cs) = (p.step c).after cs := rfl

theorem after_lost (cs : List Char) : after .lost cs = .lost := by
  induction cs with
  | nil => rfl
  | cons c cs ih => exact ih

theorem step_ne_lost (h : p.after (c :: cs) ≠ .lost) : p.step c ≠ .lost := by
  intro hlost
  rw [after_cons, hlost, after_lost] at h
  exact h rfl

theorem isOuter_deeper (p : Position) : p.deeper.isOuter = false := by
  cases p <;> rfl

theorem plainStep_succ {depth : Nat} (h : plainStep depth c ≠ .lost) :
    plainStep (depth + 1) c = (plainStep depth c).deeper := by
  unfold plainStep at h ⊢
  split at h <;> simp_all [deeper]
  omega

/-- What is read of a text does not depend on the parentheses that it stands in. -/
theorem step_deeper (h : p.step c ≠ .lost) : p.deeper.step c = (p.step c).deeper := by
  cases p with
  | plain depth => exact plainStep_succ h
  | mark second depth =>
    by_cases hc : c ≠ second
    · simp only [step, if_pos hc] at h
      simp only [step, deeper, if_pos hc]
      exact plainStep_succ h
    · simp only [step, deeper, if_neg hc]
      split <;> rfl
  | quoted close depth =>
    simp only [step, deeper]
    split <;> rfl
  | comment level last depth =>
    simp only [step, deeper]
    split_ifs <;> rfl
  | lost => rfl

theorem after_deeper (h : p.after cs ≠ .lost) : p.deeper.after cs = (p.after cs).deeper := by
  induction cs generalizing p with
  | nil => rfl
  | cons c cs ih =>
    rw [after_cons, step_deeper (step_ne_lost h), ih h, after_cons]

end Position

def isName (c : Char) : Bool := isWord c || c == '@' || c == '#' || c == '$'

/-- The characters of a text, each with whether it belongs to a word that can be a keyword. -/
def glyphs (p : Position) : List Char → List (Char × Bool)
  | [] => []
  | c :: cs => (c, p.isOuter && isName c) :: glyphs (p.step c) cs

/-- The words of a text that can be keywords, and every other character by itself. -/
def tokens (p : Position) (cs : List Char) : List (List Char) :=
  ((glyphs p cs).splitBy fun a b => a.2 && b.2).map (·.map Prod.fst)

section
open Position

variable {p : Position} {c : Char} {cs ds : List Char}

theorem glyphs_append (p : Position) (cs ds : List Char) :
    glyphs p (cs ++ ds) = glyphs p cs ++ glyphs (p.after cs) ds := by
  induction cs generalizing p with
  | nil => rfl
  | cons c cs ih => rw [List.cons_append, glyphs, ih, glyphs, List.cons_append, after_cons]

/-- A character of no word is a token, whatever comes before and after it. -/
theorem tokens_append_cons (hc : isName c = false) (p : Position) (cs ds : List Char) :
    tokens p (cs ++ c :: ds) = tokens p cs ++ [c] :: tokens ((p.after cs).step c) ds := by
  have hglyph : glyphs (p.after cs) (c :: ds) =
      [(c, false)] ++ glyphs ((p.after cs).step c) ds := by
    rw [glyphs, hc, Bool.and_false]
    rfl
  rw [tokens, glyphs_append, hglyph, List.singleton_append,
    List.splitBy_append_cons _ (by simp), ← List.singleton_append,
    List.splitBy_append (by simp), List.map_append, List.map_append]
  rfl

/-- Inside of a parenthesis every character is a token. -/
theorem tokens_deeper (h : p.after cs ≠ .lost) : tokens p.deeper cs = cs.map ([·]) := by
  induction cs generalizing p with
  | nil => rfl
  | cons c cs ih =>
    have hstep := step_ne_lost h
    have hglyphs : glyphs p.deeper (c :: cs) = [(c, false)] ++ glyphs (p.step c).deeper cs := by
      rw [glyphs, isOuter_deeper, Bool.false_and, step_deeper hstep]
      rfl
    have hrest : tokens (p.step c).deeper cs = cs.map ([·]) := ih h
    rw [tokens, hglyphs, List.splitBy_append (by simp), List.map_append, ← tokens, hrest]
    rfl

end

/-- All quotes, comments and parentheses of a text are closed. -/
def Closed (s : String) : Prop := Position.outer.after s.toList = .outer

instance : DecidablePred Closed := fun _ => inferInstanceAs (Decidable (_ = _))

inductive Keyword
  | not
  | between
  | caseOf
  | endOf
  | connective (op : LogicalOp)
  deriving DecidableEq, Repr

def keywords : List (String × Keyword) :=
  [("NOT", .not), ("BETWEEN", .between), ("CASE", .caseOf), ("END", .endOf),
    (LogicalOp.and.keyword, .connective .and), (LogicalOp.or.keyword, .connective .or)]

/-- The keyword that a token is, in whatever case its letters are. -/
def keyword? (token : List Char) : Option Keyword :=
  keywords.lookup (.ofList (token.map Char.toUpper))

theorem keyword?_singleton (c : Char) : keyword? [c] = none := by
  have hlength : ∀ k ∈ keywords, k.1.length ≠ 1 := by decide
  refine List.lookup_eq_none_iff.2 fun k hk => bne_iff_ne.2 fun heq => hlength k hk ?_
  rw [← heq, String.length_ofList, List.length_map, List.length_singleton]

structure Scan where
  /-- The number of CASEs without their END. -/
  cases : Nat := 0
  between : Bool := false
  deriving DecidableEq, Repr

namespace Scan

def step (σ : Scan) : Option Keyword → Scan
  | some .caseOf => { σ with cases := σ.cases + 1 }
  | some .endOf => { σ with cases := σ.cases - 1 }
  | some .between => if σ.cases = 0 then { σ with between := true } else σ
  | some (.connective .and) => if σ.cases = 0 then { σ with between := false } else σ
  | _ => σ

def connective? (σ : Scan) : Option Keyword → Option LogicalOp
  | some (.connective op) =>
    if σ.cases ≠ 0 ∨ op = .and ∧ σ.between then none else some op
  | _ => none

def after (σ : Scan) (ts : List (List Char)) : Scan := ts.foldl (fun σ t => σ.step (keyword? t)) σ

theorem after_cons (σ : Scan) (t : List Char) (ts : List (List Char)) :
    σ.after (t :: ts) = (σ.step (keyword? t)).after ts := rfl

theorem after_append (σ : Scan) (ts us : List (List Char)) :
    σ.after (ts ++ us) = (σ.after ts).after us := List.foldl_append

end Scan

inductive Item
  | token (cs : List Char)
  | connective (op : LogicalOp)
  deriving DecidableEq, Repr

def Item.chars : Item → List Char
  | .token cs => cs
  | .connective _ => []

def items (σ : Scan) : List (List Char) → List Item
  | [] => []
  | t :: ts =>
    (match σ.connective? (keyword? t) with
      | some op => .connective op
      | none => .token t) :: items (σ.step (keyword? t)) ts

theorem items_append (σ : Scan) (ts us : List (List Char)) :
    items σ (ts ++ us) = items σ ts ++ items (σ.after ts) us := by
  induction ts generalizing σ with
  | nil => rfl
  | cons t ts ih => rw [List.cons_append, items, ih, items, List.cons_append, Scan.after_cons]

/-- Single characters neither join conditions nor open or close anything. -/
theorem items_map_singleton (σ : Scan) (cs : List Char) :
    items σ (cs.map ([·])) = cs.map (.token [·]) ∧ σ.after (cs.map ([·])) = σ := by
  induction cs with
  | nil => exact ⟨rfl, rfl⟩
  | cons c cs ih =>
    simp only [List.map_cons, items, Scan.after_cons, keyword?_singleton]
    exact ⟨congrArg _ ih.1, ih.2⟩

/-- Characters without one blank at each end. -/
def unpadded (cs : List Char) : List Char :=
  let cs := if cs.head?.any isBlank then cs.tail else cs
  if cs.getLast?.any isBlank then cs.dropLast else cs

theorem unpadded_padded (cs : List Char) : unpadded (' ' :: cs ++ [' ']) = cs := by
  have hblank : isBlank ' ' = true := by decide
  simp [unpadded, hblank]

def ungrouped (cs : List Char) : List Char :=
  let inside := (cs.drop 1).dropLast
  if cs = '(' :: inside ++ [')'] ∧ Closed (.ofList inside) then inside else cs

/-- What stands after a NOT at the beginning. -/
def afterNot? (ts : List (List Char)) : Option (List (List Char)) :=
  match ts.dropWhile (·.all isBlank) with
  | t :: ts => if keyword? t = some .not then some ts else none
  | [] => none

def operandOf (ts : List (List Char)) : Operand :=
  match afterNot? ts with
  | some ts => ⟨true, .ofList (ungrouped (unpadded ts.flatten))⟩
  | none => ⟨false, .ofList (unpadded ts.flatten)⟩

def paddedTokens (s : String) : List (List Char) := tokens .outer (' ' :: s.toList ++ [' '])

/-- The alternatives of a condition: NOT binds before AND, and AND before OR. -/
def alternatives (s : String) : List (List Operand) :=
  ((items {} (paddedTokens s)).splitOn (.connective .or)).map fun xs =>
    (xs.splitOn (.connective .and)).map fun ys => operandOf (ys.map Item.chars)

example : alternatives "A BETWEEN 1 AND 2 and not (B = ' or ' OR [or] = 3)\tOR C /* or ' */ = D" =
    [[⟨false, "A BETWEEN 1 AND 2"⟩, ⟨true, "B = ' or ' OR [or] = 3"⟩],
      [⟨false, "C /* or ' */ = D"⟩]] := by
  decide +kernel

/-- A text that is read as one operand, whatever stands around it. -/
structure ReadsAs (s : String) (x : Operand) : Prop where
  closed : Closed s
  settled : Scan.after {} (paddedTokens s) = {}
  items_eq : items {} (paddedTokens s) = (paddedTokens s).map .token
  operand_eq : operandOf (paddedTokens s) = x

/-- A text that is read as itself: no connective joins its parts, and it is no negation. -/
def Atomic (s : String) : Prop := ReadsAs s ⟨false, s⟩

instance (s : String) (x : Operand) : Decidable (ReadsAs s x) :=
  decidable_of_iff
    (Closed s ∧ Scan.after {} (paddedTokens s) = {} ∧
      items {} (paddedTokens s) = (paddedTokens s).map .token ∧ operandOf (paddedTokens s) = x)
    ⟨fun ⟨h1, h2, h3, h4⟩ => ⟨h1, h2, h3, h4⟩, fun ⟨h1, h2, h3, h4⟩ => ⟨h1, h2, h3, h4⟩⟩

instance : DecidablePred Atomic := fun s => inferInstanceAs (Decidable (ReadsAs s ⟨false, s⟩))

section
open Position

variable {s t : String} {x : Operand}

theorem paddedTokens_eq (s : String) :
    paddedTokens s = [' '] :: tokens outer s.toList ++ [[' ']] := by
  have hblank : isName ' ' = false := by decide
  have hchars : ' ' :: s.toList ++ [' '] = [] ++ ' ' :: (s.toList ++ ' ' :: []) := rfl
  rw [paddedTokens, hchars, tokens_append_cons hblank, tokens_append_cons hblank]
  rfl

theorem ungrouped_grouped (h : Closed s) : ungrouped ('(' :: s.toList ++ [')']) = s.toList := by
  simp [ungrouped, h]

theorem paddedTokens_not (h : Closed s) :
    paddedTokens ("NOT" ++ " " ++ ("(" ++ s ++ ")")) =
      [[' '], "NOT".toList] ++ (' ' :: ('(' :: s.toList ++ [')']) ++ [' ']).map ([·]) := by
  have hblank : isName ' ' = false := by decide
  have hopen : isName '(' = false := by decide
  have hclose : isName ')' = false := by decide
  have hnot : tokens outer "NOT".toList = ["NOT".toList] := by decide
  have hinside : tokens (.plain 1) s.toList = s.toList.map ([·]) :=
    tokens_deeper (p := outer) (by rw [h]; decide)
  have hchars : ("NOT" ++ " " ++ ("(" ++ s ++ ")")).toList =
      "NOT".toList ++ ' ' :: ([] ++ '(' :: (s.toList ++ ')' :: [])) := by simp
  rw [paddedTokens_eq, hchars, tokens_append_cons hblank, hnot, tokens_append_cons hopen]
  change [' '] :: (["NOT".toList] ++ [' '] :: ([] ++ ['('] ::
    tokens (.plain 1) (s.toList ++ ')' :: []))) ++ [[' ']] = _
  rw [tokens_append_cons hclose, hinside]
  simp [tokens, glyphs]

/-- In parentheses and after a NOT, any condition is read as what it is, negated. -/
theorem Closed.readsAs_not (h : Closed s) :
    ReadsAs ("NOT" ++ " " ++ ("(" ++ s ++ ")")) ⟨true, s⟩ where
  closed := by
    have hdeeper : after (.plain 1) s.toList = .plain 1 := by
      have hclosed : outer.after s.toList ≠ .lost := by
        rw [h]
        decide
      have hafter := after_deeper hclosed
      rw [h] at hafter
      exact hafter
    have hchars : ("NOT" ++ " " ++ ("(" ++ s ++ ")")).toList =
        "NOT (".toList ++ (s.toList ++ [')']) := by simp
    have hnot : outer.after "NOT (".toList = .plain 1 := by decide
    rw [Closed, hchars, after_append, after_append, hnot, hdeeper]
    rfl
  settled := by
    rw [paddedTokens_not h, Scan.after_append, (items_map_singleton _ _).2]
    decide
  items_eq := by
    have hhead : items {} [[' '], "NOT".toList] = [.token [' '], .token "NOT".toList] := by decide
    rw [paddedTokens_not h, items_append, (items_map_singleton _ _).1, hhead, List.map_append]
    simp
  operand_eq := by
    have hafter (ts : List (List Char)) :
        afterNot? ([[' '], "NOT".toList] ++ ts) = some ts := rfl
    have hflatten (cs : List Char) : (cs.map ([·])).flatten = cs := by
      rw [← List.flatMap_def, List.flatMap_singleton']
    rw [paddedTokens_not h, operandOf, hafter]
    simp only [hflatten, unpadded_padded, ungrouped_grouped h, String.ofList_toList]

/-- A connective between blanks parts what is before it from what is after it. -/
theorem items_joined (h : ReadsAs s x) (op : LogicalOp) (t : String) :
    items {} (paddedTokens (s ++ " " ++ (op.keyword ++ " " ++ t))) =
      (paddedTokens s).map .token ++ .connective op :: items {} (paddedTokens t) := by
  have hblank : isName ' ' = false := by decide
  have hkeyword : outer.after op.keyword.toList = outer ∧
      tokens outer op.keyword.toList = [op.keyword.toList] ∧
      Scan.connective? {} (keyword? op.keyword.toList) = some op ∧
      Scan.step {} (keyword? op.keyword.toList) = {} := by
    cases op <;> decide
  have hchars : (s ++ " " ++ (op.keyword ++ " " ++ t)).toList =
      s.toList ++ ' ' :: (op.keyword.toList ++ ' ' :: t.toList) := by simp
  have htokens : paddedTokens (s ++ " " ++ (op.keyword ++ " " ++ t)) =
      paddedTokens s ++ op.keyword.toList :: paddedTokens t := by
    rw [paddedTokens_eq, hchars, tokens_append_cons hblank, h.closed]
    change [' '] :: (_ ++ [' '] :: tokens outer _) ++ _ = _
    rw [tokens_append_cons hblank, hkeyword.1, hkeyword.2.1]
    change [' '] :: (_ ++ [' '] :: ([_] ++ [' '] :: tokens outer _)) ++ _ = _
    simp [paddedTokens_eq]
  rw [htokens, items_append, h.items_eq, h.settled, items, hkeyword.2.2.1, hkeyword.2.2.2]

end

end SearchCondition

namespace Condition
open SearchCondition

/-- A text that is atomic, or any condition if it is to be negated. -/
def WellFormed (c : Condition) : Prop :=
  if c.combinator = .andNot then Closed c.text else SearchCondition.Atomic c.text

instance (c : Condition) : Decidable c.WellFormed := by
  unfold WellFormed
  infer_instance

theorem WellFormed.readsAs {c : Condition} (h : c.WellFormed) : ReadsAs c.opening c.operand := by
  obtain ⟨combinator, text⟩ := c
  cases combinator with
  | andNot => exact Closed.readsAs_not h
  | first => exact h
  | and => exact h
  | or => exact h

def items (c : Condition) : List Item := (paddedTokens c.opening).map .token

theorem clause_cons (c d : Condition) (cs : List Condition) :
    clause c (d :: cs) = c.opening ++ " " ++ (d.connective.keyword ++ " " ++ clause d cs) := by
  rw [clause, List.map_cons, String.intercalate_cons_cons, following_eq,
    String.intercalate_cons_append, clause]

/-- Every connective of a clause is read as one, and nothing else is. -/
theorem items_clause {c : Condition} {cs : List Condition} (h : ∀ x ∈ c :: cs, x.WellFormed) :
    SearchCondition.items {} (paddedTokens (clause c cs)) = joined .connective items c cs := by
  induction cs generalizing c with
  | nil =>
    have hc : c.WellFormed := h c List.mem_cons_self
    have hclause : clause c [] = c.opening := by simp [clause]
    rw [hclause, hc.readsAs.items_eq]
    simp [joined, items]
  | cons d cs ih =>
    obtain ⟨hc, hcs⟩ := List.forall_mem_cons.1 h
    rw [clause_cons, items_joined hc.readsAs, ih hcs, joined_cons]
    rfl

/-- A clause is read as its segments. -/
theorem alternatives_clause {c : Condition} {cs : List Condition}
    (h : ∀ x ∈ c :: cs, x.WellFormed) :
    alternatives (clause c cs) = (segments (c :: cs)).map (·.map operand) := by
  have hoperand {d : Condition} (hd : d.WellFormed) :
      operandOf (d.items.map Item.chars) = d.operand := by
    have hchars : Item.chars ∘ Item.token = id := rfl
    rw [items, List.map_map, hchars, List.map_id, hd.readsAs.operand_eq]
  have hsplit : alternatives (clause c cs) =
      (((joined Item.connective items c cs).splitOn (.connective .or)).map
        (·.splitOn (.connective .and))).map (·.map fun ys => operandOf (ys.map Item.chars)) := by
    rw [alternatives, items_clause h, List.map_map]
    rfl
  rw [hsplit, splitOn_joined (by decide) (by simp [items]), List.map_map]
  simp only [Function.comp_def, List.map_map]
  exact map_segments_congr fun d hd => hoperand (h d hd)

/-- The two ways to read a clause agree where its conditions are fit for both. -/
theorem alternatives_eq_alternativesOf {c : Condition} {cs : List Condition}
    (hwell : ∀ x ∈ c :: cs, x.WellFormed) (hreadable : ∀ x ∈ c :: cs, x.Readable) :
    alternatives (clause c cs) = alternativesOf (clause c cs) := by
  rw [alternatives_clause hwell, alternativesOf_clause hreadable]

def call (c : Condition) : Select.Call := .condition c.combinator c.text

end Condition

namespace Select
open SearchCondition

/-- A run of conditions adds those that are not blank, and nothing else. -/
theorem applyAll_conditions (s : Select) (cs : List Condition) :
    s.applyAll (cs.map Condition.call) =
      .ok { s with conditions := s.conditions ++ cs.filter (!allBlank ·.text) } := by
  induction cs generalizing s with
  | nil => rw [List.filter_nil, List.append_nil]; rfl
  | cons c cs ih =>
    refine applyAll_cons_eq_ok.2 ⟨s.addCondition c.combinator c.text, rfl, ?_⟩
    rw [ih, addCondition]
    by_cases hc : allBlank c.text
    · rw [if_pos hc, List.filter_cons_of_neg (by simp [hc])]
    · rw [if_neg hc, List.filter_cons_of_pos (by simp [hc]), List.append_assoc]
      rfl

/--
The WHERE clause after a run of conditions is read as one of its segments: some of them holds, with
all that it joins. A condition that is blank does not count, and one that is added under a NOT is
negated as a whole.
-/
theorem whereLine_denotes_segments (s : Select) (hs : s.conditions = []) (cs : List Condition) :
    let entries := cs.filter (!allBlank ·.text)
    s.applyAll (cs.map Condition.call) = .ok { s with conditions := entries } ∧
      (whereLine entries = [] ↔ ∀ c ∈ cs, allBlank c.text) ∧
      (entries ≠ [] → (∀ c ∈ entries, c.WellFormed) →
        ∃ text, whereLine entries = ["WHERE " ++ text] ∧
          alternatives text = (Condition.segments entries).map (·.map Condition.operand) ∧
          (alternatives text).flatten.map Operand.text = entries.map Condition.text ∧
          ∀ v, holds v (alternatives text) = (Condition.segments entries).any fun segment =>
            segment.all fun c => v c.text != (c.combinator = .andNot)) := by
  intro entries
  refine ⟨?_, ?_, fun hne hwell => ?_⟩
  · rw [applyAll_conditions, hs, List.nil_append]
  · have hnil : whereLine entries = [] ↔ entries = [] := by cases entries <;> simp [whereLine]
    rw [hnil, List.filter_eq_nil_iff]
    simp
  · obtain ⟨c, rest, hentries⟩ := List.exists_cons_of_ne_nil hne
    rw [hentries] at hwell ⊢
    have hread := Condition.alternatives_clause hwell
    refine ⟨Condition.clause c rest, rfl, hread, ?_, fun v => ?_⟩
    · rw [hread, ← List.map_flatten, Condition.flatten_segments, List.map_map]
      rfl
    · rw [hread, holds, List.any_map]
      refine congrArg _ (funext fun segment => ?_)
      rw [Function.comp_apply, List.all_map]
      rfl

/-- The first condition that is not blank opens the clause, whatever it is added with. -/
theorem whereLine_denotes_segments_blank_first :
    let cs : List Condition := [⟨.and, " \t"⟩, ⟨.or, "A BETWEEN 1 AND 2"⟩,
      ⟨.andNot, "B = 1 OR C = 2"⟩, ⟨.andNot, ""⟩, ⟨.or, "D = ' or '"⟩, ⟨.first, "E = 5"⟩]
    let entries := cs.filter (!allBlank ·.text)
    ({} : Select).conditions = [] ∧ entries ≠ [] ∧ (∀ c ∈ entries, c.WellFormed) ∧
      whereLine entries =
        ["WHERE A BETWEEN 1 AND 2 AND NOT (B = 1 OR C = 2) OR D = ' or ' AND E = 5"] ∧
      ∃ text, whereLine entries = ["WHERE " ++ text] ∧ alternatives text =
        [[⟨false, "A BETWEEN 1 AND 2"⟩, ⟨true, "B = 1 OR C = 2"⟩],
          [⟨false, "D = ' or '"⟩, ⟨false, "E = 5"⟩]] := by
  intro cs entries
  have hne : entries ≠ [] := by decide
  have hwell : ∀ c ∈ entries, c.WellFormed := by decide +kernel
  have hsegments : (Condition.segments entries).map (·.map Condition.operand) =
      [[⟨false, "A BETWEEN 1 AND 2"⟩, ⟨true, "B = 1 OR C = 2"⟩],
        [⟨false, "D = ' or '"⟩, ⟨false, "E = 5"⟩]] := by
    decide +kernel
  obtain ⟨_, _, hread⟩ := whereLine_denotes_segments {} rfl cs
  obtain ⟨text, hline, halternatives, _⟩ := hread hne hwell
  exact ⟨rfl, hne, hwell, by decide +kernel, text, hline, halternatives.trans hsegments⟩

end Select

end SqlFilter
