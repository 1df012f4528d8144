import SqlFilter.Proofs.DefinitionParameters
import SqlFilter.Proofs.Nesting

/-!
The meaning of a WHERE clause. Its conditions are written one after the other without parentheses,
so that the clause is read as alternatives, and a condition that is added with AND belongs to the
last of them.
-/
namespace SqlFilter
open Text
open Nesting (outer)

namespace WhereClause

/-- A condition that a clause holds of, perhaps under a NOT. -/
structure Operand where
  negated : Bool := false
  text : String
  deriving DecidableEq, Repr

def Operand.holds (v : String → Bool) (x : Operand) : Bool := v x.text != x.negated

def ungroup (s : String) : String :=
  let inside := String.ofList (s.toList.drop 1).dropLast
  if s = "(" ++ inside ++ ")" ∧ Balanced inside then inside else s

theorem ungroup_parenthesized {s : String} (h : Balanced s) : ungroup ("(" ++ s ++ ")") = s := by
  have hinside : String.ofList ((("(" ++ s ++ ")").toList.drop 1).dropLast) = s := by
    simp
  simp only [ungroup, hinside, h, and_self, if_true]

def Operand.ofWords : List String → Operand
  | "NOT" :: ws => ⟨true, ungroup (" ".intercalate ws)⟩
  | ws => ⟨false, " ".intercalate ws⟩

theorem Operand.ofWords_of_head {ws : List String} (h : ws.head? ≠ some "NOT") :
    ofWords ws = ⟨false, " ".intercalate ws⟩ := by
  unfold ofWords
  split
  · exact absurd rfl h
  · rfl

def operandsOf (ws : List String) : List Operand :=
  (ws.splitOn LogicalOp.and.keyword).map Operand.ofWords

/-- The alternatives of a clause, from its text: NOT binds before AND, and AND before OR. -/
def alternativesOf (s : String) : List (List Operand) :=
  ((words s).splitOn LogicalOp.or.keyword).map operandsOf

def holds (v : String → Bool) (alternatives : List (List Operand)) : Bool :=
  alternatives.any (·.all (·.holds v))

example : alternativesOf "A = 1 AND NOT (B = 2 OR C = 3) OR D IS NOT NULL" =
    [[⟨false, "A = 1"⟩, ⟨true, "B = 2 OR C = 3"⟩], [⟨false, "D IS NOT NULL"⟩]] := by
  decide +kernel

end WhereClause

namespace Condition
open WhereClause

def operand (c : Condition) : Operand := ⟨c.combinator = .andNot, c.text⟩

/-- The connective before a condition that is not the first. -/
def connective (c : Condition) : LogicalOp := if c.combinator = .or then .or else .and

/-- A text that is read as one operand among others. A negated one stands in parentheses. -/
def Readable (c : Condition) : Prop :=
  if c.combinator = .andNot then Balanced c.text
  else Atomic c.text ∧ (words c.text).head? ≠ some "NOT"

instance (c : Condition) : Decidable c.Readable := by
  unfold Readable
  infer_instance

theorem following_eq (c : Condition) :
    c.following = c.connective.keyword ++ " " ++ c.opening := by
  obtain ⟨combinator, text⟩ := c
  cases combinator <;> rfl

variable {c : Condition}

theorem balanced_keyword (op : LogicalOp) : Balanced op.keyword := by cases op <;> decide

theorem words_keyword (op : LogicalOp) : words op.keyword = [op.keyword] := by
  cases op <;> decide

/-- What is written for a condition is read as its operand. -/
theorem Readable.opening (h : c.Readable) :
    Atomic c.opening ∧ Operand.ofWords (words c.opening) = c.operand := by
  obtain ⟨combinator, text⟩ := c
  by_cases hnot : combinator = .andNot
  · subst hnot
    have hbalanced : Balanced text := h
    have hopening : Condition.opening ⟨.andNot, text⟩ = "NOT" ++ " " ++ ("(" ++ text ++ ")") := rfl
    have hwords : words (Condition.opening ⟨.andNot, text⟩) = ["NOT", "(" ++ text ++ ")"] := by
      rw [hopening, words_append_blank (by decide), words_of_unbroken hbalanced.parenthesized.2]
      rfl
    refine ⟨Atomic.spaced (by decide) hbalanced.atomic, ?_⟩
    rw [hwords]
    simp [Operand.ofWords, ungroup_parenthesized hbalanced, operand]
  · have hopening : Condition.opening ⟨combinator, text⟩ = text := by
      cases combinator <;> first | rfl | exact absurd rfl hnot
    obtain ⟨hatomic, hhead⟩ : Atomic text ∧ (words text).head? ≠ some "NOT" := by
      simpa [Readable, hnot] using h
    rw [hopening, Operand.ofWords_of_head hhead, intercalate_words]
    exact ⟨hatomic, by simp [operand, hnot]⟩

theorem Readable.balanced_following (h : c.Readable) : Balanced c.following := by
  rw [following_eq]
  exact ((balanced_keyword _).append (by decide)).append h.opening.1.balanced

/-- The segments of a clause: OR begins one, and all else goes on with the one before. -/
def segments (cs : List Condition) : List (List Condition) :=
  cs.splitBy fun _ c => c.combinator ≠ .or

theorem segments_singleton (c : Condition) : segments [c] = [[c]] := rfl

theorem segments_ne_nil (c : Condition) (cs : List Condition) : segments (c :: cs) ≠ [] :=
  List.splitBy_ne_nil.2 (List.cons_ne_nil c cs)

theorem segments_cons_cons (c d : Condition) (cs : List Condition) :
    segments (c :: d :: cs) =
      match d.connective with
      | .or => [c] :: segments (d :: cs)
      | .and => (segments (d :: cs)).modifyHead (c :: ·) := by
  by_cases hd : d.combinator = .or
  · rw [connective, if_pos hd, segments, ← List.singleton_append,
      List.splitBy_append_cons _ (by simp [hd])]
    rfl
  · rw [connective, if_neg hd]
    exact splitBy_cons_of_rel (by simpa using hd) cs

theorem flatten_segments (cs : List Condition) : (segments cs).flatten = cs :=
  List.flatten_splitBy _ cs

theorem mem_of_mem_segments {cs segment : List Condition} {c : Condition}
    (hs : segment ∈ segments cs) (hc : c ∈ segment) : c ∈ cs := by
  rw [← flatten_segments cs]
  exact List.mem_flatten_of_mem hs hc

theorem map_segments_congr {α : Type} {f g : Condition → α} {cs : List Condition}
    (h : ∀ c ∈ cs, f c = g c) : (segments cs).map (·.map f) = (segments cs).map (·.map g) := by
  refine List.map_congr_left fun segment hs => List.map_congr_left fun c hc => h c ?_
  exact mem_of_mem_segments hs hc

section
variable {α : Type} {op : LogicalOp → α} {f : Condition → List α}

/-- What is read of some conditions, with what is read of their connectives between them. -/
def joined (op : LogicalOp → α) (f : Condition → List α) (c : Condition) (cs : List Condition) :
    List α :=
  f c ++ cs.flatMap fun d => op d.connective :: f d

theorem joined_cons (op : LogicalOp → α) (f : Condition → List α) (c d : Condition)
    (cs : List Condition) :
    joined op f c (d :: cs) = f c ++ op d.connective :: joined op f d cs := by
  simp [joined]

/-- Between the segments stands an OR, and inside of them an AND. -/
theorem joined_eq_intercalate (op : LogicalOp → α) (f : Condition → List α) (c : Condition)
    (cs : List Condition) :
    joined op f c cs = [op .or].intercalate
      ((segments (c :: cs)).map fun segment => [op .and].intercalate (segment.map f)) := by
  induction cs generalizing c with
  | nil => simp [joined, segments_singleton]
  | cons d cs ih =>
    obtain ⟨segment, segments', hsegments⟩ := List.exists_cons_of_ne_nil (segments_ne_nil d cs)
    rw [joined_cons, ih, segments_cons_cons, hsegments]
    cases d.connective with
    | or => simp [List.intercalate_cons_cons]
    | and =>
      have hne : segment ≠ [] := List.ne_nil_of_mem_splitBy (hsegments ▸ List.mem_cons_self)
      obtain ⟨e, segment, rfl⟩ := List.exists_cons_of_ne_nil hne
      cases segments' <;> simp [List.intercalate_cons_cons]

/-- Cut at the ORs and then at the ANDs, a clause is its segments. -/
theorem splitOn_joined [DecidableEq α] (hop : op .or ≠ op .and) {c : Condition}
    {cs : List Condition} (hf : ∀ d ∈ c :: cs, ∀ o, op o ∉ f d) :
    ((joined op f c cs).splitOn (op .or)).map (·.splitOn (op .and)) =
      (segments (c :: cs)).map (·.map f) := by
  have hmem {segment : List Condition} (hs : segment ∈ segments (c :: cs)) (o : LogicalOp) :
      ∀ l ∈ segment.map f, op o ∉ l :=
    List.forall_mem_map.2 fun d hd => hf d (mem_of_mem_segments hs hd) o
  have hor : ∀ l ∈ (segments (c :: cs)).map fun segment => [op .and].intercalate (segment.map f),
      op .or ∉ l :=
    List.forall_mem_map.2 fun segment hs => not_mem_intercalate hop (hmem hs .or)
  rw [joined_eq_intercalate, List.splitOn_intercalate _ hor (by simp [segments_ne_nil]),
    List.map_map]
  refine List.map_congr_left fun segment hs => ?_
  have hne : segment ≠ [] := List.ne_nil_of_mem_splitBy hs
  exact List.splitOn_intercalate _ (hmem hs .and) (by simpa using hne)

end

def clause (c : Condition) (cs : List Condition) : String :=
  " ".intercalate (c.opening :: cs.map following)

theorem words_clause {cs : List Condition} (h : ∀ x ∈ c :: cs, x.Readable) :
    words (clause c cs) = joined LogicalOp.keyword (words ·.opening) c cs := by
  obtain ⟨hc, hcs⟩ := List.forall_mem_cons.1 h
  have hbalanced : ∀ t ∈ c.opening :: cs.map following, Balanced t := by
    refine List.forall_mem_cons.2 ⟨hc.opening.1.balanced, fun t ht => ?_⟩
    obtain ⟨x, hx, rfl⟩ := List.mem_map.1 ht
    exact (hcs x hx).balanced_following
  rw [clause, words_intercalate (by simp) hbalanced, List.flatMap_cons, List.flatMap_map, joined]
  refine congrArg _ (List.flatMap_congr fun x hx => ?_)
  rw [following_eq, words_append_blank (balanced_keyword _), words_keyword]
  rfl

/-- A clause is read as its segments. -/
theorem alternativesOf_clause {cs : List Condition} (h : ∀ x ∈ c :: cs, x.Readable) :
    alternativesOf (clause c cs) = (segments (c :: cs)).map (·.map operand) := by
  have hsplit : alternativesOf (clause c cs) =
      (((joined LogicalOp.keyword (words ·.opening) c cs).splitOn LogicalOp.or.keyword).map
        (·.splitOn LogicalOp.and.keyword)).map (·.map Operand.ofWords) := by
    rw [alternativesOf, words_clause h, List.map_map]
    rfl
  rw [hsplit, splitOn_joined (by decide) fun x hx op => (h x hx).opening.1.keyword_not_mem op,
    List.map_map]
  simp only [Function.comp_def, List.map_map]
  exact map_segments_congr fun x hx => (h x hx).opening.2

end Condition

namespace WhereClause

/-- A clause as it grows: the alternatives that are complete, and the last one, which is not. -/
structure Reading where
  earlier : List (List Operand) := []
  last : List Operand := []
  deriving DecidableEq, Repr

namespace Reading

def alternatives (r : Reading) : List (List Operand) := r.earlier ++ [r.last]

/-- One more condition: OR begins an alternative, all else goes on with the last one. -/
def attach (r : Reading) (c : Condition) : Reading :=
  match c.connective with
  | .or => ⟨r.earlier ++ [r.last], [c.operand]⟩
  | .and => ⟨r.earlier, r.last ++ [c.operand]⟩

/-- The clause of some conditions. Without a condition it holds of every row. -/
def ofConditions : List Condition → Reading
  | [] => {}
  | c :: cs => cs.foldl attach ⟨[], [c.operand]⟩

theorem ofConditions_concat (c x : Condition) (cs : List Condition) :
    ofConditions (c :: (cs ++ [x])) = (ofConditions (c :: cs)).attach x := by
  simp [ofConditions]

/-- Going on from the last alternative, what follows is segments, and the first one joins it. -/
theorem alternatives_foldl_attach (earlier : List (List Operand)) (last : List Operand)
    (c : Condition) (cs : List Condition) :
    (cs.foldl attach ⟨earlier, last ++ [c.operand]⟩).alternatives =
      earlier ++ ((Condition.segments (c :: cs)).map (·.map Condition.operand)).modifyHead
        (last ++ ·) := by
  induction cs generalizing earlier last c with
  | nil => rfl
  | cons d cs ih =>
    obtain ⟨segment, segments, hsegments⟩ :=
      List.exists_cons_of_ne_nil (Condition.segments_ne_nil d cs)
    rw [List.foldl_cons, attach, Condition.segments_cons_cons]
    cases d.connective with
    | or =>
      have hrest := ih (earlier ++ [last ++ [c.operand]]) [] d
      rw [List.nil_append] at hrest
      rw [hrest, hsegments]
      simp
    | and =>
      rw [ih earlier (last ++ [c.operand]) d, hsegments]
      simp

theorem alternatives_ofConditions (c : Condition) (cs : List Condition) :
    (ofConditions (c :: cs)).alternatives =
      (Condition.segments (c :: cs)).map (·.map Condition.operand) := by
  obtain ⟨segment, segments, hsegments⟩ :=
    List.exists_cons_of_ne_nil (Condition.segments_ne_nil c cs)
  rw [ofConditions, ← List.nil_append [c.operand], alternatives_foldl_attach, hsegments]
  simp

end Reading

/-- The line of a clause says what its conditions do, if each of them is read as one operand. -/
theorem exists_whereLine {cs : List Condition} (hne : cs ≠ []) (h : ∀ x ∈ cs, x.Readable) :
    ∃ text, Select.whereLine cs = ["WHERE " ++ text] ∧
      alternativesOf text = (Reading.ofConditions cs).alternatives := by
  cases cs with
  | nil => exact absurd rfl hne
  | cons c cs =>
    refine ⟨Condition.clause c cs, rfl, ?_⟩
    rw [Condition.alternativesOf_clause h, Reading.alternatives_ofConditions]

namespace Reading

variable {v : String → Bool}

theorem holds_alternatives (v : String → Bool) (r : Reading) :
    holds v r.alternatives = (holds v r.earlier || r.last.all (·.holds v)) := by
  simp [holds, alternatives]

/-- Nothing is complete before the first OR. -/
theorem earlier_eq_nil {cs : List Condition} (h : ∀ x ∈ cs.tail, x.combinator ≠ .or) :
    (ofConditions cs).earlier = [] := by
  cases cs with
  | nil => rfl
  | cons c cs =>
    induction cs using List.reverseRecOn with
    | nil => rfl
    | append_singleton cs x ih =>
      have hx : x.combinator ≠ .or := h x (by simp)
      have hand : x.connective = .and := by simp [Condition.connective, hx]
      rw [ofConditions_concat, attach, hand]
      exact ih fun y hy => h y (List.mem_append_left _ hy)

/-- A text that is added with AND is one more operand of the last alternative. -/
theorem ofConditions_append_and (cs : List Condition) (f : String) :
    ofConditions (cs ++ [⟨.and, f⟩]) =
      ⟨(ofConditions cs).earlier, (ofConditions cs).last ++ [⟨false, f⟩]⟩ := by
  cases cs with
  | nil => rfl
  | cons c cs => exact ofConditions_concat c ⟨.and, f⟩ cs

end Reading

/-- What becomes of a clause when a text is added to its conditions with AND. -/
structure Narrows (before after : List Condition) (f : String) : Prop where
  /-- Both lines, where there are any, say what their conditions do. -/
  line : ∀ cs ∈ [before, after], cs ≠ [] → (∀ x ∈ cs, x.Readable) →
    ∃ text, Select.whereLine cs = ["WHERE " ++ text] ∧
      alternativesOf text = (Reading.ofConditions cs).alternatives
  /-- The text is one more operand of the last alternative. -/
  holds : ∀ v, WhereClause.holds v (Reading.ofConditions after).alternatives =
    (WhereClause.holds v (Reading.ofConditions before).earlier ||
      ((Reading.ofConditions before).last.all (·.holds v) && v f))
  /-- The whole clause is restricted but where an earlier alternative holds without the text. -/
  restricts_iff : ∀ v,
    WhereClause.holds v (Reading.ofConditions after).alternatives =
        (WhereClause.holds v (Reading.ofConditions before).alternatives && v f) ↔
      v f ∨ WhereClause.holds v (Reading.ofConditions before).earlier = false
  /-- Without an OR it is restricted everywhere. -/
  restricts : (∀ x ∈ before.tail, x.combinator ≠ .or) → ∀ v,
    WhereClause.holds v (Reading.ofConditions after).alternatives =
      (WhereClause.holds v (Reading.ofConditions before).alternatives && v f)

theorem narrows_append_and (cs : List Condition) (f : String) :
    Narrows cs (cs ++ [⟨.and, f⟩]) f := by
  have hafter (v : String → Bool) :
      holds v (Reading.ofConditions (cs ++ [⟨.and, f⟩])).alternatives =
        (holds v (Reading.ofConditions cs).earlier ||
          ((Reading.ofConditions cs).last.all (·.holds v) && v f)) := by
    rw [Reading.ofConditions_append_and, Reading.holds_alternatives]
    simp [Operand.holds]
  constructor
  case line => exact fun cs _ hne h => exists_whereLine hne h
  case holds => exact hafter
  case restricts_iff =>
    intro v
    rw [hafter, Reading.holds_alternatives]
    cases holds v (Reading.ofConditions cs).earlier <;> cases v f <;> simp
  case restricts =>
    intro h v
    rw [hafter, Reading.holds_alternatives, Reading.earlier_eq_nil h]
    simp [WhereClause.holds]

end WhereClause

namespace Select
open WhereClause

/--
A compiled condition that is added to a statement restricts the last alternative of its WHERE
clause: rows of which an earlier one holds are not restricted. The same goes for the condition of a
definition, among its own conditions.
-/
theorem filter_narrows_last_alternative :
    (∀ (s : Select) (c : CompiledFilter), c.isEmpty = false →
      Narrows s.conditions (s.filter c).conditions (s.stored c).text) ∧
    ∀ (d : QueryDefinition) (compiler : CompileOptions) (o : QueryOptions) (p : Predicate)
      (c : CompiledFilter) (s : Select), d.predicate = some p → compiler.compile p = .ok c →
      c.isEmpty = false → d.compose compiler o = .ok s →
      Narrows (d.conditions.filter (!allBlank ·.text)) s.conditions c.sql := by
  constructor
  · intro s c hc
    rw [conditions_filter, hc]
    exact narrows_append_and s.conditions (s.stored c).text
  · intro d compiler o p c s hp hc hblank hs
    obtain ⟨c', _, hc', _, _, hconditions⟩ := QueryDefinition.compose_eq_ok hs
    have hcompiled : d.compiled compiler = .ok c := by rw [QueryDefinition.compiled, hp, ← hc]
    obtain rfl := Except.ok.inj (hc'.symm.trans hcompiled)
    rw [hconditions, hblank, QueryDefinition.conditions_base]
    exact narrows_append_and _ _

/-- Without an OR before it, the condition restricts the whole clause. -/
theorem filter_narrows_single_alternative :
    let s := (({} : Select).addCondition .first "Owner = 1").addCondition .andNot "Hidden = 1"
    let c : CompiledFilter := ⟨"Tenant = 7", []⟩
    c.isEmpty = false ∧ whereLine (s.filter c).conditions =
        ["WHERE Owner = 1 AND NOT (Hidden = 1) AND Tenant = 7"] ∧
      ∀ v, holds v (Reading.ofConditions (s.filter c).conditions).alternatives =
        (holds v (Reading.ofConditions s.conditions).alternatives && v (s.stored c).text) := by
  intro s c
  have hc : c.isEmpty = false := by decide
  have hline : whereLine (s.filter c).conditions =
      ["WHERE Owner = 1 AND NOT (Hidden = 1) AND Tenant = 7"] := by decide +kernel
  exact ⟨hc, hline, (filter_narrows_last_alternative.1 s c hc).restricts (by decide)⟩

/-- After an OR, a row of the first alternative stays although the condition fails on it. -/
theorem filter_spares_earlier_alternative :
    let s := (({} : Select).addCondition .first "Owner = 1").addCondition .or "Public = 1"
    let c : CompiledFilter := ⟨"Tenant = 7", []⟩
    let v := fun text => text == "Owner = 1"
    CompileOptions.compile {} (.eq (.member "Tenant") (.lit (.int 7))) = .ok c ∧
      whereLine (s.filter c).conditions = ["WHERE Owner = 1 OR Public = 1 AND Tenant = 7"] ∧
      holds v (alternativesOf "Owner = 1 OR Public = 1 AND Tenant = 7") = true ∧
      (holds v (alternativesOf "Owner = 1 OR Public = 1") && v "Tenant = 7") = false := by
  decide +kernel

end Select

end SqlFilter
