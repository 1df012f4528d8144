import SqlFilter.Proofs.Combination

/-!
The compilation of a combination, criterion by criterion. It visits its criteria one after the other
in one channel, and joins what each of them writes. Whatever puts criteria together makes the same
combination.
-/
namespace SqlFilter

namespace Walk

variable {α β : Type}

theorem run_bind_ok {m : Walk α} {f : α → Walk β} {a : α} {c d : Channel}
    (h : m.run.run c = (.ok a, d)) : (m >>= f).run.run c = (f a).run.run d := by
  simp only [ExceptT.run_bind, StateT.run_bind, h]
  rfl

theorem run_bind_error {m : Walk α} {f : α → Walk β} {cause : Unsupported} {c d : Channel}
    (h : m.run.run c = (.error cause, d)) : (m >>= f).run.run c = (.error cause, d) := by
  simp only [ExceptT.run_bind, StateT.run_bind, h]
  rfl

/-- Steps that are taken in turn end at the first one that fails, or all of them succeed. -/
theorem run_mapM_cases (f : α → Walk β) (l : List α) (c : Channel) :
    (∃ before a after bs d cause e, l = before ++ a :: after ∧
      (before.mapM f).run.run c = (.ok bs, d) ∧ (f a).run.run d = (.error cause, e) ∧
      (l.mapM f).run.run c = (.error cause, e)) ∨
    ∃ bs d, (l.mapM f).run.run c = (.ok bs, d) := by
  induction l generalizing c with
  | nil => exact .inr ⟨[], c, rfl⟩
  | cons a l ih =>
    simp only [List.mapM_cons]
    rcases hfirst : (f a).run.run c with ⟨cause | b, d⟩
    · exact .inl ⟨[], a, l, [], c, cause, d, rfl, rfl, hfirst, run_bind_error hfirst⟩
    · obtain ⟨before, x, after, bs, d', cause, e, rfl, hbefore, hx, hl⟩ | ⟨bs, d', hl⟩ := ih d
      · refine .inl ⟨a :: before, x, after, b :: bs, d', cause, e, rfl, ?_, hx, ?_⟩
        · rw [List.mapM_cons, run_bind_ok hfirst, run_bind_ok hbefore]
          rfl
        · rw [run_bind_ok hfirst, run_bind_error hl]
      · refine .inr ⟨b :: bs, d', ?_⟩
        rw [run_bind_ok hfirst, run_bind_ok hl]
        rfl

end Walk

theorem conjoined_cons_concat (s t : String) (ss : List String) :
    conjoined (s :: (ss ++ [t])) = "(" ++ conjoined (s :: ss) ++ " AND " ++ t ++ ")" :=
  conjoined_concat (List.cons_ne_nil s ss) t

namespace Predicate

theorem visit_of_isAlwaysTrue (policy : ConvertPolicy) {p : Predicate} (h : p.isAlwaysTrue)
    (c : Channel) : (p.visit policy).run.run c = (.ok "1", c) := by
  obtain ⟨declared, rfl⟩ := exists_of_isAlwaysTrue h
  cases c <;> rfl

/-- The base of a combination leaves no text, and no other criterion is left out. -/
theorem visit_combine (policy : ConvertPolicy) (p : Predicate) (ps : List Predicate) :
    (combine (p :: ps)).visit policy = do
      let texts ← (p :: ps).mapM (visit policy)
      return conjoined texts := by
  induction ps using List.reverseRecOn with
  | nil =>
    simp only [List.mapM_cons, List.mapM_nil, bind_assoc, pure_bind]
    rfl
  | append_singleton ps q ih =>
    have hbase : (combine (p :: ps)).isAlwaysTrue = false := isAlwaysTrue_combine _
    have hand (l r : String) : "(" ++ l ++ " " ++ LogicalOp.and.keyword ++ " " ++ r ++ ")" =
        "(" ++ l ++ " AND " ++ r ++ ")" := by
      apply String.toList_injective
      simp [LogicalOp.keyword]
    rw [← List.cons_append, combine_concat, and, visit, if_neg (by simp [hbase]), ih]
    simp only [List.cons_append, List.mapM_cons, List.mapM_append, List.mapM_nil, bind_assoc,
      pure_bind, conjoined_cons_concat, hand]

theorem compileInto_combine (policy : ConvertPolicy) {ps : List Predicate} (hps : ps ≠ [])
    (c : Channel) :
    (combine ps).compileInto policy c =
      (((ps.mapM (visit policy)).run.run c).1.map conjoined,
        ((ps.mapM (visit policy)).run.run c).2) := by
  obtain ⟨p, ps, rfl⟩ := List.exists_cons_of_ne_nil hps
  have hbase : (combine (p :: ps)).isAlwaysTrue = false := isAlwaysTrue_combine _
  rw [compileInto, hbase, if_neg Bool.false_ne_true, visit_combine]
  rcases htexts : ((p :: ps).mapM (visit policy)).run.run c with ⟨cause | texts, d⟩
  · exact Walk.run_bind_error htexts
  · exact Walk.run_bind_ok htexts

end Predicate

namespace Conjunction

inductive Step
  | add (p : Predicate)
  | addIf (wanted : Bool) (p : Predicate)
  deriving Repr

def Step.accepted : Step → List Predicate
  | .add p | .addIf true p => [p]
  | .addIf false _ => []

def apply (c : Conjunction) : Step → Conjunction
  | .add p => c.add p
  | .addIf wanted p => c.addIf wanted p

theorem predicate_ofList (ps : List Predicate) : (ofList ps).predicate = combine ps := by
  induction ps using List.reverseRecOn with
  | nil => rfl
  | append_singleton ps p ih => rw [ofList_concat, add, ih, combine_concat]

theorem size_ofList (ps : List Predicate) : (ofList ps).size = ps.length := by
  induction ps using List.reverseRecOn with
  | nil => rfl
  | append_singleton ps p ih =>
    rw [ofList_concat, add, ih, List.length_append, List.length_singleton]

theorem apply_ofList (ps : List Predicate) (step : Step) :
    (ofList ps).apply step = ofList (ps ++ step.accepted) := by
  cases step with
  | add p => exact (ofList_concat ps p).symm
  | addIf wanted p =>
    cases wanted with
    | true => exact (ofList_concat ps p).symm
    | false => rw [Step.accepted, List.append_nil]; rfl

/-- A run of steps collects the criteria that they add. -/
theorem foldl_apply_ofList (ps : List Predicate) (steps : List Step) :
    steps.foldl apply (ofList ps) = ofList (ps ++ steps.flatMap Step.accepted) := by
  induction steps generalizing ps with
  | nil => simp
  | cons step steps ih => simp [apply_ofList, ih]

theorem isEmpty_ofList (ps : List Predicate) : (ofList ps).isEmpty = ps.isEmpty := by
  rw [isEmpty, size_ofList]
  cases ps <;> rfl

theorem build?_ofList (ps : List Predicate) :
    (ofList ps).build? = if ps = [] then none else some (combine ps) := by
  rw [build?, isEmpty_ofList, predicate_ofList]
  cases ps <;> rfl

end Conjunction

theorem EntityQuery.condition?_eq (q : EntityQuery) :
    q.condition? = if q.criteria = [] then none else some (combine q.criteria) := by
  rw [condition?]
  cases q.criteria <;> rfl

theorem EntityQuery.criteria_foldl_add (q : EntityQuery) (ps : List Predicate) :
    (ps.foldl add q).criteria = q.criteria ++ ps := by
  induction ps generalizing q with
  | nil => simp
  | cons p ps ih => simp [ih, add]

open Predicate Conjunction

/--
From every channel on, a combination compiles as its criteria are visited in turn, a constant true
among them as `1`: it fails with the first one that does and leaves the channel as that one does, or
joins their texts and binds what they bind. The combination is the same whether it is made of a
list, step by step, or by a look-up.
-/
theorem combine_compiles_in_turn (policy : ConvertPolicy) :
    (∀ (p : Predicate) (c : Channel), p.isAlwaysTrue → (p.visit policy).run.run c = (.ok "1", c)) ∧
    (∀ (ps : List Predicate) (c : Channel), ps ≠ [] →
      (∃ before p after texts d cause e, ps = before ++ p :: after ∧
        (before.mapM (visit policy)).run.run c = (.ok texts, d) ∧
        (p.visit policy).run.run d = (.error cause, e) ∧
        (combine ps).compileInto policy c = (.error cause, e)) ∨
      ∃ texts d, (ps.mapM (visit policy)).run.run c = (.ok texts, d) ∧
        (combine ps).compileInto policy c = (.ok (conjoined texts), d)) ∧
    (∀ (ps : List Predicate) (steps : List Step),
      let qs := ps ++ steps.flatMap Step.accepted
      let b := steps.foldl apply (ofList ps)
      b.predicate = combine qs ∧ b.size = qs.length ∧
        b.build? = if b.size = 0 then none else some (combine qs)) ∧
    ∀ (q : EntityQuery) (ps : List Predicate),
      let qs := q.criteria ++ ps
      (ps.foldl EntityQuery.add q).condition? = if qs = [] then none else some (combine qs) := by
  refine ⟨fun p c h => visit_of_isAlwaysTrue policy h c, fun ps c hps => ?_, ?_, ?_⟩
  · rw [compileInto_combine policy hps]
    obtain ⟨before, p, after, texts, d, cause, e, hsplit, hbefore, hp, hall⟩ | ⟨texts, d, hall⟩ :=
      Walk.run_mapM_cases (visit policy) ps c
    · exact .inl ⟨before, p, after, texts, d, cause, e, hsplit, hbefore, hp, by rw [hall]; rfl⟩
    · exact .inr ⟨texts, d, hall, by rw [hall]; rfl⟩
  · intro ps steps qs b
    have hb : b = ofList qs := foldl_apply_ofList ps steps
    rw [hb, predicate_ofList, size_ofList, build?_ofList]
    simp only [List.length_eq_zero_iff, and_self]
  · intro q ps qs
    rw [EntityQuery.condition?_eq, EntityQuery.criteria_foldl_add]

/-- A constant true among bound criteria, and a criterion that fails behind a bound one. -/
theorem combine_compiles_in_turn_bound :
    let start : Channel := .bound ⟨"p", 1, [⟨"@p0", .null, .nVarChar⟩]⟩
    let age := Predicate.eq (.member "Age") (.lit (.int 30))
    let name := Predicate.eq (.member "Name") (.lit (.string "Ann"))
    (∃ d, (combine [age, .always, name]).compileInto .reject start =
        (.ok "(((Age = @p1) AND 1) AND Name = @p2)", d) ∧ d.params.length = 3) ∧
      ∃ d, (combine [age, .parameter "u", name]).compileInto .reject start =
        (.error (.record "u"), d) ∧ d.params.length = 2 := by
  intro start age name
  obtain ⟨-, hcompile, -⟩ := combine_compiles_in_turn .reject
  constructor
  · obtain ⟨_, _, _, _, _, _, _, _, _, _, herror⟩ | ⟨texts, d, hvisits, hok⟩ :=
      hcompile [age, .always, name] start (List.cons_ne_nil _ _)
    · exact nomatch congrArg Prod.fst herror
    · obtain ⟨htexts, rfl⟩ := Prod.mk.inj hvisits
      obtain rfl := Except.ok.inj htexts
      exact ⟨_, hok, rfl⟩
  · obtain ⟨_, _, _, _, _, cause, d, _, _, _, herror⟩ | ⟨_, _, hvisits, _⟩ :=
      hcompile [age, .parameter "u", name] start (List.cons_ne_nil _ _)
    · obtain ⟨hcause, rfl⟩ := Prod.mk.inj herror
      obtain rfl := Except.error.inj hcause
      exact ⟨_, herror, rfl⟩
    · exact nomatch congrArg Prod.fst hvisits

end SqlFilter
