import SqlFilter.Proofs.JsonTexts

/-!
Conditions as JSON values and back. What is written reads as the same condition, however deep,
exactly if all its decimals are finite and every leap second ends its minute; and whatever form a
condition is read from, writing it and reading it again gives the same condition. As a text it is
read up to the greatest depth.
-/
namespace SqlFilter

theorem ValueType.toData_ne_null (type : ValueType) : type.toData ≠ .null := by
  cases type <;> nofun

theorem ComparisonOp.choice?_key (f : Format) (op : ComparisonOp) :
    (Data.text op.key).choice? f keys = some op := by
  cases op <;> rfl

theorem LogicalOp.choice?_key (f : Format) (op : LogicalOp) :
    (Data.text op.key).choice? f keys = some op := by
  cases op <;> rfl

namespace Predicate

mutual

def isKept : Predicate → Bool
  | .comparison _ l r | .logical _ l r => l.isKept && r.isKept
  | .not p | .convert p _ => p.isKept
  | .member _ | .parameter _ => true
  | .constant v _ => v.isKept
  | .conditional t a b => t.isKept && a.isKept && b.isKept
  | .call _ none args => areKept args
  | .call _ (some receiver) args => receiver.isKept && areKept args

def areKept : List Predicate → Bool
  | [] => true
  | p :: ps => p.isKept && areKept ps

end

variable {inner form : TagForm} {p : Predicate}

theorem partOf_data (inner : TagForm) (d : Data) : (partOf inner d).data = d := by
  cases d <;> rfl

theorem lookup_entriesOf (inner : TagForm) (key : String) (fields : List (String × Data)) :
    (entriesOf inner fields).lookup key = (fields.lookup key).map (partOf inner) := by
  induction fields with
  | nil => rfl
  | cons f fields ih =>
    rw [entriesOf, List.lookup_cons, List.lookup_cons, ih]
    split <;> rfl

theorem distinct_entriesOf (inner : TagForm) (keys : List String) (fields : List (String × Data)) :
    Data.distinct keys (entriesOf inner fields) = Data.distinct keys fields := by
  simp only [Data.distinct, entriesOf_eq_map, List.countP_map]
  rfl

/-- A record with its tag in front and no key twice is read by its parts. -/
theorem ofEntries?_node (form inner : TagForm) {tag : String} {kind : NodeKind}
    {fields : List (String × Data)} (htag : tags.lookup tag = some kind)
    (hkeys : Data.distinct ("node" :: partKeys kind) (("node", Data.text tag) :: fields)) :
    ofEntries? form (entriesOf inner (("node", .text tag) :: fields)) =
      ofParts? kind (entriesOf inner (("node", .text tag) :: fields)) := by
  rw [ofEntries?, lookup_entriesOf, List.lookup_cons_self]
  simp only [Option.map_some, Option.bind_eq_bind, Option.bind_some, partOf_data, tag?, htag,
    distinct_entriesOf, hkeys, if_true]

theorem partOf_predicate?
    (h : ∃ fields, p.toData = .record fields ∧
      ∀ form, ofEntries? form (entriesOf inner fields) = some p) :
    (partOf inner p.toData).predicate? = some p := by
  obtain ⟨fields, hfields, hread⟩ := h
  rw [hfields]
  exact hread inner

mutual

/-- A written node is a record whose entries read as the node, with either form of tags. -/
theorem ofEntries?_toData (inner : TagForm) : (p : Predicate) → p.isKept →
    ∃ fields, p.toData = .record fields ∧
      ∀ form, ofEntries? form (entriesOf inner fields) = some p
  | .comparison _ l r, h | .logical _ l r, h => by
    rw [isKept, Bool.and_eq_true] at h
    have hl := partOf_predicate? (ofEntries?_toData inner l h.1)
    have hr := partOf_predicate? (ofEntries?_toData inner r h.2)
    refine ⟨_, rfl, fun form => (ofEntries?_node form inner rfl rfl).trans ?_⟩
    simp [ofParts?, List.lookup, partOf_data, ComparisonOp.choice?_key, LogicalOp.choice?_key,
      hl, hr]
  | .not p, h => by
    have hp := partOf_predicate? (ofEntries?_toData inner p h)
    refine ⟨_, rfl, fun form => (ofEntries?_node form inner rfl rfl).trans ?_⟩
    simp [ofParts?, List.lookup, hp]
  | .member path, _ => ⟨_, rfl, fun form => (ofEntries?_node form inner rfl rfl).trans rfl⟩
  | .constant v none, h => by
    have hv := Value.ofData?_toData .node v h
    refine ⟨_, rfl, fun form => (ofEntries?_node form inner rfl rfl).trans ?_⟩
    simp [ofParts?, List.lookup, partOf_data, hv]
  | .constant v (some type), h => by
    have hv := Value.ofData?_toData .node v h
    refine ⟨_, rfl, fun form => (ofEntries?_node form inner rfl rfl).trans ?_⟩
    simp [ofParts?, List.lookup, partOf_data, hv]
    split
    · next h => cases h
    · next h => exact (type.toData_ne_null (Option.some.inj h)).elim
    · next h =>
      obtain rfl := Option.some.inj h
      rw [ValueType.ofData?_toData]
      rfl
  | .conditional t a b, h => by
    rw [isKept, Bool.and_eq_true, Bool.and_eq_true] at h
    have ht := partOf_predicate? (ofEntries?_toData inner t h.1.1)
    have ha := partOf_predicate? (ofEntries?_toData inner a h.1.2)
    have hb := partOf_predicate? (ofEntries?_toData inner b h.2)
    refine ⟨_, rfl, fun form => (ofEntries?_node form inner rfl rfl).trans ?_⟩
    simp [ofParts?, List.lookup, ht, ha, hb]
  | .call method none args, h => by
    have hargs := list?_toDataList inner args h
    refine ⟨_, rfl, fun form => (ofEntries?_node form inner rfl rfl).trans ?_⟩
    simp [ofParts?, List.lookup, partOf_data, Data.text?, hargs]
  | .call method (some receiver) args, h => by
    rw [isKept, Bool.and_eq_true] at h
    have hreceiver := partOf_predicate? (ofEntries?_toData inner receiver h.1)
    obtain ⟨fields, hfields, -⟩ := ofEntries?_toData inner receiver h.1
    have hargs := list?_toDataList inner args h.2
    refine ⟨_, rfl, fun form => (ofEntries?_node form inner rfl rfl).trans ?_⟩
    rw [hfields] at hreceiver ⊢
    simp [ofParts?, List.lookup, partOf_data, Data.text?, hargs, hreceiver]
  | .convert p target, h => by
    have hp := partOf_predicate? (ofEntries?_toData inner p h)
    refine ⟨_, rfl, fun form => (ofEntries?_node form inner rfl rfl).trans ?_⟩
    simp [ofParts?, List.lookup, partOf_data, ValueType.ofData?_toData, hp]
  | .parameter name, _ => ⟨_, rfl, fun form => (ofEntries?_node form inner rfl rfl).trans rfl⟩

theorem list?_toDataList (inner : TagForm) : (ps : List Predicate) → areKept ps →
    (partOf inner (.list (toDataList ps))).list? = some ps
  | [], _ => rfl
  | p :: ps, h => by
    rw [areKept, Bool.and_eq_true] at h
    have hp := partOf_predicate? (ofEntries?_toData inner p h.1)
    have hps := list?_toDataList inner ps h.2
    simp only [partOf, itemsOf_eq_map] at hps ⊢
    simp [toDataList, hp, hps]

end

mutual

theorem isReadable_toData : (p : Predicate) → p.toData.isReadable
  | .comparison _ l r | .logical _ l r => by
    simp [toData, Data.isReadable, Data.haveReadable, isReadable_toData l, isReadable_toData r]
  | .not p => by simp [toData, Data.isReadable, Data.haveReadable, isReadable_toData p]
  | .member path => rfl
  | .constant v none => by
    simp [toData, Data.isReadable, Data.haveReadable, v.isReadable_toData]
  | .constant v (some type) => by
    simp [toData, Data.isReadable, Data.haveReadable, v.isReadable_toData,
      type.isReadable_toData]
  | .conditional t a b => by
    simp [toData, Data.isReadable, Data.haveReadable, isReadable_toData t, isReadable_toData a,
      isReadable_toData b]
  | .call method none args => by
    simp [toData, Data.isReadable, Data.haveReadable, areReadable_toDataList args]
  | .call method (some receiver) args => by
    simp [toData, Data.isReadable, Data.haveReadable, isReadable_toData receiver,
      areReadable_toDataList args]
  | .convert p target => by
    simp [toData, Data.isReadable, Data.haveReadable, isReadable_toData p,
      target.isReadable_toData]
  | .parameter name => rfl

theorem areReadable_toDataList : (ps : List Predicate) → Data.areReadable (toDataList ps)
  | [] => rfl
  | p :: ps => by
    rw [toDataList, Data.areReadable, isReadable_toData p, areReadable_toDataList ps]
    rfl

end

theorem ofData?_toData (f : Format) (h : p.isKept) : ofData? f p.toData = some p := by
  rw [ofData?, if_pos p.isReadable_toData]
  obtain ⟨fields, hfields, hread⟩ :=
    ofEntries?_toData (if f = .json then .nameOrPosition else .name) p h
  rw [hfields]
  exact hread .name

mutual

theorem json_toData : (p : Predicate) → p.isKept → p.toData.json = p.toData
  | .comparison _ l r, h | .logical _ l r, h => by
    rw [isKept, Bool.and_eq_true] at h
    simp [toData, Data.json, json_toData l h.1, json_toData r h.2]
  | .not p, h => by simp [toData, Data.json, json_toData p h]
  | .member path, _ => rfl
  | .constant v none, h => by simp [toData, Data.json, Value.json_toData v h]
  | .constant v (some type), h => by
    simp [toData, Data.json, Value.json_toData v h, ValueType.json_toData]
  | .conditional t a b, h => by
    rw [isKept, Bool.and_eq_true, Bool.and_eq_true] at h
    simp [toData, Data.json, json_toData t h.1.1, json_toData a h.1.2, json_toData b h.2]
  | .call method none args, h => by
    have hargs := json_toDataList args h
    simp [toData, Data.json, hargs]
  | .call method (some receiver) args, h => by
    rw [isKept, Bool.and_eq_true] at h
    have hargs := json_toDataList args h.2
    simp [toData, Data.json, json_toData receiver h.1, hargs]
  | .convert p target, h => by simp [toData, Data.json, json_toData p h, ValueType.json_toData]
  | .parameter name, _ => rfl

theorem json_toDataList : (ps : List Predicate) → areKept ps →
    (toDataList ps).map Data.json = toDataList ps
  | [], _ => rfl
  | p :: ps, h => by
    rw [areKept, Bool.and_eq_true] at h
    rw [toDataList, List.map_cons, json_toData p h.1, json_toDataList ps h.2]

end

mutual

theorem survivesButDecimals_toData : (p : Predicate) → p.toData.SurvivesButDecimals
  | .comparison _ l r | .logical _ l r => by
    simp [toData, survivesButDecimals_toData l, survivesButDecimals_toData r]
  | .not p => by simp [toData, survivesButDecimals_toData p]
  | .member path => by simp [toData]
  | .constant v none => by simp [toData, v.survivesButDecimals_toData]
  | .constant v (some type) => by
    simp [toData, v.survivesButDecimals_toData, type.survivesButDecimals_toData]
  | .conditional t a b => by
    simp [toData, survivesButDecimals_toData t, survivesButDecimals_toData a,
      survivesButDecimals_toData b]
  | .call method none args => by
    have hargs := survivesButDecimals_toDataList args
    simpa [toData] using hargs
  | .call method (some receiver) args => by
    have hargs := survivesButDecimals_toDataList args
    simpa [toData, survivesButDecimals_toData receiver] using hargs
  | .convert p target => by
    simp [toData, survivesButDecimals_toData p, target.survivesButDecimals_toData]
  | .parameter name => by simp [toData]

theorem survivesButDecimals_toDataList :
    (ps : List Predicate) → ∀ d ∈ toDataList ps, d.SurvivesButDecimals
  | [] => nofun
  | p :: ps => List.forall_mem_cons.2
    ⟨survivesButDecimals_toData p, survivesButDecimals_toDataList ps⟩

end

theorem isKept_call_iff {method : String} {receiver : Option Predicate} {args : List Predicate} :
    (call method receiver args).isKept ↔ (∀ r ∈ receiver, r.isKept) ∧ areKept args := by
  cases receiver <;> simp [isKept]

/-- A part of a node from data with finite decimals only, which JSON keeps. -/
structure Part.IsKept (part : Part) : Prop where
  data : part.data.json = part.data
  predicate : ∀ p, part.predicate? = some p → p.isKept
  list : ∀ ps, part.list? = some ps → areKept ps

variable {inner form : TagForm} {kind : NodeKind} {parts : List (String × Part)} {p : Predicate}

theorem Part.IsKept.of_lookup (h : ∀ e ∈ parts, e.2.IsKept) {key : String} {part : Part}
    (hkey : parts.lookup key = some part) : part.IsKept := by
  obtain ⟨l, r, rfl, -⟩ := List.lookup_eq_some_iff.1 hkey
  exact h (key, part) (List.mem_append_right _ List.mem_cons_self)

theorem exists_of_ofParts?_call (h : ofParts? .call parts = some p) :
    ∃ method receiver args, p = call method receiver args ∧
      (∀ r ∈ receiver, ∃ part, parts.lookup "receiver" = some part ∧ part.predicate? = some r) ∧
      (args = [] ∨ ∃ part, parts.lookup "args" = some part ∧ part.list? = some args) := by
  simp only [ofParts?, Option.bind_eq_bind, Option.bind_eq_some_iff] at h
  obtain ⟨d, -, method, -, h⟩ := h
  refine ⟨method, ?_⟩
  cases hargs : parts.lookup "args" with
  | none =>
    simp only [hargs, Option.bind_some] at h
    split at h
    case h_1 | h_2 => exact ⟨none, [], (Option.some.inj h).symm, nofun, .inl rfl⟩
    case h_3 =>
      simp only [Option.bind_eq_some_iff, Option.map_eq_some_iff, Option.some.injEq] at h
      obtain ⟨_, ⟨r, hr, rfl⟩, rfl⟩ := h
      refine ⟨some r, [], rfl, fun q hq => ?_, .inl rfl⟩
      cases hq
      exact hr
  | some part =>
    simp only [hargs, Option.bind_some] at h
    split at h
    case h_1 | h_2 =>
      obtain ⟨args, hlist, h⟩ := Option.bind_eq_some_iff.1 h
      exact ⟨none, args, (Option.some.inj h).symm, nofun, .inr ⟨part, rfl, hlist⟩⟩
    case h_3 =>
      simp only [Option.bind_eq_some_iff, Option.map_eq_some_iff, Option.some.injEq] at h
      obtain ⟨_, ⟨r, hr, rfl⟩, args, hlist, rfl⟩ := h
      refine ⟨some r, args, rfl, fun q hq => ?_, .inr ⟨part, rfl, hlist⟩⟩
      cases hq
      exact hr

theorem isKept_of_ofParts? (hparts : ∀ e ∈ parts, e.2.IsKept)
    (h : ofParts? kind parts = some p) : p.isKept := by
  have hchild {key : String} {q : Predicate}
      (h : ∃ part, parts.lookup key = some part ∧ part.predicate? = some q) : q.isKept := by
    obtain ⟨part, hpart, hq⟩ := h
    exact (Part.IsKept.of_lookup hparts hpart).predicate q hq
  cases kind with
  | comparison | logical =>
    simp only [ofParts?, Option.bind_eq_bind, Option.bind_eq_some_iff, Option.some.injEq] at h
    obtain ⟨d, -, op, -, l, hl, r, hr, rfl⟩ := h
    rw [isKept, hchild hl, hchild hr]
    rfl
  | not =>
    simp only [ofParts?, Option.bind_eq_bind, Option.bind_eq_some_iff, Option.some.injEq] at h
    obtain ⟨q, hq, rfl⟩ := h
    rw [isKept]
    exact hchild hq
  | memberAccess | parameter =>
    simp only [ofParts?, Option.bind_eq_bind, Option.bind_eq_some_iff, Option.some.injEq] at h
    obtain ⟨d, -, path, -, rfl⟩ := h
    rfl
  | constant =>
    simp only [ofParts?, Option.bind_eq_bind, Option.bind_eq_some_iff] at h
    obtain ⟨d, hd, v, hv, h⟩ := h
    obtain ⟨part, hpart, rfl⟩ := Option.map_eq_some_iff.1 hd
    have hfinite : v.isKept :=
      Value.isKept_of_ofData? _ _ (Part.IsKept.of_lookup hparts hpart).data hv
    split at h
    · cases h
      exact hfinite
    · cases h
      exact hfinite
    · obtain ⟨type, -, h⟩ := Option.bind_eq_some_iff.1 h
      cases h
      exact hfinite
  | conditional =>
    simp only [ofParts?, Option.bind_eq_bind, Option.bind_eq_some_iff, Option.some.injEq] at h
    obtain ⟨t, ht, a, ha, b, hb, rfl⟩ := h
    rw [isKept, hchild ht, hchild ha, hchild hb]
    rfl
  | call =>
    obtain ⟨method, receiver, args, rfl, hreceiver, hargs⟩ := exists_of_ofParts?_call h
    refine isKept_call_iff.2 ⟨fun r hr => hchild (hreceiver r hr), ?_⟩
    obtain rfl | ⟨part, hpart, hlist⟩ := hargs
    · rfl
    · exact (Part.IsKept.of_lookup hparts hpart).list args hlist
  | convert =>
    simp only [ofParts?, Option.bind_eq_bind, Option.bind_eq_some_iff, Option.some.injEq] at h
    obtain ⟨q, hq, d, -, type, -, rfl⟩ := h
    rw [isKept]
    exact hchild hq

theorem isKept_of_ofEntries? (hparts : ∀ e ∈ parts, e.2.IsKept)
    (h : ofEntries? form parts = some p) : p.isKept := by
  simp only [ofEntries?, Option.bind_eq_bind, Option.bind_eq_some_iff] at h
  obtain ⟨part, -, kind, -, h⟩ := h
  split at h
  · exact isKept_of_ofParts? hparts h
  · cases h

theorem isKept_of_ofItems? {items : List Part} (hitems : ∀ part ∈ items, part.IsKept)
    (h : ofItems? form items = some p) : p.isKept := by
  unfold ofItems? at h
  split at h
  · cases h
  · next tag items =>
    obtain ⟨kind, -, h⟩ := Option.bind_eq_some_iff.1 h
    split at h
    · refine isKept_of_ofParts? (fun e he => ?_) h
      exact hitems e.2 (List.mem_cons_of_mem _ (List.of_mem_zip he).2)
    · cases h

theorem areKept_of_mapM {items : List Part} (hitems : ∀ part ∈ items, part.IsKept)
    {ps : List Predicate} (h : items.mapM Part.predicate? = some ps) : areKept ps := by
  induction items generalizing ps with
  | nil =>
    cases h
    rfl
  | cons part items ih =>
    obtain ⟨hpart, hitems⟩ := List.forall_mem_cons.1 hitems
    simp only [List.mapM_cons, Option.bind_eq_bind, Option.bind_eq_some_iff] at h
    obtain ⟨q, hq, qs, hqs, h⟩ := h
    cases h
    rw [areKept, hpart.predicate q hq, ih hitems hqs]
    rfl

mutual

theorem isKept_partOf (inner : TagForm) : (d : Data) → d.json = d → (partOf inner d).IsKept
  | .record fields, hd => by
    have hfields := isKept_entriesOf inner fields (Data.json_record_eq_self_iff.1 hd)
    exact ⟨hd, fun p h => isKept_of_ofEntries? hfields h, nofun⟩
  | .list items, hd => by
    have hitems := isKept_itemsOf inner items (Data.json_list_eq_self_iff.1 hd)
    exact ⟨hd, fun p h => isKept_of_ofItems? hitems h, fun ps h => areKept_of_mapM hitems h⟩
  | .null, hd | .bool _, hd | .integer _, hd | .decimal _, hd | .text _, hd | .unreadable, hd =>
    ⟨hd, nofun, nofun⟩

theorem isKept_entriesOf (inner : TagForm) : (fields : List (String × Data)) →
    (∀ f ∈ fields, f.2.json = f.2) → ∀ e ∈ entriesOf inner fields, e.2.IsKept
  | [], _ => nofun
  | (_, d) :: fields, h => List.forall_mem_cons.2
    ⟨isKept_partOf inner d (List.forall_mem_cons.1 h).1,
      isKept_entriesOf inner fields (List.forall_mem_cons.1 h).2⟩

theorem isKept_itemsOf (inner : TagForm) : (items : List Data) → (∀ d ∈ items, d.json = d) →
    ∀ part ∈ itemsOf inner items, part.IsKept
  | [], _ => nofun
  | d :: ds, h => List.forall_mem_cons.2
    ⟨isKept_partOf inner d (List.forall_mem_cons.1 h).1,
      isKept_itemsOf inner ds (List.forall_mem_cons.1 h).2⟩

end

/-- Where data has only finite decimals, JSON keeps the condition that is read from it. -/
theorem isKept_of_ofData? {f : Format} {d : Data} (hd : d.json = d) (h : ofData? f d = some p) :
    p.isKept := by
  unfold ofData? at h
  split at h
  · unfold ofNode? at h
    split at h
    · exact isKept_of_ofEntries?
        (isKept_entriesOf _ _ (Data.json_record_eq_self_iff.1 hd)) h
    · exact isKept_of_ofItems? (isKept_itemsOf _ _ (Data.json_list_eq_self_iff.1 hd)) h
    · cases h
  · cases h

theorem ofData?_json_of_isKept {p : Predicate} (h : p.isKept) :
    ofData? .json p.toData.json = some p := by
  rw [json_toData p h, ofData?_toData .json h]

/-- The text of a condition is read as its JSON value, up to the greatest depth. -/
theorem ofData?_read?_write (style : Json.Style) {p : Predicate}
    (h : ∀ x, .decimal x ∈ p.toData.scalars → (Data.decimal x).Survives) :
    (Json.read? (Json.write style p.toData)).bind (ofData? .json) =
      if p.toData.depth ≤ Json.greatestDepth then ofData? .json p.toData.json else none := by
  have hscalars : ∀ s ∈ p.toData.scalars, s.Survives := fun s hs => by
    obtain ⟨x, rfl⟩ | hsurvives := survivesButDecimals_toData p s hs
    · exact h x hs
    · exact hsurvives
  rw [Data.read?_write style hscalars, Option.bind_some]
  split
  · next hdepth => rw [Data.within_of_depth_le _ (p.toData.depth_json.trans_le hdepth)]
  · next hdepth =>
    have hunreadable := Data.isReadable_within p.toData.json
      (p.toData.depth_json ▸ Nat.lt_of_not_le hdepth)
    rw [ofData?, hunreadable]
    rfl

/--
A condition reads back from its JSON value exactly if its decimals are finite and every leap second
in it ends its minute. A condition that was read from any JSON value reads back when it is written
again. The JSON text of a condition whose decimals survive as numbers is read as its JSON value,
exactly up to the greatest depth.
-/
theorem json_roundTrip :
    (∀ p, ofData? .json p.toData.json = some p ↔ p.isKept) ∧
    (∀ d p, d.json = d → ofData? .json d = some p → ofData? .json p.toData.json = some p) ∧
    ∀ style (p : Predicate), (∀ x, .decimal x ∈ p.toData.scalars → (Data.decimal x).Survives) →
      (Json.read? (Json.write style p.toData)).bind (ofData? .json) =
        if p.toData.depth ≤ Json.greatestDepth then ofData? .json p.toData.json else none := by
  exact ⟨fun p => ⟨isKept_of_ofData? (Data.json_json _), ofData?_json_of_isKept⟩,
    fun d p hd h => ofData?_json_of_isKept (isKept_of_ofData? hd h),
    fun style p h => ofData?_read?_write style h⟩

/-- The tag stands last, `NULL` and the operator are objects, and one key is not known. -/
def looseData : Data :=
  .record [("extra", .decimal 0.5), ("op", .record [("eq", .null)]),
    ("left", .list [.integer 3, .text "A.B"]),
    ("right", .record [("value", .record [("null", .null)]), ("declared", .null),
      ("node", .text "constant")]),
    ("node", .text "comparison")]

theorem survives_half : (Data.decimal 0.5).Survives := by
  intro _
  have htext : Decimal.Layout.json.text 0.5 = "0.5" := by decide +kernel
  have hscale : Json.scale? 5 (-1) = some 0.5 := by
    have hdown : Json.scaleDown (Nat.toUInt64 5).toFloat 1 = 0.5 := by
      rw [Json.scaleDown]
      decide +kernel
    exact congrArg some hdown
  have hdata : (Json.Numeral.mk false ['0'] (some ['5']) none).data = .decimal 0.5 := by
    have hsignificand : (Json.Numeral.mk false ['0'] (some ['5']) none).significand = (5, -1) := by
      decide
    simp [Json.Numeral.data, Json.Numeral.decimal, hsignificand, hscale, Json.greatestExponent]
  rw [htext]
  exact congrArg (fun d => some (d, [])) hdata

theorem json_roundTrip_looseData :
    let half := Predicate.eq (.member "A") (.lit (.decimal 0.5))
    looseData.json = looseData ∧ ofData? .json looseData = some (.isNull "A.B") ∧
      ofData? .json (isNull "A.B").toData.json = some (.isNull "A.B") ∧
      ofData? .json half.toData.json = some half ∧
      (Json.read? (Json.write .pretty half.toData)).bind (ofData? .json) = some half := by
  intro half
  have hhalf : (0.5 : Float).isFinite := by decide +kernel
  have hjson : looseData.json = looseData := by simp [looseData, Data.json, hhalf]
  have hread : ofData? .json looseData = some (.isNull "A.B") := rfl
  have hkept : half.isKept := by simp [half, lit, eq, isKept, Value.isKept, hhalf]
  have hsurvives : ∀ x, .decimal x ∈ half.toData.scalars → (Data.decimal x).Survives := by
    simp [half, lit, eq, toData, Value.toData, Data.scalars, Data.fieldScalars, survives_half]
  have hvalue := (json_roundTrip.1 half).2 hkept
  have htext := json_roundTrip.2.2 .pretty half hsurvives
  rw [if_pos (by decide), hvalue] at htext
  exact ⟨hjson, hread, json_roundTrip.2.1 _ _ hjson hread, hvalue, htext⟩

/-- A leap second after second 4, which a clock shows as second 5. -/
def leapSecond : DateTime := ⟨⟨2015, 7, 1, rfl⟩, ⟨23, 56, 4, 1333333333, rfl⟩⟩

theorem depth_toData_not (p : Predicate) : p.not.toData.depth = p.toData.depth + 1 := by
  simp [toData, Data.depth, Data.fieldDepth]

theorem depth_toData_iterate_not (n : Nat) (p : Predicate) :
    (not^[n] p).toData.depth = p.toData.depth + n := by
  induction n with
  | zero => rfl
  | succ n ih => rw [Function.iterate_succ_apply', depth_toData_not, ih, Nat.add_assoc]

theorem isKept_iterate_not (n : Nat) {p : Predicate} (h : p.isKept) : (not^[n] p).isKept := by
  induction n with
  | zero => exact h
  | succ n ih => rwa [Function.iterate_succ_apply', isKept]

theorem scalars_toData_iterate_not (n : Nat) (p : Predicate) : ∀ s ∈ (not^[n] p).toData.scalars,
    s = .text "not" ∨ s ∈ p.toData.scalars := by
  induction n with
  | zero => exact fun s hs => .inr hs
  | succ n ih =>
    rw [Function.iterate_succ_apply']
    simpa [toData, Data.scalars, Data.fieldScalars] using ih

/--
No decimal occurs in two conditions. The leap second of one does not end its minute and comes back
as another time; the other is nested too deep and does not come back from its text.
-/
theorem json_loses_leapSecond :
    let p := Predicate.constant (.dateTime leapSecond) none
    let q := not^[127] (.member "A")
    (∀ x, .decimal x ∉ p.toData.scalars ∧ .decimal x ∉ q.toData.scalars) ∧
    ofData? .json p.toData.json =
      some (.constant (.dateTime ⟨⟨2015, 7, 1, rfl⟩, ⟨23, 56, 5, 333333333, rfl⟩⟩) none) ∧
    ofData? .json p.toData.json ≠ some p ∧
    ofData? .json q.toData.json = some q ∧
    ∀ style, (Json.read? (Json.write style q.toData)).bind (ofData? .json) = none := by
  intro p q
  have hp : ofData? .json p.toData.json =
      some (.constant (.dateTime ⟨⟨2015, 7, 1, rfl⟩, ⟨23, 56, 5, 333333333, rfl⟩⟩) none) := rfl
  have hdecimals : ∀ x, .decimal x ∉ q.toData.scalars := fun x hx => by
    simpa [toData, Data.scalars, Data.fieldScalars] using
      scalars_toData_iterate_not 127 (.member "A") _ hx
  have hdepth : q.toData.depth = 128 := depth_toData_iterate_not 127 (.member "A")
  refine ⟨fun x => ⟨?_, hdecimals x⟩, hp, fun h => ?_,
    ofData?_json_of_isKept (isKept_iterate_not 127 rfl), fun style => ?_⟩
  · simp [p, toData, Value.toData, Data.scalars, Data.fieldScalars]
  · have hkept : p.isKept := isKept_of_ofData? (Data.json_json _) h
    cases hkept
  · rw [ofData?_read?_write style fun x hx => absurd hx (hdecimals x),
      if_neg (by rw [hdepth]; decide)]

end Predicate

end SqlFilter
