import SqlFilter.Data.Predicate
import SqlFilter.Proofs.FiniteDecimals
import SqlFilter.Proofs.IsoText

/-!
Data as JSON keeps it, and types and values as data. A value that is written as data reads back, and
where data has only finite decimals, so has a value that is read from it.
-/
namespace SqlFilter

namespace Data

mutual

/-- Data as JSON keeps it: a decimal that is not finite becomes `null`. -/
def json : Data → Data
  | .decimal x => if x.isFinite then .decimal x else .null
  | .list items => .list (jsonItems items)
  | .record fields => .record (jsonFields fields)
  | .null => .null
  | .bool b => .bool b
  | .integer n => .integer n
  | .text s => .text s
  | .unreadable => .unreadable

def jsonItems : List Data → List Data
  | [] => []
  | d :: ds => d.json :: jsonItems ds

def jsonFields : List (String × Data) → List (String × Data)
  | [] => []
  | (key, d) :: fields => (key, d.json) :: jsonFields fields

end

@[simp] theorem jsonItems_eq_map (items : List Data) : jsonItems items = items.map json := by
  induction items with
  | nil => rfl
  | cons d ds ih => simp [jsonItems, ih]

@[simp] theorem jsonFields_eq_map (fields : List (String × Data)) :
    jsonFields fields = fields.map fun f => (f.1, f.2.json) := by
  induction fields with
  | nil => rfl
  | cons f fields ih => simp [jsonFields, ih]

theorem json_list_eq_self_iff {items : List Data} :
    (list items).json = list items ↔ ∀ d ∈ items, d.json = d := by
  rw [json, jsonItems_eq_map, list.injEq]
  conv_lhs => rw [← List.map_id items, List.map_map, List.map_eq_map_iff]
  rfl

theorem json_record_eq_self_iff {fields : List (String × Data)} :
    (record fields).json = record fields ↔ ∀ f ∈ fields, f.2.json = f.2 := by
  rw [json, jsonFields_eq_map, record.injEq]
  conv_lhs => rw [← List.map_id fields, List.map_map, List.map_eq_map_iff]
  simp [Prod.ext_iff]

theorem json_decimal_eq_self_iff {x : Float} :
    (decimal x).json = decimal x ↔ x.isFinite := by
  by_cases h : x.isFinite <;> simp [json, h]

mutual

theorem json_json : (d : Data) → d.json.json = d.json
  | .decimal x => by
    by_cases h : x.isFinite <;> simp [json, h]
  | .list items => json_list_eq_self_iff.2 fun d hd => by
    rw [jsonItems_eq_map] at hd
    obtain ⟨e, he, rfl⟩ := List.mem_map.1 hd
    exact json_json_items items e he
  | .record fields => json_record_eq_self_iff.2 fun f hf => by
    rw [jsonFields_eq_map] at hf
    obtain ⟨e, he, rfl⟩ := List.mem_map.1 hf
    exact json_json_fields fields e he
  | .null | .bool _ | .integer _ | .text _ | .unreadable => rfl

theorem json_json_items : (items : List Data) → ∀ d ∈ items, d.json.json = d.json
  | [] => nofun
  | d :: ds => List.forall_mem_cons.2 ⟨json_json d, json_json_items ds⟩

theorem json_json_fields :
    (fields : List (String × Data)) → ∀ f ∈ fields, f.2.json.json = f.2.json
  | [] => nofun
  | (_, d) :: fields => List.forall_mem_cons.2 ⟨json_json d, json_json_fields fields⟩

end

end Data

theorem ValueType.ofData?_toData (f : Format) (type : ValueType) :
    ofData? f type.toData = some type := by
  induction type with
  | list element ih => rw [toData, ofData?, ih]; rfl
  | _ => rfl

theorem ValueType.json_toData (type : ValueType) : type.toData.json = type.toData := by
  induction type with
  | list element ih => simp [toData, Data.json, ih]
  | _ => rfl

theorem ValueType.isReadable_toData (type : ValueType) : type.toData.isReadable := by
  induction type with
  | list element ih => simp [toData, Data.isReadable, Data.haveReadable, ih]
  | _ => rfl

theorem Int64.int64?_toInt (n : Int64) : (Data.integer n.toInt).int64? = some n := by
  have hrange := And.intro n.minValue_le_toInt n.toInt_le
  rw [Data.int64?, if_pos hrange, Int64.ofInt_toInt]

namespace Value

mutual

/--
Whether JSON keeps a value: all its decimals are finite, and it is in no leap second but one that
ends a minute.
-/
def isKept : Value → Bool
  | .decimal x => x.isFinite
  | .list items => areKept items
  | .dateTime t => t.time.isRegular
  | .null | .bool _ | .int _ | .string _ => true

def areKept : List Value → Bool
  | [] => true
  | v :: vs => v.isKept && areKept vs

end

mutual

theorem ofData?_toData (f : Format) : (v : Value) → v.isKept → ofData? f v.toData = some v
  | .null, _ => by cases f <;> rfl
  | .bool b, _ => rfl
  | .int n, _ => by rw [toData, ofData?, Int64.int64?_toInt]; rfl
  | .decimal x, _ => rfl
  | .string s, _ => rfl
  | .dateTime t, h => by
    rw [toData, ofData?, Data.text?, Option.bind_some, DateTime.ofIsoText?_isoText h]
    rfl
  | .list items, h => by
    rw [toData, ofData?, ofDataList?_toDataList f items h]
    rfl

theorem ofDataList?_toDataList (f : Format) :
    (vs : List Value) → areKept vs → ofDataList? f (toDataList vs) = some vs
  | [], _ => rfl
  | v :: vs, h => by
    rw [areKept, Bool.and_eq_true] at h
    rw [toDataList, ofDataList?, ofData?_toData f v h.1, ofDataList?_toDataList f vs h.2]

end

mutual

theorem isReadable_toData : (v : Value) → v.toData.isReadable
  | .null | .bool _ | .int _ | .decimal _ | .string _ | .dateTime _ => rfl
  | .list items => by
    simp [toData, Data.isReadable, Data.haveReadable, areReadable_toDataList items]

theorem areReadable_toDataList : (vs : List Value) → Data.areReadable (toDataList vs)
  | [] => rfl
  | v :: vs => by
    rw [toDataList, Data.areReadable, isReadable_toData v, areReadable_toDataList vs]
    rfl

end

mutual

theorem json_toData : (v : Value) → v.isKept → v.toData.json = v.toData
  | .decimal x, h => Data.json_record_eq_self_iff.2 (by
    simpa [isKept, Data.json_decimal_eq_self_iff] using h)
  | .list items, h => Data.json_record_eq_self_iff.2 (by
    simpa [Data.json_list_eq_self_iff] using json_toDataList items h)
  | .null, _ | .bool _, _ | .int _, _ | .string _, _ | .dateTime _, _ => rfl

theorem json_toDataList : (vs : List Value) → areKept vs → ∀ d ∈ toDataList vs, d.json = d
  | [], _ => nofun
  | v :: vs, h => by
    rw [areKept, Bool.and_eq_true] at h
    exact List.forall_mem_cons.2 ⟨json_toData v h.1, json_toDataList vs h.2⟩

end

end Value

theorem Data.mem_of_choice?_eq_some {α : Type} {f : Format} {names : List (String × α)} {d : Data}
    {a : α} (h : d.choice? f names = some a) : ∃ s, (s, a) ∈ names := by
  have hlookup {s : String} (h : names.lookup s = some a) : ∃ s, (s, a) ∈ names := by
    obtain ⟨l, r, rfl, -⟩ := List.lookup_eq_some_iff.1 h
    exact ⟨s, List.mem_append_right _ List.mem_cons_self⟩
  unfold choice? at h
  split at h
  · exact hlookup h
  · split at h
    · exact hlookup h
    · cases h
  · cases h

namespace Value

mutual

/-- Where data has only finite decimals, JSON keeps what is read from it. -/
theorem isKept_of_ofData? (f : Format) (d : Data) {v : Value} (hd : d.json = d)
    (h : ofData? f d = some v) : v.isKept := by
  unfold ofData? at h
  split at h
  · obtain ⟨b, -, rfl⟩ := Option.map_eq_some_iff.1 h
    rfl
  · obtain ⟨n, -, rfl⟩ := Option.map_eq_some_iff.1 h
    rfl
  · next d =>
    obtain ⟨x, hx, rfl⟩ := Option.map_eq_some_iff.1 h
    have hfield := Data.json_record_eq_self_iff.1 hd _ List.mem_cons_self
    refine FiniteDecimals.isFinite_of_decimal? (fun y hy => ?_) hx
    subst hy
    exact Data.json_decimal_eq_self_iff.1 hfield
  · obtain ⟨s, -, rfl⟩ := Option.map_eq_some_iff.1 h
    rfl
  · obtain ⟨t, ht, rfl⟩ := Option.map_eq_some_iff.1 h
    obtain ⟨s, -, hs⟩ := Option.bind_eq_some_iff.1 ht
    exact DateTime.isRegular_of_ofIsoText? hs
  · next items =>
    obtain ⟨vs, hvs, rfl⟩ := Option.map_eq_some_iff.1 h
    have hitems := Data.json_record_eq_self_iff.1 hd _ List.mem_cons_self
    exact areKept_of_ofDataList? f items (Data.json_list_eq_self_iff.1 hitems) hvs
  · obtain ⟨s, hs⟩ := Data.mem_of_choice?_eq_some h
    obtain ⟨-, rfl⟩ := Prod.mk.inj (List.mem_singleton.1 hs)
    rfl
termination_by sizeOf d

theorem areKept_of_ofDataList? (f : Format) (ds : List Data) {vs : List Value}
    (hds : ∀ d ∈ ds, d.json = d) (h : ofDataList? f ds = some vs) : areKept vs := by
  cases ds with
  | nil =>
    cases h
    rfl
  | cons d ds =>
    unfold ofDataList? at h
    split at h
    · next v vs' hv hvs =>
      cases h
      obtain ⟨hd, hds⟩ := List.forall_mem_cons.1 hds
      rw [areKept, isKept_of_ofData? f d hd hv, areKept_of_ofDataList? f ds hds hvs]
      rfl
    · cases h
termination_by sizeOf ds

end

end Value

end SqlFilter
