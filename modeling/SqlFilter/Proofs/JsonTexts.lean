import SqlFilter.Proofs.JsonTokens
import SqlFilter.Proofs.JsonValues

/-!
JSON texts of data. What is written, on one line or on many, reads as what JSON keeps of the data,
except for what is nested too deep.
-/
namespace SqlFilter

namespace Data

mutual

/-- The parts of data that are neither lists nor records, in order. -/
def scalars : Data → List Data
  | .list items => itemScalars items
  | .record fields => fieldScalars fields
  | d => [d]

def itemScalars : List Data → List Data
  | [] => []
  | d :: ds => d.scalars ++ itemScalars ds

def fieldScalars : List (String × Data) → List Data
  | [] => []
  | (_, d) :: fields => d.scalars ++ fieldScalars fields

end

mutual

def depth : Data → Nat
  | .list items => itemDepth items + 1
  | .record fields => fieldDepth fields + 1
  | _ => 0

def itemDepth : List Data → Nat
  | [] => 0
  | d :: ds => max d.depth (itemDepth ds)

def fieldDepth : List (String × Data) → Nat
  | [] => 0
  | (_, d) :: fields => max d.depth (fieldDepth fields)

end

mutual

/-- What is left of data where lists and records are opened up to a depth. -/
def within (depth : Nat) : Data → Data
  | .list items => if depth = 0 then .unreadable else .list (itemsWithin (depth - 1) items)
  | .record fields => if depth = 0 then .unreadable else .record (fieldsWithin (depth - 1) fields)
  | .null => .null
  | .bool b => .bool b
  | .integer n => .integer n
  | .decimal x => .decimal x
  | .text s => .text s
  | .unreadable => .unreadable

def itemsWithin (depth : Nat) : List Data → List Data
  | [] => []
  | d :: ds => d.within depth :: itemsWithin depth ds

def fieldsWithin (depth : Nat) : List (String × Data) → List (String × Data)
  | [] => []
  | (key, d) :: fields => (key, d.within depth) :: fieldsWithin depth fields

end

/-- A scalar that its text is read as: an integer of 64 bits, a finite decimal if its number is. -/
def Survives : Data → Prop
  | .integer n => -Json.greatestBelowZero ≤ n ∧ n ≤ Json.greatestSignificand
  | .decimal x =>
    x.isFinite → Json.takeNumber (Decimal.Layout.json.text x).toList = some (.decimal x, [])
  | .unreadable => False
  | _ => True

def SurvivesButDecimals (d : Data) : Prop := ∀ s ∈ d.scalars, (∃ x, s = .decimal x) ∨ s.Survives

theorem itemScalars_eq_flatMap (items : List Data) : itemScalars items = items.flatMap scalars := by
  induction items with
  | nil => rfl
  | cons d ds ih => rw [itemScalars, ih, List.flatMap_cons]

theorem fieldScalars_eq_flatMap (fields : List (String × Data)) :
    fieldScalars fields = fields.flatMap fun f => f.2.scalars := by
  induction fields with
  | nil => rfl
  | cons f fields ih => rw [fieldScalars, ih, List.flatMap_cons]

@[simp] theorem survivesButDecimals_list {items : List Data} :
    (list items).SurvivesButDecimals ↔ ∀ d ∈ items, d.SurvivesButDecimals := by
  simp only [SurvivesButDecimals, scalars, itemScalars_eq_flatMap, List.forall_mem_flatMap]

@[simp] theorem survivesButDecimals_record {fields : List (String × Data)} :
    (record fields).SurvivesButDecimals ↔ ∀ f ∈ fields, f.2.SurvivesButDecimals := by
  simp only [SurvivesButDecimals, scalars, fieldScalars_eq_flatMap, List.forall_mem_flatMap]

@[simp] theorem survivesButDecimals_text (s : String) : (text s).SurvivesButDecimals := by
  simp [SurvivesButDecimals, scalars, Survives]

@[simp] theorem survivesButDecimals_bool (b : Bool) : (bool b).SurvivesButDecimals := by
  simp [SurvivesButDecimals, scalars, Survives]

@[simp] theorem survivesButDecimals_decimal (x : Float) : (decimal x).SurvivesButDecimals := by
  simp [SurvivesButDecimals, scalars]

@[simp] theorem survivesButDecimals_int64 (n : Int64) : (integer n.toInt).SurvivesButDecimals := by
  have hleast : -9223372036854775808 ≤ n.toInt := n.minValue_le_toInt
  have hgreatest : n.toInt ≤ 9223372036854775807 := n.toInt_le
  simp only [SurvivesButDecimals, scalars, List.forall_mem_singleton, Survives,
    Json.greatestBelowZero, Json.greatestSignificand]
  omega

mutual

theorem depth_json : (d : Data) → d.json.depth = d.depth
  | .decimal x => by by_cases hx : x.isFinite <;> simp [json, hx, depth]
  | .list items => by rw [json, depth, depth, itemDepth_jsonItems items]
  | .record fields => by rw [json, depth, depth, fieldDepth_jsonFields fields]
  | .null | .bool _ | .integer _ | .text _ | .unreadable => rfl

theorem itemDepth_jsonItems : (items : List Data) → itemDepth (jsonItems items) = itemDepth items
  | [] => rfl
  | d :: ds => by rw [jsonItems, itemDepth, itemDepth, depth_json d, itemDepth_jsonItems ds]

theorem fieldDepth_jsonFields :
    (fields : List (String × Data)) → fieldDepth (jsonFields fields) = fieldDepth fields
  | [] => rfl
  | (key, d) :: fields => by
    rw [jsonFields, fieldDepth, fieldDepth, depth_json d, fieldDepth_jsonFields fields]

end

mutual

theorem within_of_depth_le : (d : Data) → ∀ {n : Nat}, d.depth ≤ n → d.within n = d
  | .list items, n, h => by
    rw [depth] at h
    rw [within, if_neg (by omega), itemsWithin_of_itemDepth_le items (by omega)]
  | .record fields, n, h => by
    rw [depth] at h
    rw [within, if_neg (by omega), fieldsWithin_of_fieldDepth_le fields (by omega)]
  | .null, _, _ | .bool _, _, _ | .integer _, _, _ | .decimal _, _, _ | .text _, _, _
  | .unreadable, _, _ => rfl

theorem itemsWithin_of_itemDepth_le :
    (items : List Data) → ∀ {n : Nat}, itemDepth items ≤ n → itemsWithin n items = items
  | [], _, _ => rfl
  | d :: ds, n, h => by
    rw [itemDepth, Nat.max_le] at h
    rw [itemsWithin, within_of_depth_le d h.1, itemsWithin_of_itemDepth_le ds h.2]

theorem fieldsWithin_of_fieldDepth_le : (fields : List (String × Data)) →
    ∀ {n : Nat}, fieldDepth fields ≤ n → fieldsWithin n fields = fields
  | [], _, _ => rfl
  | (key, d) :: fields, n, h => by
    rw [fieldDepth, Nat.max_le] at h
    rw [fieldsWithin, within_of_depth_le d h.1, fieldsWithin_of_fieldDepth_le fields h.2]

end

mutual

/-- What is nested too deep leaves something unreadable behind. -/
theorem isReadable_within : (d : Data) → ∀ {n : Nat}, n < d.depth → (d.within n).isReadable = false
  | .list items, n, h => by
    rw [depth] at h
    rw [within]
    split
    · rfl
    · exact areReadable_itemsWithin items (by omega)
  | .record fields, n, h => by
    rw [depth] at h
    rw [within]
    split
    · rfl
    · exact haveReadable_fieldsWithin fields (by omega)
  | .null, _, h | .bool _, _, h | .integer _, _, h | .decimal _, _, h | .text _, _, h
  | .unreadable, _, h => by cases h

theorem areReadable_itemsWithin : (items : List Data) →
    ∀ {n : Nat}, n < itemDepth items → areReadable (itemsWithin n items) = false
  | [], _, h => by cases h
  | d :: ds, n, h => by
    rw [itemDepth, lt_max_iff] at h
    rw [itemsWithin, areReadable, Bool.and_eq_false_iff]
    exact h.imp (fun h => isReadable_within d h) fun h => areReadable_itemsWithin ds h

theorem haveReadable_fieldsWithin : (fields : List (String × Data)) →
    ∀ {n : Nat}, n < fieldDepth fields → haveReadable (fieldsWithin n fields) = false
  | [], _, h => by cases h
  | (key, d) :: fields, n, h => by
    rw [fieldDepth, lt_max_iff] at h
    rw [fieldsWithin, haveReadable, Bool.and_eq_false_iff]
    exact h.imp (fun h => isReadable_within d h) fun h => haveReadable_fieldsWithin fields h

end

end Data

namespace Json

variable {cs left rest ds : List Char}

theorem toList_stringText (s : String) :
    (stringText s).toList = '"' :: (s.toList.flatMap escaped ++ ['"']) := by
  simp [stringText]

theorem skipBlanks_lineBreak (style : Style) (level : Nat) (cs : List Char) :
    skipBlanks ((lineBreak style level).toList ++ cs) = skipBlanks cs := by
  cases style with
  | compact => rfl
  | pretty =>
    have hblank : ∀ c ∈ (lineBreak .pretty level).toList, isBlank c := by
      simp [lineBreak, isBlank]
    exact List.dropWhile_append_of_pos hblank

theorem takeValue_congr {ds : List Char} (h : skipBlanks cs = skipBlanks ds) (fuel depth : Nat) :
    takeValue fuel depth cs = takeValue fuel depth ds := by
  cases fuel with
  | zero => rfl
  | succ fuel => rw [takeValue, takeValue, h]

theorem takeItems_congr {ds : List Char} (h : skipBlanks cs = skipBlanks ds) (fuel depth : Nat) :
    takeItems fuel depth cs = takeItems fuel depth ds := by
  cases fuel with
  | zero => rfl
  | succ fuel => rw [takeItems, takeItems, takeValue_congr h]

theorem takeEntries_congr {ds : List Char} (h : skipBlanks cs = skipBlanks ds) (fuel depth : Nat) :
    takeEntries fuel depth cs = takeEntries fuel depth ds := by
  cases fuel with
  | zero => rfl
  | succ fuel => rw [takeEntries, takeEntries, h]

theorem endsNumber_of_skipBlanks {c : Char} (h : skipBlanks cs = c :: rest)
    (hc : c ∈ [',', ']', '\x7d']) : EndsNumber cs := by
  intro d hd
  cases cs with
  | nil => cases hd
  | cons e cs =>
    cases hd
    by_cases hblank : isBlank d
    · simp only [isBlank, Bool.or_eq_true, beq_iff_eq] at hblank
      rcases hblank with ((rfl | rfl) | rfl) | rfl <;> decide
    · rw [skipBlanks, List.dropWhile_cons_of_neg hblank] at h
      cases h
      simp only [List.mem_cons, List.not_mem_nil, or_false] at hc
      rcases hc with rfl | rfl | rfl <;> decide

theorem exists_of_takeNumber {r : Data × List Char} (h : takeNumber cs = some r) :
    ∃ c ds, cs = c :: ds ∧ (c = '-' ∨ c.isDigit) := by
  obtain ⟨⟨whole, left⟩, hwhole, -⟩ := Option.bind_eq_some_iff.1 h
  change takeWhole (takeMinus cs).2 = some (whole, left) at hwhole
  cases cs with
  | nil => cases hwhole
  | cons c ds =>
    refine ⟨c, ds, rfl, ?_⟩
    by_contra hc
    obtain ⟨hminus, hdigit⟩ := not_or.1 hc
    have hnone : takeMinus (c :: ds) = (false, c :: ds) := by
      unfold takeMinus
      split
      · simp_all
      · rfl
    rw [hnone] at hwhole
    unfold takeWhole at hwhole
    split at hwhole
    · simp_all
    · simp [takeDigits, hdigit] at hwhole

theorem takeValue_number {d : Data} (h : takeNumber cs = some (d, [])) (hrest : EndsNumber rest)
    (fuel depth : Nat) : takeValue (fuel + 1) depth (cs ++ rest) = some (d, rest) := by
  have hnumber := takeNumber_append hrest h
  obtain ⟨c, ds, rfl, hc⟩ := exists_of_takeNumber h
  have hblank : isBlank c = false := by
    by_contra hblank
    simp only [isBlank, Bool.not_eq_false, Bool.or_eq_true, beq_iff_eq] at hblank
    rcases hblank with ((rfl | rfl) | rfl) | rfl <;> exact absurd hc (by decide)
  have hskip : skipBlanks (c :: ds ++ rest) = c :: (ds ++ rest) := by
    simp [skipBlanks, hblank]
  rw [takeValue, hskip]
  split
  case h_7 => exact hnumber
  all_goals
    next heq =>
    obtain ⟨rfl, -⟩ := List.cons.inj heq
    exact absurd hc (by decide)

theorem takeValue_lineBreak (style : Style) (level fuel depth : Nat) (cs : List Char) :
    takeValue fuel depth ((lineBreak style level).toList ++ cs) = takeValue fuel depth cs :=
  takeValue_congr (skipBlanks_lineBreak style level cs) fuel depth

theorem skipBlanks_skipBlanks (cs : List Char) : skipBlanks (skipBlanks cs) = skipBlanks cs :=
  List.dropWhile_idempotent _ _

theorem takeValue_list {fuel depth : Nat} {items : List Data}
    (h : takeItems fuel (depth - 1) cs = some (items, rest)) :
    takeValue (fuel + 1) depth ('[' :: cs) = some (nested depth (.list items), rest) := by
  have hskip := (takeItems_congr (skipBlanks_skipBlanks cs) fuel (depth - 1)).trans h
  have hopen : skipBlanks ('[' :: cs) = '[' :: cs := rfl
  rw [takeValue, hopen]
  split
  case h_5 heq =>
    cases heq
    split
    · next hclose =>
      -- No item begins with the closing bracket.
      rw [hclose] at hskip
      cases fuel with
      | zero => cases hskip
      | succ fuel =>
        obtain ⟨r, hvalue, -⟩ := Option.bind_eq_some_iff.1 hskip
        cases fuel <;> cases hvalue
    · rw [hskip]
      rfl
  all_goals simp_all

theorem takeValue_record {fuel depth : Nat} {fields : List (String × Data)}
    (h : takeEntries fuel (depth - 1) cs = some (some fields, rest)) :
    takeValue (fuel + 1) depth ('\x7b' :: cs) = some (nested depth (.record fields), rest) := by
  have hskip := (takeEntries_congr (skipBlanks_skipBlanks cs) fuel (depth - 1)).trans h
  have hopen : skipBlanks ('\x7b' :: cs) = '\x7b' :: cs := rfl
  rw [takeValue, hopen]
  split
  case h_6 heq =>
    cases heq
    split
    · next hclose =>
      rw [hclose] at hskip
      cases fuel <;> cases hskip
    · rw [hskip]
      rfl
  all_goals simp_all

/-- An entry is the last one, or there are more behind a comma. -/
theorem takeEntries_key (style : Style) (key : String) {d : Data} {left : List Char}
    {fuel depth : Nat} (hvalue : takeValue fuel depth cs = some (d, left)) :
    let text := (stringText key).toList ++ ((colon style).toList ++ cs)
    (skipBlanks left = '\x7d' :: rest →
      takeEntries (fuel + 1) depth text = some (some [(key, d)], rest)) ∧
    ∀ later fields, skipBlanks left = ',' :: later →
      takeEntries fuel depth later = some (some fields, rest) →
      takeEntries (fuel + 1) depth text = some (some ((key, d) :: fields), rest) := by
  intro text
  obtain ⟨ds, hcolon, hds⟩ : ∃ ds, (colon style).toList ++ cs = ':' :: ds ∧
      takeValue fuel depth ds = some (d, left) := by
    cases style with
    | compact => exact ⟨cs, rfl, hvalue⟩
    | pretty =>
      have hskip : skipBlanks (' ' :: cs) = skipBlanks cs := rfl
      exact ⟨' ' :: cs, rfl, (takeValue_congr hskip fuel depth).trans hvalue⟩
  have htext : text = '"' :: (key.toList.flatMap escaped ++ '"' :: ':' :: ds) := by
    simp [text, toList_stringText, hcolon]
  have hkey := takeString_flatMap_escaped key.toList (':' :: ds)
  have hquote (cs : List Char) : skipBlanks ('"' :: cs) = '"' :: cs := rfl
  have hskip : skipBlanks (':' :: ds) = ':' :: ds := rfl
  rw [htext, takeEntries]
  constructor
  · intro hleft
    simp [hquote, hkey, hskip, hds, hleft]
  · intro later fields hleft hlater
    simp [hquote, hkey, hskip, hds, hleft, hlater]

def lines (style : Style) (level : Nat) (parts : List String) : List Char :=
  (lineBreak style level ++ ("," ++ lineBreak style level).intercalate parts).toList

theorem lines_singleton (style : Style) (level : Nat) (s : String) :
    lines style level [s] = (lineBreak style level).toList ++ s.toList := by
  simp [lines]

theorem lines_cons_cons (style : Style) (level : Nat) (s t : String) (parts : List String) :
    lines style level (s :: t :: parts) =
      (lineBreak style level).toList ++ (s.toList ++ ',' :: lines style level (t :: parts)) := by
  simp [lines, String.intercalate_cons_cons]

theorem toList_enclosed_cons (style : Style) (level : Nat) (opening closing : String)
    (s : String) (parts : List String) :
    (enclosed style level opening closing (s :: parts)).toList =
      opening.toList ++ (lines style (level + 1) (s :: parts) ++
        ((lineBreak style level).toList ++ closing.toList)) := by
  simp [enclosed, lines]

end Json

namespace Data
open Json

theorem takeValue_textAt_scalar (style : Style) (level fuel depth : Nat) {d : Data}
    (hlist : ∀ items, d ≠ .list items) (hrecord : ∀ fields, d ≠ .record fields) (h : d.Survives)
    {rest : List Char} (hrest : EndsNumber rest) :
    takeValue (fuel + 1) depth ((textAt style level d).toList ++ rest) =
      some (d.json.within depth, rest) := by
  cases d with
  | null => simp [textAt, takeValue, skipBlanks, isBlank, json, within]
  | bool b => cases b <;> simp [textAt, takeValue, skipBlanks, isBlank, json, within]
  | integer n =>
    rw [textAt, json, within]
    exact takeValue_number (takeNumber_toString h.1 h.2) hrest fuel depth
  | decimal x =>
    rw [textAt, json]
    split
    · next hx =>
      rw [within]
      exact takeValue_number (h hx) hrest fuel depth
    · next hx =>
      rw [FiniteDecimals.text_of_not_isFinite hx]
      simp [takeValue, skipBlanks, isBlank, within]
  | text s =>
    have htext := takeString_flatMap_escaped s.toList rest
    rw [textAt, toList_stringText]
    simp [takeValue, skipBlanks, isBlank, takeText, htext, json, within]
  | unreadable => cases h
  | list items => exact absurd rfl (hlist items)
  | record fields => exact absurd rfl (hrecord fields)

mutual

theorem takeValue_textAt (style : Style) : (d : Data) → (∀ s ∈ d.scalars, s.Survives) →
    ∀ (level fuel depth : Nat) {rest : List Char}, EndsNumber rest →
    2 * ((textAt style level d).toList ++ rest).length ≤ fuel →
    takeValue (fuel + 1) depth ((textAt style level d).toList ++ rest) =
      some (d.json.within depth, rest)
  | .list [], _ => by
    intro level fuel depth rest _ _
    simp [textAt, itemTexts, enclosed, takeValue, skipBlanks, isBlank, json, jsonItems, within,
      itemsWithin, nested]
  | .list (d :: ds), h => by
    intro level fuel depth rest _ hfuel
    have htext : (textAt style level (.list (d :: ds))).toList ++ rest =
        '[' :: (lines style (level + 1) (itemTexts style (level + 1) (d :: ds)) ++
          ((lineBreak style level).toList ++ ("]".toList ++ rest))) := by
      rw [textAt, itemTexts, toList_enclosed_cons]
      simp
    have hclose : skipBlanks ((lineBreak style level).toList ++ ("]".toList ++ rest)) =
        ']' :: rest := skipBlanks_lineBreak _ _ _
    rw [htext, List.length_cons] at hfuel
    obtain ⟨fuel, rfl⟩ : ∃ k, fuel = k + 2 := ⟨fuel - 2, by omega⟩
    have hitems := takeItems_itemTexts style (d :: ds) (by simp) h (level + 1) fuel (depth - 1)
      hclose (by omega)
    rw [htext, takeValue_list hitems, json, within, nested]
  | .record [], _ => by
    intro level fuel depth rest _ _
    simp [textAt, fieldTexts, enclosed, takeValue, skipBlanks, isBlank, json, jsonFields, within,
      fieldsWithin, nested]
  | .record ((key, d) :: fields), h => by
    intro level fuel depth rest _ hfuel
    have htext : (textAt style level (.record ((key, d) :: fields))).toList ++ rest =
        '\x7b' :: (lines style (level + 1) (fieldTexts style (level + 1) ((key, d) :: fields)) ++
          ((lineBreak style level).toList ++ ("\x7d".toList ++ rest))) := by
      rw [textAt, fieldTexts, toList_enclosed_cons]
      simp
    have hclose : skipBlanks ((lineBreak style level).toList ++ ("\x7d".toList ++ rest)) =
        '\x7d' :: rest := skipBlanks_lineBreak _ _ _
    rw [htext, List.length_cons] at hfuel
    obtain ⟨fuel, rfl⟩ : ∃ k, fuel = k + 2 := ⟨fuel - 2, by omega⟩
    have hentries := takeEntries_fieldTexts style ((key, d) :: fields) (by simp) h (level + 1) fuel
      (depth - 1) hclose (by omega)
    rw [htext, takeValue_record hentries, json, within, nested]
  | .null, h | .bool _, h | .integer _, h | .decimal _, h | .text _, h | .unreadable, h => by
    intro level fuel depth rest hrest _
    have hd := h _ List.mem_cons_self
    exact takeValue_textAt_scalar style level fuel depth (by simp) (by simp) hd hrest

theorem takeItems_itemTexts (style : Style) : (items : List Data) → items ≠ [] →
    (∀ s ∈ itemScalars items, s.Survives) →
    ∀ (level fuel depth : Nat) {cs rest : List Char}, skipBlanks cs = ']' :: rest →
    2 * (lines style level (itemTexts style level items) ++ cs).length ≤ fuel →
    takeItems (fuel + 2) depth (lines style level (itemTexts style level items) ++ cs) =
      some (itemsWithin depth (jsonItems items), rest)
  | [], hne, _ => absurd rfl hne
  | [d], _, h => by
    intro level fuel depth cs rest hcs hfuel
    have hd := fun s hs => h s (List.mem_append_left _ hs)
    simp only [itemTexts, lines_singleton, List.append_assoc, List.length_append] at hfuel ⊢
    rw [takeItems, takeValue_lineBreak,
      takeValue_textAt style d hd level fuel depth (endsNumber_of_skipBlanks hcs (by decide))
        (by simp only [List.length_append]; omega)]
    simp [hcs, jsonItems, itemsWithin]
  | d :: e :: ds, _, h => by
    intro level fuel depth cs rest hcs hfuel
    have hd := fun s hs => h s (List.mem_append_left _ hs)
    have hds := fun s hs => h s (List.mem_append_right _ hs)
    simp only [itemTexts, lines_cons_cons, List.append_assoc, List.length_append, List.cons_append,
      List.length_cons] at hfuel ⊢
    obtain ⟨fuel, rfl⟩ : ∃ k, fuel = k + 1 := ⟨fuel - 1, by omega⟩
    have ih := takeItems_itemTexts style (e :: ds) (by simp) hds level fuel depth hcs
      (by simp only [itemTexts, List.length_append]; omega)
    rw [itemTexts] at ih
    rw [takeItems, takeValue_lineBreak,
      takeValue_textAt style d hd level (fuel + 1) depth (endsNumber_of_skipBlanks rfl (by decide))
        (by simp only [List.length_append, List.length_cons]; omega)]
    have hcomma (cs : List Char) : skipBlanks (',' :: cs) = ',' :: cs := rfl
    simp only [Option.bind_eq_bind, Option.bind_some, hcomma, ih]
    rfl

theorem takeEntries_fieldTexts (style : Style) : (fields : List (String × Data)) → fields ≠ [] →
    (∀ s ∈ fieldScalars fields, s.Survives) →
    ∀ (level fuel depth : Nat) {cs rest : List Char}, skipBlanks cs = '\x7d' :: rest →
    2 * (lines style level (fieldTexts style level fields) ++ cs).length ≤ fuel →
    takeEntries (fuel + 2) depth (lines style level (fieldTexts style level fields) ++ cs) =
      some (some (fieldsWithin depth (jsonFields fields)), rest)
  | [], hne, _ => absurd rfl hne
  | [(key, d)], _, h => by
    intro level fuel depth cs rest hcs hfuel
    have hd := fun s hs => h s (List.mem_append_left _ hs)
    simp only [fieldTexts, lines_singleton, String.toList_append, List.append_assoc,
      List.length_append] at hfuel ⊢
    have hvalue := takeValue_textAt style d hd level fuel depth
      (endsNumber_of_skipBlanks hcs (by decide)) (by simp only [List.length_append]; omega)
    rw [takeEntries_congr (skipBlanks_lineBreak _ _ _)]
    exact (takeEntries_key style key hvalue).1 hcs
  | (key, d) :: f :: fields, _, h => by
    intro level fuel depth cs rest hcs hfuel
    have hd := fun s hs => h s (List.mem_append_left _ hs)
    have hfields := fun s hs => h s (List.mem_append_right _ hs)
    simp only [fieldTexts, lines_cons_cons, String.toList_append, List.append_assoc,
      List.length_append, List.cons_append, List.length_cons] at hfuel ⊢
    obtain ⟨fuel, rfl⟩ : ∃ k, fuel = k + 1 := ⟨fuel - 1, by omega⟩
    have ih := takeEntries_fieldTexts style (f :: fields) (by simp) hfields level fuel depth hcs
      (by simp only [fieldTexts, List.length_append]; omega)
    rw [fieldTexts] at ih
    rw [takeEntries_congr (skipBlanks_lineBreak _ _ _)]
    refine (takeEntries_key style key (takeValue_textAt style d hd level (fuel + 1) depth
      (endsNumber_of_skipBlanks rfl (by decide)) ?_)).2 _ _ rfl ih
    simp only [List.length_append, List.length_cons]
    omega

end

/-- A text that is written is read as what JSON keeps of its data, up to the greatest depth. -/
theorem read?_write (style : Style) {d : Data} (h : ∀ s ∈ d.scalars, s.Survives) :
    read? (write style d) = some (d.json.within greatestDepth) := by
  have hlength : (textAt style 0 d).toList.length = (textAt style 0 d).length :=
    String.length_toList
  have hvalue := takeValue_textAt style d h 0 (2 * (textAt style 0 d).length) greatestDepth
    (by simp [EndsNumber] : EndsNumber []) (by rw [List.append_nil, hlength])
  rw [List.append_nil] at hvalue
  rw [read?, write, hvalue]
  rfl

end Data

theorem ValueType.survivesButDecimals_toData (type : ValueType) :
    type.toData.SurvivesButDecimals := by
  induction type with
  | list element ih => simpa [toData] using ih
  | _ => simp [toData]

namespace Value

mutual

theorem survivesButDecimals_toData : (v : Value) → v.toData.SurvivesButDecimals
  | .list items => by simpa [toData] using survivesButDecimals_toDataList items
  | .null | .bool _ | .int _ | .decimal _ | .string _ | .dateTime _ => by simp [toData]

theorem survivesButDecimals_toDataList :
    (vs : List Value) → ∀ d ∈ toDataList vs, d.SurvivesButDecimals
  | [] => nofun
  | v :: vs => List.forall_mem_cons.2
    ⟨survivesButDecimals_toData v, survivesButDecimals_toDataList vs⟩

end

end Value

end SqlFilter
