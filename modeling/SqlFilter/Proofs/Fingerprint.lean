import Mathlib
import SqlFilter.Data.Names
import SqlFilter.Proofs.Renumbering
import SqlFilter.Repository

/-!
What the fingerprints of queries tell apart. Where no text runs on in a line that could be that of a
parameter, they tell apart all texts and parameters but those values that print alike.
-/
namespace SqlFilter

/-- Lists that stop at the same mark are split by it. -/
theorem append_cons_eq_append_cons_iff {α : Type} {c : α} {a b x y : List α} (ha : c ∉ a)
    (hb : c ∉ b) : a ++ c :: x = b ++ c :: y ↔ a = b ∧ x = y := by
  induction a generalizing b with
  | nil =>
    cases b with
    | nil => simp
    | cons d b =>
      have hd : c ≠ d := fun h => hb (h ▸ List.mem_cons_self)
      simp [hd]
  | cons d a ih =>
    have hd : d ≠ c := fun h => ha (h ▸ List.mem_cons_self)
    cases b with
    | nil => simp [hd]
    | cons e b =>
      have htail := ih (List.not_mem_of_not_mem_cons ha) (List.not_mem_of_not_mem_cons hb)
      simp only [List.cons_append, List.cons.injEq, htail, and_assoc]

namespace SqlType

theorem name_injective : Function.Injective name := by
  have hfind (t : SqlType) : (keys.map Prod.snd).find? (·.name == t.name) = some t := by
    cases t <;> decide
  intro t u h
  have h' := hfind t
  rw [h, hfind u] at h'
  exact (Option.some.inj h').symm

theorem not_mem_name (t : SqlType) : ' ' ∉ t.name.toList ∧ '\n' ∉ t.name.toList := by
  cases t <;> decide

end SqlType

namespace Parameter

variable {p r : Parameter}

theorem toList_text (p : Parameter) :
    p.text.toList = p.name.toList ++ ' ' ::
      (p.type.name.toList ++ ' ' :: '=' :: ' ' :: p.value.text.toList) := by
  have hblank : " ".toList = [' '] := by decide
  have hequals : " = ".toList = [' ', '=', ' '] := by decide
  simp [text, hblank, hequals]

theorem Worded.not_mem_name {c : Char} (h : p.Worded) (hc : Text.isWord c = false)
    (hat : c ≠ '@') : c ∉ p.name.toList := by
  obtain ⟨w, hw, hname⟩ := h
  intro hmem
  rw [hname, String.toList_append, List.mem_append] at hmem
  rcases hmem with hmem | hmem
  · exact hat (by simpa using hmem)
  · have hword := (Placeholder.isWordText_iff.1 hw).2 _ hmem
    rw [hc] at hword
    cases hword

/-- Two parameters have the same text exactly if they differ at most in values that print alike. -/
theorem text_eq_iff (hp : p.Worded) (hr : r.Worded) :
    p.text = r.text ↔ p.name = r.name ∧ p.type = r.type ∧ p.value.text = r.value.text := by
  rw [← String.toList_inj, toList_text, toList_text,
    append_cons_eq_append_cons_iff (hp.not_mem_name (by decide) (by decide))
      (hr.not_mem_name (by decide) (by decide)),
    append_cons_eq_append_cons_iff p.type.not_mem_name.1 r.type.not_mem_name.1]
  simp [String.toList_inj, SqlType.name_injective.eq_iff]

end Parameter

/-- Where `@` stands in the text it is not the first character of a line after the first one. -/
def MarksInLine (s : String) : Prop := ¬ ['\n', '@'] <:+: s.toList

instance (s : String) : Decidable (MarksInLine s) := inferInstanceAs (Decidable (¬ _))

/-- Nothing, or a line that starts with `@`. -/
def StartsLine (cs : List Char) : Prop := cs = [] ∨ ∃ ds, cs = '\n' :: '@' :: ds

theorem eq_nil_of_startsLine {a c x : List Char} (h : ¬ ['\n', '@'] <:+: a ++ c)
    (hcx : StartsLine (c ++ x)) (hx : StartsLine x) : c = [] := by
  cases c with
  | nil => rfl
  | cons d c =>
    obtain hnil | ⟨es, hes⟩ := hcx
    · cases hnil
    · obtain ⟨rfl, hcx⟩ := List.cons_eq_cons.1 hes
      -- The mark after the line break would be the first character of `x`, or in `c` as well.
      cases c with
      | nil =>
        obtain rfl | ⟨fs, rfl⟩ := hx
        · cases hcx
        · exact absurd (List.cons_eq_cons.1 hcx).1 (by decide)
      | cons e c =>
        obtain ⟨rfl, -⟩ := List.cons_eq_cons.1 hcx
        exact (h ⟨a, c, by simp⟩).elim

theorem append_inj_of_startsLine {s t : String} {x y : List Char} (hs : MarksInLine s)
    (ht : MarksInLine t) (hx : StartsLine x) (hy : StartsLine y)
    (h : s.toList ++ x = t.toList ++ y) : s = t ∧ x = y := by
  rw [← String.toList_inj]
  obtain ⟨c, hc, rfl⟩ | ⟨c, hc, rfl⟩ := List.append_eq_append_iff.1 h
  · rw [MarksInLine, hc] at ht
    obtain rfl := eq_nil_of_startsLine ht hx hy
    exact ⟨by simpa using hc.symm, rfl⟩
  · rw [MarksInLine, hc] at hs
    obtain rfl := eq_nil_of_startsLine hs hy hx
    exact ⟨by simpa using hc, rfl⟩

theorem infix_of_not_mem {a b : List Char} (ha : '\n' ∉ a) (h : ['\n', '@'] <:+: a ++ b) :
    ['\n', '@'] <:+: b := by
  induction a with
  | nil => exact h
  | cons c a ih =>
    have hc : '\n' ≠ c := fun h => ha (h ▸ List.mem_cons_self)
    rw [List.cons_append, List.infix_cons_iff, List.cons_prefix_cons] at h
    exact ih (List.not_mem_of_not_mem_cons ha) (h.resolve_left fun h => hc h.1)

namespace Parameter

variable {p r : Parameter}

def lines (ps : List Parameter) : List Char := ps.flatMap fun p => '\n' :: p.text.toList

/-- The name is a word, and the value prints no line of another parameter. -/
def Lined (p : Parameter) : Prop := p.Worded ∧ MarksInLine p.value.text

theorem Lined.marksInLine (h : p.Lined) : MarksInLine p.text := by
  intro hinfix
  have hsplit : p.text.toList =
      (p.name.toList ++ ' ' :: (p.type.name.toList ++ [' ', '=', ' '])) ++
        p.value.text.toList := by
    rw [toList_text]
    simp
  rw [hsplit] at hinfix
  refine h.2 (infix_of_not_mem ?_ hinfix)
  have hname := h.1.not_mem_name (c := '\n') (by decide) (by decide)
  simp [hname, p.type.not_mem_name]

theorem Worded.exists_text (h : p.Worded) : ∃ cs, p.text.toList = '@' :: cs := by
  obtain ⟨w, hw, hname⟩ := h
  rw [toList_text, hname]
  exact ⟨_, by simp; rfl⟩

theorem startsLine_lines {ps : List Parameter} (h : ∀ p ∈ ps, p.Lined) :
    StartsLine (lines ps) := by
  cases ps with
  | nil => exact .inl rfl
  | cons p ps =>
    obtain ⟨cs, hcs⟩ := (h p List.mem_cons_self).1.exists_text
    exact .inr ⟨cs ++ lines ps, by simp [lines, hcs]⟩

/-- Parameters that differ at most in a value that prints alike. -/
def PrintsAlike (p r : Parameter) : Prop :=
  p.name = r.name ∧ p.type = r.type ∧ p.value.text = r.value.text

theorem lines_eq_iff {ps rs : List Parameter} (hps : ∀ p ∈ ps, p.Lined)
    (hrs : ∀ r ∈ rs, r.Lined) : lines ps = lines rs ↔ List.Forall₂ PrintsAlike ps rs := by
  induction ps generalizing rs with
  | nil =>
    cases rs with
    | nil => simp
    | cons r rs => simp [lines]
  | cons p ps ih =>
    cases rs with
    | nil => simp [lines]
    | cons r rs =>
      obtain ⟨hp, hps⟩ := List.forall_mem_cons.1 hps
      obtain ⟨hr, hrs⟩ := List.forall_mem_cons.1 hrs
      have hcons (p : Parameter) (ps : List Parameter) :
          lines (p :: ps) = '\n' :: (p.text.toList ++ lines ps) := rfl
      rw [hcons, hcons, List.forall₂_cons, ← ih hps hrs, PrintsAlike, ← text_eq_iff hp.1 hr.1]
      constructor
      · intro h
        exact append_inj_of_startsLine hp.marksInLine hr.marksInLine (startsLine_lines hps)
          (startsLine_lines hrs) (List.cons_eq_cons.1 h).2
      · rintro ⟨htext, hlines⟩
        rw [htext, hlines]

end Parameter

theorem toList_loop_eq (bytes : ByteArray) (i : Nat) (r : List UInt8) :
    ByteArray.toList.loop bytes i r = r.reverse ++ bytes.data.toList.drop i := by
  fun_induction ByteArray.toList.loop bytes i r with
  | case1 i r h ih =>
    have hi : i < bytes.data.toList.length := by simpa using h
    have hget : bytes.get! i = bytes.data.toList[i] := by
      rw [Array.getElem_toList]
      exact getElem!_pos bytes.data i h
    rw [ih, List.drop_eq_getElem_cons hi, hget]
    simp
  | case2 i r h =>
    have hi : bytes.data.toList.length ≤ i := by simpa using h
    rw [List.drop_eq_nil_of_le hi, List.append_nil]

theorem toList_toUTF8_inj {s t : String} : s.toUTF8.toList = t.toUTF8.toList ↔ s = t := by
  simp only [ByteArray.toList, toList_loop_eq, List.reverse_nil, List.nil_append, List.drop_zero,
    Array.toList_inj]
  constructor
  · exact fun h => String.toByteArray_inj.1 (ByteArray.ext h)
  · exact fun h => h ▸ rfl

theorem Value.bool_inj_of_text {b c : Bool} (h : (bool b).text = (bool c).text) : b = c := by
  have hne : (bool true).text ≠ (bool false).text := by decide
  cases b <;> cases c
  · rfl
  · exact absurd h.symm hne
  · exact absurd h hne
  · rfl

/-- Booleans, whole numbers and strings under their own type, whose text tells what they are. -/
def Parameter.isExact (p : Parameter) : Bool :=
  match p.value with
  | .bool _ | .int _ | .string _ => p.type == SqlType.ofKind p.value
  | _ => false

theorem Parameter.PrintsAlike.eq {p r : Parameter} (h : p.PrintsAlike r) (hp : p.isExact)
    (hr : r.isExact) : p = r := by
  obtain ⟨name, v, type⟩ := p
  obtain ⟨_, w, _⟩ := r
  obtain ⟨rfl, rfl, htext⟩ := h
  suffices v = w by rw [this]
  unfold isExact at hp hr
  cases v with
  | bool b =>
    cases w with
    | bool c => rw [Value.bool_inj_of_text htext]
    | _ => simp_all [SqlType.ofKind]
  | int n =>
    cases w with
    | int m =>
      have h := Int64.toInt_inj.1 (Int.repr_injective htext)
      rw [h]
    | _ => simp_all [SqlType.ofKind]
  | string s =>
    cases w with
    | string t => exact congrArg Value.string htext
    | _ => simp_all [SqlType.ofKind]
  | _ => cases hp

theorem Parameter.eq_of_printsAlike {ps rs : List Parameter} (h : List.Forall₂ PrintsAlike ps rs)
    (hps : ∀ p ∈ ps, p.isExact) (hrs : ∀ r ∈ rs, r.isExact) : ps = rs := by
  induction h with
  | nil => rfl
  | cons h _ ih =>
    obtain ⟨hp, hps⟩ := List.forall_mem_cons.1 hps
    obtain ⟨hr, hrs⟩ := List.forall_mem_cons.1 hrs
    rw [h.eq hp hr, ih hps hrs]

structure PreparedQuery.Lined (q : PreparedQuery) : Prop where
  sql : MarksInLine q.sql
  params : ∀ p ∈ q.params, p.Lined

namespace Repository

theorem toList_fingerprint (q : PreparedQuery) :
    (fingerprint q).toList = q.sql.toList ++ Parameter.lines q.params := by
  have hjoin (ps : List Parameter) :
      (String.join (ps.map fun p => "\n" ++ p.text)).toList = Parameter.lines ps := by
    induction ps with
    | nil => rfl
    | cons p ps ih => simp [String.join_cons, ih, Parameter.lines]
  rw [fingerprint, String.toList_append, hjoin]

theorem fingerprint_eq_iff {q r : PreparedQuery} (hq : q.Lined) (hr : r.Lined) :
    fingerprint q = fingerprint r ↔
      q.sql = r.sql ∧ List.Forall₂ Parameter.PrintsAlike q.params r.params := by
  rw [← String.toList_inj, toList_fingerprint, toList_fingerprint,
    ← Parameter.lines_eq_iff hq.params hr.params]
  constructor
  · exact append_inj_of_startsLine hq.sql hr.sql (Parameter.startsLine_lines hq.params)
      (Parameter.startsLine_lines hr.params)
  · rintro ⟨hsql, hlines⟩
    rw [hsql, hlines]

/--
What is hashed for two queries, where no text runs on in a line that could be that of a parameter,
is the same exactly if they have the same text and their parameters differ at most in values that
print alike. Booleans, whole numbers and strings are told apart.
-/
theorem hashed_eq_iff {q r : PreparedQuery} (hq : q.Lined) (hr : r.Lined) :
    ((fingerprint q).toUTF8.toList = (fingerprint r).toUTF8.toList ↔
      q.sql = r.sql ∧ List.Forall₂ Parameter.PrintsAlike q.params r.params) ∧
    ((∀ p ∈ q.params, p.isExact) → (∀ p ∈ r.params, p.isExact) → q ≠ r →
      (fingerprint q).toUTF8.toList ≠ (fingerprint r).toUTF8.toList) := by
  have hiff := toList_toUTF8_inj.trans (fingerprint_eq_iff hq hr)
  refine ⟨hiff, fun hqe hre hne h => hne ?_⟩
  obtain ⟨hsql, hparams⟩ := hiff.1 h
  have hparams := Parameter.eq_of_printsAlike hparams hqe hre
  cases q
  cases r
  rw [PreparedQuery.mk.injEq]
  exact ⟨hsql, hparams⟩

theorem hashed_eq_iff_number :
    let q (n : Int64) : PreparedQuery :=
      ⟨"SELECT * FROM Users WHERE Id = @Id", [⟨"@Id", .int n, .bigInt⟩]⟩
    (q 1).Lined ∧ (q 2).Lined ∧
      (fingerprint (q 1)).toUTF8.toList ≠ (fingerprint (q 2)).toUTF8.toList := by
  intro q
  have hname : "@Id" = "@" ++ "Id" := by decide
  have hsql : MarksInLine "SELECT * FROM Users WHERE Id = @Id" := by decide
  have hq (n : Int64) (hn : MarksInLine (Value.int n).text) : (q n).Lined :=
    ⟨hsql, List.forall_mem_singleton.2 ⟨⟨"Id", by decide, hname⟩, hn⟩⟩
  have hexact (n : Int64) : ∀ p ∈ (q n).params, p.isExact := List.forall_mem_singleton.2 rfl
  have h1 := hq 1 (by decide)
  have h2 := hq 2 (by decide)
  exact ⟨h1, h2, (hashed_eq_iff h1 h2).2 (hexact 1) (hexact 2) (by decide)⟩

/--
The fraction of a second is not in what is hashed, so that two look-ups share a key. Nor is there a
difference between a line of the statement and that of a parameter.
-/
theorem hashed_eq_of_fraction :
    let sql := "SELECT * FROM Users WHERE CreatedAt = @t"
    let t : DateTime := ⟨⟨2024, 1, 1, rfl⟩, ⟨10, 0, 0, 250000000, rfl⟩⟩
    let u : DateTime := ⟨⟨2024, 1, 1, rfl⟩, ⟨10, 0, 0, 750000000, rfl⟩⟩
    let q (t : DateTime) : PreparedQuery := ⟨sql, [⟨"@t", .dateTime t, .dateTime2⟩]⟩
    (raw sql [.dateTime t]).toOption = some (q t) ∧
    (raw sql [.dateTime u]).toOption = some (q u) ∧ q t ≠ q u ∧
    fingerprint (q t) = fingerprint (q u) ∧
    fingerprint ⟨"SELECT 1\n@a INT = 1", []⟩ =
      fingerprint ⟨"SELECT 1", [⟨"@a", .int 1, .int⟩]⟩ := by
  decide +kernel

end Repository

end SqlFilter
