import SqlFilter.Config
import SqlFilter.Repository
import SqlFilter.Proofs.OperandSlots
import SqlFilter.Proofs.ParameterHygiene

/-!
Compiler and scanner agree on placeholders, in both modes: bound literals leave one each, and a
literal in the text leaves none and hides none, unless a string in it holds a quote.
-/
namespace SqlFilter
open Placeholder

def Text.quoteFree (s : String) : Bool := s.toList.all (· != '\'')

theorem Text.quoteFree_append {s t : String} :
    quoteFree (s ++ t) = (quoteFree s && quoteFree t) := by
  simp [quoteFree, List.all_append]

theorem Text.quoteFree_intercalate {separator : String} (h : quoteFree separator)
    {ts : List String} (hts : ∀ t ∈ ts, quoteFree t) : quoteFree (separator.intercalate ts) := by
  induction ts with
  | nil => rfl
  | cons t ts ih =>
    obtain ⟨ht, hts⟩ := List.forall_mem_cons.1 hts
    cases ts with
    | nil => simpa using ht
    | cons u us =>
      rw [String.intercalate_cons_cons, quoteFree_append, quoteFree_append, ht, h, ih hts]
      rfl

namespace Placeholder

/-- The scanner finds nothing in a text, whatever follows but a quote that would go on with it. -/
def Quiet (s : String) : Prop :=
  ∀ rest : List Char, rest.head? ≠ some '\'' → scan (s.toList ++ rest) = scan rest

variable {s t : String}

theorem Quiet.occurrences_eq_nil (h : Quiet s) : occurrences s = [] := by
  have hscan := h [] (by simp)
  rwa [List.append_nil, scan_nil] at hscan

theorem quiet_of_unmarked (h : unmarked s) : Quiet s := fun rest _ => scan_append_of_unmarked h rest

theorem Quiet.after (hs : unmarked s) (ht : Quiet t) : Quiet (s ++ t) := by
  intro rest hr
  rw [String.toList_append, List.append_assoc, scan_append_of_unmarked hs, ht rest hr]

theorem head?_ne_quote_of_separates (hs : Fragment.separates s) (rest : List Char) :
    (s.toList ++ rest).head? ≠ some '\'' := by
  intro h
  have hmarks := Fragment.unmarked_of_separates hs
  cases hc : s.toList with
  | nil => simp [Fragment.separates, hc] at hs
  | cons c cs =>
    rw [hc, List.cons_append, List.head?_cons, Option.some_inj] at h
    rw [unmarked, hc, List.all_cons, h] at hmarks
    cases hmarks

theorem Quiet.join {u : String} (hu : Fragment.separates u) (hs : Quiet s) (ht : Quiet t) :
    Quiet (s ++ u ++ t) := by
  intro rest hr
  have hrest : Quiet (u ++ t) := ht.after (Fragment.unmarked_of_separates hu)
  have hhead := head?_ne_quote_of_separates hu (t.toList ++ rest)
  have htail := hrest rest hr
  rw [String.toList_append, List.append_assoc] at htail
  rw [String.toList_append, String.toList_append, List.append_assoc, List.append_assoc,
    hs _ hhead, htail]

theorem Quiet.before (ht : Fragment.separates t) (hs : Quiet s) : Quiet (s ++ t) := by
  simpa using hs.join ht (quiet_of_unmarked (s := "") rfl)

theorem quiet_intercalate (hs : Fragment.separates s) {ts : List String}
    (h : ∀ t ∈ ts, Quiet t) : Quiet (s.intercalate ts) := by
  induction ts with
  | nil => exact quiet_of_unmarked rfl
  | cons t ts ih =>
    obtain ⟨ht, hts⟩ := List.forall_mem_cons.1 h
    cases ts with
    | nil => simpa using ht
    | cons u us =>
      rw [String.intercalate_cons_cons]
      exact ht.join hs (ih hts)

theorem closeQuote?_of_quoteFree {cs : List Char} (h : cs.all (· != '\'')) {rest : List Char}
    (hr : rest.head? ≠ some '\'') :
    closeQuote? (cs ++ '\'' :: rest) = some (cs ++ ['\''], rest) := by
  induction cs with
  | nil =>
    cases rest with
    | nil => rfl
    | cons c cs =>
      rw [List.nil_append, closeQuote?]
      · rfl
      · intro ds h
        exact hr (by rw [(List.cons.inj h).1]; rfl)
  | cons c cs ih =>
    rw [List.all_cons, Bool.and_eq_true_iff] at h
    obtain ⟨hc, hcs⟩ := h
    rw [List.cons_append, closeQuote?, ih hcs]
    · rfl
    · rintro _ rfl
      cases hc
    · rintro rfl
      cases hc

theorem quiet_quoted (h : Text.quoteFree s) : Quiet (Value.quoted s) := by
  intro rest hr
  have hbefore : Before (.verbatim ('\'' :: (s.toList ++ ['\'']))) rest :=
    .quoted (by simpa using closeQuote?_of_quoteFree h hr)
  have hchars : (Value.quoted s).toList ++ rest =
      (Token.verbatim ('\'' :: (s.toList ++ ['\'']))).chars ++ rest := by
    simp [Value.quoted, Token.chars]
  rw [scan, hchars, tokens_of_before hbefore]
  rfl

/--
Texts that share one pair of quotes, with a quote on both sides of their commas, are quoted texts
with commas between them.
-/
theorem quoted_intercalate {P : String → Prop}
    (hquoted : ∀ {s}, Text.quoteFree s → P (Value.quoted s))
    (hcomma : ∀ {s t}, P s → P t → P (s ++ "," ++ t)) (h : Text.quoteFree s) {ts : List String}
    (hts : ∀ t ∈ ts, Text.quoteFree t) : P (Value.quoted (s ++ "',' ".intercalate ts)) := by
  induction ts generalizing s with
  | nil => simpa using hquoted h
  | cons t ts ih =>
    obtain ⟨ht, hts⟩ := List.forall_mem_cons.1 hts
    have hst : Text.quoteFree (s ++ t) := by rw [Text.quoteFree_append, h, ht]; rfl
    cases ts with
    | nil => simpa using hquoted hst
    | cons u us =>
      -- The first two texts are read as one, up to the quote before the comma.
      have hcut : Value.quoted (s ++ "',' ".intercalate (t :: u :: us)) =
          Value.quoted (s ++ t) ++ "," ++ Value.quoted (" " ++ "',' ".intercalate (u :: us)) := by
        apply String.toList_injective
        simp [Value.quoted, String.intercalate_cons_cons]
      rw [hcut]
      exact hcomma (hquoted hst) (ih (s := " ") rfl hts)

theorem quiet_quoted_intercalate (h : Text.quoteFree s) {ts : List String}
    (hts : ∀ t ∈ ts, Text.quoteFree t) : Quiet (Value.quoted (s ++ "',' ".intercalate ts)) :=
  quoted_intercalate quiet_quoted (fun hs ht => hs.join (by decide) ht) h hts

theorem isMark_of_kind {kind : Char → Bool} (hkind : ['@', '\'', '-'].all (!kind ·)) {c : Char}
    (h : kind c) : isMark c = false := by
  refine isMark_eq_false.2 ⟨?_, ?_, ?_⟩ <;> rintro rfl <;> simp [h] at hkind

theorem isMark_of_isDigit {c : Char} (h : c.isDigit) : isMark c = false :=
  isMark_of_kind (by decide) h

theorem isMark_of_isBlank {c : Char} (h : Text.isBlank c) : isMark c = false :=
  isMark_of_kind (by decide) h

theorem quoteFree_of_unmarked (h : unmarked s) : Text.quoteFree s := by
  rw [unmarked, List.all_eq_true] at h
  refine List.all_eq_true.2 fun c hc => ?_
  have hmark : isMark c = false := by simpa using h c hc
  simpa using (isMark_eq_false.1 hmark).2.1

/-- A text with no mark but a dash that may stand in front of it. -/
def Signed (s : String) : Prop := ∃ t : String, t ≠ "" ∧ unmarked t ∧ (s = t ∨ s = "-" ++ t)

theorem Signed.quoteFree (h : Signed s) : Text.quoteFree s := by
  obtain ⟨t, _, ht, rfl | rfl⟩ := h
  · exact quoteFree_of_unmarked ht
  · rw [Text.quoteFree_append, quoteFree_of_unmarked ht]
    rfl

theorem Signed.quiet (h : Signed s) : Quiet s := by
  obtain ⟨t, hne, ht, rfl | rfl⟩ := h
  · exact quiet_of_unmarked ht
  · intro rest _
    obtain ⟨c, cs, hcs⟩ := List.exists_cons_of_ne_nil (String.toList_eq_nil_iff.not.2 hne)
    have hc : c ≠ '-' := by
      rintro rfl
      rw [unmarked, hcs] at ht
      cases ht
    have hhead : (t.toList ++ rest).head? ≠ some '-' := by simpa [hcs] using hc
    have htoken := tokens_of_before (.dash hhead)
    have hdash : scan ('-' :: (t.toList ++ rest)) = scan (t.toList ++ rest) := by
      change tokens ('-' :: (t.toList ++ rest)) = _ at htoken
      rw [scan, htoken]
      rfl
    rw [String.toList_append]
    exact hdash.trans (scan_append_of_unmarked ht rest)

theorem unmarked_repr (n : Nat) : unmarked n.repr := by
  refine List.all_eq_true.2 fun c hc => ?_
  simp [isMark_of_isDigit (Text.isDigit_of_mem_repr hc)]

theorem signed_toString (n : Int) : Signed (toString n) := by
  cases n with
  | ofNat m => exact ⟨m.repr, Nat.repr_ne_empty, unmarked_repr m, .inl rfl⟩
  | negSucc m => exact ⟨m.succ.repr, Nat.repr_ne_empty, unmarked_repr _, .inr rfl⟩

end Placeholder

theorem Decimal.mem_positionalText {digits : List Char} {e : Int} {c : Char}
    (h : c ∈ positionalText false digits e) : c = '0' ∨ c = '.' ∨ c ∈ digits := by
  unfold positionalText at h
  split at h
  · rcases List.mem_cons.1 h with h | h
    · exact .inl h
    rcases List.mem_cons.1 h with h | h
    · exact .inr (.inl h)
    rcases List.mem_append.1 h with h | h
    · exact .inl (List.eq_of_mem_replicate h)
    · exact .inr (.inr h)
  · simp only at h
    split at h
    · rw [if_neg Bool.false_ne_true, List.append_nil] at h
      rcases List.mem_append.1 h with h | h
      · exact .inr (.inr (List.mem_of_mem_take h))
      · exact .inl (List.eq_of_mem_replicate h)
    · rcases List.mem_append.1 h with h | h
      · exact .inr (.inr (List.mem_of_mem_take h))
      rcases List.mem_cons.1 h with h | h
      · exact .inr (.inl h)
      · exact .inr (.inr (List.mem_of_mem_drop h))

theorem Decimal.isDigit_of_mem_magnitude {m : Nat} {q : Int} {c : Char}
    (h : c ∈ Layout.sql.magnitude m q) : c = '.' ∨ c.isDigit := by
  unfold Layout.magnitude at h
  split at h
  · obtain rfl : c = '0' := List.mem_singleton.1 h
    exact .inr rfl
  · rcases mem_positionalText h with rfl | rfl | hd
    · exact .inr rfl
    · exact .inl rfl
    · exact .inr (isDigit_of_mem_significantDigits hd)

theorem Decimal.isMark_of_mem_magnitude {m : Nat} {q : Int} {c : Char}
    (h : c ∈ Layout.sql.magnitude m q) : isMark c = false := by
  rcases isDigit_of_mem_magnitude h with rfl | hd
  · rfl
  · exact isMark_of_isDigit hd

theorem Decimal.signed_text (x : Float) : Signed (text x) := by
  have hmagnitude (m : Nat) (q : Int) :
      String.ofList (Layout.sql.magnitude m q) ≠ "" ∧
        unmarked (String.ofList (Layout.sql.magnitude m q)) := by
    obtain ⟨c, hc, _⟩ := exists_digit_of_magnitude m q
    constructor
    · intro h
      rw [← String.toList_eq_nil_iff, String.toList_ofList] at h
      exact List.ne_nil_of_mem hc h
    · rw [unmarked, String.toList_ofList, List.all_eq_true]
      exact fun d hd => by simp [isMark_of_mem_magnitude hd]
  unfold text Layout.text
  split
  · exact ⟨"NaN", by decide, by decide, .inl rfl⟩
  · split
    · exact ⟨"inf", by decide, by decide, .inr rfl⟩
    · exact ⟨"inf", by decide, by decide, .inl rfl⟩
  · next m q _ =>
    obtain ⟨hne, hmarks⟩ := hmagnitude m q
    refine ⟨_, hne, hmarks, ?_⟩
    split
    · right
      apply String.toList_injective
      simp
    · exact .inl rfl

theorem quoteFree_zeroPadded (width n : Nat) : (zeroPadded width n).all (· != '\'') := by
  refine List.all_eq_true.2 fun c hc => ?_
  have hdigit : c.isDigit := by
    rcases List.mem_append.1 hc with hc | hc
    · rw [List.eq_of_mem_replicate hc]
      rfl
    · exact Nat.isDigit_of_mem_toDigits (by omega) (by omega) hc
  simpa using (isMark_eq_false.1 (isMark_of_isDigit hdigit)).2.1

theorem DateTime.quoteFree_text (t : DateTime) : Text.quoteFree t.text := by
  have hyear : (Date.yearChars t.date.year).all (· != '\'') := by
    unfold Date.yearChars
    split
    · exact quoteFree_zeroPadded _ _
    · split <;> simp [quoteFree_zeroPadded]
  simp [Text.quoteFree, text, Date.chars, Time.chars, clockChars, hyear, quoteFree_zeroPadded]

namespace Value

mutual

def quoteFree : Value → Bool
  | .string s => Text.quoteFree s
  | .list vs => allQuoteFree vs
  | _ => true

def allQuoteFree : List Value → Bool
  | [] => true
  | v :: vs => v.quoteFree && allQuoteFree vs

end

mutual

theorem quoteFree_text : ∀ {v : Value}, v.quoteFree → Text.quoteFree v.text
  | .null, _ => rfl
  | .bool b, _ => by cases b <;> rfl
  | .int n, _ => (signed_toString n.toInt).quoteFree
  | .decimal x, _ => (Decimal.signed_text x).quoteFree
  | .string _, h => h
  | .dateTime t, _ => t.quoteFree_text
  | .list _, h => Text.quoteFree_intercalate rfl (quoteFree_texts h)

theorem quoteFree_texts : ∀ {vs : List Value}, allQuoteFree vs → ∀ t ∈ texts vs, Text.quoteFree t
  | [], _ => by simp
  | v :: vs, h => by
    obtain ⟨hv, hvs⟩ := Bool.and_eq_true_iff.1 h
    exact List.forall_mem_cons.2 ⟨quoteFree_text hv, quoteFree_texts hvs⟩

end

theorem quiet_quotedAs {s : String} (h : Signed s) (type : ValueType) :
    Quiet (quotedAs type s) := by
  unfold quotedAs
  split
  · exact quiet_quoted h.quoteFree
  · exact h.quiet

theorem quiet_castAsDate {s : String} (h : Text.quoteFree s) : Quiet (castAsDate s) := by
  have hstart : Quiet ("CAST(" ++ quoted s) := (quiet_quoted h).after (by decide)
  exact hstart.before (by decide)

mutual

theorem quiet_literal : ∀ {v : Value}, v.quoteFree → ∀ type, Quiet (v.literal type)
  | .null, _, type | .bool _, _, type =>
    quiet_of_unmarked (Fragment.unmarked_of_staysInline rfl type)
  | .int n, _, type => quiet_quotedAs (signed_toString n.toInt) type
  | .decimal x, _, type => by
    unfold literal
    split
    · exact quiet_quotedAs (Decimal.signed_text x) type
    · exact quiet_of_unmarked rfl
  | .string s, h, type => by
    unfold literal
    split
    · exact quiet_castAsDate h
    · exact quiet_quoted h
  | .dateTime t, _, _ => quiet_castAsDate t.quoteFree_text
  | .list vs, h, type => by
    have hitems := quiet_intercalate (s := ", ") (by decide)
      (quiet_literals h (elementType vs type))
    have hstart := hitems.after (s := "(") (by decide)
    exact hstart.before (by decide)

theorem quiet_literals : ∀ {vs : List Value}, allQuoteFree vs →
    ∀ type, ∀ t ∈ literals vs type, Quiet t
  | [], _, _ => by simp
  | v :: vs, h, type => by
    obtain ⟨hv, hvs⟩ := Bool.and_eq_true_iff.1 h
    exact List.forall_mem_cons.2 ⟨quiet_literal hv type, quiet_literals hvs type⟩

end

theorem quiet_inList {vs : List Value} (h : allQuoteFree vs) (element : ValueType) :
    Quiet (inList vs element) := by
  unfold inList
  split
  · rw [← texts_eq_map]
    simpa using quiet_quoted_intercalate (s := "") rfl (quoteFree_texts h)
  · rw [← literals_eq_map]
    exact quiet_intercalate (by decide) (quiet_literals h element)

end Value

theorem Fragment.joins_quiet : Joins fun f => Quiet f.inlineText where
  nil := quiet_of_unmarked rfl
  fault _ := quiet_of_unmarked rfl
  text {s f} hs hf := by
    have htext : inlineText (.text s :: f) = s ++ f.inlineText := by
      simp [inlineText, Piece.inlineText]
    rw [htext]
    exact hf.after hs
  join {s f g} hs hf hg := by
    have htext : inlineText (f ++ .text s :: g) = f.inlineText ++ s ++ g.inlineText := by
      rw [inlineText_append, String.append_assoc]
      simp [inlineText, Piece.inlineText]
    rw [htext]
    exact hf.join hs hg

namespace Predicate

def holdsNoQuote : Predicate → Bool
  | .constant v _ => v.quoteFree
  | _ => true

def QuoteFree (p : Predicate) : Prop := ∀ q ∈ p.nodes, q.holdsNoQuote

instance (p : Predicate) : Decidable p.QuoteFree :=
  inferInstanceAs (Decidable (∀ q ∈ p.nodes, q.holdsNoQuote = true))

theorem quiet_pieces (policy : ConvertPolicy) {p : Predicate} (hpaths : p.PathsUnmarked)
    (hquotes : p.QuoteFree) : Quiet (p.pieces policy).inlineText := by
  have hleaves : p.LeavesFit fun f => Quiet f.inlineText := by
    constructor
    case member =>
      intro path hm
      have hpath : unmarked path := hpaths path (mem_paths_of_member_mem_nodes hm)
      exact Fragment.joins_quiet.text hpath Fragment.joins_quiet.nil
    case scalar =>
      intro v declared hm
      have hv : v.quoteFree := hquotes _ hm
      simpa [Fragment.inlineText, Piece.inlineText] using Value.quiet_literal hv _
    case items =>
      intro vs declared hm
      have hvs : Value.allQuoteFree vs := hquotes _ hm
      simpa [Fragment.inlineText, Piece.inlineText] using Value.quiet_inList hvs _
  exact joins_pieces Fragment.joins_quiet policy hleaves

end Predicate

theorem eraseDups_of_nodup {l : List String} (h : l.Nodup) : l.eraseDups = l := by
  induction l with
  | nil => rfl
  | cons a l ih =>
    obtain ⟨ha, hl⟩ := List.nodup_cons.1 h
    have hfilter : l.filter (fun b => !b == a) = l := by
      refine List.filter_eq_self.2 fun b hb => ?_
      have hne : b ≠ a := fun h => ha (h ▸ hb)
      simpa using hne
    rw [List.eraseDups_cons, hfilter, ih hl]

namespace CompiledFilter

variable {c : CompiledFilter}

theorem Matched.of_quiet {s : String} (h : Quiet s) : Matched ⟨s, []⟩ := by
  refine ⟨?_, List.nodup_nil⟩
  rw [h.occurrences_eq_nil]
  rfl

theorem Matched.nodup_occurrences (h : c.Matched) : (occurrences c.sql).Nodup := by
  have hnodup := h.nodup
  rw [h.names] at hnodup
  exact hnodup.of_map _

theorem Matched.names_eq (h : c.Matched) : Placeholder.names c.sql = occurrences c.sql :=
  eraseDups_of_nodup h.nodup_occurrences

theorem Matched.params_eq_nil (h : c.Matched) (hblank : c.isEmpty) : c.params = [] := by
  have hmarks : unmarked c.sql := by
    refine List.all_eq_true.2 fun d hd => ?_
    simp [isMark_of_isBlank (List.all_eq_true.1 hblank d hd)]
  have hnames := h.names
  rw [(quiet_of_unmarked hmarks).occurrences_eq_nil] at hnames
  exact List.map_eq_nil_iff.1 hnames

/-- The values of the parameters, given to the text as to one written by hand, come back. -/
theorem Matched.raw (h : c.Matched) :
    Repository.raw c.sql (c.params.map Parameter.value) =
      .ok ⟨c.sql, c.params.map fun r => { r with type := SqlType.inferred r.value }⟩ := by
  have hnames : Placeholder.names c.sql = c.params.map fun r => bareName r.name :=
    h.names_eq.trans h.occurrences_eq
  have hparam : ∀ r ∈ c.params, Parameter.inferred (bareName r.name) r.value =
      { r with type := SqlType.inferred r.value } := by
    intro r hr
    have hr := h.worded r hr
    rw [Parameter.inferred, Parameter.named, placeholder_of_isWordText hr.isWordText, ← hr.name_eq]
  rw [Repository.raw, hnames, if_pos (by simp), List.zipWith_map, List.zipWith_self,
    List.map_congr_left hparam]

end CompiledFilter

namespace Config

variable {cfg : Config} {p : Predicate} {c : CompiledFilter}

theorem isWordText_of_validate (h : cfg.validate = .ok cfg) :
    Text.isWordText cfg.compiler.stem := by
  unfold validate at h
  split at h
  · assumption
  · cases h

theorem compile_matched (hcfg : cfg.validate = .ok cfg) (hpaths : p.PathsUnmarked)
    (hquotes : cfg.compiler.literals = .inline → p.QuoteFree)
    (hc : cfg.compiler.compile p = .ok c) : c.Matched := by
  have hstem := isWordText_of_validate hcfg
  obtain ⟨⟨mode, policy, stem⟩, query⟩ := cfg
  cases mode with
  | bound => exact CompiledFilter.FromBound.matched ⟨policy, stem, p, hstem, hpaths, hc⟩
  | inline =>
    rw [CompileOptions.compile_inline] at hc
    split at hc
    · cases hc
    · cases hc
      exact .of_quiet (Predicate.quiet_pieces policy hpaths (hquotes rfl))

/--
The placeholders that the scanner finds in a compiled condition are those of its parameters, the
numbered ones from zero on, each once. Inline there are none, nor in a blank text. Given to the text
as to one written by hand, the values of the parameters come back under the same names.
-/
theorem compile_agrees_with_scanner (hcfg : cfg.validate = .ok cfg) (hpaths : p.PathsUnmarked)
    (hquotes : cfg.compiler.literals = .inline → p.QuoteFree)
    (hc : cfg.compiler.compile p = .ok c) :
    (names c.sql).map ("@" ++ ·) = c.params.map Parameter.name ∧
    names c.sql =
      (List.range c.params.length).map (fun k => cfg.compiler.stem ++ toString k) ∧
    (∀ n ∈ names c.sql, (occurrences c.sql).count n = 1) ∧
    (cfg.compiler.literals = .inline → names c.sql = [] ∧ c.params = []) ∧
    (c.isEmpty → c.params = []) ∧
    ∃ q, Repository.raw c.sql (c.params.map Parameter.value) = .ok q ∧ q.sql = c.sql ∧
      q.params.map (fun r => (r.name, r.value)) = c.params.map (fun r => (r.name, r.value)) := by
  have hmatched := compile_matched hcfg hpaths hquotes hc
  have hnumbered := CompileOptions.names_compile hc
  have hwritten : (names c.sql).map ("@" ++ ·) = c.params.map Parameter.name := by
    rw [hmatched.names_eq, hmatched.names]
  refine ⟨hwritten, ?_, ?_, ?_, hmatched.params_eq_nil, _, hmatched.raw, rfl, ?_⟩
  · have hinj : Function.Injective (List.map ("@" ++ · : String → String)) :=
      List.map_injective_iff.2 fun a b h => (String.append_right_inj _).1 h
    apply hinj
    rw [hwritten, hnumbered, List.range_eq_range', List.map_map]
    exact List.map_congr_left fun k _ => String.append_assoc
  · intro n hn
    rw [hmatched.names_eq] at hn
    exact List.count_eq_one_of_mem hmatched.nodup_occurrences hn
  · intro hinline
    have hparams : c.params = [] := by
      obtain ⟨_, rfl⟩ := CompileOptions.compile_eq_ok_iff.1 hc
      rw [CompileOptions.collect, hinline]
    exact ⟨by simpa [hparams] using hwritten, hparams⟩
  · rw [List.map_map]
    rfl

/-- Marks in strings, a quote among them in the bound mode, and a list that begins with a dash. -/
theorem compile_agrees_with_scanner_marks :
    let name (s : String) : Predicate := .eq (.member "Name") (.lit (.string s))
    let code : Predicate := .containsAny (.lit (.list [.int (-1), .string "@a"])) (.member "Code")
    let bound : Config := { compiler := { literals := .bound, stem := "größe" } }
    let inline : Config := {}
    (∃ c, bound.compiler.compile (.and (name "it's @x") code) = .ok c ∧
      names c.sql = ["größe0", "größe1", "größe2"]) ∧
    ∃ c, inline.compiler.compile (.and (name "@x --") code) = .ok c ∧ names c.sql = [] := by
  intro name code bound inline
  have hvalid : bound.validate = .ok bound ∧ inline.validate = .ok inline := by decide +kernel
  have hbound : bound.compiler.compile (.and (name "it's @x") code) =
      .ok ⟨"(Name = @größe0 AND Code IN (@größe1, @größe2))",
        [⟨"@größe0", .string "it's @x", .nVarChar⟩, ⟨"@größe1", .int (-1), .bigInt⟩,
          ⟨"@größe2", .string "@a", .bigInt⟩]⟩ := by
    decide +kernel
  have hinline : inline.compiler.compile (.and (name "@x --") code) =
      .ok ⟨"(Name = '@x --' AND Code IN (-1,'@a'))", []⟩ := by
    decide +kernel
  obtain ⟨_, hnames, _⟩ := compile_agrees_with_scanner hvalid.1 (by decide) nofun hbound
  obtain ⟨_, _, _, hnone, _⟩ :=
    compile_agrees_with_scanner hvalid.2 (by decide) (fun _ => by decide +kernel) hinline
  exact ⟨⟨_, hbound, hnames⟩, _, hinline, (hnone rfl).1⟩

end Config

end SqlFilter
