import SqlFilter.Placeholder
import SqlFilter.Text.Digits
import Mathlib.Tactic

/-!
How a text is cut into tokens. Each token is complete before what follows it, and a placeholder
stays complete under another name, so renaming moves no boundary between tokens.
-/
namespace SqlFilter.Placeholder

/-- What follows a run of characters does not go on with it. -/
def Stops (p : Char → Bool) (cs : List Char) : Prop := ∀ c ∈ cs.head?, p c = false

theorem stops_run (p : Char → Bool) (cs : List Char) : Stops p (run p cs).2 := by
  intro c hc
  have h := List.head?_dropWhile_not p cs
  rw [run, Option.mem_def] at hc
  rwa [hc] at h

theorem all_run (p : Char → Bool) (cs : List Char) : ∀ c ∈ (run p cs).1, p c := by
  exact List.all_eq_true.1 List.all_takeWhile

theorem run_eq {p : Char → Bool} {w rest : List Char} (hw : ∀ c ∈ w, p c) (hr : Stops p rest) :
    run p (w ++ rest) = (w, rest) := by
  induction w with
  | nil =>
    cases rest with
    | nil => rfl
    | cons c cs => simp [run, hr c rfl]
  | cons d w ih =>
    have hd : p d := hw d (by simp)
    have h := ih fun c hc => hw c (by simp [hc])
    simp only [run, Prod.mk.injEq] at h ⊢
    simp [hd, h]

def scan (cs : List Char) : List String := (tokens cs).filterMap Token.name?

theorem occurrences_eq_scan (sql : String) : occurrences sql = scan sql.toList := rfl

@[simp] theorem scan_nil : scan [] = [] := by simp [scan, tokens]

theorem isMark_eq_false {c : Char} : isMark c = false ↔ c ≠ '@' ∧ c ≠ '\'' ∧ c ≠ '-' := by
  simp [isMark, and_assoc]

theorem next_of_not_mark {c : Char} (h : isMark c = false) (cs : List Char) :
    next c cs = (.verbatim (c :: (run (!isMark ·) cs).1), (run (!isMark ·) cs).2) := by
  obtain ⟨h₁, h₂, h₃⟩ := isMark_eq_false.1 h
  simp [next, h₁, h₂, h₃]

theorem next_placeholder {w rest : List Char} (hne : w ≠ []) (hw : ∀ c ∈ w, Text.isWord c)
    (hr : Stops Text.isWord rest) : next '@' (w ++ rest) = (.placeholder w, rest) := by
  obtain ⟨c, v, rfl⟩ := List.exists_cons_of_ne_nil hne
  have hc : c ≠ '@' := by
    rintro rfl
    exact absurd (hw '@' (by simp)) (by decide)
  have hrun := run_eq hw hr
  rw [List.cons_append] at hrun ⊢
  unfold next
  rw [if_pos rfl]
  split
  · next h => exact absurd (List.cons.inj h).1 hc
  · rw [hrun]

theorem scan_cons {c : Char} (h : isMark c = false) (cs : List Char) :
    scan (c :: cs) = scan cs := by
  have hskip (c : Char) (h : isMark c = false) (cs : List Char) :
      scan (c :: cs) = scan (cs.dropWhile (!isMark ·)) := by
    rw [scan, tokens, next_of_not_mark h]
    rfl
  rw [hskip c h]
  cases cs with
  | nil => rfl
  | cons d ds =>
    by_cases hd : isMark d
    · simp [hd]
    · have hd : isMark d = false := by simpa using hd
      rw [hskip d hd]
      simp [hd]

theorem scan_append_of_not_mark {cs : List Char} (h : ∀ c ∈ cs, isMark c = false)
    (rest : List Char) : scan (cs ++ rest) = scan rest := by
  induction cs with
  | nil => rfl
  | cons c cs ih =>
    rw [List.cons_append, scan_cons (h c (by simp)), ih fun d hd => h d (by simp [hd])]

theorem scan_placeholder {w rest : List Char} (hne : w ≠ []) (hw : ∀ c ∈ w, Text.isWord c)
    (hr : Stops Text.isWord rest) : scan ('@' :: (w ++ rest)) = .ofList w :: scan rest := by
  rw [scan, tokens, next_placeholder hne hw hr]
  rfl

inductive Quoting
  | inside
  | pending
  | closed
  deriving DecidableEq

def Quoting.step : Quoting → Char → Quoting
  | .inside, c => if c = '\'' then .pending else .inside
  | .pending, c => if c = '\'' then .inside else .closed
  | .closed, _ => .closed

theorem foldl_step_closed (cs : List Char) : cs.foldl Quoting.step .closed = .closed := by
  induction cs with
  | nil => rfl
  | cons c cs ih => exact ih

theorem foldl_step_of_not_quote {c : Char} {cs : List Char} (h : ∀ d ∈ c :: cs, d ≠ '\'')
    (q : Quoting) : (c :: cs).foldl Quoting.step q = q.step c := by
  have hc := h c (by simp)
  induction cs with
  | nil => rfl
  | cons d ds ih =>
    have hd := h d (by simp)
    have hs : (q.step c).step d = q.step c := by
      cases q <;> simp [Quoting.step, hc, hd]
    rw [← ih fun e he => h e (by simp at he ⊢; tauto)]
    simp only [List.foldl_cons, hs]

theorem closeQuote?_eq_none_iff (cs : List Char) :
    closeQuote? cs = none ↔ cs.foldl Quoting.step .inside = .inside := by
  fun_induction closeQuote? cs with
  | case1 cs ih => simpa [Quoting.step] using ih
  | case2 cs hne =>
    cases cs with
    | nil => simp [Quoting.step]
    | cons d ds =>
      have hd : d ≠ '\'' := fun h => hne ds (by rw [h])
      simp [Quoting.step, hd, foldl_step_closed]
  | case3 c cs hne hc ih =>
    have hc : c ≠ '\'' := hc
    simpa [Quoting.step, hc] using ih
  | case4 => simp

/-- A quoted text ends where no further quote follows. -/
theorem head?_ne_of_closeQuote? {cs text rest : List Char}
    (h : closeQuote? cs = some (text, rest)) : rest.head? ≠ some '\'' := by
  fun_induction closeQuote? cs generalizing text rest with
  | case1 cs ih | case3 c cs _ _ ih =>
    obtain ⟨⟨t, r⟩, ht, he⟩ := Option.map_eq_some_iff.1 h
    obtain ⟨rfl, rfl⟩ := Prod.mk.inj he
    exact ih ht
  | case2 cs hne =>
    obtain ⟨rfl, rfl⟩ := Prod.mk.inj (Option.some.inj h)
    intro hq
    obtain ⟨cs, rfl⟩ := List.head?_eq_some_iff.1 hq
    exact hne cs rfl
  | case4 => simp at h

theorem closeQuote?_append_eq {cs text rest : List Char} (h : closeQuote? cs = some (text, rest))
    {rest' : List Char} (hr : rest'.head? ≠ some '\'') :
    closeQuote? (text ++ rest') = some (text, rest') := by
  fun_induction closeQuote? cs generalizing text rest with
  | case1 cs ih =>
    obtain ⟨⟨t, r⟩, ht, he⟩ := Option.map_eq_some_iff.1 h
    obtain ⟨rfl, rfl⟩ := Prod.mk.inj he
    simp [closeQuote?, ih ht]
  | case2 cs hne =>
    obtain ⟨rfl, rfl⟩ := Prod.mk.inj (Option.some.inj h)
    cases rest' with
    | nil => rfl
    | cons d ds =>
      have hd : d ≠ '\'' := fun hd => hr (by rw [hd]; rfl)
      rw [List.singleton_append, closeQuote?]
      intro es he
      exact hd (List.cons.inj he).1
  | case3 c cs hne hc ih =>
    obtain ⟨⟨t, r⟩, ht, he⟩ := Option.map_eq_some_iff.1 h
    obtain ⟨rfl, rfl⟩ := Prod.mk.inj he
    rw [List.cons_append, closeQuote?]
    · simp [ih ht]
    · intro _ h
      exact (hc h).elim
    · exact hc
  | case4 => simp at h

/-- A token that is complete before a text: none of its kind goes on into the text. -/
inductive Before : Token → List Char → Prop
  | system {w rest : List Char} (hw : ∀ c ∈ w, Text.isWord c) (hr : Stops Text.isWord rest) :
      Before (.verbatim ('@' :: '@' :: w)) rest
  | placeholder {w rest : List Char} (hne : w ≠ []) (hw : ∀ c ∈ w, Text.isWord c)
      (hr : Stops Text.isWord rest) : Before (.placeholder w) rest
  | loneAt {rest : List Char} (hr : rest.head? ≠ some '@') (hw : Stops Text.isWord rest) :
      Before (.verbatim ['@']) rest
  | quoted {text rest : List Char} (h : closeQuote? (text ++ rest) = some (text, rest)) :
      Before (.verbatim ('\'' :: text)) rest
  | quote {rest : List Char} (h : closeQuote? rest = none) : Before (.verbatim ['\'']) rest
  | comment {line rest : List Char} (hl : ∀ c ∈ line, c != '\n') (hr : Stops (· != '\n') rest) :
      Before (.verbatim ('-' :: '-' :: line)) rest
  | dash {rest : List Char} (hr : rest.head? ≠ some '-') : Before (.verbatim ['-']) rest
  | plain {c : Char} {cs rest : List Char} (hc : isMark c = false) (hcs : ∀ d ∈ cs, !isMark d)
      (hr : Stops (!isMark ·) rest) : Before (.verbatim (c :: cs)) rest

theorem before_next (c : Char) (cs : List Char) : Before (next c cs).1 (next c cs).2 := by
  unfold next
  split
  · split
    · exact .system (all_run _ _) (stops_run _ _)
    · next hat =>
      split
      · next hrun =>
        have hs := stops_run Text.isWord cs
        have he := run_append Text.isWord cs
        rw [hrun] at hs he
        refine .loneAt ?_ ?_
        · intro h
          obtain ⟨ds, rfl⟩ := List.head?_eq_some_iff.1 h
          exact hat ds rfl
        · exact he ▸ hs
      · next w rest hne hrun =>
        have hw := all_run Text.isWord cs
        have hs := stops_run Text.isWord cs
        rw [hrun] at hw hs
        exact .placeholder (fun h => hne h) hw hs
  · split
    · split
      · next text rest h =>
        refine .quoted ?_
        rwa [closeQuote?_append h]
      · next h => exact .quote h
    · split
      · split
        · exact .comment (all_run _ _) (stops_run _ _)
        · next hdash =>
          refine .dash fun h => ?_
          obtain ⟨ds, rfl⟩ := List.head?_eq_some_iff.1 h
          exact hdash ds rfl
      · next h₁ h₂ h₃ => exact .plain (isMark_eq_false.2 ⟨h₁, h₂, h₃⟩) (all_run _ _) (stops_run _ _)

theorem tokens_of_before {t : Token} {rest : List Char} (h : Before t rest) :
    tokens (t.chars ++ rest) = t :: tokens rest := by
  have hnext : ∃ c cs, t.chars ++ rest = c :: cs ∧ next c cs = (t, rest) := by
    cases h with
    | @system w _ hw hr => exact ⟨_, _, rfl, by simp [next, run_eq hw hr]⟩
    | placeholder hne hw hr => exact ⟨_, _, rfl, next_placeholder hne hw hr⟩
    | loneAt hr hw =>
      refine ⟨'@', rest, rfl, ?_⟩
      have hrun := run_eq (w := []) (by simp) hw
      cases rest with
      | nil => rfl
      | cons c cs =>
        have hc : c ≠ '@' := fun hc => hr (by rw [hc]; rfl)
        rw [List.nil_append] at hrun
        simp only [next, if_true]
        split
        · next h => exact (hc (List.cons.inj h).1).elim
        · rw [hrun]
    | quoted h => exact ⟨_, _, rfl, by simp [next, h]⟩
    | quote h => exact ⟨_, _, rfl, by simp [next, h]⟩
    | comment hl hr => exact ⟨_, _, rfl, by simp [next, run_eq hl hr]⟩
    | dash hr =>
      refine ⟨'-', rest, rfl, ?_⟩
      cases rest with
      | nil => rfl
      | cons c cs =>
        have hc : c ≠ '-' := fun hc => hr (by rw [hc]; rfl)
        simp [next, hc]
    | plain hc hcs hr => exact ⟨_, _, rfl, by simp [next_of_not_mark hc, run_eq hcs hr]⟩
  obtain ⟨c, cs, hcs, hn⟩ := hnext
  rw [hcs, tokens, hn]

/-- What a token is complete before is decided by its first character, but for an open quote. -/
theorem Before.congr {t : Token} {rest rest' : List Char} (h : Before t rest)
    (hhead : rest'.head? = rest.head?)
    (hq : t = .verbatim ['\''] → closeQuote? rest = none → closeQuote? rest' = none) :
    Before t rest' := by
  have hstops {p : Char → Bool} (hr : Stops p rest) : Stops p rest' :=
    fun c hc => hr c (hhead ▸ hc)
  cases h with
  | system hw hr => exact .system hw (hstops hr)
  | placeholder hne hw hr => exact .placeholder hne hw (hstops hr)
  | loneAt hr hw => exact .loneAt (hhead ▸ hr) (hstops hw)
  | quoted h => exact .quoted (closeQuote?_append_eq h (hhead ▸ head?_ne_of_closeQuote? h))
  | quote h => exact .quote (hq rfl h)
  | comment hl hr => exact .comment hl (hstops hr)
  | dash hr => exact .dash (hhead ▸ hr)
  | plain hc hcs hr => exact .plain hc hcs (hstops hr)

def Token.renamed (f : String → Option String) : Token → Token
  | .placeholder name => .placeholder (((f (.ofList name)).map String.toList).getD name)
  | .verbatim text => .verbatim text

theorem Token.chars_renamed (f : String → Option String) (t : Token) :
    (t.renamed f).chars = t.rename f := by
  cases t <;> rfl

theorem Token.name?_renamed (f : String → Option String) (t : Token) :
    (t.renamed f).name? = t.name?.map fun n => (f n).getD n := by
  cases t with
  | verbatim text => rfl
  | placeholder name => cases h : f (.ofList name) <;> simp [Token.renamed, Token.name?, h]

def renameChars (f : String → Option String) (cs : List Char) : List Char :=
  (tokens cs).flatMap (Token.rename f)

theorem rename_eq_renameChars (f : String → Option String) (sql : String) :
    rename f sql = .ofList (renameChars f sql.toList) := rfl

def Renames (f : String → Option String) : Prop := ∀ n w, f n = some w → Text.isWordText w

theorem isWordText_iff {s : String} :
    Text.isWordText s ↔ s.toList ≠ [] ∧ ∀ c ∈ s.toList, Text.isWord c := by
  simp [Text.isWordText, List.all_eq_true]

/-- A number goes on a word, and is one where nothing stands before it. -/
theorem isWordText_append_toString {s : String} (h : ∀ c ∈ s.toList, Text.isWord c) (i : Nat) :
    Text.isWordText (s ++ toString i) := by
  refine isWordText_iff.2 ⟨by simp [Nat.toString_eq_repr, Nat.toList_repr], fun c hc => ?_⟩
  rw [String.toList_append, List.mem_append] at hc
  rcases hc with hc | hc
  · exact h c hc
  · rw [Nat.toString_eq_repr] at hc
    exact Text.isWord_of_isDigit (Text.isDigit_of_mem_repr hc)

theorem isWordText_of_mem_occurrences {sql n : String} (h : n ∈ occurrences sql) :
    Text.isWordText n := by
  rw [occurrences] at h
  generalize sql.toList = cs at h
  fun_induction tokens cs with
  | case1 => simp at h
  | case2 c cs ih =>
    have hb := before_next c cs
    generalize (next c cs).1 = t at hb h
    cases t with
    | verbatim text => exact ih h
    | placeholder name =>
      rcases List.mem_cons.1 h with rfl | h
      · cases hb with
        | placeholder hne hw _ => exact isWordText_iff.2 (by simpa using ⟨hne, hw⟩)
      · exact ih h

variable {f : String → Option String}

theorem ne_quote_of_isWord {c : Char} (h : Text.isWord c) : c ≠ '\'' := by
  rintro rfl
  exact absurd h (by decide)

theorem isWord_renamed (hf : Renames f) {name : List Char} (hne : name ≠ [])
    (hw : ∀ c ∈ name, Text.isWord c) {name' : List Char}
    (h : name' = ((f (.ofList name)).map String.toList).getD name) :
    name' ≠ [] ∧ ∀ c ∈ name', Text.isWord c := by
  subst h
  cases hn : f (.ofList name) with
  | none => exact ⟨hne, hw⟩
  | some w => exact isWordText_iff.1 (hf _ _ hn)

/-- A renamed token is complete before a rest that begins alike and is as open to a quote. -/
theorem Before.renamed {t : Token} {rest rest' : List Char} (hf : Renames f) (h : Before t rest)
    (hhead : rest'.head? = rest.head?) (hq : closeQuote? rest = none → closeQuote? rest' = none) :
    Before (t.renamed f) rest' := by
  have hbefore : Before t rest' := h.congr hhead fun _ => hq
  cases t with
  | verbatim text => exact hbefore
  | placeholder name =>
    cases hbefore with
    | placeholder hne hw hr =>
      obtain ⟨hne', hw'⟩ := isWord_renamed hf hne hw rfl
      exact .placeholder hne' hw' hr

theorem renameChars_cons (f : String → Option String) (c : Char) (cs : List Char) :
    renameChars f (c :: cs) = (next c cs).1.rename f ++ renameChars f (next c cs).2 := by
  rw [renameChars, tokens]
  rfl

theorem head?_renameChars (f : String → Option String) (cs : List Char) :
    (renameChars f cs).head? = cs.head? := by
  cases cs with
  | nil => simp [renameChars, tokens]
  | cons c cs =>
    have h := chars_next c cs
    have hne := chars_next_ne_nil c cs
    rw [renameChars_cons, ← h]
    cases ht : (next c cs).1 with
    | placeholder name => rfl
    | verbatim text =>
      rw [ht] at hne
      obtain ⟨d, ds, rfl⟩ := List.exists_cons_of_ne_nil hne
      rfl

/-- Renaming has no influence on the search for a closing quote. -/
theorem foldl_step_renameChars (hf : Renames f) (cs : List Char) (q : Quoting) :
    (renameChars f cs).foldl Quoting.step q = cs.foldl Quoting.step q := by
  fun_induction tokens cs generalizing q with
  | case1 => simp [renameChars, tokens]
  | case2 c cs ih =>
    have hb := before_next c cs
    have hstep : ((next c cs).1.rename f).foldl Quoting.step q =
        (next c cs).1.chars.foldl Quoting.step q := by
      cases ht : (next c cs).1 with
      | verbatim text => rfl
      | placeholder name =>
        rw [ht] at hb
        cases hb with
        | placeholder hne hw _ =>
          obtain ⟨_, hw'⟩ := isWord_renamed hf hne hw rfl
          have hquote {name : List Char} (hw : ∀ c ∈ name, Text.isWord c) :
              ∀ d ∈ '@' :: name, d ≠ '\'' := by
            intro d hd
            rcases List.mem_cons.1 hd with rfl | hd
            · decide
            · exact ne_quote_of_isWord (hw d hd)
          rw [Token.rename, Token.chars, foldl_step_of_not_quote (hquote hw),
            foldl_step_of_not_quote (hquote hw')]
    rw [renameChars_cons, List.foldl_append, ih, hstep, ← List.foldl_append, chars_next]

theorem tokens_renameChars (hf : Renames f) (cs : List Char) :
    tokens (renameChars f cs) = (tokens cs).map (Token.renamed f) := by
  fun_induction tokens cs with
  | case1 => simp [renameChars, tokens]
  | case2 c cs ih =>
    have hq (h : closeQuote? (next c cs).2 = none) :
        closeQuote? (renameChars f (next c cs).2) = none := by
      rw [closeQuote?_eq_none_iff, foldl_step_renameChars hf]
      exact (closeQuote?_eq_none_iff _).1 h
    have hb := (before_next c cs).renamed hf (head?_renameChars f _) hq
    rw [renameChars_cons, ← Token.chars_renamed, tokens_of_before hb, ih, List.map_cons]

/-- The placeholders of a renamed text are the new names, in place of the old ones. -/
theorem occurrences_rename (hf : Renames f) (sql : String) :
    occurrences (rename f sql) = (occurrences sql).map fun n => (f n).getD n := by
  rw [rename_eq_renameChars, occurrences, String.toList_ofList, tokens_renameChars hf,
    List.filterMap_map, occurrences, List.map_filterMap]
  exact List.filterMap_congr fun t _ => Token.name?_renamed f t

/-- A renaming as a function on all names, which leaves those that it has no other for. -/
def total (f : String → Option String) (n : String) : String := (f n).getD n

theorem Token.rename_renamed (f g : String → Option String) (t : Token) :
    (t.renamed f).rename g = t.rename fun n => some (total g (total f n)) := by
  cases t with
  | verbatim text => rfl
  | placeholder name =>
    have htotal (n : String) : ((g n).map String.toList).getD n.toList = (total g n).toList := by
      cases h : g n <;> simp [total, h]
    have hname : ((f (.ofList name)).map String.toList).getD name =
        (total f (.ofList name)).toList := by
      cases h : f (.ofList name) <;> simp [total, h]
    rw [Token.renamed, hname, Token.rename, String.ofList_toList, htotal]
    rfl

theorem rename_rename (hf : Renames f) (g : String → Option String) (sql : String) :
    rename g (rename f sql) = rename (fun n => some (total g (total f n))) sql := by
  rw [rename_eq_renameChars f, rename, String.toList_ofList, tokens_renameChars hf,
    List.flatMap_map]
  simp only [Token.rename_renamed]
  rfl

theorem rename_eq_self {h : String → String} {sql : String} (hh : ∀ n, h n = n) :
    rename (fun n => some (h n)) sql = sql := by
  have hchars : Token.rename (fun n => some (h n)) = Token.chars := by
    funext t
    cases t <;> simp [Token.rename, Token.chars, hh]
  rw [rename, hchars, flatMap_chars_tokens, String.ofList_toList]

/-- The inverse of an injective renaming takes back each new name, and no other. -/
theorem total_total {g : String → Option String} (hinj : Function.Injective (total f))
    (hinv : ∀ n w, f n = some w ↔ g w = some n) (n : String) : total g (total f n) = n := by
  cases hn : f n with
  | some w =>
    have hw : total f n = w := by simp [total, hn]
    have hg : g w = some n := (hinv n w).1 hn
    rw [hw, total, hg, Option.getD_some]
  | none =>
    have hw : total f n = n := by simp [total, hn]
    rw [hw]
    cases hg : g n with
    | none => simp [total, hg]
    | some m =>
      -- A name that is left and also a new name would be two names under the renaming.
      have hm : f m = some n := (hinv m n).2 hg
      have heq : total f m = total f n := by rw [hw, total, hm, Option.getD_some]
      rw [hinj heq, hn] at hm
      cases hm

/--
Renaming with new names that are words loses nothing, also in texts with open quotes: two renamings
are one, the placeholders are renamed one by one, and an injective renaming can be taken back.
-/
theorem rename_lossless (hf : Renames f) (sql : String) :
    rename (fun _ => none) sql = sql ∧
    (∀ g, rename g (rename f sql) = rename (fun n => some (total g (total f n))) sql) ∧
    names (rename f sql) = ((occurrences sql).map (total f)).eraseDups ∧
    ∀ g, Function.Injective (total f) → (∀ n w, f n = some w ↔ g w = some n) →
      rename g (rename f sql) = sql := by
  refine ⟨rename_none sql, fun g => rename_rename hf g sql, ?_, fun g hinj hinv => ?_⟩
  · rw [names, occurrences_rename hf]
    rfl
  · rw [rename_rename hf]
    exact rename_eq_self (total_total hinj hinv)

/-- Two names change places and back, in a text with an open quote. -/
theorem rename_lossless_swap :
    let f : String → Option String := fun n =>
      if n = "p0" then some "p1" else if n = "p1" then some "p0" else none
    let sql := "A = @p0 AND 'it''s @p0' = @@p0 - @p1 @ 'open @p2"
    Renames f ∧ Function.Injective (total f) ∧ (∀ n w, f n = some w ↔ f w = some n) ∧
      names (rename f sql) = ["p1", "p0", "p2"] ∧ rename f (rename f sql) = sql := by
  intro f sql
  have hf : Renames f := by
    intro n w h
    simp only [f] at h
    split_ifs at h <;> cases h <;> decide
  have htotal : Function.Involutive (total f) := by
    intro n
    simp only [total, f]
    split_ifs <;> simp_all
  have hinv : ∀ n w, f n = some w ↔ f w = some n := by
    intro n w
    simp only [f]
    split_ifs <;> simp_all [eq_comm]
  obtain ⟨_, _, hnames, hback⟩ := rename_lossless hf sql
  refine ⟨hf, htotal.injective, hinv, ?_, hback f htotal.injective hinv⟩
  rw [hnames]
  decide +kernel

end SqlFilter.Placeholder
