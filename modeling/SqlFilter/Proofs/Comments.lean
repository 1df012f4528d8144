import SqlFilter.Proofs.Automaton

/-!
Comments. What stands before a line comment and what stands behind it is read as if there were no
comment between them, whatever its body is. Block comments are unknown: their text is read like any
other, and only bodies without placeholders, open quotes and line comments go unnoticed.
-/
namespace SqlFilter.Placeholder

/-- Side by side, two texts are read as each of them alone. -/
def Apart (cs rest : List Char) : Prop :=
  atoms (tokens (cs ++ rest)) = atoms (tokens cs) ++ atoms (tokens rest)

/-- No token of a text goes on with what follows it, unless it is plain. -/
structure Severed (cs rest : List Char) : Prop where
  word : Stops Text.isWord rest
  mark : rest.head? ≠ some '@'
  quote : rest.head? ≠ some '\''
  dash : rest.head? = some '-' → cs.getLast? ≠ some '-'

variable {cs rest : List Char} {f : String → Option String}

theorem Apart.scan (h : Apart cs rest) :
    Placeholder.scan (cs ++ rest) = Placeholder.scan cs ++ Placeholder.scan rest := by
  have hatoms (ds : List Char) : Placeholder.scan ds = (atoms (tokens ds)).filterMap Token.name? :=
    (filterMap_name?_atoms _).symm
  rw [hatoms, h, List.filterMap_append, ← hatoms, ← hatoms]

theorem Apart.renameChars (h : Apart cs rest) :
    Placeholder.renameChars f (cs ++ rest) =
      Placeholder.renameChars f cs ++ Placeholder.renameChars f rest := by
  have hatoms (ds : List Char) :
      Placeholder.renameChars f ds = (atoms (tokens ds)).flatMap (Token.rename f) :=
    (flatMap_rename_atoms f _).symm
  rw [hatoms, h, List.flatMap_append, ← hatoms, ← hatoms]

theorem Apart.of_tokens (h : tokens (cs ++ rest) = tokens cs ++ tokens rest) : Apart cs rest := by
  rw [Apart, h, atoms_append]

theorem atoms_tokens_cons {c : Char} (h : isMark c = false) (rest : List Char) :
    atoms (tokens (c :: rest)) = .verbatim [c] :: atoms (tokens rest) := by
  have hplain {c : Char} (h : isMark c = false) (rest : List Char) :
      tokens (c :: rest) =
        .verbatim (c :: rest.takeWhile (!isMark ·)) :: tokens (rest.dropWhile (!isMark ·)) := by
    rw [tokens, next_of_not_mark h]
    rfl
  rw [hplain h]
  cases rest with
  | nil => rfl
  | cons d ds =>
    by_cases hd : isMark d
    · rw [List.takeWhile_cons_of_neg (by simpa using hd),
        List.dropWhile_cons_of_neg (by simpa using hd)]
      rfl
    · have hd : isMark d = false := by simpa using hd
      rw [hplain hd, List.takeWhile_cons_of_pos (by simpa using hd),
        List.dropWhile_cons_of_pos (by simpa using hd)]
      rfl

theorem apart_of_not_mark (h : ∀ c ∈ cs, isMark c = false) (rest : List Char) : Apart cs rest := by
  induction cs with
  | nil =>
    rw [Apart, tokens]
    rfl
  | cons c cs ih =>
    obtain ⟨hc, hcs⟩ := List.forall_mem_cons.1 h
    rw [Apart, List.cons_append, atoms_tokens_cons hc, atoms_tokens_cons hc, ih hcs,
      List.cons_append]

theorem Severed.of_append {ts : List Char} (h : Severed (ts ++ cs) rest) (hne : cs ≠ []) :
    Severed cs rest where
  word := h.word
  mark := h.mark
  quote := h.quote
  dash := fun hd => List.getLast?_append_of_ne_nil ts hne ▸ h.dash hd

theorem apart_of_before_nil {t : Token} (ht : Before t [])
    (hend : (Lexer.lex .normal t.chars).2 = .normal) (h : Severed t.chars rest) :
    Apart t.chars rest := by
  have htokens : tokens t.chars = [t] := by
    have hself := tokens_of_before ht
    rwa [List.append_nil, tokens] at hself
  have hapart (hb : Before t rest) : Apart t.chars rest :=
    .of_tokens (by rw [tokens_of_before hb, htokens, List.singleton_append])
  cases ht with
  | system hw _ => exact hapart (.system hw h.word)
  | placeholder hne hw _ => exact hapart (.placeholder hne hw h.word)
  | loneAt _ _ => exact hapart (.loneAt h.mark h.word)
  | quoted hq => exact hapart (.quoted (closeQuote?_append_eq hq h.quote))
  | quote hq => exact absurd ((Lexer.lex_open_quote hq).symm.trans hend) (by decide)
  | comment hl _ => exact absurd ((Lexer.lex_line_comment hl).symm.trans hend) (by decide)
  | dash _ => exact hapart (.dash fun hd => h.dash hd rfl)
  | @plain c cs _ hc hcs _ =>
    exact apart_of_not_mark (List.forall_mem_cons.2 ⟨hc, fun d hd => by simpa using hcs d hd⟩) rest

theorem apart_of_outside (hend : (Lexer.lex .normal cs).2 = .normal) (h : Severed cs rest) :
    Apart cs rest := by
  fun_induction tokens cs with
  | case1 => exact apart_of_not_mark (by simp) rest
  | case2 c cs ih =>
    have hb := before_next c cs
    have hchars := chars_next c cs
    generalize next c cs = p at hb hchars ih
    obtain ⟨t, q⟩ := p
    rw [← hchars] at hend h ⊢
    -- The last token may be plain and go on with what follows; the others are complete before it.
    by_cases hq : q = []
    · subst hq
      rw [List.append_nil] at hend h ⊢
      exact apart_of_before_nil hb hend h
    · have hb' : Before t (q ++ rest) := by
        refine hb.congr (List.head?_append_of_ne_nil q hq) fun ht hopen => ?_
        subst ht
        exact absurd ((Lexer.lex_open_quote hopen).symm.trans hend) (by decide)
      have hrest := ih (Lexer.outside_of_before hb hend) (h.of_append hq)
      rw [Apart, List.append_assoc, tokens_of_before hb', tokens_of_before hb, atoms_cons,
        atoms_cons, hrest, List.append_assoc]

theorem Apart.append {ds : List Char} (hcs : Apart cs (ds ++ rest)) (hds : Apart cs ds)
    (hrest : Apart ds rest) : Apart (cs ++ ds) rest := by
  rw [Apart, List.append_assoc, hcs, hrest, hds, List.append_assoc]

/--
Where a token ends, one ends also before another text, if that begins alike and closes no quote that
is open before the first.
-/
theorem tokens_append_congr {rest' : List Char}
    (h : tokens (cs ++ rest) = tokens cs ++ tokens rest) (hhead : rest'.head? = rest.head?)
    (hq : ∀ ds, closeQuote? (ds ++ rest) = none → closeQuote? (ds ++ rest') = none) :
    tokens (cs ++ rest') = tokens cs ++ tokens rest' := by
  fun_induction tokens cs with
  | case1 => rfl
  | case2 c cs ih =>
    rw [List.cons_append, tokens, List.cons_append] at h
    obtain ⟨htoken, htokens⟩ := List.cons.inj h
    have hb := before_next c (cs ++ rest)
    -- The rest of the longer text behind its first token is that of the shorter one, and `rest`.
    have hsplit : (next c (cs ++ rest)).2 = (next c cs).2 ++ rest := by
      have hlong := chars_next c (cs ++ rest)
      rw [htoken, ← List.cons_append, ← chars_next c cs, List.append_assoc] at hlong
      exact List.append_cancel_left hlong
    rw [htoken, hsplit] at hb
    rw [hsplit] at htokens
    have hb' : Before (next c cs).1 ((next c cs).2 ++ rest') := by
      refine hb.congr ?_ fun _ => hq _
      rw [List.head?_append, List.head?_append, hhead]
    rw [← chars_next c cs, List.append_assoc, tokens_of_before hb', ih htokens, List.cons_append]

theorem foldl_step_after_quote {cs : List Char} (h : Stops (· != '\n') cs) :
    cs.foldl Quoting.step .pending ≠ .inside := by
  cases cs with
  | nil => decide
  | cons c cs =>
    obtain rfl : c = '\n' := by simpa using h c rfl
    rw [List.foldl_cons, show Quoting.pending.step '\n' = .closed from rfl, foldl_step_closed]
    decide

/-- What keeps a quote open across a comment: the rest, and a body whose quotes are doubled. -/
theorem closeQuote?_comment_iff {ds body : List Char} (hrest : Stops (· != '\n') rest) :
    closeQuote? (ds ++ ('-' :: '-' :: body ++ rest)) = none ↔
      closeQuote? ds = none ∧ closeQuote? body = none ∧ closeQuote? rest = none := by
  simp only [closeQuote?_eq_none_iff, List.foldl_append, List.foldl_cons]
  constructor
  · intro h
    cases hds : ds.foldl Quoting.step .inside with
    | pending | closed =>
      simp [hds, Quoting.step, foldl_step_closed] at h
    | inside =>
      have hstep : (Quoting.inside.step '-').step '-' = .inside := rfl
      rw [hds, hstep] at h
      cases hbody : body.foldl Quoting.step .inside with
      | inside => exact ⟨rfl, rfl, by rwa [hbody] at h⟩
      | pending => exact (foldl_step_after_quote hrest (by rwa [hbody] at h)).elim
      | closed => simp [hbody, foldl_step_closed] at h
  · rintro ⟨hds, hbody, hrest⟩
    have hstep : (Quoting.inside.step '-').step '-' = .inside := rfl
    rw [hds, hstep, hbody, hrest]

/-- Between two texts a third one is copied, and those are read as if it were not there. -/
structure Passed (before text after : List Char) : Prop where
  scan : Placeholder.scan (before ++ text ++ after) =
    Placeholder.scan before ++ Placeholder.scan after
  renameChars : ∀ f, Placeholder.renameChars f (before ++ text ++ after) =
    Placeholder.renameChars f before ++ text ++ Placeholder.renameChars f after

theorem renameChars_of_scan_eq_nil (h : scan cs = []) : renameChars f cs = cs := by
  have hrename : ∀ t ∈ tokens cs, t.rename f = t.chars := by
    intro t ht
    cases t with
    | verbatim text => rfl
    | placeholder name =>
      have hname := List.filterMap_eq_nil_iff.1 h _ ht
      cases hname
  rw [renameChars, List.flatMap_congr hrename, flatMap_chars_tokens]

theorem passed_of_apart {text : List Char} (hcs : Apart cs (text ++ rest))
    (htext : Apart text rest) (hnone : scan text = []) : Passed cs text rest where
  scan := by rw [List.append_assoc, hcs.scan, htext.scan, hnone, List.nil_append]
  renameChars f := by
    rw [List.append_assoc, hcs.renameChars, htext.renameChars, renameChars_of_scan_eq_nil hnone,
      List.append_assoc]

theorem tokens_comment {body : List Char} (hbody : '\n' ∉ body) (h : Stops (· != '\n') rest) :
    tokens ('-' :: '-' :: body ++ rest) = .verbatim ('-' :: '-' :: body) :: tokens rest := by
  have hline : ∀ c ∈ body, c != '\n' := fun c hc => bne_iff_ne.2 fun he => hbody (he ▸ hc)
  exact tokens_of_before (.comment hline h)

theorem passed_comment {body : List Char} (hbody : '\n' ∉ body) (h : Stops (· != '\n') rest)
    (hcs : Apart cs ('-' :: '-' :: body ++ rest)) : Passed cs ('-' :: '-' :: body) rest := by
  have hself : tokens ('-' :: '-' :: body) = [.verbatim ('-' :: '-' :: body)] := by
    have hstops : Stops (· != '\n') [] := by simp [Stops]
    have hnil := tokens_comment hbody hstops
    rwa [List.append_nil, tokens] at hnil
  refine passed_of_apart hcs (.of_tokens ?_) ?_
  · rw [tokens_comment hbody h, hself, List.singleton_append]
  · rw [scan, hself]
    rfl

theorem severed_of_dash (h : cs.getLast? ≠ some '-') (rest : List Char) :
    Severed cs ('-' :: rest) :=
  ⟨by simp [Stops]; decide, by simp, by simp, fun _ => h⟩

theorem severed_of_block {c : Char} (hc : c = '/' ∨ c = '*') (rest : List Char) :
    Severed cs (c :: rest) := by
  rcases hc with rfl | rfl <;>
    exact ⟨by simp [Stops]; decide, by simp, by simp, by simp⟩

theorem passed_block {body : List Char} (hcs : (Lexer.lex .normal cs).2 = .normal)
    (hbody : (Lexer.lex .normal body).2 = .normal) (hnone : scan body = []) :
    Passed cs ('/' :: '*' :: (body ++ ['*', '/'])) rest := by
  have hopening : ∀ c ∈ ['/', '*'], isMark c = false := by simp [isMark]
  have hclosing : ∀ c ∈ ['*', '/'], isMark c = false := by simp [isMark]
  have hinner (ds : List Char) : Apart body (['*', '/'] ++ ds) :=
    apart_of_outside hbody (severed_of_block (.inr rfl) _)
  have hbody' : Apart body ['*', '/'] := hinner []
  refine passed_of_apart (apart_of_outside hcs (severed_of_block (.inl rfl) _)) ?_ ?_
  · have hclosed : Apart (body ++ ['*', '/']) rest :=
      (hinner rest).append hbody' (apart_of_not_mark hclosing rest)
    exact (apart_of_not_mark hopening _).append (apart_of_not_mark hopening _) hclosed
  · change scan (['/', '*'] ++ (body ++ ['*', '/'])) = []
    have hend : scan ['*', '/'] = [] := (scan_append_of_not_mark hclosing []).trans scan_nil
    rw [scan_append_of_not_mark hopening, hbody'.scan, hnone, hend, List.nil_append]

def lineComment (body : String) : String := "--" ++ body

def blockComment (body : String) : String := "/*" ++ body ++ "*/"

/-- Comments of one kind of which either can stand between two texts with no effect on them. -/
inductive Interchangeable (before after : String) : String → String → Prop
  /-- Line comments outside quotes and comments. A hyphen before them would open the comment. -/
  | line {body body' : String} (hbefore : (Lexer.lex .normal before.toList).2 = .normal)
      (hdash : before.toList.getLast? ≠ some '-') (hbody : '\n' ∉ body.toList)
      (hbody' : '\n' ∉ body'.toList) (hafter : Stops (· != '\n') after.toList) :
      Interchangeable before after (lineComment body) (lineComment body')
  /-- Line comments behind a quote that stays open: the quotes of the other body are doubled. -/
  | unclosed {body body' : String}
      (hopened : tokens (before ++ lineComment body ++ after).toList =
        tokens before.toList ++ tokens (lineComment body ++ after).toList)
      (hbody : '\n' ∉ body.toList) (hbody' : '\n' ∉ body'.toList)
      (hquotes : closeQuote? body'.toList = none) (hafter : Stops (· != '\n') after.toList) :
      Interchangeable before after (lineComment body) (lineComment body')
  /--
  Block comments outside quotes and comments. Their bodies are read like other text, so these hold
  no placeholder and end outside quotes and comments.
  -/
  | block {body body' : String} (hbefore : (Lexer.lex .normal before.toList).2 = .normal)
      (hbody : (Lexer.lex .normal body.toList).2 = .normal) (hnone : occurrences body = [])
      (hbody' : (Lexer.lex .normal body'.toList).2 = .normal) (hnone' : occurrences body' = []) :
      Interchangeable before after (blockComment body) (blockComment body')

theorem toList_lineComment (body : String) :
    (lineComment body).toList = '-' :: '-' :: body.toList := by
  simp [lineComment]

theorem toList_blockComment (body : String) :
    (blockComment body).toList = '/' :: '*' :: (body.toList ++ ['*', '/']) := by
  simp [blockComment]

variable {before after c c' : String}

theorem Interchangeable.passed (h : Interchangeable before after c c') :
    Passed before.toList c.toList after.toList ∧ Passed before.toList c'.toList after.toList := by
  cases h with
  | line hbefore hdash hbody hbody' hafter =>
    have hapart (ds : List Char) : Apart before.toList ('-' :: ds) :=
      apart_of_outside hbefore (severed_of_dash hdash ds)
    simp only [toList_lineComment]
    exact ⟨passed_comment hbody hafter (hapart _), passed_comment hbody' hafter (hapart _)⟩
  | unclosed hopened hbody hbody' hquotes hafter =>
    simp only [toList_lineComment, String.toList_append, List.append_assoc] at hopened ⊢
    refine ⟨passed_comment hbody hafter (.of_tokens hopened),
      passed_comment hbody' hafter (.of_tokens (tokens_append_congr hopened rfl fun ds h => ?_))⟩
    obtain ⟨hds, -, hrest⟩ := (closeQuote?_comment_iff hafter).1 h
    exact (closeQuote?_comment_iff hafter).2 ⟨hds, hquotes, hrest⟩
  | block hbefore hbody hnone hbody' hnone' =>
    simp only [toList_blockComment]
    exact ⟨passed_block hbefore hbody hnone, passed_block hbefore hbody' hnone'⟩

theorem Passed.occurrences {text : String}
    (h : Passed before.toList text.toList after.toList) :
    Placeholder.occurrences (before ++ text ++ after) =
      Placeholder.occurrences before ++ Placeholder.occurrences after := by
  simpa only [occurrences_eq_scan, String.toList_append] using h.scan

theorem Passed.rename {text : String} (h : Passed before.toList text.toList after.toList)
    (f : String → Option String) :
    Placeholder.rename f (before ++ text ++ after) =
      Placeholder.rename f before ++ text ++ Placeholder.rename f after := by
  simp only [rename_eq_renameChars, String.toList_append, h.renameChars, String.ofList_append,
    String.ofList_toList]

/--
Nothing outside a comment depends on its body: with either of two interchangeable comments the
placeholders are the same, and renaming treats what stands before and behind as if it stood alone
and copies the comment.
-/
theorem comments_opaque (h : Interchangeable before after c c') :
    names (before ++ c ++ after) = names (before ++ c' ++ after) ∧
    ∀ f, rename f (before ++ c ++ after) = rename f before ++ c ++ rename f after ∧
      rename f (before ++ c' ++ after) = rename f before ++ c' ++ rename f after := by
  obtain ⟨hc, hc'⟩ := h.passed
  exact ⟨by rw [names, names, hc.occurrences, hc'.occurrences],
    fun f => ⟨hc.rename f, hc'.rename f⟩⟩

/-- A quote in a line comment closes none that stands elsewhere. -/
theorem comments_opaque_apostrophe :
    let before := "A = 'it''s' AND B = @b "
    let after := "\nAND C = @c 'open"
    Interchangeable before after (lineComment " @x") (lineComment " it's '@y' --") ∧
      names (before ++ lineComment " it's '@y' --" ++ after) =
        names (before ++ lineComment " @x" ++ after) ∧
      rename (fun _ => some "z") (before ++ lineComment " it's '@y' --" ++ after) =
        "A = 'it''s' AND B = @z -- it's '@y' --\nAND C = @z 'open" := by
  intro before after
  have hafter : Stops (· != '\n') after.toList := by
    have hhead : after.toList.head? = some '\n' := by decide +kernel
    simp [Stops, hhead]
  have h : Interchangeable before after (lineComment " @x") (lineComment " it's '@y' --") :=
    .line (by decide +kernel) (by decide +kernel) (by decide +kernel) (by decide +kernel) hafter
  obtain ⟨hnames, hrename⟩ := comments_opaque h
  refine ⟨h, hnames.symm, ?_⟩
  rw [(hrename _).2]
  decide +kernel

/--
Block comments are read: a quote in one opens a quoted text, which hides the placeholders behind it,
and a placeholder in one is found and renamed. A quote in a line comment closes one that is open.
-/
theorem comments_read :
    let before := "SELECT * FROM T "
    let after := " WHERE A = @a AND B = 'b'"
    (Lexer.lex .normal before.toList).2 = .normal ∧
      names (before ++ blockComment " its " ++ after) = ["a"] ∧
      names (before ++ blockComment " it's " ++ after) = [] ∧
      names (before ++ blockComment " @x " ++ after) = ["x", "a"] ∧
      rename (fun n => if n = "x" then some "y" else none) (before ++ blockComment " @x ") =
        before ++ blockComment " @y " ∧
      names ("SELECT ' " ++ lineComment " it") = [] ∧
      names ("SELECT ' " ++ lineComment " '@x") = ["x"] := by
  decide +kernel

end SqlFilter.Placeholder
