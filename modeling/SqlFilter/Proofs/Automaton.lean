import SqlFilter.Proofs.Scanning

/-!
A lexer in one pass, with three states. On every text that it does not leave inside quotes it agrees
with the tokens of the text: the same placeholders stand at the same places.
-/
namespace SqlFilter.Placeholder

namespace Lexer

inductive State
  | normal
  | quoted
  | comment
  deriving DecidableEq, Repr

structure Move where
  token : Token
  state : State
  rest : List Char

/-- The move outside quotes and comments, from a text that begins with `c`. -/
def moveNormal (c : Char) (cs : List Char) : Move :=
  if c = '\'' then ⟨.verbatim [c], .quoted, cs⟩
  else if c = '-' ∧ cs.head? = some '-' then ⟨.verbatim ['-', '-'], .comment, cs.tail⟩
  else if c = '@' ∧ cs.head? = some '@' then
    ⟨.verbatim ('@' :: '@' :: cs.tail.takeWhile Text.isWord), .normal,
      cs.tail.dropWhile Text.isWord⟩
  else if c = '@' ∧ cs.takeWhile Text.isWord ≠ [] then
    ⟨.placeholder (cs.takeWhile Text.isWord), .normal, cs.dropWhile Text.isWord⟩
  else ⟨.verbatim [c], .normal, cs⟩

def move : State → Char → List Char → Move
  | .normal, c, cs => moveNormal c cs
  | .quoted, c, cs => ⟨.verbatim [c], if c = '\'' then .normal else .quoted, cs⟩
  | .comment, c, cs => ⟨.verbatim [c], if c = '\n' then .normal else .comment, cs⟩

theorem chars_move (s : State) (c : Char) (cs : List Char) :
    (move s c cs).token.chars ++ (move s c cs).rest = c :: cs := by
  cases s with
  | quoted => rfl
  | comment => rfl
  | normal =>
    rw [move, moveNormal]
    split
    · rfl
    split
    · next h => simp [Token.chars, h.1, List.cons_head?_tail h.2]
    split
    · next h => simp [Token.chars, h.1, List.cons_head?_tail h.2]
    split
    · next h => simp [Token.chars, h.1]
    · rfl

theorem length_move (s : State) (c : Char) (cs : List Char) :
    (move s c cs).rest.length < (c :: cs).length := by
  have hne : (move s c cs).token.chars ≠ [] := by
    cases s with
    | quoted => simp [move, Token.chars]
    | comment => simp [move, Token.chars]
    | normal =>
      rw [move, moveNormal]
      split_ifs <;> simp [Token.chars]
  have h := congrArg List.length (chars_move s c cs)
  have := List.length_pos_iff.2 hne
  simp only [List.length_append] at h
  omega

def lex (s : State) : List Char → List Token × State
  | [] => ([], s)
  | c :: cs =>
    let m := move s c cs
    let r := lex m.state m.rest
    (m.token :: r.1, r.2)
  termination_by cs => cs.length
  decreasing_by exact length_move s c cs

def reported (sql : String) : List String := (lex .normal sql.toList).1.filterMap Token.name?

def rewritten (f : String → Option String) (sql : String) : String :=
  .ofList ((lex .normal sql.toList).1.flatMap (Token.rename f))

theorem lex_of_move {s s' : State} {c : Char} {cs rest : List Char} {t : Token}
    (h : move s c cs = ⟨t, s', rest⟩) :
    lex s (c :: cs) = (t :: (lex s' rest).1, (lex s' rest).2) := by
  rw [lex, h]

theorem flatMap_chars_lex (s : State) (cs : List Char) :
    (lex s cs).1.flatMap Token.chars = cs := by
  fun_induction lex s cs with
  | case1 s => rfl
  | case2 s c cs m r ih => rw [List.flatMap_cons, ih, chars_move]

end Lexer

/-- The finest cut of a token: a placeholder as a whole, other text character by character. -/
def Token.atoms : Token → List Token
  | .placeholder name => [.placeholder name]
  | .verbatim text => text.map fun c => .verbatim [c]

def atoms (ts : List Token) : List Token := ts.flatMap Token.atoms

theorem atoms_cons (t : Token) (ts : List Token) : atoms (t :: ts) = t.atoms ++ atoms ts := rfl

theorem filterMap_name?_atoms (ts : List Token) :
    (atoms ts).filterMap Token.name? = ts.filterMap Token.name? := by
  induction ts with
  | nil => rfl
  | cons t ts ih =>
    rw [atoms_cons, List.filterMap_append, ih]
    cases t with
    | placeholder name => rfl
    | verbatim text =>
      have htext : (Token.verbatim text).atoms.filterMap Token.name? = [] := by
        simp [Token.atoms, Token.name?, Function.comp_def]
      rw [htext]
      rfl

theorem flatMap_rename_atoms (f : String → Option String) (ts : List Token) :
    (atoms ts).flatMap (Token.rename f) = ts.flatMap (Token.rename f) := by
  induction ts with
  | nil => rfl
  | cons t ts ih =>
    rw [atoms_cons, List.flatMap_append, ih, List.flatMap_cons]
    cases t with
    | placeholder name => simp [Token.atoms]
    | verbatim text => simp [Token.atoms, Token.rename, List.flatMap_map]

theorem atoms_append (ts us : List Token) : atoms (ts ++ us) = atoms ts ++ atoms us :=
  List.flatMap_append

theorem atoms_atoms (t : Token) : atoms t.atoms = t.atoms := by
  cases t with
  | placeholder name => rfl
  | verbatim text => exact (List.flatMap_map ..).trans List.map_eq_flatMap.symm

theorem atoms_singleton (t : Token) : atoms [t] = t.atoms := List.flatMap_singleton ..

namespace Lexer

theorem lex_normal_quote (cs : List Char) :
    lex .normal ('\'' :: cs) = (.verbatim ['\''] :: (lex .quoted cs).1, (lex .quoted cs).2) :=
  lex_of_move rfl

theorem lex_quoted_quote (cs : List Char) :
    lex .quoted ('\'' :: cs) = (.verbatim ['\''] :: (lex .normal cs).1, (lex .normal cs).2) :=
  lex_of_move rfl

theorem lex_quoted_cons {c : Char} (h : c ≠ '\'') (cs : List Char) :
    lex .quoted (c :: cs) = (.verbatim [c] :: (lex .quoted cs).1, (lex .quoted cs).2) :=
  lex_of_move (by simp [move, h])

/-- Two quotes inside quotes lead out of them and in again. -/
theorem lex_quoted {cs text rest : List Char} (h : closeQuote? cs = some (text, rest)) :
    lex .quoted cs =
      ((Token.verbatim text).atoms ++ (lex .normal rest).1, (lex .normal rest).2) := by
  fun_induction closeQuote? cs generalizing text rest with
  | case1 cs ih =>
    obtain ⟨⟨t, r⟩, ht, he⟩ := Option.map_eq_some_iff.1 h
    obtain ⟨rfl, rfl⟩ := Prod.mk.inj he
    rw [lex_quoted_quote, lex_normal_quote, ih ht]
    rfl
  | case2 cs _ =>
    obtain ⟨rfl, rfl⟩ := Prod.mk.inj (Option.some.inj h)
    exact lex_quoted_quote cs
  | case3 c cs _ hc ih =>
    obtain ⟨⟨t, r⟩, ht, he⟩ := Option.map_eq_some_iff.1 h
    obtain ⟨rfl, rfl⟩ := Prod.mk.inj he
    rw [lex_quoted_cons hc, ih ht]
    rfl
  | case4 => simp at h

theorem lex_unclosed {cs : List Char} (h : closeQuote? cs = none) :
    (lex .quoted cs).2 = .quoted := by
  fun_induction closeQuote? cs with
  | case1 cs ih =>
    rw [lex_quoted_quote, lex_normal_quote]
    exact ih (Option.map_eq_none_iff.1 h)
  | case2 cs _ => cases h
  | case3 c cs _ hc ih =>
    rw [lex_quoted_cons hc]
    exact ih (Option.map_eq_none_iff.1 h)
  | case4 => rw [lex]

theorem lex_open_quote {rest : List Char} (h : closeQuote? rest = none) :
    (lex .normal ('\'' :: rest)).2 = .quoted := by
  rw [lex_normal_quote]
  exact lex_unclosed h

theorem lex_comment {line : List Char} (h : ∀ c ∈ line, c != '\n') (rest : List Char) :
    lex .comment (line ++ rest) =
      ((Token.verbatim line).atoms ++ (lex .comment rest).1, (lex .comment rest).2) := by
  induction line with
  | nil => rfl
  | cons c cs ih =>
    obtain ⟨hc, hcs⟩ := List.forall_mem_cons.1 h
    have hc : c ≠ '\n' := by simpa using hc
    have hmove : move .comment c (cs ++ rest) = ⟨.verbatim [c], .comment, cs ++ rest⟩ := by
      simp [move, hc]
    rw [List.cons_append, lex_of_move hmove, ih hcs]
    rfl

theorem lex_line_comment {line : List Char} (h : ∀ c ∈ line, c != '\n') :
    (lex .normal ('-' :: '-' :: line)).2 = .comment := by
  have hmove : move .normal '-' ('-' :: line) = ⟨.verbatim ['-', '-'], .comment, line⟩ := rfl
  have hlex := lex_comment h []
  rw [List.append_nil] at hlex
  rw [lex_of_move hmove, hlex, lex]

theorem lex_comment_newline (cs : List Char) :
    lex .comment ('\n' :: cs) = lex .normal ('\n' :: cs) := by
  have hcomment : move .comment '\n' cs = ⟨.verbatim ['\n'], .normal, cs⟩ := rfl
  have hnormal : move .normal '\n' cs = ⟨.verbatim ['\n'], .normal, cs⟩ := rfl
  rw [lex_of_move hcomment, lex_of_move hnormal]

/-- At the end of its line a comment is over. -/
theorem lex_comment_end {rest : List Char} (h : Stops (· != '\n') rest) :
    (lex .comment rest).1 = (lex .normal rest).1 ∧
      ((lex .normal rest).2 = .quoted → (lex .comment rest).2 = .quoted) := by
  cases rest with
  | nil => simp [lex]
  | cons c cs =>
    obtain rfl : c = '\n' := by simpa using h c rfl
    rw [lex_comment_newline]
    exact ⟨rfl, id⟩

theorem lex_plain {cs : List Char} (h : ∀ c ∈ cs, isMark c = false) (rest : List Char) :
    lex .normal (cs ++ rest) =
      ((Token.verbatim cs).atoms ++ (lex .normal rest).1, (lex .normal rest).2) := by
  induction cs with
  | nil => rfl
  | cons c cs ih =>
    obtain ⟨hc, hcs⟩ := List.forall_mem_cons.1 h
    obtain ⟨h₁, h₂, h₃⟩ := isMark_eq_false.1 hc
    have hmove : move .normal c (cs ++ rest) = ⟨.verbatim [c], .normal, cs ++ rest⟩ := by
      simp [move, moveNormal, h₁, h₂, h₃]
    rw [List.cons_append, lex_of_move hmove, ih hcs]
    rfl

/--
The lexer reads a token that is complete before a text. After it the lexer is outside quotes and
comments, unless the token is a quote that nothing closes, or a comment.
-/
theorem exists_lex_of_before {t : Token} {rest : List Char} (h : Before t rest) :
    ∃ ts s, atoms ts = t.atoms ∧
      lex .normal (t.chars ++ rest) = (ts ++ (lex s rest).1, (lex s rest).2) ∧
      (s = .normal ∨ (s = .quoted ∧ closeQuote? rest = none) ∨
        (s = .comment ∧ Stops (· != '\n') rest)) := by
  cases h with
  | @system w _ hw hr =>
    obtain ⟨htake, hdrop⟩ := Prod.mk.inj (run_eq hw hr)
    have hmove : move .normal '@' ('@' :: (w ++ rest)) =
        ⟨.verbatim ('@' :: '@' :: w), .normal, rest⟩ := by
      simp [move, moveNormal, htake, hdrop]
    exact ⟨_, .normal, atoms_singleton _, lex_of_move hmove, .inl rfl⟩
  | @placeholder w _ hne hw hr =>
    obtain ⟨htake, hdrop⟩ := Prod.mk.inj (run_eq hw hr)
    have hat : w.head? ≠ some '@' := fun h =>
      absurd (hw '@' (List.mem_of_mem_head? h)) (by decide)
    have hmove : move .normal '@' (w ++ rest) = ⟨.placeholder w, .normal, rest⟩ := by
      simp [move, moveNormal, htake, hdrop, hne, hat]
    exact ⟨_, .normal, atoms_singleton _, lex_of_move hmove, .inl rfl⟩
  | loneAt hr hw =>
    obtain ⟨htake, _⟩ := Prod.mk.inj (run_eq (w := []) (by simp) hw)
    have hmove : move .normal '@' rest = ⟨.verbatim ['@'], .normal, rest⟩ := by
      rw [List.nil_append] at htake
      simp [move, moveNormal, htake, hr]
    exact ⟨_, .normal, atoms_singleton _, lex_of_move hmove, .inl rfl⟩
  | @quoted text _ h =>
    refine ⟨_, .normal, atoms_atoms _, ?_, .inl rfl⟩
    rw [Token.chars, List.cons_append, lex_normal_quote, lex_quoted h]
    rfl
  | quote h => exact ⟨_, .quoted, atoms_singleton _, lex_normal_quote rest, .inr (.inl ⟨rfl, h⟩)⟩
  | @comment line _ hl hr =>
    have hmove : move .normal '-' ('-' :: (line ++ rest)) =
        ⟨.verbatim ['-', '-'], .comment, line ++ rest⟩ := rfl
    refine ⟨.verbatim ['-', '-'] :: (Token.verbatim line).atoms, .comment, ?_, ?_,
      .inr (.inr ⟨rfl, hr⟩)⟩
    · rw [atoms_cons, atoms_atoms]
      rfl
    · rw [Token.chars, List.cons_append, List.cons_append, lex_of_move hmove, lex_comment hl]
      rfl
  | dash hr =>
    have hmove : move .normal '-' rest = ⟨.verbatim ['-'], .normal, rest⟩ := by
      simp [move, moveNormal, hr]
    exact ⟨_, .normal, atoms_singleton _, lex_of_move hmove, .inl rfl⟩
  | @plain c cs _ hc hcs hr =>
    have hplain : ∀ d ∈ c :: cs, isMark d = false :=
      List.forall_mem_cons.2 ⟨hc, fun d hd => by simpa using hcs d hd⟩
    exact ⟨_, .normal, atoms_atoms _, lex_plain hplain rest, .inl rfl⟩

theorem lex_of_before {t : Token} {rest : List Char} (h : Before t rest)
    (hend : (lex .normal (t.chars ++ rest)).2 ≠ .quoted) :
    atoms (lex .normal (t.chars ++ rest)).1 = t.atoms ++ atoms (lex .normal rest).1 ∧
      (lex .normal rest).2 ≠ .quoted := by
  obtain ⟨ts, s, hts, hlex, hs⟩ := exists_lex_of_before h
  rw [hlex] at hend ⊢
  rw [atoms_append, hts]
  rcases hs with rfl | ⟨rfl, hopen⟩ | ⟨rfl, hr⟩
  · exact ⟨rfl, hend⟩
  · exact (hend (lex_unclosed hopen)).elim
  · obtain ⟨htokens, hquoted⟩ := lex_comment_end hr
    rw [htokens]
    exact ⟨rfl, fun h => hend (hquoted h)⟩

theorem outside_of_before {t : Token} {rest : List Char} (h : Before t rest)
    (hend : (lex .normal (t.chars ++ rest)).2 = .normal) : (lex .normal rest).2 = .normal := by
  obtain ⟨ts, s, -, hlex, hs⟩ := exists_lex_of_before h
  rw [hlex] at hend
  rcases hs with rfl | ⟨rfl, hopen⟩ | ⟨rfl, hr⟩
  · exact hend
  · rw [lex_unclosed hopen] at hend
    cases hend
  · cases rest with
    | nil =>
      rw [lex] at hend
      cases hend
    | cons c cs =>
      obtain rfl : c = '\n' := by simpa using hr c rfl
      rwa [lex_comment_newline] at hend

end Lexer

theorem atoms_tokens {cs : List Char} (h : (Lexer.lex .normal cs).2 ≠ .quoted) :
    atoms (tokens cs) = atoms (Lexer.lex .normal cs).1 := by
  fun_induction tokens cs with
  | case1 => rw [Lexer.lex]
  | case2 c cs ih =>
    have hb := before_next c cs
    rw [← chars_next c cs] at h ⊢
    obtain ⟨hatoms, hrest⟩ := Lexer.lex_of_before hb h
    rw [atoms_cons, hatoms, ih hrest]

/-- Unless the lexer ends inside quotes, it reports the placeholders of the text. -/
theorem names_eq_reported {sql : String} (h : (Lexer.lex .normal sql.toList).2 ≠ .quoted) :
    ((Lexer.lex .normal sql.toList).1.flatMap Token.chars = sql.toList) ∧
    names sql = (Lexer.reported sql).eraseDups ∧ ∀ f, rename f sql = Lexer.rewritten f sql := by
  have hatoms := atoms_tokens h
  refine ⟨Lexer.flatMap_chars_lex _ _, ?_, fun f => ?_⟩
  · rw [names, occurrences, Lexer.reported, ← filterMap_name?_atoms, hatoms, filterMap_name?_atoms]
  · rw [rename, Lexer.rewritten, ← flatMap_rename_atoms, hatoms, flatMap_rename_atoms]

/-- Marks of all kinds beside each other. -/
theorem names_eq_reported_marks :
    let sql := "@a = 'it''s @b' -- '@c\nAND @@d = @-@a1 AND '' = @a"
    (Lexer.lex .normal sql.toList).2 ≠ .quoted ∧ Lexer.reported sql = ["a", "a1", "a"] ∧
      names sql = ["a", "a1"] ∧
      rename (fun n => some ("x" ++ n)) sql =
        "@xa = 'it''s @b' -- '@c\nAND @@d = @-@xa1 AND '' = @xa" := by
  intro sql
  have hend : (Lexer.lex .normal sql.toList).2 ≠ .quoted := by decide +kernel
  obtain ⟨_, hnames, hrename⟩ := names_eq_reported hend
  have hreported : Lexer.reported sql = ["a", "a1", "a"] := by decide +kernel
  refine ⟨hend, hreported, ?_, ?_⟩
  · rw [hnames, hreported]
    decide
  · rw [hrename]
    decide +kernel

end SqlFilter.Placeholder
