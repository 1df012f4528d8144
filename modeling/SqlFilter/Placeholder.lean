import SqlFilter.Parameter
import SqlFilter.Text.Word

/-!
The placeholders of an SQL text. The text is cut into tokens, which concatenate to it: placeholders
`@name` outside quotes and comments, and text that is left alone.
-/
namespace SqlFilter.Placeholder

inductive Token
  | placeholder (name : List Char)
  | verbatim (text : List Char)
  deriving DecidableEq, Repr

def Token.chars : Token → List Char
  | .placeholder name => '@' :: name
  | .verbatim text => text

/-- Characters that no token but their own begins with. -/
def isMark (c : Char) : Bool := c == '@' || c == '\'' || c == '-'

/--
The rest of a quoted text up to its closing quote, and what follows. Two quotes inside it are one
of its characters. An unclosed text is none.
-/
def closeQuote? : List Char → Option (List Char × List Char)
  | '\'' :: '\'' :: cs => (closeQuote? cs).map fun r => ('\'' :: '\'' :: r.1, r.2)
  | '\'' :: cs => some (['\''], cs)
  | c :: cs => (closeQuote? cs).map fun r => (c :: r.1, r.2)
  | [] => none

def run (p : Char → Bool) (cs : List Char) : List Char × List Char :=
  (cs.takeWhile p, cs.dropWhile p)

def next (c : Char) (cs : List Char) : Token × List Char :=
  if c = '@' then
    match cs with
    | '@' :: cs =>
      let (word, rest) := run Text.isWord cs
      (.verbatim ('@' :: '@' :: word), rest)
    | _ =>
      match run Text.isWord cs with
      | ([], _) => (.verbatim ['@'], cs)
      | (word, rest) => (.placeholder word, rest)
  else if c = '\'' then
    match closeQuote? cs with
    | some (text, rest) => (.verbatim ('\'' :: text), rest)
    | none => (.verbatim ['\''], cs)
  else if c = '-' then
    match cs with
    | '-' :: cs =>
      let (line, rest) := run (· != '\n') cs
      (.verbatim ('-' :: '-' :: line), rest)
    | _ => (.verbatim ['-'], cs)
  else
    let (text, rest) := run (!isMark ·) cs
    (.verbatim (c :: text), rest)

theorem closeQuote?_append {cs text rest : List Char} (h : closeQuote? cs = some (text, rest)) :
    text ++ rest = cs := by
  fun_induction closeQuote? cs generalizing text rest with
  | case1 cs ih | case3 c cs _ _ ih =>
    obtain ⟨⟨t, r⟩, ht, he⟩ := Option.map_eq_some_iff.1 h
    obtain ⟨rfl, rfl⟩ := Prod.mk.inj he
    simp [ih ht]
  | case2 cs _ =>
    obtain ⟨rfl, rfl⟩ := Prod.mk.inj (Option.some.inj h)
    rfl
  | case4 => simp at h

theorem run_append (p : Char → Bool) (cs : List Char) : (run p cs).1 ++ (run p cs).2 = cs :=
  List.takeWhile_append_dropWhile

/-- Nothing is lost: the first token and the rest make up the text. -/
theorem chars_next (c : Char) (cs : List Char) :
    (next c cs).1.chars ++ (next c cs).2 = c :: cs := by
  unfold next
  split
  · rename_i hc
    split
    · simp [Token.chars, hc, run_append]
    · split <;> rename_i h
      · simp [Token.chars, hc]
      · have := run_append Text.isWord cs
        rw [h] at this
        simp [Token.chars, hc, this]
  · split
    · rename_i hc
      split <;> rename_i h
      · simp [Token.chars, hc, closeQuote?_append h]
      · simp [Token.chars, hc]
    · split
      · rename_i hc
        split <;> simp [Token.chars, hc, run_append]
      · simp [Token.chars, run_append]

theorem chars_next_ne_nil (c : Char) (cs : List Char) : (next c cs).1.chars ≠ [] := by
  unfold next
  split
  · split
    · simp [Token.chars]
    · split <;> simp [Token.chars]
  · split
    · split <;> simp [Token.chars]
    · split
      · split <;> simp [Token.chars]
      · simp [Token.chars]

theorem length_next (c : Char) (cs : List Char) : (next c cs).2.length < (c :: cs).length := by
  have h := congrArg List.length (chars_next c cs)
  have := List.length_pos_iff.2 (chars_next_ne_nil c cs)
  simp only [List.length_append] at h
  omega

def tokens : List Char → List Token
  | [] => []
  | c :: cs => (next c cs).1 :: tokens (next c cs).2
  termination_by cs => cs.length
  decreasing_by exact length_next c cs

/-- The tokens make up the text. -/
theorem flatMap_chars_tokens (cs : List Char) : (tokens cs).flatMap Token.chars = cs := by
  fun_induction tokens cs with
  | case1 => rfl
  | case2 c cs ih => simp [ih, chars_next]

def Token.name? : Token → Option String
  | .placeholder name => some (.ofList name)
  | .verbatim _ => none

/-- The placeholders of a text without their `@`, in order, each time they occur. -/
def occurrences (sql : String) : List String := (tokens sql.toList).filterMap Token.name?

/-- The placeholders of a text without their `@`, in order of first appearance. -/
def names (sql : String) : List String := (occurrences sql).eraseDups

def Token.rename (f : String → Option String) : Token → List Char
  | .placeholder name => '@' :: ((f (.ofList name)).map String.toList).getD name
  | .verbatim text => text

def rename (f : String → Option String) (sql : String) : String :=
  .ofList ((tokens sql.toList).flatMap (Token.rename f))

@[simp] theorem rename_none (sql : String) : rename (fun _ => none) sql = sql := by
  have : Token.rename (fun _ => none) = Token.chars := by
    funext t; cases t <;> rfl
  simp [rename, this, flatMap_chars_tokens]

end SqlFilter.Placeholder
