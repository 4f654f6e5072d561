import GeneratorBench.Text.CharClass
import GeneratorBench.Text.Position

/-!
Tokens of the dialect. A text is a gap, a token, a gap, …, a token, a gap, where a gap is blanks
and comments. `tokens` reads the whole text; what stands inside a literal is not kept, since
nothing that is declared depends on it.
-/

namespace GeneratorBench

inductive Token.Kind
  /-- A word, without the `@` that may stand before it. -/
  | word (text : String)
  /-- Any single character that starts no word and no literal. -/
  | mark (c : Char)
  /-- A text, character or number literal. -/
  | literal
  deriving Repr, DecidableEq, Inhabited

structure Token where
  kind : Token.Kind
  start : Position
  length : Nat
  deriving Repr, DecidableEq, Inhabited

namespace Token

def isMark (t : Token) (c : Char) : Bool := t.kind == .mark c

def word? (t : Token) : Option String :=
  match t.kind with
  | .word text => some text
  | _ => none

def isWord (t : Token) (text : String) : Bool := t.word? == some text

/-- The span of a token, taken to lie on the line where it starts. -/
def span (t : Token) : Span := Span.onLine t.start.line t.start.column t.length

def stop (t : Token) : Position := t.span.stop

inductive Gap
  | blank
  | lineComment
  | blockComment

/-- Splits the gap off the front of a text. A block comment that is never closed takes the rest. -/
def splitGap : Gap → List Char → List Char × List Char
  | _, [] => ([], [])
  | .blank, [c] => if Text.isBlank c then ([c], []) else ([], [c])
  | .blank, c :: d :: cs =>
    if Text.isBlank c then
      let (gap, rest) := splitGap .blank (d :: cs)
      (c :: gap, rest)
    else if c = '/' ∧ d = '/' then
      let (gap, rest) := splitGap .lineComment cs
      (c :: d :: gap, rest)
    else if c = '/' ∧ d = '*' then
      let (gap, rest) := splitGap .blockComment cs
      (c :: d :: gap, rest)
    else ([], c :: d :: cs)
  | .lineComment, c :: cs =>
    let (gap, rest) := splitGap (if c = '\n' then .blank else .lineComment) cs
    (c :: gap, rest)
  | .blockComment, [c] => ([c], [])
  | .blockComment, c :: d :: cs =>
    if c = '*' ∧ d = '/' then
      let (gap, rest) := splitGap .blank cs
      (c :: d :: gap, rest)
    else
      let (gap, rest) := splitGap .blockComment (d :: cs)
      (c :: gap, rest)

theorem splitGap_append (g : Gap) (cs : List Char) :
    (splitGap g cs).1 ++ (splitGap g cs).2 = cs := by
  fun_induction splitGap g cs <;> simp_all

/-- The part of a quoted literal after its opening quote. It ends with the next quote of the same
kind or with the line; a backslash takes the character after it along. -/
def splitQuoted (quote : Char) : List Char → List Char × List Char
  | [] => ([], [])
  | '\\' :: c :: cs =>
    let (body, rest) := splitQuoted quote cs
    ('\\' :: c :: body, rest)
  | c :: cs =>
    if c = '\\' then ([c], cs)
    else if c = quote || c = '\n' then ([c], cs)
    else
      let (body, rest) := splitQuoted quote cs
      (c :: body, rest)

theorem splitQuoted_append (quote : Char) (cs : List Char) :
    (splitQuoted quote cs).1 ++ (splitQuoted quote cs).2 = cs := by
  fun_induction splitQuoted quote cs <;> simp_all

def splitWhile (p : Char → Bool) (cs : List Char) : List Char × List Char :=
  (cs.takeWhile p, cs.dropWhile p)

def startsWord (c : Char) : Bool := Text.isAlphabetic c || c == '_' || c == '@'

def isQuote (c : Char) : Bool := c == '"' || c == '\''

def isNumberChar (c : Char) : Bool := c.isAlphanum || c == '.'

/-- The lexeme that starts with `c`, less `c` itself, and the text after it. -/
def splitLexeme (c : Char) (cs : List Char) : List Char × List Char :=
  if startsWord c then splitWhile Text.isWordChar cs
  else if isQuote c then splitQuoted c cs
  else if c.isDigit then splitWhile isNumberChar cs
  else ([], cs)

theorem splitLexeme_append (c : Char) (cs : List Char) :
    (splitLexeme c cs).1 ++ (splitLexeme c cs).2 = cs := by
  simp only [splitLexeme, splitWhile]
  split
  · exact List.takeWhile_append_dropWhile
  · split
    · exact splitQuoted_append c cs
    · split
      · exact List.takeWhile_append_dropWhile
      · rfl

def kindOf (c : Char) (body : List Char) : Kind :=
  if startsWord c then .word (String.ofList (if c = '@' then body else c :: body))
  else if isQuote c || c.isDigit then .literal
  else .mark c

def tokensFrom (p : Position) (cs : List Char) : List Token :=
  match h : (splitGap .blank cs).2 with
  | [] => []
  | c :: rest =>
    let start := p.advance (splitGap .blank cs).1
    let body := (splitLexeme c rest).1
    ⟨kindOf c body, start, body.length + 1⟩
      :: tokensFrom (start.advance (c :: body)) (splitLexeme c rest).2
termination_by cs.length
decreasing_by
  have gap := congrArg List.length (splitGap_append .blank cs)
  have lexeme := congrArg List.length (splitLexeme_append c rest)
  simp only [h, List.length_append, List.length_cons] at gap lexeme
  omega

end Token

def tokens (text : String) : List Token := Token.tokensFrom .origin text.toList

end GeneratorBench
