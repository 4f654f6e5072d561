import GeneratorBench.Toml.Scalar

/-!
Texts in quotes, on one line or on many. Double quotes let a backslash write characters that
cannot stand for themselves; single quotes take everything as it is.
-/

namespace GeneratorBench.Toml

def isTextChar (c : Char) : Bool := c == '\t' || (32 ≤ c.toNat && c.toNat != 127)

def isLineBreak (c : Char) (cs : List Char) : Bool :=
  c == '\n' || (c == '\r' && cs.head? == some '\n')

inductive Place
  | plain
  | escaped
  /-- In a code point, with so many digits to come and the value of those before. -/
  | code (digits value : Nat)
  /-- Among the blanks after a backslash at the end of a line; the line was left or not. -/
  | folded (left : Bool)
  deriving DecidableEq

def simpleEscape? (c : Char) : Option Char :=
  match c with
  | 'b' => some '\x08'
  | 't' => some '\t'
  | 'n' => some '\n'
  | 'f' => some '\x0c'
  | 'r' => some '\r'
  | 'e' => some '\x1b'
  | '"' => some '"'
  | '\\' => some '\\'
  | _ => none

def codeLength? (c : Char) : Option Nat :=
  match c with
  | 'x' => some 2
  | 'u' => some 4
  | 'U' => some 8
  | _ => none

/-- What follows three quotes: up to two more of them end the text, the rest comes after it. -/
def afterFence (quote : Char) (cs : List Char) : List Char × List Char :=
  let more := (cs.take 2).takeWhile (· == quote)
  (more, cs.drop more.length)

def push (c : Char) (r : Option (List Char × List Char)) : Option (List Char × List Char) :=
  r.map fun (text, rest) => (c :: text, rest)

def doubleQuoted (multiline : Bool) : Place → List Char → Option (List Char × List Char)
  | _, [] => none
  | place, c :: cs =>
    let blank := c == ' ' || c == '\t'
    match if place == .folded true && !blank && !isLineBreak c cs then .plain else place with
    | .plain =>
      if c == '"' then
        if !multiline then some ([], cs)
        else if cs.take 2 == ['"', '"'] then some (afterFence '"' (cs.drop 2))
        else push c (doubleQuoted multiline .plain cs)
      else if c == '\\' then doubleQuoted multiline .escaped cs
      else if isTextChar c || (multiline && isLineBreak c cs) then
        push c (doubleQuoted multiline .plain cs)
      else none
    | .escaped =>
      match simpleEscape? c, codeLength? c with
      | some e, _ => push e (doubleQuoted multiline .plain cs)
      | none, some digits => doubleQuoted multiline (.code digits 0) cs
      | none, none =>
        if multiline && (blank || isLineBreak c cs) then
          doubleQuoted multiline (.folded (c == '\n')) cs
        else none
    | .code digits value =>
      match hexDigit? c with
      | none => none
      | some d =>
        let value := value * 16 + d
        if digits > 1 then doubleQuoted multiline (.code (digits - 1) value) cs
        else if value.isValidChar then
          push (Char.ofNat value) (doubleQuoted multiline .plain cs)
        else none
    | .folded left =>
      if blank || isLineBreak c cs then
        doubleQuoted multiline (.folded (left || c == '\n')) cs
      else none

def singleQuoted (multiline : Bool) : List Char → Option (List Char × List Char)
  | [] => none
  | c :: cs =>
    if c == '\'' && !multiline then some ([], cs)
    else if c == '\'' && cs.take 2 == ['\'', '\''] then some (afterFence '\'' (cs.drop 2))
    else if isTextChar c || (multiline && isLineBreak c cs) then push c (singleQuoted multiline cs)
    else none

def dropLineBreak (cs : List Char) : List Char :=
  match cs with
  | '\n' :: cs | '\r' :: '\n' :: cs => cs
  | cs => cs

def quotedLine? (cs : List Char) : Option (String × List Char) :=
  match cs with
  | '"' :: cs => (doubleQuoted false .plain cs).map fun (text, rest) => (.ofList text, rest)
  | '\'' :: cs => (singleQuoted false cs).map fun (text, rest) => (.ofList text, rest)
  | _ => none

def quoted? (cs : List Char) : Option (String × List Char) :=
  match cs with
  | '"' :: '"' :: '"' :: cs =>
    (doubleQuoted true .plain (dropLineBreak cs)).map fun (text, rest) => (.ofList text, rest)
  | '\'' :: '\'' :: '\'' :: cs =>
    (singleQuoted true (dropLineBreak cs)).map fun (text, rest) => (.ofList text, rest)
  | cs => quotedLine? cs

end GeneratorBench.Toml
