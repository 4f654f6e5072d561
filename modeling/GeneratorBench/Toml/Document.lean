import GeneratorBench.Toml.Quoted

/-!
TOML documents. A document is read line by line into statements, and the statements are then put
into one table; `Document.ofText` answers with none if the text is malformed or says a thing twice.
-/

namespace GeneratorBench.Toml

def skipBlanks (cs : List Char) : List Char := cs.dropWhile fun c => c == ' ' || c == '\t'

def skipLayout (inComment : Bool) : List Char → Option (List Char)
  | [] => some []
  | c :: cs =>
    if isLineBreak c cs then skipLayout (inComment && c != '\n') cs
    else if inComment then if isTextChar c then skipLayout true cs else none
    else if c == ' ' || c == '\t' then skipLayout false cs
    else if c == '#' then skipLayout true cs
    else some (c :: cs)

def skipLineEnd (cs : List Char) : Option (List Char) :=
  match skipBlanks cs with
  | [] => some []
  | '#' :: cs =>
    match cs.dropWhile isTextChar with
    | [] => some []
    | c :: cs => if isLineBreak c cs then some (c :: cs) else none
  | c :: cs => if isLineBreak c cs then some (c :: cs) else none

def isBareKeyChar (c : Char) : Bool := c.isAlphanum || c == '_' || c == '-'

def keySegment? (cs : List Char) : Option (String × List Char) :=
  match quotedLine? cs with
  | some r => some r
  | none =>
    let word := cs.takeWhile isBareKeyChar
    if word.isEmpty then none else some (.ofList word, cs.drop word.length)

def segments? (count : Nat) (cs : List Char) : Option (List String × List Char) :=
  match count, keySegment? (skipBlanks cs) with
  | count + 1, some (segment, rest) =>
    match skipBlanks rest with
    | '.' :: rest => (segments? count rest).map fun (later, rest) => (segment :: later, rest)
    | rest => some ([segment], rest)
  | _, _ => none

/-- How deep a document may nest, by its brackets and by the segments of each key. -/
def maxDepth : Nat := 80

def key? (cs : List Char) : Option (List String × List Char) := segments? maxDepth cs

/-- Changes the table at the end of `path` by `f`, making the tables on the way that are missing.
A header may pass through any table but one between braces, a dotted key only through those that
no header opened. -/
def update (dotted : Bool) (f : TableKind → Entries → Option Value) :
    List String → TableKind → Entries → Option Value
  | [], kind, entries => f kind entries
  | key :: path, kind, entries =>
    let replace (v : Value) : Value := .table kind (entries.put key v)
    match entries.get? key with
    | none => (update dotted f path (if dotted then .dotted else .implied) []).map replace
    | some (.table inner entries) =>
      if inner == .inline || (dotted && !inner.isImplicit) then none
      else (update dotted f path inner entries).map replace
    | some (.tables (.table inner entries :: items)) =>
      (update dotted f path inner entries).map fun v => replace (.tables (v :: items))
    | _ => none

/-- Gives a new key a value. The table that a dotted key leads to must itself come of one. -/
def assign (key : List String) (v : Value) (kind : TableKind) (entries : Entries) : Option Value :=
  match key.getLast? with
  | none => none
  | some last =>
    let isPath := key.length > 1
    update true (fun kind entries =>
      if (kind == .dotted) != isPath || (entries.get? last).isSome then none
      else some (.table kind (entries.put last v))) key.dropLast kind entries

def openTable (last : String) (kind : TableKind) (entries : Entries) : Option Value :=
  match entries.get? last with
  | none => some (.table kind (entries.put last (.table .header [])))
  | some (.table .implied inner) => some (.table kind (entries.put last (.table .header inner)))
  | _ => none

def openItem (last : String) (kind : TableKind) (entries : Entries) : Option Value :=
  match entries.get? last with
  | none => some (.table kind (entries.put last (.tables [.table .header []])))
  | some (.tables items) =>
    some (.table kind (entries.put last (.tables (.table .header [] :: items))))
  | _ => none

def items? (value : List Char → Option (Value × List Char)) (fuel : Nat) (cs : List Char) :
    Option (List Value × List Char) :=
  match fuel, skipLayout false cs with
  | _ + 1, some (']' :: rest) => some ([], rest)
  | fuel + 1, some cs => do
    let (v, rest) ← value cs
    match ← skipLayout false rest with
    | ',' :: rest =>
      let (vs, rest) ← items? value fuel rest
      some (v :: vs, rest)
    | ']' :: rest => some ([v], rest)
    | _ => none
  | _, _ => none

def entries? (value : List Char → Option (Value × List Char)) (fuel : Nat) (before : Value)
    (cs : List Char) : Option (Value × List Char) :=
  match fuel, before, skipLayout false cs with
  | _ + 1, .table _ entries, some ('\x7d' :: rest) => some (.table .inline entries, rest)
  | fuel + 1, .table kind entries, some cs => do
    let (key, rest) ← key? cs
    let rest ← match ← skipLayout false rest with
      | '=' :: rest => skipLayout false rest
      | _ => none
    let (v, rest) ← value rest
    let after ← assign key v kind entries
    match ← skipLayout false rest with
    | ',' :: rest => entries? value fuel after rest
    | '\x7d' :: rest =>
      match after with
      | .table _ entries => some (.table .inline entries, rest)
      | _ => none
    | _ => none
  | _, _, _ => none

def value? (depth : Nat) (cs : List Char) : Option (Value × List Char) :=
  match depth, cs with
  | depth + 1, '[' :: cs =>
    (items? (value? depth) (cs.length + 1) cs).map fun (items, rest) => (.list items, rest)
  | depth + 1, '\x7b' :: cs => entries? (value? depth) (cs.length + 1) (.table .header []) cs
  | _, cs =>
    match quoted? cs with
    | some (text, rest) => some (.text text, rest)
    | none =>
      let (word, rest) := splitScalar cs
      (scalar? word).map fun v => (v, rest)

inductive Statement
  | assign (key : List String) (v : Value)
  | table (key : List String)
  | item (key : List String)

def header? (closing : List Char) (cs : List Char) : Option (List String × List Char) := do
  let (key, rest) ← key? cs
  if closing.isPrefixOf rest then some (key, rest.drop closing.length) else none

def statement? (cs : List Char) : Option (Statement × List Char) :=
  match cs with
  | '[' :: '[' :: cs => (header? [']', ']'] cs).map fun (key, rest) => (.item key, rest)
  | '[' :: cs => (header? [']'] cs).map fun (key, rest) => (.table key, rest)
  | cs => do
    let (key, rest) ← key? cs
    match rest with
    | '=' :: rest =>
      let (v, rest) ← value? maxDepth (skipBlanks rest)
      some (.assign key v, rest)
    | _ => none

def statements? (fuel : Nat) (cs : List Char) : Option (List Statement) :=
  match fuel, skipLayout false cs with
  | _, some [] => some []
  | fuel + 1, some cs => do
    let (s, rest) ← statement? cs
    let rest ← skipLineEnd rest
    let later ← statements? fuel rest
    some (s :: later)
  | _, _ => none

/-- A document on the way: the whole table, and the path to the table that was opened last. -/
structure Document where
  entries : Entries := []
  current : List String := []

namespace Document

def change (d : Document) (path : List String) (f : TableKind → Entries → Option Value) :
    Option Document :=
  match update false f path .header d.entries with
  | some (.table _ entries) => some { d with entries }
  | _ => none

def add (d : Document) : Statement → Option Document
  | .assign key v => d.change d.current (assign key v)
  | .table key => do
    let d ← d.change key.dropLast (openTable (key.getLastD ""))
    some { d with current := key }
  | .item key => do
    let d ← d.change key.dropLast (openItem (key.getLastD ""))
    some { d with current := key }

def dropByteOrderMark (cs : List Char) : List Char :=
  match cs with
  | '\ufeff' :: cs => cs
  | cs => cs

def ofText? (text : String) : Option Entries := do
  let cs := dropByteOrderMark text.toList
  let statements ← statements? (cs.length + 1) cs
  let d ← statements.foldlM add {}
  some d.entries

end Document

end GeneratorBench.Toml
