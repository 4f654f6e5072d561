/-!
Values of a TOML document. Numbers and dates are told apart from the rest but not kept, since
nothing reads them. A number is only converted when it is come by, so of a number one thing is
known: whether that works.
-/

namespace GeneratorBench.Toml

/-- How a table came to be, which decides what may still be added to it. -/
inductive TableKind
  | inline
  | header
  /-- On the way of a header to a table inside it. -/
  | implied
  /-- On the way of a dotted key. -/
  | dotted
  deriving Repr, DecidableEq, Inhabited

def TableKind.isImplicit (k : TableKind) : Bool := k == .implied || k == .dotted

inductive Value
  | text (s : String)
  | boolean (b : Bool)
  /-- A number, which may be too large to be converted. -/
  | number (converts : Bool)
  | date
  | list (items : List Value)
  | table (kind : TableKind) (entries : List (String × Value))
  /-- A list whose items were each opened by a header, the latest first. -/
  | tables (items : List Value)
  deriving Inhabited

abbrev Entries := List (String × Value)

namespace Value

def text? : Value → Option String
  | text s => some s
  | _ => none

def boolean? : Value → Option Bool
  | boolean b => some b
  | _ => none

def items? : Value → Option (List Value)
  | list items => some items
  | tables items => some items.reverse
  | _ => none

def texts? (v : Value) : Option (List String) := do (← v.items?).mapM text?

mutual

/-- Every number in a value converts, so that the value can be read through and dropped. -/
def converts : Value → Bool
  | number b => b
  | list items | tables items => itemsConvert items
  | table _ entries => entriesConvert entries
  | text _ | boolean _ | date => true

def itemsConvert : List Value → Bool
  | [] => true
  | v :: vs => v.converts && itemsConvert vs

def entriesConvert : List (String × Value) → Bool
  | [] => true
  | (_, v) :: entries => v.converts && entriesConvert entries

end

end Value

namespace Entries

def get? (entries : Entries) (key : String) : Option Value := entries.lookup key

/-- Gives `key` a value: a new one at the end, or in the place of the old. -/
def put (entries : Entries) (key : String) (v : Value) : Entries :=
  if entries.any (·.1 == key) then
    entries.map fun entry => if entry.1 == key then (key, v) else entry
  else entries ++ [(key, v)]

/-- Reads the value of `key`, with `default` where there is none. -/
def read {α : Type} (entries : Entries) (key : String) (f : Value → Option α) (default : α) :
    Option α :=
  match entries.get? key with
  | none => some default
  | some v => f v

/-- The values of all other keys than the `known` ones can be read through and dropped. -/
def othersConvert (entries : Entries) (known : List String) : Bool :=
  entries.all fun (key, v) => known.contains key || v.converts

end Entries

end GeneratorBench.Toml
