import GeneratorBench.Text.Fields

/-!
The lines of a text, plain and numbered. Numbers count from zero and are padded with zeros to the
width of the last one, so that the lines of a block stay aligned.
-/

namespace GeneratorBench.Text

/-- A line without the carriage return that may end it. -/
def dropReturn (line : List Char) : List Char :=
  if line.getLast? = some '\r' then line.dropLast else line

/-- The lines of a text. A line feed at the end leaves an empty last line. -/
def lines (text : String) : List String :=
  (fields (· == '\n') text.toList).map fun line => .ofList (dropReturn line)

def decimalWidth (n : Nat) : Nat :=
  if n < 10 then 1 else decimalWidth (n / 10) + 1

def lineNumberWidth (count : Nat) : Nat := decimalWidth (count - 1)

/-- A number written with at least `width` digits. -/
def padded (width n : Nat) : String :=
  String.ofList (List.replicate (width - decimalWidth n) '0') ++ toString n

def numberedLine (width : Nat) (line : String × Nat) : String :=
  padded width line.2 ++ " | " ++ line.1

/-- A text with its lines numbered, and no line feed at the end. -/
def numbered (text : String) : String :=
  let ls := lines text
  "\n".intercalate (ls.zipIdx.map (numberedLine (lineNumberWidth ls.length)))

end GeneratorBench.Text
