import GeneratorBench.Source.Tree

/-!
Lists of diagnostics and of trees as text for a reader.
-/

namespace GeneratorBench

namespace Diagnostic

/-- The entry of a diagnostic: its file if it has one, its span and id, and below them its
message. A missing span is shown as the start of the text. -/
def listEntry (d : Diagnostic) : String :=
  let file := match d.path.bind Text.fileName? with
    | none => ""
    | some name => "\t" ++ name ++ ": "
  let span := d.location.span.getD (.point .origin)
  "\t" ++ file ++ span.render ++ ": " ++ d.id ++ "\n\t\t" ++ d.message

def listing (ds : List Diagnostic) : String := "\n".intercalate (ds.map listEntry)

def idList (ds : List Diagnostic) : String := ",".intercalate (ds.map (·.id))

end Diagnostic

namespace SourceTree

/-- The names of some trees, numbered, one a line behind `indent` tabs; none if there are none. -/
def listing? (indent : Nat) (ts : List SourceTree) : Option String :=
  let tabs := String.ofList (List.replicate indent '\t')
  if ts.isEmpty then none
  else some ("\n".intercalate (ts.zipIdx.map fun (t, i) =>
    tabs ++ "[" ++ toString i ++ "] " ++ t.fileName))

end SourceTree

end GeneratorBench
