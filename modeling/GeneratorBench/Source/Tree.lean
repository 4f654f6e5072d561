import GeneratorBench.Diagnostic.Basic
import GeneratorBench.Text.Line

/-!
Source texts with the path they go by.
-/

namespace GeneratorBench

structure SourceTree where
  path : Option String
  text : String
  deriving Repr, DecidableEq, Inhabited

namespace SourceTree

/-- A tree; an empty path counts as none. -/
def ofText (path : Option String) (text : String) : SourceTree :=
  ⟨Location.properPath path, text⟩

def filePath (t : SourceTree) : String := t.path.getD ""

def lines (t : SourceTree) : List String := Text.lines t.text

def shortName? (t : SourceTree) : Option String := t.path.bind Text.fileName?

def fileName (t : SourceTree) : String := t.shortName?.getD "Unknown"

end SourceTree

end GeneratorBench
