/-!
Fragments of test code, and the header that makes a compilable text of each.
-/

namespace GeneratorBench

structure Fragment where
  path : Option String
  code : String
  deriving Repr, DecidableEq, Inhabited

namespace Fragment

def importLine (name : String) : String := "using " ++ name ++ ";\n"

/-- What stands before a fragment: the imports and a blank line if there are any, the file-scoped
namespace and a blank line if there is one. -/
def header (imports : List String) (scope : Option String) : String :=
  String.join (imports.map importLine)
    ++ (if imports.isEmpty then "" else "\n")
    ++ (match scope with
      | none => ""
      | some name => "namespace " ++ name ++ ";\n\n")

def decorate (imports : List String) (scope : Option String) (f : Fragment) : String :=
  header imports scope ++ f.code

def headerLineCount (imports : List String) (scope : Option String) : Nat :=
  (if imports.isEmpty then 0 else imports.length + 1) + (if scope.isSome then 2 else 0)

end Fragment

end GeneratorBench
