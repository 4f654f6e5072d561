/-!
What a compilation is for.
-/

namespace GeneratorBench

inductive OutputKind
  | library
  | console
  deriving Repr, DecidableEq, Inhabited

structure CompilationOptions where
  outputKind : OutputKind := .library
  warningsAsErrors : Bool := false
  deriving Repr, DecidableEq, Inhabited

namespace OutputKind

def name : OutputKind → String
  | library => "library"
  | console => "console"

end OutputKind

end GeneratorBench
