/-!
What is logged of a run: a set of switches.
-/

namespace GeneratorBench

structure LoggingOptions where
  testedCode : Bool := false
  generatedCode : Bool := false
  analyzerDiagnostics : Bool := false
  generatorDiagnostics : Bool := false
  finalDiagnostics : Bool := false
  deriving Repr, DecidableEq, Inhabited

namespace LoggingOptions

def none : LoggingOptions := {}

def union (a b : LoggingOptions) : LoggingOptions where
  testedCode := a.testedCode || b.testedCode
  generatedCode := a.generatedCode || b.generatedCode
  analyzerDiagnostics := a.analyzerDiagnostics || b.analyzerDiagnostics
  generatorDiagnostics := a.generatorDiagnostics || b.generatorDiagnostics
  finalDiagnostics := a.finalDiagnostics || b.finalDiagnostics

def code : LoggingOptions := { testedCode := true, generatedCode := true }

def diagnostics : LoggingOptions where
  analyzerDiagnostics := true
  generatorDiagnostics := true
  finalDiagnostics := true

def all : LoggingOptions := code.union diagnostics

def contains (a b : LoggingOptions) : Bool := a.union b == a

def hasDiagnostics (a : LoggingOptions) : Bool :=
  a.analyzerDiagnostics || a.generatorDiagnostics || a.finalDiagnostics

def isEmpty (a : LoggingOptions) : Bool :=
  !(a.testedCode || a.generatedCode || a.hasDiagnostics)

end LoggingOptions

end GeneratorBench
