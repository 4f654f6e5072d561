import GeneratorBench.Assertion
import GeneratorBench.TestCase

/-!
Tests of one generator. Every test runs the case once and then looks at what the generator did and
what became of the compilation.
-/

namespace GeneratorBench

structure GeneratorTest (σ : Type) where
  case : TestCase σ
  generator : String

abbrev GeneratorTest.Verdict (σ : Type) := Except AssertionError (TestResult σ)

namespace GeneratorTest

variable {σ : Type} (t : GeneratorTest σ)

def runCase (case : TestCase σ) (logging : LoggingOptions) (s : Session σ) :
    Verdict σ × Session σ :=
  let (outcome, s) := case.run logging s
  (match outcome with
    | .ok (_, r) => .ok r
    | .error e => .error (.bench e), s)

def examine (logging : LoggingOptions)
    (check : TestResult σ → Session σ → Except AssertionError Unit × Session σ) (s : Session σ) :
    Verdict σ × Session σ :=
  match runCase t.case logging s with
  | (.error e, s) => (.error e, s)
  | (.ok r, s) =>
    let (outcome, s) := check r s
    (outcome.map fun _ => r, s)

def target (r : TestResult σ) : Except AssertionError GeneratorRun :=
  match r.runOf t.generator with
  | .ok run => .ok run
  | .error _ => .error (.missingGenerator t.generator)

def checkTarget (f : GeneratorRun → Except AssertionError Unit) (r : TestResult σ) (s : Session σ) :
    Except AssertionError Unit × Session σ :=
  (t.target r >>= f, s)

def codeRuns (logging : LoggingOptions) (s : Session σ) : Verdict σ × Session σ :=
  runCase t.case logging s

def runConfigured (logging : LoggingOptions)
    (change : Configuration σ → Except Error (Configuration σ)) (s : Session σ) :
    Verdict σ × Session σ :=
  match t.case.configure change with
  | .error e => (.error (.bench e), s)
  | .ok case => runCase case logging s

def generatorRuns (s : Session σ) : Verdict σ × Session σ :=
  t.examine .all (fun r s =>
    (if r.drivers.any (·.1 == t.generator) then .ok () else .error (.missingGenerator t.generator), s)) s

def generatesAnyTrees (s : Session σ) : Verdict σ × Session σ :=
  t.examine .all (t.checkTarget GeneratorRun.assertAny) s

/-- The generated trees that diagnostics point into, in the order of their paths. -/
def pointedTrees (r : TestResult σ) (ds : List Diagnostic) : List SourceTree :=
  let paths := (ds.filterMap (·.path)).eraseDups.mergeSort fun a b => !(b < a)
  paths.flatMap fun path => r.generatedTrees.filter fun tree => tree.path == some path

/-- The final compilation has no diagnostics that the filter accepts. -/
def finalReportsNone (filter : DiagnosticFilter) (s : Session σ) : Verdict σ × Session σ :=
  t.examine { finalDiagnostics := true } (fun r s =>
    let ds := r.compilation.diagnostics.filter filter
    if ds.isEmpty then (.ok (), s)
    else
      (.error (.unexpectedDiagnostics .final ds.length (Diagnostic.listing ds)),
        s.emitAll ((pointedTrees r ds).map (SourceTree.event "Generated code")))) s

/-- The generator makes a file of that name. Diagnostics in other files are filtered out. -/
def generatesFile (name : String) (s : Session σ) : Verdict σ × Session σ :=
  match t.runConfigured .diagnostics (·.apply (.filters [.inFile name])) s with
  | (.error e, s) => (.error e, s)
  | (.ok r, s) =>
    match t.target r with
    | .error e => (.error e, s)
    | .ok run =>
      match run.trees.find? fun tree => tree.shortName? == some name with
      | none => (.error (.fileNotGenerated name run.treeListing), s)
      | some tree =>
        (.ok r, s.emitAll [tree.event "Generated code",
          ⟨.info, "Full file path is '" ++ tree.filePath ++ "'", []⟩])

def hasResult (s : Session σ) : Verdict σ × Session σ :=
  t.examine .none (fun r s =>
    if r.drivers.length ≠ 1 then (.error (.resultCount 1 r.drivers.length), s)
    else
      match t.target r with
      | .error e => (.error e, s)
      | .ok run =>
        let texts := run.trees.map (·.text)
        (.ok (), s.emit ⟨.info, "Generated trees:\n" ++ "\n".intercalate texts, []⟩)) s

def throwsNothing (s : Session σ) : Verdict σ × Session σ :=
  t.examine .none (t.checkTarget fun run =>
    match run.exception with
    | some e => .error (.generatorThrew t.generator e.message)
    | none => .ok ()) s

def generatorReportsNone (s : Session σ) : Verdict σ × Session σ :=
  t.examine { generatorDiagnostics := true } (t.checkTarget fun run =>
    if run.diagnostics.isEmpty then .ok ()
    else .error (.unexpectedDiagnostics .generator run.diagnostics.length
      (Diagnostic.listing run.diagnostics))) s

def generatorReports (ids : List String) (s : Session σ) : Verdict σ × Session σ :=
  t.examine { generatorDiagnostics := true }
    (t.checkTarget fun run => Diagnostic.assertContain run.diagnostics ids) s

end GeneratorTest

end GeneratorBench
