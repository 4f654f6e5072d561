import GeneratorBench.Configuration
import GeneratorBench.Result
import GeneratorBench.Source.Fragment

/-!
Run contexts: the inputs of one run and what its phases have made of them so far. Each phase reads
what those before it left behind; `Phase.run` keeps what a phase did before it failed.
-/

namespace GeneratorBench

structure RunContext (σ : Type) where
  configuration : Configuration σ
  imports : List String := []
  scope : Option String := none
  fragments : List Fragment := []
  trees : List SourceTree := []
  compilation : Option Compilation := none
  analyzerDiagnostics : List Diagnostic := []
  drivers : Drivers σ := []
  generatorDiagnostics : List Diagnostic := []
  finalDiagnostics : List Diagnostic := []
  result : Option (TestResult σ) := none

namespace RunContext

variable {σ : Type} (ctx : RunContext σ)

def requireCompilation (phase : String) : Except Error Compilation :=
  match ctx.compilation with
  | some c => .ok c
  | none => .error (.missingPhaseOutput phase)

def decoratedTrees : List SourceTree :=
  ctx.fragments.map fun f => .ofText f.path (f.decorate ctx.imports ctx.scope)

def addRun (id : String) (driver : GeneratorDriver σ) (out : DriverOutput) : RunContext σ :=
  { ctx with
    generatorDiagnostics := ctx.generatorDiagnostics ++ out.diagnostics
    drivers := ctx.drivers.insert id driver }

/-- The result of the run on `c`, with the drivers of the generators moved into it. -/
def conclude (c : Compilation) : RunContext σ :=
  let filters := ctx.configuration.filters
  let final := c.diagnostics
  { ctx with
    finalDiagnostics := final
    drivers := []
    result := some {
      drivers := ctx.drivers
      analyzerDiagnostics := filters.apply ctx.analyzerDiagnostics
      generatorDiagnostics := filters.apply ctx.generatorDiagnostics
      finalDiagnostics := filters.apply final
      compilation := c } }

end RunContext

structure Run (σ : Type) where
  context : RunContext σ
  session : Session σ

namespace Run

variable {σ : Type}

/-- Runs generators in turn, each on the compilation that the one before it left. -/
def generate : List (Generator σ) → Compilation → Run σ → Except Error Compilation × Run σ
  | [], c, run => (.ok c, run)
  | g :: gs, c, run =>
    match GeneratorDriver.run { generator := g } c run.session with
    | (none, _, session) => (.error .cancelled, { run with session })
    | (some out, driver, session) =>
      generate gs out.compilation ⟨run.context.addRun g.id driver out, session⟩

end Run

namespace Phase

variable {σ : Type}

/-- Runs a phase; an error leaves what was done before it. -/
def run (phase : Phase) (run : Run σ) : Option Error × Run σ :=
  let ctx := run.context
  match phase with
  | decorate =>
    if run.session.cancelled && !ctx.fragments.isEmpty then (some .cancelled, run)
    else (none, { run with context := { ctx with trees := ctx.trees ++ ctx.decoratedTrees } })
  | assemble =>
    let c := ctx.configuration.compile ctx.trees
    (none, { run with context := { ctx with compilation := some c } })
  | analyze =>
    if ctx.configuration.analyzers.isEmpty then (none, run)
    else
      match ctx.requireCompilation phase.name with
      | .error e => (some e, run)
      | .ok c =>
        match Analyzer.runAll c ctx.configuration.analyzers run.session with
        | (none, session) => (some .cancelled, { run with session })
        | (some ds, session) => (none, ⟨{ ctx with analyzerDiagnostics := ds }, session⟩)
  | generate =>
    match ctx.requireCompilation phase.name with
    | .error e => (some e, run)
    | .ok c =>
      match Run.generate ctx.configuration.generators c run with
      | (.error e, run) => (some e, run)
      | (.ok c, run) =>
        (none, { run with context := { run.context with compilation := some c } })
  | aggregate =>
    match ctx.requireCompilation phase.name with
    | .error e => (some e, run)
    | .ok c => (none, { run with context := ctx.conclude c })

end Phase

end GeneratorBench
