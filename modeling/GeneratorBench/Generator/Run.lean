import GeneratorBench.Generator.Basic

/-!
Running one generator. What it adds goes into a new compilation, unless it fails: then nothing of
it is kept but a warning, and the compilation passes through as it was.
-/

namespace GeneratorBench

structure GeneratorException where
  message : String
  panicked : Bool
  deriving Repr, DecidableEq, Inhabited

structure GeneratorRun where
  generator : String
  sources : List GeneratedSource
  diagnostics : List Diagnostic
  exception : Option GeneratorException
  /-- How many trees an incremental generator visited to the end. -/
  trackedInputs : Nat
  deriving Repr, DecidableEq, Inhabited

namespace GeneratorRun

def trees (r : GeneratorRun) : List SourceTree := r.sources.map (·.tree)

end GeneratorRun

/-- What the caller of a run gets. -/
structure DriverOutput where
  compilation : Compilation
  diagnostics : List Diagnostic
  deriving Repr, DecidableEq, Inhabited

namespace Generator

variable {σ : Type}

structure Progress where
  context : GeneratorContext
  failure : Option Failure := none
  visited : Nat := 0

def Progress.accept (p : Progress) (c : Contribution) : Progress :=
  { p with context := p.context.accept c, failure := c.failure }

def finish (g : IncrementalGenerator σ) (p : Progress) (s : Session σ) : Progress × Session σ :=
  match g.finalize with
  | none => (p, s)
  | some f =>
    let (c, s) := s.call (.finalize g.id) (f p.context)
    (p.accept c, s)

/-- Visits trees in order and finishes. A failure ends the run; a cancellation only ends the
visits. -/
def visitTrees (g : IncrementalGenerator σ) :
    List SourceTree → Progress → Session σ → Progress × Session σ
  | [], p, s => finish g p s
  | t :: ts, p, s =>
    if s.cancelled then finish g p s
    else
      let (c, s) := s.call (.visit g.id t.filePath) (g.visit t p.context)
      let p := p.accept c
      if p.failure.isSome then (p, s)
      else visitTrees g ts { p with visited := p.visited + 1 } s

def perform (g : Generator σ) (c : Compilation) (s : Session σ) : Progress × Session σ :=
  let p : Progress := { context := { generator := g.id, compilation := c } }
  match g with
  | oneShot g =>
    let (c, s) := s.call (.execute g.id) (g.execute p.context)
    (p.accept c, s)
  | incremental g => visitTrees g c.trees p s

def failedWarning (id : String) (e : GeneratorException) : Diagnostic where
  id := "GEN8785"
  severity := .warning
  message := "Generator '" ++ id ++ "' failed to generate source. It will not contribute to the "
    ++ "output and compilation errors may occur as a result. Exception was '" ++ e.message ++ "'"

def conclude (id : String) (c : Compilation) (p : Progress) : GeneratorRun × DriverOutput :=
  match p.failure with
  | none =>
    let sources := p.context.sources
    let updated := if sources.isEmpty then c else c.addTrees (sources.map (·.tree))
    (⟨id, sources, p.context.diagnostics, none, p.visited⟩, ⟨updated, p.context.diagnostics⟩)
  | some f =>
    let e : GeneratorException := ⟨f.chain, f.isPanic⟩
    let warning := failedWarning id e
    (⟨id, [], [warning], some e, p.visited⟩, ⟨c, [warning]⟩)

/-- Runs a generator on a compilation; none if the request is cancelled before or meanwhile. -/
def run (g : Generator σ) (c : Compilation) (s : Session σ) :
    Option (GeneratorRun × DriverOutput) × Session σ :=
  if s.cancelled then (none, s)
  else
    let (p, s) := g.perform c s
    (if s.cancelled then none else some (conclude g.id c p), s)

end Generator

structure GeneratorDriver (σ : Type) where
  generator : Generator σ
  lastRun : Option GeneratorRun := none

namespace GeneratorDriver

variable {σ : Type}

/-- Runs the generator once more. A cancelled run leaves the last one remembered. -/
def run (d : GeneratorDriver σ) (c : Compilation) (s : Session σ) :
    Option DriverOutput × GeneratorDriver σ × Session σ :=
  match d.generator.run c s with
  | (none, s) => (none, d, s)
  | (some (r, out), s) => (some out, { d with lastRun := some r }, s)

end GeneratorDriver

end GeneratorBench
