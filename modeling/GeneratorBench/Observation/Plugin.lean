import GeneratorBench.Diagnostic.Listing
import GeneratorBench.Observation.Options
import GeneratorBench.Run.Plugin

/-!
Observation: events that tell a listener about the code under test, the diagnostics and the trees
that were generated. The plugin reads the run and leaves it as it is.
-/

namespace GeneratorBench

namespace SourceTree

def event (message : String) (t : SourceTree) : Event :=
  let code := Text.numbered t.text
  match t.shortName? with
  | some file => ⟨.info, message ++ " (" ++ file ++ ")\n" ++ code, [("file", .text file)]⟩
  | none => ⟨.info, message ++ "\n" ++ code, []⟩

end SourceTree

namespace Severity

def level : Severity → Level
  | error => .error
  | warning => .warn
  | info => .info
  | hidden => .trace

end Severity

namespace Stage

variable (stage : Stage)

def groupEvent (severity : Severity) (ds : List Diagnostic) : Event where
  level := severity.level
  message := stage.name ++ " reported " ++ toString ds.length ++ " " ++ severity.name
    ++ " diagnostics:\n" ++ Diagnostic.listing ds
  fields := [("stage", .text stage.name), ("count", .count ds.length)]

/-- One event for each severity that occurs, most severe first, or one that nothing does. -/
def events (ds : List Diagnostic) : List Event :=
  if ds.isEmpty then
    [⟨.debug, stage.name ++ " reported no diagnostics", [("stage", .text stage.name)]⟩]
  else
    Severity.displayOrder.filterMap fun severity =>
      let group := ds.filter (·.severity == severity)
      if group.isEmpty then none else some (stage.groupEvent severity group)

end Stage

def GeneratorRun.events (id : String) (run : GeneratorRun) : List Event :=
  let trees := run.trees
  match SourceTree.listing? 1 trees with
  | none => []
  | some listing =>
    { level := .info
      message := "Generator " ++ id ++ " generated " ++ toString trees.length ++ " trees:\n"
        ++ listing
      fields := [("generator", .text id), ("count", .count trees.length)] }
      :: trees.map (SourceTree.event "Generated code")

namespace TestResult

def events {σ : Type} (options : LoggingOptions) (r : TestResult σ) : List Event :=
  (if options.analyzerDiagnostics then Stage.analyzer.events r.analyzerDiagnostics else [])
    ++ (if options.generatorDiagnostics then Stage.generator.events r.generatorDiagnostics else [])
    ++ (if options.finalDiagnostics then Stage.final.events r.finalDiagnostics else [])
    ++ (if options.generatedCode then 
        r.drivers.flatMap fun (id, d) => d.lastRun.elim [] (·.events id)
      else [])

end TestResult

namespace LoggingOptions

variable {σ : Type}

def hookEvents (options : LoggingOptions) (moment : Moment) (phase : Phase) (ctx : RunContext σ) :
    List Event :=
  let mark (message : String) : Event := ⟨.debug, message, [("phase", .text phase.name)]⟩
  match moment with
  | .before => [mark "phase started"]
  | .after =>
    mark "phase finished" :: match phase with
      | .decorate =>
        if options.testedCode then ctx.trees.map (SourceTree.event "Tested code") else []
      | .aggregate => (ctx.result.map (·.events options)).getD []
      | _ => []

def plugin (options : LoggingOptions) : Plugin σ where
  name := "observability"
  hook moment phase ctx _ memory :=
    ⟨{ events := options.hookEvents moment phase ctx }, false, memory⟩

end LoggingOptions

end GeneratorBench
