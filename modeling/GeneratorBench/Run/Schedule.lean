import GeneratorBench.Run.Plugin

/-!
A whole run: the phases in order, each between the hooks of the plugins. The request is asked for a
cancellation before every phase. The result is handed out once, at the end.
-/

namespace GeneratorBench

namespace Run

variable {σ : Type} (plugins : List (Plugin σ))

def phaseEvent (phase : Phase) : Event where
  level := .trace
  message := "running phase"
  fields := [("phase", .text phase.name), ("description", .text phase.description)]

def hooks (moment : Moment) (phase : Phase) (run : Run σ) : Option Error × Run σ :=
  let (e, session) := Plugin.callAll moment phase run.context plugins run.session
  (e, { run with session })

def runPhase (phase : Phase) (run : Run σ) : Option Error × Run σ :=
  match hooks plugins .before phase { run with session := run.session.emit (phaseEvent phase) } with
  | (some e, run) => (some e, run)
  | (none, run) =>
    match phase.run run with
    | (some e, run) => (some e, run)
    | (none, run) => hooks plugins .after phase run

def runPhases : List Phase → Run σ → Option Error × Run σ
  | [], run => (none, run)
  | phase :: phases, run =>
    if run.session.cancelled then (some .cancelled, run)
    else
      match runPhase plugins phase run with
      | (some e, run) => (some e, run)
      | (none, run) => runPhases phases run

def takeResult (run : Run σ) : Except Error (TestResult σ) × Run σ :=
  match run.context.result with
  | none => (.error (.missingPhaseOutput Phase.aggregate.name), run)
  | some r => (.ok r, { run with context := { run.context with result := none } })

def runAll (run : Run σ) : Except Error (TestResult σ) × Run σ :=
  match runPhases plugins Phase.all run with
  | (some e, run) => (.error e, run)
  | (none, run) => run.takeResult

end Run

end GeneratorBench
