import GeneratorBench.Analyzer
import GeneratorBench.Run.Plugin
import GeneratorBench.Script.Step

/-!
Analyzers, generators and plugins that follow scripts. All they remember from call to call is how
many trees each incremental generator has visited, over all runs.
-/

namespace GeneratorBench

namespace Script

/-- How often each incremental generator was asked about a tree, by its number. -/
abbrev Visits := List (Nat × Nat)

namespace Visits

def count (v : Visits) (number : Nat) : Nat := (v.lookup number).getD 0

def add (v : Visits) (number : Nat) : Visits := (number, v.count number + 1) :: v

end Visits

def callVariables (c : Compilation) (visited : Nat) : Variables :=
  ("visited", toString visited) :: compilationVariables c

def analyzer (id : String) (steps : List Step) : Analyzer Visits where
  id := id
  analyze c cancelled memory :=
    match runSteps steps (callVariables c 0) { compilation := c, host := none, cancelled } with
    | (p, none) => ⟨.ok p.reported, p.cancelled, memory⟩
    | (p, some f) => ⟨.error f, p.cancelled, memory⟩

def contribute (steps : List Step) (vars : Variables) (ctx : GeneratorContext) :
    Callback Visits Contribution := fun cancelled memory =>
  let (p, failure) :=
    runSteps steps vars { compilation := ctx.compilation, host := some ctx, cancelled }
  ⟨⟨p.sources, p.reported, failure⟩, p.cancelled, memory⟩

def oneShot (id : String) (steps : List Step) : OneShotGenerator Visits where
  id := id
  execute ctx := contribute steps (callVariables ctx.compilation 0) ctx

def incremental (number : Nat) (id : String) (perTree : List Step) (finalize : Option (List Step)) :
    IncrementalGenerator Visits where
  id := id
  visit tree ctx cancelled memory :=
    let memory := memory.add number
    let vars := treeVariables tree ++ callVariables ctx.compilation (memory.count number)
    contribute perTree vars ctx cancelled memory
  finalize := finalize.map fun steps ctx cancelled memory =>
    contribute steps (callVariables ctx.compilation (memory.count number)) ctx cancelled memory

inductive PluginAction
  | cancel
  | fail
  deriving Repr, DecidableEq, Inhabited

def momentName : Moment → String
  | .before => "before"
  | .after => "after"

def hookNote {σ : Type} (name : String) (moment : Moment) (phase : Phase) (ctx : RunContext σ) :
    String :=
  name ++ " " ++ momentName moment ++ " " ++ phase.name
    ++ " trees=" ++ toString ctx.trees.length
    ++ " drivers=" ++ toString ctx.drivers.length
    ++ " result=" ++ toString ctx.result.isSome

def plugin {σ : Type} (name : String) (actions : List ((Moment × Phase) × PluginAction)) :
    Plugin σ where
  name := name
  hook moment phase ctx _ memory :=
    let action := actions.lookup (moment, phase)
    ⟨{ note := some (hookNote name moment phase ctx)
       failure := if action == some .fail then some .noResults else none },
      action == some .cancel, memory⟩

end Script

end GeneratorBench
