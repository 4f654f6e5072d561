import GeneratorBench.Compilation.Basic
import GeneratorBench.Run.Session

/-!
Generators add source trees to a compilation. A one-shot generator is asked once; an incremental
one is asked tree by tree and then once more to finish.
-/

namespace GeneratorBench

structure GeneratedSource where
  hintName : String
  tree : SourceTree
  deriving Repr, DecidableEq, Inhabited

structure GeneratorContext where
  generator : String
  compilation : Compilation
  sources : List GeneratedSource := []
  diagnostics : List Diagnostic := []
  deriving Repr, DecidableEq, Inhabited

/-- What a generator does in one call. What it adds before it fails counts as added. -/
structure Contribution where
  sources : List (String × String) := []
  diagnostics : List Diagnostic := []
  failure : Option Failure := none
  deriving Repr, DecidableEq, Inhabited

structure OneShotGenerator (σ : Type) where
  id : String
  execute : GeneratorContext → Callback σ Contribution

structure IncrementalGenerator (σ : Type) where
  id : String
  visit : SourceTree → GeneratorContext → Callback σ Contribution
  finalize : Option (GeneratorContext → Callback σ Contribution)

inductive Generator (σ : Type)
  | oneShot (g : OneShotGenerator σ)
  | incremental (g : IncrementalGenerator σ)

inductive GeneratorKind
  | oneShot
  | incremental
  deriving Repr, DecidableEq, Inhabited

namespace GeneratorKind

def name : GeneratorKind → String
  | oneShot => "one_shot"
  | incremental => "incremental"

end GeneratorKind

namespace GeneratorContext

variable (ctx : GeneratorContext)

/-- Hint names are the generator's own choice, but it may use each only once. -/
def addSource (hintName text : String) : Except String GeneratorContext :=
  if ctx.sources.any (·.hintName == hintName) then
    .error ("hint name '" ++ hintName ++ "' was already added by this generator")
  else
    let tree := SourceTree.ofText (some (ctx.generator ++ "/" ++ hintName)) text
    .ok { ctx with sources := ctx.sources ++ [⟨hintName, tree⟩] }

/-- The context after a call. A source under a hint name that was used before is not taken. -/
def accept (c : Contribution) : GeneratorContext :=
  let ctx := c.sources.foldl (fun ctx (hintName, text) =>
    match ctx.addSource hintName text with
    | .ok ctx => ctx
    | .error _ => ctx) ctx
  { ctx with diagnostics := ctx.diagnostics ++ c.diagnostics }

end GeneratorContext

namespace Generator

variable {σ : Type}

def id : Generator σ → String
  | oneShot g => g.id
  | incremental g => g.id

def kind : Generator σ → GeneratorKind
  | oneShot _ => .oneShot
  | incremental _ => .incremental

end Generator

end GeneratorBench
