import GeneratorBench.Analyzer
import GeneratorBench.Diagnostic.Filter
import GeneratorBench.Generator.Run
import GeneratorBench.Profile
import GeneratorBench.Text.Quoted

/-!
Configurations: all that test code is compiled against. A configuration never changes; each
`Change` makes another one, and the ids of its generators stay distinct.
-/

namespace GeneratorBench

def dialectName : String := "minics"

structure Configuration (σ : Type) where
  assemblyName : String := defaultAssemblyName
  references : List Reference := []
  options : CompilationOptions := {}
  analyzers : List (Analyzer σ) := []
  oneShots : List (OneShotGenerator σ) := []
  incrementals : List (IncrementalGenerator σ) := []
  /-- The ids that are taken, each once and in the order they came. -/
  generatorIds : List String := []
  filters : FilterChain := {}

inductive Change (σ : Type)
  | assemblyName (name : String)
  | options (options : CompilationOptions)
  | references (rs : List Reference)
  | analyzers (as : List (Analyzer σ))
  | oneShotGenerators (gs : List (OneShotGenerator σ))
  | incrementalGenerators (gs : List (IncrementalGenerator σ))
  | filters (fs : List DiagnosticFilter)

namespace Configuration

variable {σ : Type}

def single (references : List Reference) (g : IncrementalGenerator σ) : Configuration σ :=
  { references, incrementals := [g], generatorIds := [g.id] }

def ofProfile (fs : Files) (path : String) : Except Error (Configuration σ) := do
  let p ← Profile.ofFile fs path
  let references ← p.loadReferences fs
  .ok { assemblyName := p.assemblyName, references, options := p.options }

variable (c : Configuration σ)

/-- The generators in the order they run: the one-shot ones first, each kind as registered. -/
def generators : List (Generator σ) := c.oneShots.map .oneShot ++ c.incrementals.map .incremental

def generatorCount : Nat := c.generatorIds.length

def hasGenerator (id : String) : Bool := c.generatorIds.contains id

def track (id : String) : Except Error (Configuration σ) :=
  if c.generatorIds.contains id then .error (.duplicateGenerator id)
  else .ok { c with generatorIds := c.generatorIds ++ [id] }

def registerOneShot (g : OneShotGenerator σ) : Except Error (Configuration σ) := do
  let next ← c.track g.id
  .ok { next with oneShots := next.oneShots ++ [g] }

def registerIncremental (g : IncrementalGenerator σ) : Except Error (Configuration σ) := do
  let next ← c.track g.id
  .ok { next with incrementals := next.incrementals ++ [g] }

def apply : Change σ → Except Error (Configuration σ)
  | .assemblyName name => .ok { c with assemblyName := name }
  | .options options => .ok { c with options }
  | .references rs => .ok { c with references := c.references ++ rs }
  | .analyzers as => .ok { c with analyzers := c.analyzers ++ as }
  | .oneShotGenerators gs => gs.foldlM registerOneShot c
  | .incrementalGenerators gs => gs.foldlM registerIncremental c
  | .filters fs => .ok { c with filters := c.filters.extend fs }

def applyAll (changes : List (Change σ)) : Except Error (Configuration σ) :=
  changes.foldlM apply c

def compile (trees : List SourceTree) : Compilation :=
  .ofTrees c.assemblyName trees c.references c.options

def describeOutputKind : OutputKind → String
  | .library => "Library"
  | .console => "Console"

def describeKind : GeneratorKind → String
  | .oneShot => "OneShot"
  | .incremental => "Incremental"

def describeId (id : String) : String := "GeneratorId(" ++ Text.quoted id ++ ")"

def describeRecord (name : String) (parts : List (String × String)) : String :=
  name ++ " \x7b " ++ ", ".intercalate (parts.map fun (key, value) => key ++ ": " ++ value)
    ++ " \x7d"

def describe : String :=
  describeRecord "TestConfiguration" [
    ("front_end", Text.quoted dialectName),
    ("assembly_name", Text.quoted c.assemblyName),
    ("references", toString c.references.length),
    ("options", describeRecord "CompilationOptions" [
      ("output_kind", describeOutputKind c.options.outputKind),
      ("warnings_as_errors", toString c.options.warningsAsErrors)]),
    ("analyzers", toString c.analyzers.length),
    ("generators", "\x7b" ++ ", ".intercalate (c.generatorIds.map describeId) ++ "\x7d"),
    ("filters", describeRecord "FilterChain" [("len", toString c.filters.size)])]

def describeGenerator (g : Generator σ) : String :=
  describeRecord "Generator" [("id", describeId g.id), ("kind", describeKind g.kind)]

end Configuration

end GeneratorBench
