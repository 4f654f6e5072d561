import GeneratorBench.Diagnostic.Basic
import GeneratorBench.Text.Fields

/-!
Filters choose which diagnostics a reader gets to see. A chain keeps what every one of its filters
accepts, in the order it came.
-/

namespace GeneratorBench

abbrev DiagnosticFilter := Diagnostic → Bool

namespace DiagnosticFilter

def notHidden : DiagnosticFilter := fun d => d.severity ≠ .hidden

def minSeverity (severity : Severity) : DiagnosticFilter := fun d => severity ≤ d.severity

def excludeIds (ids : List String) : DiagnosticFilter := fun d => !ids.contains d.id

/-- Keeps what lies in a file of that name, whatever its folder, and what lies in no file. -/
def inFile (name : String) : DiagnosticFilter := fun d =>
  match d.path with
  | none => true
  | some path => Text.fileName? path == some name

end DiagnosticFilter

structure FilterChain where
  filters : List DiagnosticFilter := []

namespace FilterChain

def add (chain : FilterChain) (filter : DiagnosticFilter) : FilterChain :=
  ⟨chain.filters ++ [filter]⟩

def extend (chain : FilterChain) (filters : List DiagnosticFilter) : FilterChain :=
  ⟨chain.filters ++ filters⟩

def size (chain : FilterChain) : Nat := chain.filters.length

def accepts (chain : FilterChain) (d : Diagnostic) : Bool := chain.filters.all (· d)

def apply (chain : FilterChain) (ds : List Diagnostic) : List Diagnostic :=
  ds.filter chain.accepts

variable (chain : FilterChain) (d : Diagnostic) (ds es : List Diagnostic)

theorem accepts_extend (filters : List DiagnosticFilter) :
    (chain.extend filters).accepts d = (chain.accepts d && filters.all (· d)) := by
  simp [extend, accepts]

theorem apply_append : chain.apply (ds ++ es) = chain.apply ds ++ chain.apply es :=
  List.filter_append ds es

theorem apply_extend (filters : List DiagnosticFilter) :
    (chain.extend filters).apply ds = FilterChain.apply ⟨filters⟩ (chain.apply ds) := by
  simp only [apply, List.filter_filter]
  refine List.filter_congr fun d _ => ?_
  rw [accepts_extend, Bool.and_comm]
  rfl

end FilterChain

end GeneratorBench
