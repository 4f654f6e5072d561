import GeneratorBench.Diagnostic.Listing
import GeneratorBench.Result
import GeneratorBench.Run.Session

/-!
Assertions about diagnostics, generated trees and compilations, and how a failed one is worded.
-/

namespace GeneratorBench

inductive AssertionError
  | missingDiagnostic (expected received : String)
  | nothingGenerated (generator : String)
  | noMatchingTree (generator trees : String)
  | compilationFailed (diagnostics : String)
  | missingGenerator (generator : String)
  | fileNotGenerated (file generated : String)
  | generatorThrew (generator message : String)
  | unexpectedDiagnostics (stage : Stage) (count : Nat) (diagnostics : String)
  | resultCount (expected actual : Nat)
  | bench (e : Error)
  deriving Repr, DecidableEq, Inhabited

namespace AssertionError

def message : AssertionError → String
  | missingDiagnostic expected received =>
    "expected diagnostic id " ++ expected ++ " is not among received diagnostics " ++ received
  | nothingGenerated generator => "generator '" ++ generator ++ "' generated no trees"
  | noMatchingTree generator trees =>
    "generator '" ++ generator ++ "' generated no matching tree among:\n" ++ trees
  | compilationFailed diagnostics => "compilation failed:\n" ++ diagnostics
  | missingGenerator generator => "generator '" ++ generator ++ "' did not run"
  | fileNotGenerated file generated =>
    "expected file '" ++ file ++ "' was not generated, generated files:\n" ++ generated
  | generatorThrew generator message => "generator '" ++ generator ++ "' threw: " ++ message
  | unexpectedDiagnostics stage count diagnostics =>
    stage.name ++ " reported " ++ toString count ++ " unexpected diagnostics:\n" ++ diagnostics
  | resultCount expected actual =>
    "expected " ++ toString expected ++ " generator results, got " ++ toString actual
  | bench e => e.message

end AssertionError

namespace Diagnostic

/-- Every one of the ids occurs; the first that does not is reported. -/
def assertContain (ds : List Diagnostic) (ids : List String) : Except AssertionError Unit :=
  match ids.find? fun id => !ds.any (·.id == id) with
  | some id => .error (.missingDiagnostic id (idList ds))
  | none => .ok ()

end Diagnostic

namespace GeneratorRun

variable (r : GeneratorRun)

def treeListing : String := (SourceTree.listing? 1 r.trees).getD "\tnone"

def assertAny : Except AssertionError Unit :=
  if r.sources.isEmpty then .error (.nothingGenerated r.generator) else .ok ()

def assertAnyMatching (p : SourceTree → Bool) : Except AssertionError Unit :=
  if r.trees.any p then .ok () else .error (.noMatchingTree r.generator r.treeListing)

end GeneratorRun

namespace Compilation

variable {σ : Type}

/-- The compilation can be emitted. If not, its diagnostics are also logged. -/
def assertEmits (c : Compilation) (s : Session σ) : Except AssertionError Unit × Session σ :=
  if c.emits then (.ok (), s)
  else
    let listing := Diagnostic.listing c.diagnostics
    (.error (.compilationFailed listing), s.emit ⟨.error, "compilation failed:\n" ++ listing, []⟩)

end Compilation

end GeneratorBench
