import GeneratorBench.Compilation.Options
import GeneratorBench.Files
import GeneratorBench.Reference.File

/-!
Profiles: the settings of a test suite, kept in a TOML file. Every key has a default, and a key
that is not known makes the profile malformed.
-/

namespace GeneratorBench

def defaultAssemblyName : String := "CodeAnalysisVerification"

structure Profile where
  assemblyName : String := defaultAssemblyName
  options : CompilationOptions := {}
  references : List String := []
  /-- The folder that relative paths start from. -/
  folder : String := ""
  deriving Repr, DecidableEq, Inhabited

namespace OutputKind

def ofName? : String → Option OutputKind
  | "library" => some .library
  | "console" => some .console
  | _ => none

/-- A kind is written as its name, or as a table from its name to nothing. -/
def ofToml? : Toml.Value → Option OutputKind
  | .text name => ofName? name
  | .table _ [(name, .table _ [])] | .table _ [(name, .list [])] => ofName? name
  | _ => none

end OutputKind

namespace Profile

def knownKeys : List String :=
  ["assembly_name", "output_kind", "warnings_as_errors", "references"]

def ofEntries? (entries : Toml.Entries) : Option Profile := do
  if !entries.all fun entry => knownKeys.contains entry.1 then none
  let assemblyName ← entries.read "assembly_name" Toml.Value.text? defaultAssemblyName
  let outputKind ← entries.read "output_kind" OutputKind.ofToml? .library
  let warningsAsErrors ← entries.read "warnings_as_errors" Toml.Value.boolean? false
  let references ← entries.read "references" Toml.Value.texts? []
  some { assemblyName, options := ⟨outputKind, warningsAsErrors⟩, references }

def ofText (text : String) : Except Error Profile :=
  match (Toml.Document.ofText? text).bind ofEntries? with
  | some p => .ok p
  | none => .error .malformedProfile

def ofFile (fs : Files) (path : String) : Except Error Profile :=
  match fs.read path with
  | .error reason => .error (.unreadableProfile path reason)
  | .ok text => do
    let p ← ofText text
    .ok { p with folder := FilePath.parent path }

def referencePaths (p : Profile) : List String := p.references.map (FilePath.join p.folder)

def loadReference (fs : Files) (path : String) : Except Error Reference :=
  match fs.read path with
  | .error reason => .error (.reference (.unreadable path reason))
  | .ok text =>
    match Reference.ofText? text with
    | some r => .ok r
    | none => .error (.reference .malformed)

/-- The references of a profile, in order, up to the first that fails. -/
def loadReferences (fs : Files) (p : Profile) : Except Error (List Reference) :=
  p.referencePaths.mapM (loadReference fs)

end Profile

end GeneratorBench
