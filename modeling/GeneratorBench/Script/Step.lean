import GeneratorBench.Generator.Basic
import GeneratorBench.Text.Search

/-!
Scripts: analyzers and generators written as lists of steps, for trying out the bench itself. The
texts of a script may name variables as `${name}`.
-/

namespace GeneratorBench

namespace Script

inductive Condition
  | declares (name : String)
  | treeContains (text : String)
  | treePath (path : String)
  | cancelled
  deriving Repr, DecidableEq, Inhabited

inductive Step
  | source (hintName text : String)
  /-- Adds a source, or reports why it was not taken. -/
  | trySource (hintName text : String)
  | report (d : Diagnostic)
  | fail (root : String) (contexts : List String)
  | panic (message : Option String)
  | cancel
  | branch (condition : Condition) (yes no : List Step)
  | eachType (steps : List Step)
  | eachTree (steps : List Step)
  deriving Inhabited

/-- The variables in force, the innermost first. -/
abbrev Variables := List (String × String)

/-- Puts the value of a variable for each `${name}`. What names no variable stays. -/
def expand (vars : Variables) : Nat → List Char → List Char
  | fuel + 1, '$' :: '\x7b' :: cs =>
    let name := cs.takeWhile (· ≠ '\x7d')
    let value := if name.length < cs.length then vars.lookup (.ofList name) else none
    match value with
    | some value => value.toList ++ expand vars fuel (cs.drop (name.length + 1))
    | none => '$' :: '\x7b' :: expand vars fuel cs
  | fuel + 1, c :: cs => c :: expand vars fuel cs
  | _, cs => cs

def substitute (vars : Variables) (text : String) : String :=
  .ofList (expand vars text.length text.toList)

def substituteDiagnostic (vars : Variables) (d : Diagnostic) : Diagnostic :=
  { d with
    message := substitute vars d.message
    location := { d.location with path := d.location.path.map (substitute vars) } }

def compilationVariables (c : Compilation) : Variables :=
  [("assembly", c.assemblyName), ("trees", toString c.trees.length),
    ("refs", ",".intercalate (c.references.map (·.name)))]

def treeVariables (t : SourceTree) : Variables :=
  [("path", t.filePath), ("text", t.text), ("lines", toString t.lines.length)]

def typeVariables (t : TypeSymbol) : Variables :=
  [("full", t.fullName), ("ns", t.scope.getD ""), ("name", t.name), ("path", t.path.getD "")]

structure Progress where
  compilation : Compilation
  /-- Where sources go; none in an analyzer, which has no use for them. -/
  host : Option GeneratorContext
  cancelled : Bool
  sources : List (String × String) := []
  reported : List Diagnostic := []

namespace Progress

def addSource (p : Progress) (hintName text : String) : Except String Progress :=
  match p.host with
  | none => .ok p
  | some ctx => do
    let ctx ← ctx.addSource hintName text
    .ok { p with host := some ctx, sources := p.sources ++ [(hintName, text)] }

def report (p : Progress) (d : Diagnostic) : Progress :=
  { p with reported := p.reported ++ [d] }

def holds (p : Progress) (vars : Variables) : Condition → Bool
  | .declares name => p.compilation.declaresType name
  | .treeContains text => (vars.lookup "text").any fun t => Text.contains t text
  | .treePath path => vars.lookup "path" == some path
  | .cancelled => p.cancelled

end Progress

/-- What running some steps comes to: how far they got, and why they stopped if they failed. -/
abbrev Outcome := Progress × Option Failure

def forEach (f : Variables → Progress → Outcome) : List Variables → Progress → Outcome
  | [], p => (p, none)
  | vars :: later, p =>
    match f vars p with
    | (p, none) => forEach f later p
    | failed => failed

mutual

def runStep : Step → Variables → Progress → Outcome
  | .source hintName text, vars, p =>
    match p.addSource (substitute vars hintName) (substitute vars text) with
    | .ok p => (p, none)
    | .error e => (p, some (.raised e []))
  | .trySource hintName text, vars, p =>
    match p.addSource (substitute vars hintName) (substitute vars text) with
    | .ok p => (p, none)
    | .error e => (p.report { id := "TRY", severity := .info, message := e }, none)
  | .report d, vars, p => (p.report (substituteDiagnostic vars d), none)
  | .fail root contexts, vars, p =>
    (p, some (.raised (substitute vars root) (contexts.map (substitute vars))))
  | .panic message, vars, p => (p, some (.panicked (message.map (substitute vars))))
  | .cancel, _, p => ({ p with cancelled := true }, none)
  | .branch condition yes no, vars, p =>
    if p.holds vars condition then runSteps yes vars p else runSteps no vars p
  | .eachType steps, vars, p =>
    forEach (runSteps steps) (p.compilation.declaredTypes.map fun t => typeVariables t ++ vars) p
  | .eachTree steps, vars, p =>
    forEach (runSteps steps) (p.compilation.trees.map fun t => treeVariables t ++ vars) p

def runSteps : List Step → Variables → Progress → Outcome
  | [], _, p => (p, none)
  | step :: steps, vars, p =>
    match runStep step vars p with
    | (p, none) => runSteps steps vars p
    | failed => failed

end

end Script

end GeneratorBench
