import GeneratorBench.Compilation.Basic

/-!
Binding: what the names in a compilation mean, and the diagnostics that come of it. A base name is
looked up from its declaration outwards; the directives in scope are asked last, and those that
never answer are unnecessary.
-/

namespace GeneratorBench

def builtinTypes : List String :=
  ["object", "string", "bool", "byte", "sbyte", "char", "short", "ushort", "int", "uint", "long",
    "ulong", "float", "double", "decimal", "void", "dynamic"]

/-- The last segment of a dotted name and what stands before it; none if there is no dot. -/
def splitLast? (name : String) : Option (String × String) :=
  match (Text.splitAt '.' name).reverse with
  | [] | [_] => none
  | last :: outer => some (".".intercalate outer.reverse, last)

def enclosing (segments : List String) : List String :=
  match segments with
  | [] => []
  | s :: segments => ".".intercalate (s :: segments).reverse :: enclosing segments

/-- A namespace with those around it, innermost first, and last the global namespace. -/
def scopesFrom (scope : Option String) : List (Option String) :=
  (match scope with
    | none => []
    | some name => (enclosing (Text.splitAt '.' name).reverse).map some) ++ [none]

/-- The namespaces that declaring `name` declares: itself and those around it, outermost first. An
empty segment in front names nothing and is passed over. -/
def declaredWith (name : String) : List String :=
  ((Text.splitAt '.' name).foldl
    (fun (outer, found) segment =>
      let inner := if outer = "" then segment else outer ++ "." ++ segment
      (inner, found ++ [inner]))
    ("", [])).2

inductive Resolution
  | known
  | imported (usings : List Nat)
  | unresolved
  deriving Repr, DecidableEq, Inhabited

/-- The names that a compilation has to offer: those its trees declare, and its references. -/
structure Symbols where
  /-- Every namespace that is declared, each with those around it. -/
  namespaces : List String
  /-- Every type that is declared, nested or not, under its namespace. -/
  types : List (Option String × String)
  references : List Reference

namespace Symbols

def ofSkeletons (references : List Reference) (ss : List Skeleton) : Symbols where
  namespaces := ss.flatMap fun s => s.namespaces.flatMap declaredWith
  types := ss.flatMap fun s => s.types.map fun t => (t.scope, t.name.name)
  references := references

variable (y : Symbols)

def namespaceExists (name : String) : Bool :=
  y.namespaces.contains name || y.references.any (·.exportsNamespace name)

def typeExists (scope : Option String) (name : String) : Bool :=
  y.types.contains (scope, name)
    || scope.any fun scope => y.references.any (·.exportsType scope name)

/-- The type stands beside `decl` in a type body. -/
def isSibling (s : Skeleton) (decl : TypeDecl) (name : String) : Bool :=
  decl.container.isSome && s.types.any fun t => t.container == decl.container && t.name.name == name

/-- The directives in scope of `decl` whose namespace has the type `name`. -/
def suppliers (s : Skeleton) (decl : TypeDecl) (name : String) : List Nat :=
  decl.usings.filter fun i => s.usings[i]?.any fun u => y.typeExists (some u.name.name) name

def resolve (s : Skeleton) (decl : TypeDecl) (base : NameRef) : Resolution :=
  let known (found : Bool) : Resolution := if found then .known else .unresolved
  if builtinTypes.contains base.name then .known
  else
    match splitLast? base.name with
    | some (scope, name) => known (y.typeExists (some scope) name)
    | none =>
      if base.isGlobal then known (y.typeExists none base.name)
      else if isSibling s decl base.name then .known
      else if (scopesFrom decl.scope).any fun scope => y.typeExists scope base.name then .known
      else
        match y.suppliers s decl base.name with
        | [] => .unresolved
        | usings => .imported usings

def usedUsings (s : Skeleton) : List Nat :=
  s.types.flatMap fun decl => decl.bases.flatMap fun base =>
    match y.resolve s decl base with
    | .imported usings => usings
    | _ => []

/-! The same by index: a directive is looked up by its place, and its use is marked there. A place that is out of
range has neither. -/

section

variable (s : Skeleton)

/-- Asks directives for a type, one by one, marks those that have it, and says whether any has. -/
def ask? (name : String) : List Nat → Bool × List Bool → Option (Bool × List Bool)
  | [], found => some found
  | i :: is, (found, used) =>
    match s.usings[i]? with
    | none => none
    | some u =>
      if y.typeExists (some u.name.name) name then
        if i < used.length then ask? name is (true, used.set i true) else none
      else ask? name is (found, used)

def find? (decl : TypeDecl) (base : NameRef) (used : List Bool) : Option (Bool × List Bool) :=
  if builtinTypes.contains base.name then some (true, used)
  else
    match splitLast? base.name with
    | some (scope, name) => some (y.typeExists (some scope) name, used)
    | none =>
      if base.isGlobal then some (y.typeExists none base.name, used)
      else if isSibling s decl base.name then some (true, used)
      else if (scopesFrom decl.scope).any fun scope => y.typeExists scope base.name then some (true, used)
      else y.ask? s base.name decl.usings (false, used)

def marks? : Option (List Bool) :=
  s.types.foldlM
    (fun used decl => decl.bases.foldlM (fun used base => (y.find? s decl base used).map (·.2)) used)
    (List.replicate s.usings.length false)

end

end Symbols

namespace Compilation

def notFound (path : Option String) (name : NameRef) : Diagnostic where
  id := "CS0246"
  severity := .error
  message := "The type or namespace name '" ++ name.name
    ++ "' could not be found (are you missing a using directive or an assembly reference?)"
  location := .inTree path name.span

def duplicate (path : Option String) (decl : TypeDecl) : Diagnostic where
  id := "CS0101"
  severity := .error
  message :=
    (match decl.container, decl.scope with
      | some outer, _ => "The type '" ++ outer ++ "'"
      | none, some scope => "The namespace '" ++ scope ++ "'"
      | none, none => "The namespace '<global namespace>'")
    ++ " already contains a definition for '" ++ decl.name.name ++ "'"
  location := .inTree path decl.name.span

def unnecessaryUsing (path : Option String) (u : UsingDirective) : Diagnostic where
  id := "CS8019"
  severity := .hidden
  message := "Unnecessary using directive."
  location := .inTree path u.name.span

def syntaxError (path : Option String) (e : SyntaxError) : Diagnostic where
  id := e.cause.id
  severity := .error
  message := e.cause.message
  location := .inTree path e.span

def noEntryPoint : Diagnostic where
  id := "CS5001"
  severity := .error
  message := "Program does not contain a static 'Main' method suitable for an entry point"

/-- Two declarations of one name in one namespace and one type. -/
def sameKey (a b : TypeDecl) : Bool :=
  a.scope == b.scope && a.container == b.container && a.name.name == b.name.name

/-- A type may be declared again only if both its first declaration and this one are partial. -/
def isDuplicate (earlier : List TypeDecl) (decl : TypeDecl) : Bool :=
  match earlier.find? (sameKey decl) with
  | none => false
  | some first => !(first.isPartial && decl.isPartial)

section

variable (y : Symbols) (path : Option String) (s : Skeleton)

def unknownNamespaces : List Diagnostic :=
  (s.usings.filter fun u => !y.namespaceExists u.name.name).map fun u => notFound path u.name

def unnecessaryUsings : List Diagnostic :=
  let used := y.usedUsings s
  (s.usings.zipIdx.filter fun (u, i) => !used.contains i && y.namespaceExists u.name.name).map
    fun (u, _) => unnecessaryUsing path u

def unresolvedBases (decl : TypeDecl) : List Diagnostic :=
  (decl.bases.filter fun base => y.resolve s decl base == .unresolved).map (notFound path)

/-- The diagnostics of declarations that come after `earlier`. -/
def declDiagnostics (earlier : List TypeDecl) : List TypeDecl → List Diagnostic
  | [] => []
  | decl :: decls =>
    (if isDuplicate earlier decl then [duplicate path decl] else [])
      ++ unresolvedBases y path s decl
      ++ declDiagnostics (earlier ++ [decl]) decls

def treeDiagnostics (earlier : List TypeDecl) : List Diagnostic :=
  s.errors.map (syntaxError path)
    ++ unknownNamespaces y path s
    ++ declDiagnostics y path s earlier s.types
    ++ unnecessaryUsings y path s

def treesDiagnostics (earlier : List TypeDecl) :
    List (Option String × Skeleton) → List Diagnostic
  | [] => []
  | (path, s) :: trees =>
    treeDiagnostics y path s earlier ++ treesDiagnostics (earlier ++ s.types) trees

end

/-- What there is to say about trees, given by path and skeleton: tree by tree, and last what
concerns them all. -/
def bind (references : List Reference) (options : CompilationOptions)
    (trees : List (Option String × Skeleton)) : List Diagnostic :=
  let ss := trees.map (·.2)
  let lacksEntryPoint := options.outputKind == .console && !ss.any (·.hasMain)
  treesDiagnostics (.ofSkeletons references ss) [] trees
    ++ (if lacksEntryPoint then [noEntryPoint] else [])

variable (c : Compilation)

def diagnostics : List Diagnostic :=
  bind c.references c.options (c.parsed.map fun (t, s) => (t.path, s))

def blocksEmit (options : CompilationOptions) (d : Diagnostic) : Bool :=
  d.severity == .error || (options.warningsAsErrors && d.severity == .warning)

def emits : Bool := !c.diagnostics.any (blocksEmit c.options)

end Compilation

end GeneratorBench
