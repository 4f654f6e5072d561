import GeneratorBench.Text.Position

/-!
The declaration skeleton of a source text: which namespaces and types it declares, which
namespaces it imports where, and what is wrong with its syntax.
-/

namespace GeneratorBench

/-- A dotted name as it was written, less its type arguments. -/
structure NameRef where
  name : String
  span : Span
  /-- It was written `global::name`, so it means the global namespace only. -/
  isGlobal : Bool
  deriving Repr, DecidableEq, Inhabited

structure UsingDirective where
  name : NameRef
  scope : Option String
  deriving Repr, DecidableEq, Inhabited

structure TypeDecl where
  name : NameRef
  scope : Option String
  /-- The type whose body the declaration stands in. -/
  container : Option String
  isPartial : Bool
  bases : List NameRef
  /-- The directives in scope, as places in the list of directives of the text. -/
  usings : List Nat
  deriving Repr, DecidableEq, Inhabited

inductive SyntaxError.Cause
  | identifierExpected
  | semicolonExpected
  | memberExpected
  | closingBraceExpected
  | openingBraceExpected
  | secondFileNamespace
  deriving Repr, DecidableEq, Inhabited

namespace SyntaxError.Cause

def id : Cause → String
  | identifierExpected => "CS1001"
  | semicolonExpected => "CS1002"
  | memberExpected => "CS1022"
  | closingBraceExpected => "CS1513"
  | openingBraceExpected => "CS1514"
  | secondFileNamespace => "CS8954"

def message : Cause → String
  | identifierExpected => "Identifier expected"
  | semicolonExpected => "; expected"
  | memberExpected => "Type or namespace definition, or end-of-file expected"
  | closingBraceExpected => "\x7d expected"
  | openingBraceExpected => "\x7b expected"
  | secondFileNamespace => "Source file can only contain one file-scoped namespace declaration"

end SyntaxError.Cause

structure SyntaxError where
  cause : SyntaxError.Cause
  span : Span
  deriving Repr, DecidableEq, Inhabited

structure Skeleton where
  usings : List UsingDirective := []
  types : List TypeDecl := []
  /-- Every namespace that is declared, with the names of those around it. -/
  namespaces : List String := []
  hasMain : Bool := false
  errors : List SyntaxError := []
  deriving Repr, DecidableEq, Inhabited

end GeneratorBench
