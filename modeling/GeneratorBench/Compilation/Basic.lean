import GeneratorBench.Compilation.Options
import GeneratorBench.Reference.Basic
import GeneratorBench.Source.Tree
import GeneratorBench.Syntax.Parser

/-!
Compilations: source trees and references under one name, and the types they declare. A
compilation never changes; adding trees makes another one.
-/

namespace GeneratorBench

structure TypeSymbol where
  scope : Option String
  name : String
  path : Option String
  deriving Repr, DecidableEq, Inhabited

namespace TypeSymbol

def fullName (t : TypeSymbol) : String :=
  match t.scope with
  | none => t.name
  | some scope => scope ++ "." ++ t.name

end TypeSymbol

def SourceTree.skeleton (t : SourceTree) : Skeleton := .ofText t.text

structure Compilation where
  assemblyName : String
  trees : List SourceTree
  /-- What each tree was read as. A tree is read when it comes in, and not again. -/
  skeletons : List Skeleton
  references : List Reference
  options : CompilationOptions
  skeletons_eq : skeletons = trees.map SourceTree.skeleton
  deriving Repr, DecidableEq

namespace Compilation

def ofTrees (assemblyName : String) (trees : List SourceTree) (references : List Reference)
    (options : CompilationOptions) : Compilation where
  assemblyName := assemblyName
  trees := trees
  skeletons := trees.map SourceTree.skeleton
  references := references
  options := options
  skeletons_eq := rfl

instance : Inhabited Compilation := ⟨ofTrees default default default default⟩

def addTrees (c : Compilation) (trees : List SourceTree) : Compilation :=
  { c with
    trees := c.trees ++ trees
    skeletons := c.skeletons ++ trees.map SourceTree.skeleton
    skeletons_eq := by rw [c.skeletons_eq, List.map_append] }

def parsed (c : Compilation) : List (SourceTree × Skeleton) := c.trees.zip c.skeletons

def declaredTypes (c : Compilation) : List TypeSymbol :=
  c.parsed.flatMap fun (t, s) => s.types.map fun decl => ⟨decl.scope, decl.name.name, t.path⟩

/-- Some type of that simple name is declared, wherever it stands. -/
def declaresType (c : Compilation) (name : String) : Bool :=
  c.declaredTypes.any (·.name == name)

theorem parsed_eq (c : Compilation) : c.parsed = c.trees.map fun t => (t, t.skeleton) := by
  rw [parsed, c.skeletons_eq, List.map_prod_left_eq_zip]

theorem mem_skeletons_iff {c : Compilation} {s : Skeleton} :
    s ∈ c.skeletons ↔ ∃ t ∈ c.trees, t.skeleton = s := by
  rw [c.skeletons_eq, List.mem_map]

@[simp] theorem addTrees_nil (c : Compilation) : c.addTrees [] = c := by
  simp [addTrees]

theorem addTrees_addTrees (c : Compilation) (ts us : List SourceTree) :
    (c.addTrees ts).addTrees us = c.addTrees (ts ++ us) := by
  simp [addTrees]

end Compilation

end GeneratorBench
