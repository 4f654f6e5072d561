import GeneratorBench.Proofs.Compilation.Reports
import GeneratorBench.Proofs.Syntax.Layout
import Mathlib.Data.List.Forall2

/-!
What a compilation has to say of texts does not depend on their layout. Binding asks for names and never for
spans, so texts with the same kinds of tokens get the same diagnostics, but for the places they point to.
-/

namespace GeneratorBench

/-- A diagnostic whose span, if it has one, is put to the start of the text. -/
def Diagnostic.unplaced (d : Diagnostic) : Diagnostic :=
  { d with location := { d.location with span := d.location.span.map fun _ => .point .origin } }

/-- The same tokens under the same path, however they are laid out and whatever the literals hold. -/
structure SourceTree.SameTokens (t u : SourceTree) : Prop where
  path : t.path = u.path
  kinds : (tokens t.text).map Token.kind = (tokens u.text).map Token.kind

namespace Symbols

theorem ofSkeletons_unplaced (references : List Reference) (ss : List Skeleton) :
    ofSkeletons references (ss.map Skeleton.unplaced) = ofSkeletons references ss := by
  have htypes : ∀ s : Skeleton, s.unplaced.types.map (fun t => (t.scope, t.name.name)) =
      s.types.map fun t => (t.scope, t.name.name) := fun s => List.map_map
  simp only [ofSkeletons, List.flatMap_map, htypes]
  rfl

variable (y : Symbols) (s : Skeleton) (decl : TypeDecl)

theorem isSibling_unplaced (name : String) :
    isSibling s.unplaced decl.unplaced name = isSibling s decl name := by
  simp only [isSibling, Skeleton.unplaced, List.any_map]
  rfl

theorem suppliers_unplaced (name : String) :
    y.suppliers s.unplaced decl.unplaced name = y.suppliers s decl name := by
  simp only [suppliers, Skeleton.unplaced, List.getElem?_map, Option.any_map]
  rfl

theorem resolve_unplaced (base : NameRef) :
    y.resolve s.unplaced decl.unplaced base.unplaced = y.resolve s decl base := by
  rw [resolve, resolve, show base.unplaced.name = base.name from rfl, isSibling_unplaced,
    suppliers_unplaced]
  rfl

theorem usedUsings_unplaced : y.usedUsings s.unplaced = y.usedUsings s := by
  rw [usedUsings, usedUsings, show s.unplaced.types = s.types.map TypeDecl.unplaced from rfl, List.flatMap_map]
  refine congrArg (s.types.flatMap ·) (funext fun decl => ?_)
  rw [show decl.unplaced.bases = decl.bases.map NameRef.unplaced from rfl, List.flatMap_map]
  refine congrArg (decl.bases.flatMap ·) (funext fun base => ?_)
  rw [resolve_unplaced]

end Symbols

namespace Compilation

variable (y : Symbols) (path : Option String) (s : Skeleton)

theorem syntaxErrors_unplaced :
    s.unplaced.errors.map (syntaxError path) = (s.errors.map (syntaxError path)).map Diagnostic.unplaced := by
  rw [Skeleton.unplaced, List.map_map, List.map_map]
  rfl

theorem unknownNamespaces_unplaced :
    unknownNamespaces y path s.unplaced = (unknownNamespaces y path s).map Diagnostic.unplaced := by
  rw [unknownNamespaces, Skeleton.unplaced, List.filter_map, List.map_map, unknownNamespaces, List.map_map]
  rfl

theorem unnecessaryUsings_unplaced :
    unnecessaryUsings y path s.unplaced = (unnecessaryUsings y path s).map Diagnostic.unplaced := by
  rw [unnecessaryUsings, Symbols.usedUsings_unplaced, Skeleton.unplaced, List.zipIdx_map, List.filter_map,
    List.map_map, unnecessaryUsings, List.map_map]
  rfl

theorem unresolvedBases_unplaced (decl : TypeDecl) :
    unresolvedBases y path s.unplaced decl.unplaced =
      (unresolvedBases y path s decl).map Diagnostic.unplaced := by
  have hresolve : (fun base => y.resolve s.unplaced decl.unplaced base == .unresolved) ∘ NameRef.unplaced =
      fun base => y.resolve s decl base == .unresolved :=
    funext fun base => congrArg (· == .unresolved) (y.resolve_unplaced s decl base)
  rw [unresolvedBases, unresolvedBases, show decl.unplaced.bases = decl.bases.map NameRef.unplaced from rfl,
    List.filter_map, hresolve, List.map_map, List.map_map]
  rfl

theorem isDuplicate_unplaced (earlier : List TypeDecl) (decl : TypeDecl) :
    isDuplicate (earlier.map TypeDecl.unplaced) decl.unplaced = isDuplicate earlier decl := by
  have hkey : sameKey decl.unplaced ∘ TypeDecl.unplaced = sameKey decl := rfl
  rw [isDuplicate, List.find?_map, hkey, isDuplicate]
  cases earlier.find? (sameKey decl) with
  | none => rfl
  | some first => rfl

theorem declDiagnostics_unplaced (earlier decls : List TypeDecl) :
    declDiagnostics y path s.unplaced (earlier.map TypeDecl.unplaced) (decls.map TypeDecl.unplaced) =
      (declDiagnostics y path s earlier decls).map Diagnostic.unplaced := by
  induction decls generalizing earlier with
  | nil => rfl
  | cons decl decls ih =>
      have hearlier : earlier.map TypeDecl.unplaced ++ [decl.unplaced] =
          (earlier ++ [decl]).map TypeDecl.unplaced := by simp
      have hduplicate : (if isDuplicate earlier decl then [duplicate path decl.unplaced] else []) =
          (if isDuplicate earlier decl then [duplicate path decl] else []).map Diagnostic.unplaced := by
        split
        · rfl
        · rfl
      rw [List.map_cons, declDiagnostics, isDuplicate_unplaced, unresolvedBases_unplaced, hearlier, ih,
        hduplicate, declDiagnostics, List.map_append, List.map_append]

theorem treeDiagnostics_unplaced (earlier : List TypeDecl) :
    treeDiagnostics y path s.unplaced (earlier.map TypeDecl.unplaced) =
      (treeDiagnostics y path s earlier).map Diagnostic.unplaced := by
  have hdecls := declDiagnostics_unplaced y path s earlier s.types
  rw [treeDiagnostics, syntaxErrors_unplaced, unknownNamespaces_unplaced, unnecessaryUsings_unplaced,
    show s.unplaced.types = s.types.map TypeDecl.unplaced from rfl, hdecls, treeDiagnostics, List.map_append,
    List.map_append, List.map_append]

def unplacedTrees (trees : List (Option String × Skeleton)) : List (Option String × Skeleton) :=
  trees.map fun t => (t.1, t.2.unplaced)

theorem treesDiagnostics_unplaced (earlier : List TypeDecl) (trees : List (Option String × Skeleton)) :
    treesDiagnostics y (earlier.map TypeDecl.unplaced) (unplacedTrees trees) =
      (treesDiagnostics y earlier trees).map Diagnostic.unplaced := by
  induction trees generalizing earlier with
  | nil => rfl
  | cons t trees ih =>
      have hearlier : earlier.map TypeDecl.unplaced ++ t.2.unplaced.types =
          (earlier ++ t.2.types).map TypeDecl.unplaced := by
        rw [List.map_append]
        rfl
      have hcons : unplacedTrees (t :: trees) = (t.1, t.2.unplaced) :: unplacedTrees trees := rfl
      rw [hcons, treesDiagnostics, treeDiagnostics_unplaced, hearlier, ih, treesDiagnostics,
        List.map_append]

theorem bind_unplaced (references : List Reference) (options : CompilationOptions)
    (trees : List (Option String × Skeleton)) :
    bind references options (unplacedTrees trees) =
      (bind references options trees).map Diagnostic.unplaced := by
  have hskeletons : (unplacedTrees trees).map (·.2) = (trees.map (·.2)).map Skeleton.unplaced := by
    rw [unplacedTrees, List.map_map, List.map_map]
    rfl
  have hmain : ((trees.map (·.2)).map Skeleton.unplaced).any (·.hasMain) = (trees.map (·.2)).any (·.hasMain) :=
    List.any_map
  have htrees := treesDiagnostics_unplaced (.ofSkeletons references (trees.map (·.2))) [] trees
  rw [List.map_nil] at htrees
  simp only [bind, hskeletons, hmain, Symbols.ofSkeletons_unplaced, htrees, List.map_append]
  split
  · rfl
  · rfl

variable {c d : Compilation}

theorem unplacedTrees_located (htrees : List.Forall₂ SourceTree.SameTokens c.trees d.trees) :
    unplacedTrees c.located = unplacedTrees d.located := by
  have hread : ∀ t u : SourceTree, t.SameTokens u →
      ((t.path, t.skeleton.unplaced) : Option String × Skeleton) = (u.path, u.skeleton.unplaced) := by
    intro t u h
    rw [h.path]
    exact congrArg _ (Skeleton.unplaced_ofTokens h.kinds)
  have hall : List.Forall₂ (· = ·) (c.trees.map fun t => (t.path, t.skeleton.unplaced))
      (d.trees.map fun t => (t.path, t.skeleton.unplaced)) :=
    List.forall₂_map_left_iff.2 (List.forall₂_map_right_iff.2 (htrees.imp hread))
  rw [List.forall₂_eq_eq_eq] at hall
  rw [located_eq, located_eq, unplacedTrees, unplacedTrees, List.map_map, List.map_map]
  exact hall

theorem declaredTypes_eq (c : Compilation) :
    c.declaredTypes =
      (unplacedTrees c.located).flatMap fun t => t.2.types.map fun decl => ⟨decl.scope, decl.name.name, t.1⟩ := by
  have htypes : ∀ t : SourceTree,
      t.skeleton.types.map (fun decl => (⟨decl.scope, decl.name.name, t.path⟩ : TypeSymbol)) =
        t.skeleton.unplaced.types.map fun decl => ⟨decl.scope, decl.name.name, t.path⟩ := by
    intro t
    rw [Skeleton.unplaced, List.map_map]
    rfl
  rw [declaredTypes, parsed_eq, located_eq, unplacedTrees, List.map_map, List.flatMap_map, List.flatMap_map]
  exact congrArg (c.trees.flatMap ·) (funext htypes)

theorem emits_eq (c : Compilation) :
    c.emits = !(c.diagnostics.map Diagnostic.unplaced).any (blocksEmit c.options) := by
  rw [emits, List.any_map]
  rfl

/-- The layout of texts does not change what they mean. Texts with the same kinds of tokens, under the same
paths and with the same references and options, declare the same types and have the same diagnostics but for
the spans; so they can be emitted alike. -/
theorem diagnostics_of_sameTokens (htrees : List.Forall₂ SourceTree.SameTokens c.trees d.trees)
    (hreferences : c.references = d.references) (hoptions : c.options = d.options) :
    c.declaredTypes = d.declaredTypes ∧ c.emits = d.emits ∧
      c.diagnostics.map Diagnostic.unplaced = d.diagnostics.map Diagnostic.unplaced := by
  have hlocated := unplacedTrees_located htrees
  have hdiagnostics : c.diagnostics.map Diagnostic.unplaced = d.diagnostics.map Diagnostic.unplaced := by
    have hbind : ∀ c : Compilation, c.diagnostics = bind c.references c.options c.located := fun _ => rfl
    rw [hbind, hbind, ← bind_unplaced, ← bind_unplaced, hlocated, hreferences, hoptions]
  refine ⟨?_, ?_, hdiagnostics⟩
  · rw [declaredTypes_eq, declaredTypes_eq, hlocated]
  · rw [emits_eq, emits_eq, hdiagnostics, hoptions]

/-- A text on one line and the same tokens on several, with a comment and another literal. -/
theorem diagnostics_of_sameTokens_comment :
    let c := ofTrees "T" [⟨some "A.cs", "class A:B\x7b\"x\"\x7d \x7d"⟩] [] {}
    let d := ofTrees "T" [⟨some "A.cs", "class A\n  : B // base\n\x7b\n 'yz' \x7d \x7d"⟩] [] {}
    List.Forall₂ SourceTree.SameTokens c.trees d.trees ∧
      (d.diagnostics.map (·.id) = ["CS1022", "CS0246"] ∧ c.diagnostics ≠ d.diagnostics) ∧
      c.declaredTypes = d.declaredTypes ∧ c.emits = d.emits ∧
      c.diagnostics.map Diagnostic.unplaced = d.diagnostics.map Diagnostic.unplaced := by
  intro c d
  have hkinds : (tokens "class A:B\x7b\"x\"\x7d \x7d").map Token.kind =
      (tokens "class A\n  : B // base\n\x7b\n 'yz' \x7d \x7d").map Token.kind := by decide +kernel
  have htrees : List.Forall₂ SourceTree.SameTokens c.trees d.trees := .cons ⟨rfl, hkinds⟩ .nil
  have hone : Skeleton.ofText "class A:B\x7b\"x\"\x7d \x7d" = _ := Parser.ofText_iterate 4 (by decide +kernel)
  have hother : Skeleton.ofText "class A\n  : B // base\n\x7b\n 'yz' \x7d \x7d" = _ :=
    Parser.ofText_iterate 4 (by decide +kernel)
  have hoverall : c.overall = [] ∧ d.overall = [] := ⟨rfl, rfl⟩
  refine ⟨htrees, ?_, diagnostics_of_sameTokens htrees rfl rfl⟩
  rw [diagnostics_eq, diagnostics_eq, hoverall.1, hoverall.2]
  simp only [reports, symbols, located_eq, c, d, ofTrees, List.map, SourceTree.skeleton, hone, hother]
  decide +kernel

end Compilation

end GeneratorBench
