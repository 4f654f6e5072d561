import GeneratorBench.Proofs.Compilation.Reports
import GeneratorBench.Proofs.Syntax.Steps
import Mathlib.Data.List.Forall2

/-!
Growing compilations. Further trees and references that export more take errors away from the trees
that were there and never add one; only the hints on unnecessary directives may come and go.
-/

namespace GeneratorBench

namespace Compilation

def errors (ds : List Diagnostic) : List Diagnostic := ds.filter (·.severity == .error)

variable {y z : Symbols} {path : Option String} {s : Skeleton}

theorem errors_append (ds es : List Diagnostic) : errors (ds ++ es) = errors ds ++ errors es :=
  List.filter_append ds es

theorem errors_unnecessaryUsings : errors (unnecessaryUsings y path s) = [] := by
  refine List.filter_eq_nil_iff.2 ?_
  intro d hd
  obtain ⟨u, -, rfl⟩ := List.mem_map.1 hd
  exact Bool.false_ne_true

theorem unknownNamespaces_sublist (h : z.Covers y) :
    (unknownNamespaces z path s).Sublist (unknownNamespaces y path s) := by
  refine (List.monotone_filter_right _ ?_).map _
  intro u hu
  rw [Bool.not_eq_true'] at hu ⊢
  exact Bool.eq_false_iff.2 fun hy => Bool.eq_false_iff.1 hu (h.namespaces _ hy)

theorem unresolvedBases_sublist (h : z.Covers y) (decl : TypeDecl) :
    (unresolvedBases z path s decl).Sublist (unresolvedBases y path s decl) := by
  refine (List.monotone_filter_right _ ?_).map _
  intro base hbase
  rw [beq_iff_eq] at hbase ⊢
  exact Symbols.resolve_mono h hbase

theorem declDiagnostics_sublist (h : z.Covers y) (earlier decls : List TypeDecl) :
    (declDiagnostics z path s earlier decls).Sublist (declDiagnostics y path s earlier decls) := by
  induction decls generalizing earlier with
  | nil => exact List.Sublist.refl _
  | cons decl decls ih =>
      exact ((List.Sublist.refl _).append (unresolvedBases_sublist h decl)).append (ih _)

theorem errors_treeDiagnostics_sublist (h : z.Covers y) (earlier : List TypeDecl) :
    (errors (treeDiagnostics z path s earlier)).Sublist (errors (treeDiagnostics y path s earlier)) := by
  simp only [treeDiagnostics, errors_append, errors_unnecessaryUsings, List.append_nil]
  have husings : (errors (unknownNamespaces z path s)).Sublist (errors (unknownNamespaces y path s)) :=
    (unknownNamespaces_sublist h).filter _
  have hdecls : (errors (declDiagnostics z path s earlier s.types)).Sublist
      (errors (declDiagnostics y path s earlier s.types)) :=
    (declDiagnostics_sublist h earlier s.types).filter _
  exact ((List.Sublist.refl _).append husings).append hdecls

theorem errors_reportsFrom_sublist (h : z.Covers y) (earlier : List TypeDecl)
    (trees : List (Option String × Skeleton)) :
    List.Forall₂ (fun new old => (errors new).Sublist (errors old))
      (reportsFrom z earlier trees) (reportsFrom y earlier trees) := by
  induction trees generalizing earlier with
  | nil => exact .nil
  | cons t trees ih => exact .cons (errors_treeDiagnostics_sublist h earlier) (ih _)

theorem errors_flatten_sublist {new old : List (List Diagnostic)}
    (h : List.Forall₂ (fun new old => (errors new).Sublist (errors old)) new old) :
    (errors new.flatten).Sublist (errors old.flatten) := by
  induction h with
  | nil => exact List.Sublist.refl _
  | cons hd _ ih =>
      rw [List.flatten_cons, List.flatten_cons, errors_append, errors_append]
      exact hd.append ih

theorem errors_reports_sublist {c d : Compilation} {later : List SourceTree}
    (htrees : d.trees = c.trees ++ later) (hrefs : Reference.Covers d.references c.references) :
    List.Forall₂ (fun new old => (errors new).Sublist (errors old))
      (d.reports.take c.trees.length) c.reports := by
  have hsub : c.trees ⊆ d.trees := htrees ▸ List.subset_append_left _ _
  rw [take_reports_append c htrees]
  exact errors_reportsFrom_sublist (covers_symbols hsub hrefs) [] c.located

/-- Further trees and references that export at least as much leave each tree that was there with
some of the errors it had, and add no error about the whole. The diagnostics are those of the trees,
and last those about the whole. `addTrees` is such a growth, and references that export the same
change nothing at all. -/
theorem errors_sublist_of_covers (c : Compilation) (later : List SourceTree) {references : List Reference}
    (covers : Reference.Covers references c.references) :
    let d := ofTrees c.assemblyName (c.trees ++ later) references c.options
    (c.diagnostics = c.reports.flatten ++ c.overall ∧ d.diagnostics = d.reports.flatten ++ d.overall) ∧
      List.Forall₂ (fun new old => (errors new).Sublist (errors old))
        (d.reports.take c.trees.length) c.reports ∧
      (errors (d.reports.take c.trees.length).flatten).Sublist (errors c.reports.flatten) ∧
      (noEntryPoint ∈ d.diagnostics → noEntryPoint ∈ c.diagnostics) ∧
      List.Forall₂ (fun new old => (errors new).Sublist (errors old))
        ((c.addTrees later).reports.take c.trees.length) c.reports ∧
      (Reference.Covers c.references references →
        (ofTrees c.assemblyName c.trees references c.options).diagnostics = c.diagnostics) := by
  intro d
  have heach := errors_reports_sublist (c := c) (d := d) rfl covers
  refine ⟨⟨diagnostics_eq c, diagnostics_eq d⟩, heach, errors_flatten_sublist heach, ?_,
    errors_reports_sublist rfl (Reference.Covers.refl _), ?_⟩
  · intro hd
    obtain ⟨hconsole, hmain⟩ := (noEntryPoint_mem_diagnostics d).1 hd
    refine (noEntryPoint_mem_diagnostics c).2 ⟨hconsole, fun s hs => hmain s ?_⟩
    rw [c.skeletons_eq] at hs
    exact List.mem_map.2 ((List.mem_map.1 hs).imp fun t ht => ⟨List.mem_append_left _ ht.1, ht.2⟩)
  · intro back
    exact diagnostics_congr rfl rfl (covers_symbols (List.Subset.refl _) covers)
      (covers_symbols (List.Subset.refl _) back)

/-- A reference and a tree take three of four errors away. -/
theorem errors_sublist_of_covers_base :
    let c := ofTrees "T" [⟨none, "using System;\nclass A : Object, B, C \x7b\x7d"⟩] [] {}
    let d := ofTrees "T" (c.trees ++ [⟨none, "class B \x7b\x7d"⟩]) [.core] {}
    Reference.Covers [.core] c.references ∧
      (errors c.reports.flatten).length = 4 ∧
      (errors (d.reports.take c.trees.length).flatten).length = 1 ∧
      (errors (d.reports.take c.trees.length).flatten).Sublist (errors c.reports.flatten) := by
  intro c d
  have covers : Reference.Covers [.core] c.references := by
    constructor
    · intro name h
      cases h
    · intro scope name h
      cases h
  have hfirst : Skeleton.ofText "using System;\nclass A : Object, B, C \x7b\x7d" = _ :=
    Parser.ofText_iterate 3 (by decide +kernel)
  have hlater : Skeleton.ofText "class B \x7b\x7d" = _ := Parser.ofText_iterate 2 (by decide +kernel)
  have hold : (errors c.reports.flatten).length = 4 := by
    simp only [reports, symbols, located_eq, c, ofTrees, List.map, SourceTree.skeleton, hfirst]
    decide +kernel
  have hnew : (errors (d.reports.take c.trees.length).flatten).length = 1 := by
    simp only [reports, symbols, located_eq, c, d, ofTrees, List.map, SourceTree.skeleton,
      List.cons_append, List.nil_append, hfirst, hlater]
    decide +kernel
  exact ⟨covers, hold, hnew, (errors_sublist_of_covers c [⟨none, "class B \x7b\x7d"⟩] covers).2.2.1⟩

end Compilation

end GeneratorBench
