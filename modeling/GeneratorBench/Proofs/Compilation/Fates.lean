import GeneratorBench.Proofs.Compilation.Namespaces
import GeneratorBench.Proofs.Compilation.Usage

/-!
What becomes of a directive: its namespace does not exist, or it supplies a type to some base, or it is without use.
-/

namespace GeneratorBench

namespace Symbols

variable (y : Symbols) (s : Skeleton)

def unknown : List (UsingDirective × Nat) := s.usings.zipIdx.filter fun p => !y.namespaceExists p.1.name.name

def supplying : List (UsingDirective × Nat) := s.usings.zipIdx.filter fun p => (y.usedUsings s).contains p.2

variable {y s}

/-- Each directive falls under one of the three, as long as none supplies types of a namespace that is not there. -/
theorem perm_fates (h : ∀ p ∈ s.usings.zipIdx, p.2 ∈ y.usedUsings s → y.namespaceExists p.1.name.name = true) :
    (y.supplying s ++ y.unnecessary s ++ y.unknown s).Perm s.usings.zipIdx := by
  let existing := s.usings.zipIdx.filter fun p => y.namespaceExists p.1.name.name
  have hsupplying : existing.filter (fun p => (y.usedUsings s).contains p.2) = y.supplying s := by
    rw [List.filter_filter]
    refine List.filter_congr fun p hp => ?_
    rw [Bool.eq_iff_iff, Bool.and_eq_true, List.contains_iff_mem, and_iff_left_iff_imp]
    exact h p hp
  have hunnecessary : existing.filter (fun p => !(y.usedUsings s).contains p.2) = y.unnecessary s :=
    List.filter_filter
  rw [← hsupplying, ← hunnecessary]
  exact ((List.filter_append_perm _ existing).append_right _).trans (List.filter_append_perm _ _)

end Symbols

namespace Compilation

theorem unknownNamespaces_eq (y : Symbols) (path : Option String) (s : Skeleton) :
    unknownNamespaces y path s = (y.unknown s).map fun p => notFound path p.1.name := by
  have hdirectives : (y.unknown s).map (·.1) = s.usings.filter fun u => !y.namespaceExists u.name.name := by
    conv => enter [2]; rw [← List.zipIdx_map_fst 0 s.usings]
    rw [List.filter_map]
    rfl
  rw [unknownNamespaces, ← hdirectives, List.map_map]
  rfl

variable {c : Compilation} {s : Skeleton} {p : UsingDirective × Nat}

theorem Supplies.hasNamespace (hwords : c.Worded) (h : c.Supplies s p) : c.HasNamespace p.1.name.name := by
  obtain ⟨decl, -, base, -, -, -, htype⟩ := h
  exact htype.hasNamespace hwords

/-- Each directive has one fate. It is reported as not found if its namespace does not exist, it supplies a type to
some base of its tree, or it is reported as unnecessary; what supplies a type is never reported. -/
theorem directive_fates (c : Compilation) (hwords : c.Worded) :
    (missing c.diagnostics = c.trees.flatMap fun t =>
      ((c.symbols.unknown t.skeleton).map fun p => notFound t.path p.1.name) ++
        t.skeleton.types.flatMap (unresolvedBases c.symbols t.path t.skeleton)) ∧
    (unneeded c.diagnostics = c.trees.flatMap fun t =>
      (c.symbols.unnecessary t.skeleton).map fun p => unnecessaryUsing t.path p.1) ∧
    ∀ t ∈ c.trees,
      let s := t.skeleton
      (c.symbols.supplying s ++ c.symbols.unnecessary s ++ c.symbols.unknown s).Perm s.usings.zipIdx ∧
      s.usings.length =
        (c.symbols.supplying s).length + (c.symbols.unnecessary s).length + (c.symbols.unknown s).length ∧
      ∀ p ∈ s.usings.zipIdx,
        (p ∈ c.symbols.unknown s ↔ ¬ c.HasNamespace p.1.name.name) ∧
        (p ∈ c.symbols.supplying s ↔ c.Supplies s p) ∧
        (p ∈ c.symbols.unnecessary s ↔ c.HasNamespace p.1.name.name ∧ ¬ c.Supplies s p) ∧
        (c.Supplies s p → c.HasNamespace p.1.name.name) := by
  refine ⟨?_, unneeded_diagnostics c, fun t _ => ?_⟩
  · rw [missing_diagnostics]
    simp only [unknownNamespaces_eq]
  intro s
  have hperm : (c.symbols.supplying s ++ c.symbols.unnecessary s ++ c.symbols.unknown s).Perm s.usings.zipIdx := by
    refine Symbols.perm_fates fun p hp hused => ?_
    rw [namespaceExists_symbols hwords]
    exact ((supplies_iff hp).1 hused).hasNamespace hwords
  refine ⟨hperm, ?_, fun p hp => ⟨?_, ?_, ?_, Supplies.hasNamespace hwords⟩⟩
  · have hlength := hperm.length_eq
    rw [List.length_append, List.length_append, List.length_zipIdx] at hlength
    exact hlength.symm
  · rw [Symbols.unknown, List.mem_filter, and_iff_right hp, ← namespaceExists_symbols hwords]
    simp
  · rw [Symbols.supplying, List.mem_filter, and_iff_right hp, ← supplies_iff hp, List.contains_iff_mem]
  · rw [Symbols.unnecessary, List.mem_filter, and_iff_right hp, ← supplies_iff hp, ← namespaceExists_symbols hwords]
    simp [and_comm]

/-- Three directives, one of each fate. -/
theorem directive_fates_three :
    let t : SourceTree := ⟨none,
      "using A;\nusing B;\nusing C;\nclass D : X \x7b\x7d\nnamespace A \x7b class X \x7b\x7d \x7d\nnamespace B.E \x7b\x7d"⟩
    let c := ofTrees "T" [t] [] {}
    c.Worded ∧ (missing c.diagnostics).length = 1 ∧ (unneeded c.diagnostics).length = 1 ∧
      ∃ p ∈ t.skeleton.usings.zipIdx, c.Supplies t.skeleton p ∧ c.HasNamespace p.1.name.name := by
  intro t c
  have hread : Skeleton.ofText t.text = _ := Parser.ofText_iterate 12 (by decide +kernel)
  have hwords : c.Worded := List.forall_mem_singleton.2 (by decide +kernel)
  have hreported : (c.symbols.unknown t.skeleton).length = 1 ∧ (c.symbols.unnecessary t.skeleton).length = 1 ∧
      t.skeleton.types.flatMap (unresolvedBases c.symbols t.path t.skeleton) = [] ∧
      t.skeleton.usings.length = 3 := by
    simp only [symbols, c, ofTrees, List.map, SourceTree.skeleton, hread]
    decide +kernel
  obtain ⟨hunknown, hunnecessary, hbases, hcount⟩ := hreported
  have htree : c.trees = [t] := rfl
  obtain ⟨hmissing, hunneeded, hfates⟩ := directive_fates c hwords
  obtain ⟨-, hsum, hone⟩ := hfates t (List.mem_singleton_self t)
  have hsupplying : (c.symbols.supplying t.skeleton).length = 1 := by omega
  obtain ⟨p, hp⟩ := List.length_eq_one_iff.1 hsupplying
  have hmem : p ∈ c.symbols.supplying t.skeleton := hp ▸ List.mem_singleton_self p
  have hdirective := (List.mem_filter.1 hmem).1
  obtain ⟨-, hsupplies, -, hexists⟩ := hone p hdirective
  refine ⟨hwords, ?_, ?_, p, hdirective, hsupplies.1 hmem, hexists (hsupplies.1 hmem)⟩
  · rw [hmissing, htree, List.flatMap_singleton, hbases, List.append_nil, List.length_map, hunknown]
  · rw [hunneeded, htree, List.flatMap_singleton, List.length_map, hunnecessary]

end Compilation

end GeneratorBench
