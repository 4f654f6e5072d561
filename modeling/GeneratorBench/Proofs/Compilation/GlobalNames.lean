import GeneratorBench.Proofs.Compilation.Visibility

/-!
Names that are asked of the global namespace. A simple name that is written so finds the types that stand
outside any namespace and the words of the language; where it is written and what is imported there, and what
the references export, make no difference.
-/

namespace GeneratorBench

namespace Compilation

variable {c : Compilation} {s : Skeleton} {decl : TypeDecl} {base : NameRef}

def DeclaresOutside (c : Compilation) (name : String) : Prop :=
  ∃ t ∈ c.trees, ∃ decl ∈ t.skeleton.types, decl.scope = none ∧ decl.name.name = name

theorem hasType_none {name : String} : c.HasType none name ↔ c.DeclaresOutside name := by
  constructor
  · rintro (⟨s, hs, htype⟩ | ⟨r, -, ns, -, hns, -⟩)
    · obtain ⟨t, ht, rfl⟩ := mem_skeletons_iff.1 hs
      exact ⟨t, ht, htype⟩
    · cases hns
  · rintro ⟨t, ht, htype⟩
    exact .inl ⟨_, mem_skeletons_iff.2 ⟨t, ht, rfl⟩, htype⟩

/-- Found without the help of a directive: as a word of the language, which is asked first, or outside any
namespace. -/
def IsOutside (c : Compilation) (name : String) : Prop := name ∈ builtinTypes ∨ c.DeclaresOutside name

variable (hsimple : '.' ∉ base.name.toList) (hglobal : base.isGlobal = true)

include hsimple hglobal

theorem resolve_global_of_isOutside (h : c.IsOutside base.name) : c.symbols.resolve s decl base = .known := by
  rw [Symbols.resolve, (splitLast?_eq_none_iff base.name).2 hsimple]
  by_cases hbuiltin : builtinTypes.contains base.name = true
  · rw [if_pos hbuiltin]
  · have hdeclared : c.symbols.typeExists none base.name = true :=
      typeExists_symbols.2 (hasType_none.2 (h.resolve_left (hbuiltin ∘ List.contains_iff_mem.2)))
    simp only [if_neg hbuiltin, hglobal, hdeclared, if_true]

theorem resolve_global_of_not_isOutside (h : ¬ c.IsOutside base.name) :
    c.symbols.resolve s decl base = .unresolved := by
  obtain ⟨hbuiltin, hdeclared⟩ := not_or.1 h
  have hlost : ¬ c.symbols.typeExists none base.name = true := fun hfound =>
    hdeclared (hasType_none.1 (typeExists_symbols.1 hfound))
  rw [Symbols.resolve, (splitLast?_eq_none_iff base.name).2 hsimple, if_neg (hbuiltin ∘ List.contains_iff_mem.1)]
  simp only [hglobal, if_true, if_neg hlost]

theorem resolve_global_eq_known_iff :
    c.symbols.resolve s decl base = .known ↔ c.IsOutside base.name := by
  constructor
  · intro hknown
    by_contra hlost
    rw [resolve_global_of_not_isOutside hsimple hglobal hlost] at hknown
    cases hknown
  · exact resolve_global_of_isOutside hsimple hglobal

theorem resolve_global_eq_unresolved_iff :
    c.symbols.resolve s decl base = .unresolved ↔ ¬ c.IsOutside base.name := by
  constructor
  · intro hlost hfound
    rw [resolve_global_of_isOutside hsimple hglobal hfound] at hlost
    cases hlost
  · exact resolve_global_of_not_isOutside hsimple hglobal

omit hsimple hglobal

/-- The names that are reported as not found are those of directives whose namespace is unknown and the bases
that are not resolved, each once and in order. A simple base that is asked of the global namespace is resolved
exactly if it is a word of the language or some tree declares a type of that name outside any namespace,
whatever declaration of whatever tree names it, and no directive is ever used for it. -/
theorem missing_global_bases (c : Compilation) :
    (missing c.diagnostics = c.trees.flatMap fun t =>
      unknownNamespaces c.symbols t.path t.skeleton ++ t.skeleton.types.flatMap fun decl =>
        (decl.bases.filter fun base => c.symbols.resolve t.skeleton decl base == .unresolved).map
          (notFound t.path)) ∧
    ∀ base : NameRef, '.' ∉ base.name.toList → base.isGlobal = true → ∀ s decl,
      (c.symbols.resolve s decl base = .known ↔ base.name ∈ builtinTypes ∨ c.DeclaresOutside base.name) ∧
      (c.symbols.resolve s decl base = .unresolved ↔
        base.name ∉ builtinTypes ∧ ¬ c.DeclaresOutside base.name) := by
  refine ⟨missing_diagnostics c, fun base hsimple hglobal s decl => ⟨?_, ?_⟩⟩
  · exact resolve_global_eq_known_iff hsimple hglobal
  · rw [resolve_global_eq_unresolved_iff hsimple hglobal, IsOutside, not_or]

/-- A word of the language that is asked of the global namespace, and is found though no type of that name
stands there or anywhere. -/
theorem missing_global_bases_word :
    let t : SourceTree := ⟨none, "class A : global::int \x7b\x7d"⟩
    let c := ofTrees "Test" [t] [] {}
    ∃ decl ∈ t.skeleton.types, ∃ base ∈ decl.bases,
      (base.name = "int" ∧ '.' ∉ base.name.toList ∧ base.isGlobal = true) ∧
      ¬ c.DeclaresOutside base.name ∧
      c.symbols.resolve t.skeleton decl base = .known ∧ missing c.diagnostics = [] := by
  intro t c
  have hread : Skeleton.ofText t.text = _ := Parser.ofText_iterate 6 (by decide +kernel)
  have hfound : ∃ decl ∈ t.skeleton.types, ∃ base ∈ decl.bases,
      (base.name = "int" ∧ '.' ∉ base.name.toList ∧ base.isGlobal = true) ∧ ¬ c.DeclaresOutside base.name := by
    simp only [DeclaresOutside, c, t, ofTrees, List.mem_singleton, exists_eq_left, SourceTree.skeleton, hread]
    decide +kernel
  obtain ⟨decl, hdecl, base, hbase, hbasic, hundeclared⟩ := hfound
  obtain ⟨hmissing, hresolve⟩ := missing_global_bases c
  refine ⟨decl, hdecl, base, hbase, hbasic, hundeclared, ?_, ?_⟩
  · refine (hresolve base hbasic.2.1 hbasic.2.2 t.skeleton decl).1.2 (.inl ?_)
    rw [hbasic.1]
    decide
  · rw [hmissing]
    simp only [symbols, c, t, ofTrees, List.map, List.flatMap_singleton, SourceTree.skeleton, hread]
    decide +kernel

end Compilation

end GeneratorBench
