import GeneratorBench.Proofs.Compilation.GlobalNames
import GeneratorBench.Proofs.Syntax.Nesting

/-!
Names of types that stand in other types. What offers a type is its namespace, whatever types stand around it
there. So a name finds the types inside those around the declaration, as it should, but also those inside any
other type of the namespaces that are asked.
-/

namespace GeneratorBench

def SourceTree.nestings (t : SourceTree) : List (TypeDecl × List String) := Skeleton.nestings (tokens t.text)

theorem SourceTree.map_nestings (t : SourceTree) : t.nestings.map (·.1) = t.skeleton.types :=
  Skeleton.map_nestings _

namespace Compilation

/-- A base is asked of the global namespace. Unless it is written for that one only, it is also asked of those
around the declaration and of those of the directives in scope. -/
def Asks (s : Skeleton) (decl : TypeDecl) (base : NameRef) (scope : Option String) : Prop :=
  scope = none ∨ base.isGlobal = false ∧
    (Around decl.scope scope ∨ ∃ i ∈ decl.usings, ∃ u, s.usings[i]? = some u ∧ scope = some u.name.name)

variable {c : Compilation} {s : Skeleton} {decl : TypeDecl} {base : NameRef}

theorem sees_iff_asks (hlocal : base.isGlobal = false) {name : String} :
    c.Sees s decl name ↔ ∃ scope, Asks s decl base scope ∧ c.HasType scope name := by
  constructor
  · rintro (⟨scope, hscope, htype⟩ | ⟨i, hi, u, hu, htype⟩)
    · exact ⟨scope, .inr ⟨hlocal, .inl hscope⟩, htype⟩
    · exact ⟨_, .inr ⟨hlocal, .inr ⟨i, hi, u, hu, rfl⟩⟩, htype⟩
  · rintro ⟨scope, rfl | ⟨-, hscope | ⟨i, hi, u, hu, rfl⟩⟩, htype⟩
    · exact .inl ⟨none, trivial, htype⟩
    · exact .inl ⟨scope, hscope, htype⟩
    · exact .inr ⟨i, hi, u, hu, htype⟩

theorem asks_global_iff (hglobal : base.isGlobal = true) {scope : Option String} :
    Asks s decl base scope ↔ scope = none := by
  simp [Asks, hglobal]

theorem resolve_ne_unresolved_iff (hs : s ∈ c.skeletons) (hsimple : '.' ∉ base.name.toList)
    (hword : base.name ∉ builtinTypes) :
    c.symbols.resolve s decl base ≠ .unresolved ↔
      (∃ scope, Asks s decl base scope ∧ c.HasType scope base.name) ∨
        base.isGlobal = false ∧ HasNamesake s decl base.name := by
  cases hglobal : base.isGlobal with
  | true =>
      rw [ne_eq, resolve_global_eq_unresolved_iff hsimple hglobal, not_not, IsOutside, ← hasType_none]
      simp [asks_global_iff hglobal, hword]
  | false =>
      rw [ne_eq, resolve_simple_iff hs hsimple hglobal, ← sees_iff_asks hglobal]
      simp only [hword, not_false_eq_true, true_and, not_and_or, not_not]

variable (c)

/-- A type of the name is declared in the namespace, with just these types around it. -/
def Stands (scope : Option String) (outer : List String) (name : String) : Prop :=
  ∃ t ∈ c.trees, ∃ e ∈ t.nestings, e.1.scope = scope ∧ e.2 = outer ∧ e.1.name.name = name

def Exports (scope : Option String) (name : String) : Prop :=
  ∃ r ∈ c.references, ∃ ns ∈ r.namespaces, some ns.name = scope ∧ name ∈ ns.types

/-- A type that stands directly in a namespace is in one that is asked, or a type stands directly in one of those
around the declaration. -/
def Entitled (s : Skeleton) (d : TypeDecl × List String) (base : NameRef) : Prop :=
  (∃ scope, Asks s d.1 base scope ∧ (c.Stands scope [] base.name ∨ c.Exports scope base.name)) ∨
    ∃ outer, outer ≠ [] ∧ outer <:+ d.2 ∧ Asks s d.1 base d.1.scope ∧ c.Stands d.1.scope outer base.name

/-- A type stands in one that is not around the declaration. It is in a namespace that is asked, or in another
namespace of the same tree and in a type that is named like the one around the declaration. -/
def Strays (s : Skeleton) (d : TypeDecl × List String) (base : NameRef) : Prop :=
  (∃ scope outer, Asks s d.1 base scope ∧ c.Stands scope outer base.name ∧
      outer ≠ [] ∧ ¬ (scope = d.1.scope ∧ outer <:+ d.2)) ∨
    base.isGlobal = false ∧ HasNamesake s d.1 base.name

variable {c} {d : TypeDecl × List String}

theorem hasType_iff {scope : Option String} {name : String} :
    c.HasType scope name ↔ (∃ outer, c.Stands scope outer name) ∨ c.Exports scope name := by
  refine or_congr_left ?_
  constructor
  · rintro ⟨s, hs, decl, hdecl, hscope, hname⟩
    obtain ⟨t, ht, rfl⟩ := mem_skeletons_iff.1 hs
    rw [← t.map_nestings] at hdecl
    obtain ⟨e, he, rfl⟩ := List.mem_map.1 hdecl
    exact ⟨e.2, t, ht, e, he, hscope, rfl, hname⟩
  · rintro ⟨outer, t, ht, e, he, hscope, -, hname⟩
    refine ⟨t.skeleton, mem_skeletons_iff.2 ⟨t, ht, rfl⟩, e.1, ?_, hscope, hname⟩
    rw [← t.map_nestings]
    exact List.mem_map_of_mem he

theorem entitled_or_strays {scope : Option String} (hasks : Asks s d.1 base scope)
    (htype : c.HasType scope base.name) : c.Entitled s d base ∨ c.Strays s d base := by
  obtain ⟨outer, hstands⟩ | hexports := hasType_iff.1 htype
  -- nothing records which types are around one that is offered, so each place it may stand in is a case
  · by_cases hdirect : outer = []
    · subst hdirect
      exact .inl (.inl ⟨scope, hasks, .inl hstands⟩)
    · by_cases haround : scope = d.1.scope ∧ outer <:+ d.2
      · obtain ⟨rfl, hsuffix⟩ := haround
        exact .inl (.inr ⟨outer, hdirect, hsuffix, hasks, hstands⟩)
      · exact .inr (.inl ⟨scope, outer, hasks, hstands, hdirect, haround⟩)
  · exact .inl (.inl ⟨scope, hasks, .inr hexports⟩)

theorem Entitled.exists_hasType (h : c.Entitled s d base) :
    ∃ scope, Asks s d.1 base scope ∧ c.HasType scope base.name := by
  obtain ⟨scope, hasks, hstands | hexports⟩ | ⟨outer, -, -, hasks, hstands⟩ := h
  · exact ⟨scope, hasks, hasType_iff.2 (.inl ⟨[], hstands⟩)⟩
  · exact ⟨scope, hasks, hasType_iff.2 (.inr hexports)⟩
  · exact ⟨d.1.scope, hasks, hasType_iff.2 (.inl ⟨outer, hstands⟩)⟩

theorem resolve_nested_iff (hs : s ∈ c.skeletons) (hsimple : '.' ∉ base.name.toList)
    (hword : base.name ∉ builtinTypes) :
    c.symbols.resolve s d.1 base ≠ .unresolved ↔ c.Entitled s d base ∨ c.Strays s d base := by
  rw [resolve_ne_unresolved_iff hs hsimple hword]
  constructor
  · rintro (⟨scope, hasks, htype⟩ | hnamesake)
    · exact entitled_or_strays hasks htype
    · exact .inr (.inr hnamesake)
  · rintro (hentitled | ⟨scope, outer, hasks, hstands, -⟩ | hnamesake)
    · exact .inl hentitled.exists_hasType
    · exact .inl ⟨scope, hasks, hasType_iff.2 (.inl ⟨outer, hstands⟩)⟩
    · exact .inr hnamesake

theorem exists_enclosing {t : SourceTree} (hd : d ∈ t.nestings) {type : String} {outer : List String}
    (houter : d.2 = type :: outer) :
    ∃ e, (e, outer) ∈ t.nestings ∧ e.name.name = type ∧ e.scope = d.1.scope := by
  obtain ⟨before, after, hsplit⟩ := List.append_of_mem hd
  obtain ⟨e, he, hname, hscope⟩ := (Skeleton.nestings_rooted hsplit).2 type outer houter
  refine ⟨e, ?_, hname, hscope⟩
  rw [hsplit]
  exact List.mem_append_left _ he

/-- The names that are reported as not found are those of directives whose namespace is unknown and the bases
that are not resolved, each once and in order. A simple base that is no word of the language is resolved exactly
if the declaration is entitled to a type of that name or one strays. The types around a declaration are declared
in its tree and namespace, each inside those that follow. -/
theorem missing_nested_bases (c : Compilation) :
    (missing c.diagnostics = c.trees.flatMap fun t =>
      unknownNamespaces c.symbols t.path t.skeleton ++ t.nestings.flatMap fun d =>
        (d.1.bases.filter fun base => c.symbols.resolve t.skeleton d.1 base == .unresolved).map
          (notFound t.path)) ∧
    ∀ t ∈ c.trees, ∀ d ∈ t.nestings,
      (∀ type outer, d.2 = type :: outer →
        ∃ e, (e, outer) ∈ t.nestings ∧ e.name.name = type ∧ e.scope = d.1.scope) ∧
      ∀ base ∈ d.1.bases, '.' ∉ base.name.toList → base.name ∉ builtinTypes →
        (c.symbols.resolve t.skeleton d.1 base ≠ .unresolved ↔
          c.Entitled t.skeleton d base ∨ c.Strays t.skeleton d base) := by
  refine ⟨?_, fun t ht d hd => ⟨fun type outer => exists_enclosing hd, ?_⟩⟩
  · refine (missing_diagnostics c).trans (List.flatMap_congr fun t _ => ?_)
    rw [← t.map_nestings, List.flatMap_map]
    rfl
  · intro base _ hsimple hword
    exact resolve_nested_iff (mem_skeletons_iff.2 ⟨t, ht, rfl⟩) hsimple hword

/-- A base that is not reported, though the only type of its name stands in a type that is not around the
declaration. -/
theorem missing_nested_bases_beside :
    let t : SourceTree := ⟨none, "class A \x7b class I \x7b\x7d \x7d\nclass B : I \x7b\x7d"⟩
    let c := ofTrees "Test" [t] [] {}
    t.skeleton.errors = [] ∧
      ∃ d ∈ t.nestings, ∃ base ∈ d.1.bases,
        (base.name = "I" ∧ '.' ∉ base.name.toList ∧ base.name ∉ builtinTypes) ∧
        ¬ c.Entitled t.skeleton d base ∧ c.Strays t.skeleton d base ∧
        c.symbols.resolve t.skeleton d.1 base ≠ .unresolved ∧ missing c.diagnostics = [] := by
  intro t c
  have hread : Skeleton.ofText t.text = _ := Parser.ofText_iterate 8 (by decide +kernel)
  have hnestings : Skeleton.nestings (tokens t.text) = _ := Parser.nestings_iterate 8 (by decide +kernel)
  have hfound : ∃ d ∈ t.nestings, ∃ base ∈ d.1.bases,
      (base.name = "I" ∧ '.' ∉ base.name.toList ∧ base.name ∉ builtinTypes) ∧
      d.2 = [] ∧ (∀ e ∈ t.nestings, e.2 = [] → e.1.name.name ≠ base.name) ∧
      ∃ e ∈ t.nestings, e.1.scope = none ∧ e.2 = ["A"] ∧ e.1.name.name = base.name := by
    simp only [SourceTree.nestings, hnestings]
    decide +kernel
  obtain ⟨d, hd, base, hbase, hbasic, hdirect, hothers, hinner⟩ := hfound
  have ht : t ∈ c.trees := List.mem_singleton_self t
  have hunentitled : ¬ c.Entitled t.skeleton d base := by
    rintro (⟨_, -, ⟨u, hu, e, he, -, houter, hname⟩ | ⟨r, hr, -⟩⟩ | ⟨outer, hne, hsuffix, -⟩)
    · obtain rfl := List.mem_singleton.1 hu
      exact hothers e he houter hname
    · cases hr
    · rw [hdirect] at hsuffix
      exact hne (List.suffix_nil.1 hsuffix)
  have hstrays : c.Strays t.skeleton d base := by
    refine .inl ⟨none, ["A"], .inl rfl, ⟨t, ht, hinner⟩, List.cons_ne_nil _ _, fun haround => ?_⟩
    rw [hdirect] at haround
    exact List.cons_ne_nil _ _ (List.suffix_nil.1 haround.2)
  obtain ⟨hmissing, hresolve⟩ := missing_nested_bases c
  have hfate := (hresolve t ht d hd).2 base hbase hbasic.2.1 hbasic.2.2
  refine ⟨?_, d, hd, base, hbase, hbasic, hunentitled, hstrays, hfate.2 (.inr hstrays), ?_⟩
  · rw [SourceTree.skeleton, hread]
    decide +kernel
  · rw [hmissing]
    simp only [symbols, c, ofTrees, List.map, List.flatMap_singleton, SourceTree.nestings, hnestings,
      SourceTree.skeleton, hread]
    decide +kernel

end Compilation

end GeneratorBench
