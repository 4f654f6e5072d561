import GeneratorBench.Proofs.Compilation.Order
import GeneratorBench.Proofs.Syntax.Steps

/-!
Which types a declaration can name. A simple name is looked for in the namespace of the declaration, in those
around it, in the global one and in those of the directives in scope. It is also taken for a type in another
namespace if that stands in a type of the same tree that is named like the one around the declaration.
-/

namespace GeneratorBench

theorem splitLast?_eq_none_iff (name : String) : splitLast? name = none ↔ '.' ∉ name.toList := by
  have hlength : (Text.splitAt '.' name).length = name.toList.countP (· == '.') + 1 := by
    rw [Text.splitAt, List.length_map, Text.length_fields]
  have hone : splitLast? name = none ↔ (Text.splitAt '.' name).length ≤ 1 := by
    rw [splitLast?, ← List.length_reverse]
    rcases (Text.splitAt '.' name).reverse with _ | ⟨last, _ | ⟨outer, segments⟩⟩
    · simp
    · simp
    · simp
  have hcount : name.toList.countP (· == '.') + 1 ≤ 1 ↔ name.toList.count '.' = 0 := by
    rw [List.count]
    omega
  rw [hone, hlength, hcount, List.count_eq_zero]

theorem mem_enclosing_iff {outer : String} {segments : List String} :
    outer ∈ enclosing segments ↔
      ∃ p, p <:+ segments ∧ p ≠ [] ∧ outer = ".".intercalate p.reverse := by
  induction segments with
  | nil =>
      constructor
      · intro h
        cases h
      · rintro ⟨p, hp, hne, -⟩
        exact absurd (List.suffix_nil.1 hp) hne
  | cons s segments ih =>
      rw [enclosing, List.mem_cons, ih]
      constructor
      · rintro (rfl | ⟨p, hp, hne, rfl⟩)
        · exact ⟨_, List.suffix_refl _, List.cons_ne_nil _ _, rfl⟩
        · exact ⟨p, hp.trans (List.suffix_cons _ _), hne, rfl⟩
      · rintro ⟨p, hp, hne, rfl⟩
        obtain rfl | hp := List.suffix_cons_iff.1 hp
        · exact .inl rfl
        · exact .inr ⟨p, hp, hne, rfl⟩

/-- The namespace itself, what is left of it before a dot, or the global namespace. -/
def Around (scope : Option String) : Option String → Prop
  | none => True
  | some outer => ∃ name, scope = some name ∧ (outer = name ∨ ∃ tail, name = outer ++ "." ++ tail)

theorem mem_scopesFrom_iff {scope outer : Option String} : outer ∈ scopesFrom scope ↔ Around scope outer := by
  cases outer with
  | none => simp [scopesFrom, Around]
  | some outer =>
      cases scope with
      | none => simp [scopesFrom, Around]
      | some name =>
          have hmem : some outer ∈ scopesFrom (some name) ↔
              outer ∈ enclosing (Text.splitAt '.' name).reverse := by
            simp [scopesFrom]
          have hname : ".".intercalate (Text.splitAt '.' name) = name := Text.intercalate_splitAt '.' name
          rw [hmem, mem_enclosing_iff]
          constructor
          · rintro ⟨p, ⟨q, hq⟩, hne, rfl⟩
            have hsplit : Text.splitAt '.' name = p.reverse ++ q.reverse := by
              rw [← List.reverse_append, hq, List.reverse_reverse]
            refine ⟨name, rfl, ?_⟩
            rw [hsplit] at hname
            cases q with
            | nil => exact .inl (by simpa using hname)
            | cons s q =>
                refine .inr ⟨".".intercalate (s :: q).reverse, ?_⟩
                rw [← hname]
                exact String.intercalate_append_of_ne_nil (by simpa using hne) (by simp)
          · rintro ⟨_, ⟨rfl⟩, rfl | ⟨tail, rfl⟩⟩
            · refine ⟨_, List.suffix_refl _, ?_, ?_⟩
              · simpa using Text.splitAt_ne_nil '.' outer
              · rw [List.reverse_reverse, hname]
            · refine ⟨(Text.splitAt '.' outer).reverse, ?_, ?_, ?_⟩
              · rw [Text.splitAt_append, List.reverse_append]
                exact List.suffix_append _ _
              · simpa using Text.splitAt_ne_nil '.' outer
              · rw [List.reverse_reverse]
                exact (Text.intercalate_splitAt '.' outer).symm

theorem around_self (scope : Option String) : Around scope scope := by
  cases scope with
  | none => trivial
  | some name => exact ⟨name, rfl, .inl rfl⟩

namespace Compilation

variable (c : Compilation) (s : Skeleton) (decl : TypeDecl) (name : String)

/-- Some tree declares the type in the namespace, or some reference exports it from there. -/
def HasType (scope : Option String) (name : String) : Prop :=
  (∃ s ∈ c.skeletons, ∃ decl ∈ s.types, decl.scope = scope ∧ decl.name.name = name) ∨
    ∃ r ∈ c.references, ∃ ns ∈ r.namespaces, some ns.name = scope ∧ name ∈ ns.types

/-- The type is in the namespace of the declaration, in one around it, in the global one, or in that of a
directive in scope. -/
def Sees : Prop :=
  (∃ scope, Around decl.scope scope ∧ c.HasType scope name) ∨
    ∃ i ∈ decl.usings, ∃ u, s.usings[i]? = some u ∧ c.HasType (some u.name.name) name

/-- A type of another namespace stands in a type that has the simple name of the one around the
declaration. -/
def HasNamesake : Prop :=
  decl.container ≠ none ∧
    ∃ t ∈ s.types, t.container = decl.container ∧ t.scope ≠ decl.scope ∧ t.name.name = name

variable {c s decl name}

theorem typeExists_symbols {scope : Option String} :
    c.symbols.typeExists scope name = true ↔ c.HasType scope name := by
  have hsource : (scope, name) ∈ c.symbols.types ↔
      ∃ s ∈ c.skeletons, ∃ decl ∈ s.types, decl.scope = scope ∧ decl.name.name = name := by
    simp [symbols, Symbols.ofSkeletons]
  have hexported : (scope.any fun ns => c.references.any (·.exportsType ns name)) = true ↔
      ∃ r ∈ c.references, ∃ ns ∈ r.namespaces, some ns.name = scope ∧ name ∈ ns.types := by
    cases scope with
    | none => simp
    | some scope => simp [Reference.exportsType]
  rw [Symbols.typeExists, Bool.or_eq_true, List.contains_iff_mem, hsource, HasType, ← hexported]
  rfl

theorem sees_iff :
    c.Sees s decl name ↔ (∃ scope ∈ scopesFrom decl.scope, c.symbols.typeExists scope name = true) ∨
      c.symbols.suppliers s decl name ≠ [] := by
  have hsuppliers : c.symbols.suppliers s decl name ≠ [] ↔
      ∃ i ∈ decl.usings, ∃ u, s.usings[i]? = some u ∧ c.HasType (some u.name.name) name := by
    simp only [Symbols.suppliers, ne_eq, List.filter_eq_nil_iff, Option.any_eq_true, typeExists_symbols]
    push Not
    rfl
  rw [Sees, hsuppliers]
  simp only [mem_scopesFrom_iff, typeExists_symbols]

/-- A type that stands beside the declaration is one of its own namespace, or is only named like one. -/
theorem isSibling_iff :
    Symbols.isSibling s decl name = true ↔ HasNamesake s decl name ∨
      decl.container ≠ none ∧
        ∃ t ∈ s.types, t.container = decl.container ∧ t.scope = decl.scope ∧ t.name.name = name := by
  have hsibling : Symbols.isSibling s decl name = true ↔
      decl.container ≠ none ∧ ∃ t ∈ s.types, t.container = decl.container ∧ t.name.name = name := by
    simp [Symbols.isSibling, Option.isSome_iff_ne_none]
  rw [hsibling]
  constructor
  · rintro ⟨hnested, t, ht, hcontainer, hname⟩
    by_cases hscope : t.scope = decl.scope
    · exact .inr ⟨hnested, t, ht, hcontainer, hscope, hname⟩
    · exact .inl ⟨hnested, t, ht, hcontainer, hscope, hname⟩
  · rintro (⟨hnested, t, ht, hcontainer, -, hname⟩ | ⟨hnested, t, ht, hcontainer, -, hname⟩)
    · exact ⟨hnested, t, ht, hcontainer, hname⟩
    · exact ⟨hnested, t, ht, hcontainer, hname⟩

theorem resolve_simple_iff (hs : s ∈ c.skeletons) {base : NameRef} (hsimple : '.' ∉ base.name.toList)
    (hlocal : base.isGlobal = false) :
    c.symbols.resolve s decl base = .unresolved ↔
      base.name ∉ builtinTypes ∧ ¬ c.Sees s decl base.name ∧ ¬ HasNamesake s decl base.name := by
  by_cases hbuiltin : base.name ∈ builtinTypes
  · have hknown : c.symbols.resolve s decl base = .known := by
      rw [Symbols.resolve, if_pos (List.contains_iff_mem.2 hbuiltin)]
    rw [hknown]
    simp [hbuiltin]
  · have hplain := (splitLast?_eq_none_iff base.name).2 hsimple
    have hunseen : ¬ c.Sees s decl base.name ↔
        (∀ scope ∈ scopesFrom decl.scope, c.symbols.typeExists scope base.name = false) ∧
          c.symbols.suppliers s decl base.name = [] := by
      rw [sees_iff, not_or, not_not]
      simp
    rw [Symbols.resolve_plain_eq_unresolved (by simpa using hbuiltin) hplain hlocal, ← hunseen,
      ← Bool.not_eq_true, isSibling_iff, not_or]
    constructor
    · rintro ⟨⟨hnamesake, -⟩, hunseen⟩
      exact ⟨hbuiltin, hunseen, hnamesake⟩
    · rintro ⟨-, hunseen, hnamesake⟩
      refine ⟨⟨hnamesake, ?_⟩, hunseen⟩
      -- what stands beside the declaration in its own namespace is seen there
      rintro ⟨-, t, ht, -, hscope, hname⟩
      exact hunseen (.inl ⟨decl.scope, around_self _, .inl ⟨s, hs, t, ht, hscope, hname⟩⟩)

def missing (ds : List Diagnostic) : List Diagnostic := ds.filter (·.id == "CS0246")

variable {y : Symbols} {path : Option String}

theorem missing_others (ds : List Diagnostic) : missing (others ds) = missing ds := by
  rw [missing, missing, others, List.filter_filter]
  refine List.filter_congr fun d _ => ?_
  by_cases h : d.id = "CS0246"
  · simp [h, isRedeclaration]
  · simp [h]

theorem missing_declDiagnostics (earlier decls : List TypeDecl) :
    missing (declDiagnostics y path s earlier decls) = decls.flatMap (unresolvedBases y path s) := by
  rw [← missing_others, others_declDiagnostics]
  refine List.filter_eq_self.2 fun d hd => ?_
  obtain ⟨decl, -, hd⟩ := List.mem_flatMap.1 hd
  obtain ⟨base, -, rfl⟩ := List.mem_map.1 hd
  rfl

theorem missing_treeDiagnostics (earlier : List TypeDecl) :
    missing (treeDiagnostics y path s earlier) =
      unknownNamespaces y path s ++ s.types.flatMap (unresolvedBases y path s) := by
  rw [missing, filter_id_treeDiagnostics (by decide), if_pos rfl, if_neg (by decide), List.append_nil]
  exact congrArg _ (missing_declDiagnostics earlier s.types)

theorem missing_diagnostics (c : Compilation) :
    missing c.diagnostics = c.trees.flatMap fun t =>
      unknownNamespaces c.symbols t.path t.skeleton ++
        t.skeleton.types.flatMap (unresolvedBases c.symbols t.path t.skeleton) := by
  rw [missing, filter_id_diagnostics, if_neg (by decide), List.append_nil, reports,
    filter_reportsFrom fun _ _ => missing_treeDiagnostics, located_eq, List.flatMap_map]

/-- The names that are reported as not found are those of directives whose namespace is unknown and the bases
that are not resolved, each once and in order. A simple base is resolved exactly if it is a word of the
language, or the declaration sees a type of that name, or one stands in a namesake of the type around the
declaration. -/
theorem missing_bases (c : Compilation) :
    (missing c.diagnostics = c.trees.flatMap fun t =>
      unknownNamespaces c.symbols t.path t.skeleton ++ t.skeleton.types.flatMap fun decl =>
        (decl.bases.filter fun base => c.symbols.resolve t.skeleton decl base == .unresolved).map
          (notFound t.path)) ∧
    ∀ t ∈ c.trees, ∀ decl ∈ t.skeleton.types, ∀ base ∈ decl.bases,
      '.' ∉ base.name.toList → base.isGlobal = false →
        (c.symbols.resolve t.skeleton decl base = .unresolved ↔
          base.name ∉ builtinTypes ∧ ¬ c.Sees t.skeleton decl base.name ∧
            ¬ HasNamesake t.skeleton decl base.name) := by
  constructor
  · exact missing_diagnostics c
  · intro t ht decl _ base _ hsimple hlocal
    have hs : t.skeleton ∈ c.skeletons := by
      rw [c.skeletons_eq]
      exact List.mem_map_of_mem ht
    exact resolve_simple_iff hs hsimple hlocal

/-- A base that is not reported, though the only type of its name stands in a namespace that is neither around
the declaration nor imported: both stand in types that are named alike. -/
theorem missing_bases_namesake :
    let text := "namespace A \x7b class O \x7b class I \x7b\x7d \x7d \x7d\nnamespace B \x7b class O \x7b class D : I \x7b\x7d \x7d \x7d"
    let t : SourceTree := ⟨none, text⟩
    let c := ofTrees "Test" [t] [] {}
    ∃ decl ∈ t.skeleton.types, ∃ base ∈ decl.bases,
      (base.name = "I" ∧ '.' ∉ base.name.toList ∧ base.isGlobal = false ∧ base.name ∉ builtinTypes) ∧
      (¬ c.Sees t.skeleton decl base.name ∧ HasNamesake t.skeleton decl base.name) ∧
      c.symbols.resolve t.skeleton decl base ≠ .unresolved ∧ missing c.diagnostics = [] := by
  intro text t c
  have hread : Skeleton.ofText text = _ := Parser.ofText_iterate 12 (by decide +kernel)
  have hfound : ∃ decl ∈ t.skeleton.types, ∃ base ∈ decl.bases,
      (base.name = "I" ∧ '.' ∉ base.name.toList ∧ base.isGlobal = false ∧ base.name ∉ builtinTypes) ∧
      ¬ c.Sees t.skeleton decl base.name ∧ HasNamesake t.skeleton decl base.name := by
    simp only [sees_iff, HasNamesake, symbols, c, t, ofTrees, List.map, SourceTree.skeleton, hread]
    decide +kernel
  obtain ⟨decl, hdecl, base, hbase, hbasic, hunseen, hnamesake⟩ := hfound
  obtain ⟨hmissing, hresolve⟩ := missing_bases c
  have ht : t ∈ c.trees := List.mem_singleton_self t
  refine ⟨decl, hdecl, base, hbase, hbasic, ⟨hunseen, hnamesake⟩, fun hlost => ?_, ?_⟩
  · exact ((hresolve t ht decl hdecl base hbase hbasic.2.1 hbasic.2.2.1).1 hlost).2.2 hnamesake
  · rw [hmissing]
    simp only [symbols, c, t, ofTrees, List.map, List.flatMap_singleton, SourceTree.skeleton, hread]
    decide +kernel

end Compilation

end GeneratorBench
