import GeneratorBench.Proofs.Compilation.Visibility

/-!
Directives without use. The directives in scope are asked for a base that is found neither beside the declaration
nor around it; what supplies no type to any base can be taken away, and all such directives at once.
-/

namespace GeneratorBench

def TypeDecl.withoutUsings (gone : List Nat) (decl : TypeDecl) : TypeDecl :=
  { decl with usings := decl.usings.filter fun i => !gone.contains i }

/-- The skeleton with some directives taken out of the scope of all its declarations. -/
def Skeleton.withoutUsings (gone : List Nat) (s : Skeleton) : Skeleton :=
  { s with types := s.types.map (·.withoutUsings gone) }

namespace Symbols

/-- The base is found nowhere nearer by than in the namespaces of directives. -/
structure Asks (y : Symbols) (s : Skeleton) (decl : TypeDecl) (base : NameRef) : Prop where
  builtin : builtinTypes.contains base.name = false
  plain : splitLast? base.name = none
  isGlobal : base.isGlobal = false
  isSibling : isSibling s decl base.name = false
  scopes : ((scopesFrom decl.scope).any fun scope => y.typeExists scope base.name) = false

/-- The directives, each with its place, that supply no type though their namespace exists. -/
def unnecessary (y : Symbols) (s : Skeleton) : List (UsingDirective × Nat) :=
  s.usings.zipIdx.filter fun (u, i) => !(y.usedUsings s).contains i && y.namespaceExists u.name.name

variable {y : Symbols} {s : Skeleton} {decl : TypeDecl} {base : NameRef} {i : Nat}

theorem resolve_of_asks (h : y.Asks s decl base) :
    y.resolve s decl base = if y.suppliers s decl base.name = [] then .unresolved
      else .imported (y.suppliers s decl base.name) := by
  simp only [resolve, h.builtin, h.plain, h.isGlobal, h.isSibling, h.scopes, Bool.false_eq_true, if_false]
  cases y.suppliers s decl base.name with
  | nil => rfl
  | cons i usings => rfl

theorem resolve_of_not_asks (h : ¬ y.Asks s decl base) {s' : Skeleton} {decl' : TypeDecl}
    (hsibling : isSibling s' decl' base.name = isSibling s decl base.name) (hscope : decl'.scope = decl.scope) :
    y.resolve s' decl' base = y.resolve s decl base ∧ ∀ usings, y.resolve s decl base ≠ .imported usings := by
  have known {found : Bool} (usings : List Nat) :
      (if found then Resolution.known else .unresolved) ≠ .imported usings := by
    cases found with
    | true => exact Resolution.noConfusion
    | false => exact Resolution.noConfusion
  simp only [resolve, hsibling, hscope]
  by_cases hbuiltin : builtinTypes.contains base.name = true
  · simp only [hbuiltin, if_true]
    exact ⟨trivial, fun _ => Resolution.noConfusion⟩
  cases hplain : splitLast? base.name with
  | some p =>
      simp only [hbuiltin]
      exact ⟨trivial, known⟩
  | none =>
      by_cases hglobal : base.isGlobal = true
      · simp only [hbuiltin, hglobal, if_true]
        exact ⟨trivial, known⟩
      by_cases hbeside : isSibling s decl base.name = true
      · simp only [hbuiltin, hglobal, hbeside, if_true]
        exact ⟨trivial, fun _ => Resolution.noConfusion⟩
      by_cases haround : ((scopesFrom decl.scope).any fun scope => y.typeExists scope base.name) = true
      · simp only [hbuiltin, hglobal, hbeside, haround, if_true]
        exact ⟨trivial, fun _ => Resolution.noConfusion⟩
      simp only [Bool.not_eq_true] at hbuiltin hglobal hbeside haround
      exact absurd ⟨hbuiltin, hplain, hglobal, hbeside, haround⟩ h

theorem resolve_eq_imported_iff {usings : List Nat} :
    y.resolve s decl base = .imported usings ↔
      y.Asks s decl base ∧ y.suppliers s decl base.name = usings ∧ usings ≠ [] := by
  by_cases h : y.Asks s decl base
  · rw [resolve_of_asks h, and_iff_right h]
    by_cases hnone : y.suppliers s decl base.name = []
    · rw [if_pos hnone, hnone]
      exact ⟨Resolution.noConfusion, fun ⟨heq, hne⟩ => absurd heq.symm hne⟩
    · rw [if_neg hnone, Resolution.imported.injEq]
      exact ⟨fun heq => ⟨heq, heq ▸ hnone⟩, fun heq => heq.1⟩
  · have hother := (resolve_of_not_asks h rfl rfl).2 usings
    exact ⟨fun himported => absurd himported hother, fun hasks => absurd hasks.1 h⟩

theorem mem_usedUsings_iff :
    i ∈ y.usedUsings s ↔
      ∃ decl ∈ s.types, ∃ base ∈ decl.bases, y.Asks s decl base ∧ i ∈ y.suppliers s decl base.name := by
  simp only [usedUsings, List.mem_flatMap]
  refine exists_congr fun decl => and_congr_right fun _ => exists_congr fun base => and_congr_right fun _ => ?_
  constructor
  · intro hi
    cases hresolve : y.resolve s decl base with
    | imported usings =>
        rw [hresolve] at hi
        obtain ⟨hasks, rfl, -⟩ := resolve_eq_imported_iff.1 hresolve
        exact ⟨hasks, hi⟩
    | known | unresolved =>
        rw [hresolve] at hi
        cases hi
  · rintro ⟨hasks, hi⟩
    rw [resolve_eq_imported_iff.2 ⟨hasks, rfl, List.ne_nil_of_mem hi⟩]
    exact hi

theorem isSibling_withoutUsings (gone : List Nat) (s : Skeleton) (decl : TypeDecl) (name : String) :
    isSibling (s.withoutUsings gone) (decl.withoutUsings gone) name = isSibling s decl name := by
  simp only [isSibling, Skeleton.withoutUsings, List.any_map]
  rfl

theorem suppliers_withoutUsings (gone : List Nat) (name : String) :
    y.suppliers (s.withoutUsings gone) (decl.withoutUsings gone) name =
      (y.suppliers s decl name).filter fun i => !gone.contains i := by
  simp only [suppliers, Skeleton.withoutUsings, TypeDecl.withoutUsings, List.filter_filter, Bool.and_comm]

theorem resolve_withoutUsings {gone : List Nat} (h : ∀ i ∈ gone, i ∉ y.usedUsings s) (hdecl : decl ∈ s.types)
    (hbase : base ∈ decl.bases) :
    y.resolve (s.withoutUsings gone) (decl.withoutUsings gone) base = y.resolve s decl base := by
  have hsibling := isSibling_withoutUsings gone s decl base.name
  by_cases hasks : y.Asks s decl base
  · have hasks' : y.Asks (s.withoutUsings gone) (decl.withoutUsings gone) base :=
      ⟨hasks.builtin, hasks.plain, hasks.isGlobal, hsibling.trans hasks.isSibling, hasks.scopes⟩
    have hkept : (y.suppliers s decl base.name).filter (fun i => !gone.contains i) =
        y.suppliers s decl base.name := by
      refine List.filter_eq_self.2 fun i hi => ?_
      have hused : i ∈ y.usedUsings s := mem_usedUsings_iff.2 ⟨decl, hdecl, base, hbase, hasks, hi⟩
      simpa using fun hgone => h i hgone hused
    rw [resolve_of_asks hasks, resolve_of_asks hasks', suppliers_withoutUsings, hkept]
  · exact (resolve_of_not_asks hasks hsibling rfl).1

end Symbols

namespace Compilation

/-- A base that is no word of the language and no qualified name, and that no type beside the declaration or in a
namespace around it has for its name. -/
structure ReachesUsings (c : Compilation) (s : Skeleton) (decl : TypeDecl) (base : NameRef) : Prop where
  builtin : base.name ∉ builtinTypes
  simple : '.' ∉ base.name.toList
  isGlobal : base.isGlobal = false
  beside : decl.container ≠ none → ∀ t ∈ s.types, t.container = decl.container → t.name.name ≠ base.name
  around : ∀ scope, Around decl.scope scope → ¬ c.HasType scope base.name

/-- The directive is in scope of a declaration one of whose bases is looked for through directives, and its
namespace has a type of that name. -/
def Supplies (c : Compilation) (s : Skeleton) (p : UsingDirective × Nat) : Prop :=
  ∃ decl ∈ s.types, ∃ base ∈ decl.bases,
    c.ReachesUsings s decl base ∧ p.2 ∈ decl.usings ∧ c.HasType (some p.1.name.name) base.name

variable {c : Compilation} {s : Skeleton} {decl : TypeDecl} {base : NameRef} {p : UsingDirective × Nat}

theorem asks_symbols : c.symbols.Asks s decl base ↔ c.ReachesUsings s decl base := by
  have hbeside : Symbols.isSibling s decl base.name = false ↔
      (decl.container ≠ none → ∀ t ∈ s.types, t.container = decl.container → t.name.name ≠ base.name) := by
    rw [← Option.isSome_iff_ne_none]
    simp [Symbols.isSibling]
  have haround : ((scopesFrom decl.scope).any fun scope => c.symbols.typeExists scope base.name) = false ↔
      ∀ scope, Around decl.scope scope → ¬ c.HasType scope base.name := by
    simp only [List.any_eq_false, mem_scopesFrom_iff, typeExists_symbols]
  constructor
  · intro h
    exact ⟨by simpa using h.builtin, (splitLast?_eq_none_iff _).1 h.plain, h.isGlobal, hbeside.1 h.isSibling,
      haround.1 h.scopes⟩
  · intro h
    exact ⟨by simpa using h.builtin, (splitLast?_eq_none_iff _).2 h.simple, h.isGlobal, hbeside.2 h.beside,
      haround.2 h.around⟩

theorem supplies_iff (hp : p ∈ s.usings.zipIdx) : p.2 ∈ c.symbols.usedUsings s ↔ c.Supplies s p := by
  have hsuppliers (decl : TypeDecl) (name : String) : p.2 ∈ c.symbols.suppliers s decl name ↔
      p.2 ∈ decl.usings ∧ c.HasType (some p.1.name.name) name := by
    rw [Symbols.suppliers, List.mem_filter, List.mem_zipIdx_iff_getElem?.1 hp, Option.any_some, typeExists_symbols]
  simp only [Symbols.mem_usedUsings_iff, asks_symbols, hsuppliers]
  rfl

def unneeded (ds : List Diagnostic) : List Diagnostic := ds.filter (·.id == "CS8019")

variable {y : Symbols} {path : Option String}

theorem unneeded_treeDiagnostics (earlier : List TypeDecl) :
    unneeded (treeDiagnostics y path s earlier) = (y.unnecessary s).map fun p => unnecessaryUsing path p.1 := by
  rw [unneeded, filter_id_treeDiagnostics (by decide), if_neg (by decide), if_pos rfl,
    filter_id_declDiagnostics (by decide) (by decide)]
  rfl

theorem unneeded_diagnostics (c : Compilation) :
    unneeded c.diagnostics = c.trees.flatMap fun t =>
      (c.symbols.unnecessary t.skeleton).map fun p => unnecessaryUsing t.path p.1 := by
  rw [unneeded, filter_id_diagnostics, if_neg (by decide), List.append_nil, reports,
    filter_reportsFrom fun _ _ => unneeded_treeDiagnostics, located_eq, List.flatMap_map]

/-- What is reported as unnecessary is so. Such directives of a tree, all of them if need be, can be taken out of
the scope of its declarations at once, and each base still means what it meant. A directive whose namespace exists
is reported exactly if it supplies no type to any base. -/
theorem unnecessary_removable (c : Compilation) :
    (unneeded c.diagnostics = c.trees.flatMap fun t =>
      (c.symbols.unnecessary t.skeleton).map fun p => unnecessaryUsing t.path p.1) ∧
    ∀ t ∈ c.trees,
      (∀ gone ⊆ (c.symbols.unnecessary t.skeleton).map (·.2),
        ∀ decl ∈ t.skeleton.types, ∀ base ∈ decl.bases,
          c.symbols.resolve (t.skeleton.withoutUsings gone) (decl.withoutUsings gone) base =
            c.symbols.resolve t.skeleton decl base) ∧
      ∀ p ∈ t.skeleton.usings.zipIdx, c.symbols.namespaceExists p.1.name.name = true →
        (p ∈ c.symbols.unnecessary t.skeleton ↔ ¬ c.Supplies t.skeleton p) := by
  refine ⟨unneeded_diagnostics c, fun t _ => ⟨?_, ?_⟩⟩
  · intro gone hgone decl hdecl base hbase
    refine Symbols.resolve_withoutUsings ?_ hdecl hbase
    intro i hi hused
    obtain ⟨p, hp, rfl⟩ := List.mem_map.1 (hgone hi)
    obtain ⟨-, hunused⟩ := List.mem_filter.1 hp
    simp [hused] at hunused
  · intro p hp hexists
    rw [← supplies_iff hp, Symbols.unnecessary, List.mem_filter, and_iff_right hp]
    simp [hexists]

/-- Two directives, one of them without use. -/
theorem unnecessary_removable_two :
    let t : SourceTree :=
      ⟨none, "using A;\nusing B;\nclass D : X \x7b\x7d\nnamespace A \x7b class X \x7b\x7d \x7d\nnamespace B \x7b\x7d"⟩
    let c := ofTrees "T" [t] [] {}
    (unneeded c.diagnostics).length = 1 ∧
      (∀ p ∈ t.skeleton.usings.zipIdx, c.Supplies t.skeleton p ↔ p.1.name.name = "A") ∧
      ∃ decl ∈ t.skeleton.types, ∃ base ∈ decl.bases, decl.usings = [0, 1] ∧
        c.symbols.resolve (t.skeleton.withoutUsings [1]) (decl.withoutUsings [1]) base = .imported [0] := by
  intro t c
  have hread : Skeleton.ofText t.text = _ := Parser.ofText_iterate 12 (by decide +kernel)
  have hgone : (c.symbols.unnecessary t.skeleton).map (·.2) = [1] := by
    simp only [symbols, c, ofTrees, List.map, SourceTree.skeleton, hread]
    decide +kernel
  have hdirectives : ∀ p ∈ t.skeleton.usings.zipIdx, c.symbols.namespaceExists p.1.name.name = true ∧
      (p ∈ c.symbols.unnecessary t.skeleton ↔ p.1.name.name ≠ "A") := by
    simp only [symbols, c, ofTrees, List.map, SourceTree.skeleton, hread]
    decide +kernel
  have hbases : ∃ decl ∈ t.skeleton.types, ∃ base ∈ decl.bases, decl.usings = [0, 1] ∧
      c.symbols.resolve t.skeleton decl base = .imported [0] := by
    simp only [symbols, c, ofTrees, List.map, SourceTree.skeleton, hread]
    decide +kernel
  obtain ⟨hdiagnostics, htrees⟩ := unnecessary_removable c
  obtain ⟨hkept, hreported⟩ := htrees t (List.mem_singleton_self t)
  obtain ⟨decl, hdecl, base, hbase, husings, hresolve⟩ := hbases
  have hsame := hkept [1] (hgone ▸ List.Subset.refl _) decl hdecl base hbase
  refine ⟨?_, fun p hp => ?_, decl, hdecl, base, hbase, husings, hsame.trans hresolve⟩
  · have hone := congrArg List.length hgone
    rw [List.length_map] at hone
    have htree : c.trees = [t] := rfl
    rw [hdiagnostics, htree, List.flatMap_singleton, List.length_map, hone]
    rfl
  · obtain ⟨hexists, hunnecessary⟩ := hdirectives p hp
    rw [hreported p hp hexists] at hunnecessary
    exact not_iff_not.1 hunnecessary

end Compilation

end GeneratorBench
