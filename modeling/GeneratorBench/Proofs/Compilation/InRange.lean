import GeneratorBench.Proofs.Compilation.Scoping
import GeneratorBench.Proofs.Compilation.Usage

/-!
Resolution by index. A base is looked for through directives that are given by their place, and a directive that
supplies it is marked at its place. `find?` and `marks?` fail on a place that is out of range; they never do.
-/

namespace GeneratorBench

def markAll (used : List Bool) (is : List Nat) : List Bool := is.foldl (fun used i => used.set i true) used

theorem length_markAll (used : List Bool) (is : List Nat) : (markAll used is).length = used.length := by
  induction is generalizing used with
  | nil => rfl
  | cons i is ih => exact (ih _).trans List.length_set

theorem markAll_append (used : List Bool) (is js : List Nat) :
    markAll used (is ++ js) = markAll (markAll used is) js := List.foldl_append

theorem markAll_flatMap {α : Type} (f : α → List Nat) (a : α) (as : List α) (used : List Bool) :
    markAll used ((a :: as).flatMap f) = markAll (markAll used (f a)) (as.flatMap f) := by
  rw [List.flatMap_cons, markAll_append]

theorem getElem?_markAll (used : List Bool) (is : List Nat) (i : Nat) :
    (markAll used is)[i]? = used[i]?.map fun b => b || is.contains i := by
  induction is generalizing used with
  | nil => simp [markAll]
  | cons j is ih =>
      have hnext : markAll used (j :: is) = markAll (used.set j true) is := rfl
      rw [hnext, ih, List.getElem?_set]
      by_cases hij : j = i
      · subst hij
        by_cases hj : j < used.length
        · simp [hj]
        · simp [hj]
      · simp [hij, Ne.symm hij]

theorem markAll_replicate (n : Nat) (is : List Nat) :
    markAll (List.replicate n false) is = (List.range n).map is.contains := by
  apply List.ext_getElem?
  intro i
  rw [getElem?_markAll, List.getElem?_map]
  by_cases hi : i < n
  · rw [List.getElem?_replicate_of_lt hi, List.getElem?_range hi]
    rfl
  · rw [List.getElem?_eq_none (by simpa using hi), List.getElem?_eq_none (by simpa using hi)]
    rfl

namespace Symbols

variable (y : Symbols) (s : Skeleton)

def imports (decl : TypeDecl) (base : NameRef) : List Nat :=
  match y.resolve s decl base with
  | .imported usings => usings
  | _ => []

variable {y s} {decl : TypeDecl} {base : NameRef} {used : List Bool}

theorem usedUsings_eq : y.usedUsings s = s.types.flatMap fun decl => decl.bases.flatMap (y.imports s decl) := rfl

theorem ask?_eq {is : List Nat} (his : ∀ i ∈ is, i < s.usings.length) (hused : used.length = s.usings.length)
    (name : String) (found : Bool) :
    let suppliers := is.filter fun i => s.usings[i]?.any fun u => y.typeExists (some u.name.name) name
    y.ask? s name is (found, used) = some (found || !suppliers.isEmpty, markAll used suppliers) := by
  intro suppliers
  induction is generalizing found used with
  | nil => simp [ask?, suppliers, markAll]
  | cons i is ih =>
      obtain ⟨hi, his⟩ := List.forall_mem_cons.1 his
      have hread : s.usings[i]? = some s.usings[i] := List.getElem?_eq_getElem hi
      by_cases hsupplies : y.typeExists (some s.usings[i].name.name) name = true
      · have hlength : (used.set i true).length = s.usings.length := List.length_set.trans hused
        have hmarked := ih his hlength true
        simp only [ask?, hread, hsupplies, if_true, if_pos (hused ▸ hi), hmarked]
        simp [suppliers, hread, hsupplies, markAll]
      · have hskipped := ih his hused found
        simp only [ask?, hread, hsupplies, hskipped]
        simp [suppliers, hread, hsupplies]

/-- A base is looked for in range if the directives in scope are, and with the same result. -/
theorem find?_eq (hdecl : ∀ i ∈ decl.usings, i < s.usings.length) (hused : used.length = s.usings.length) :
    y.find? s decl base used =
      some (y.resolve s decl base != .unresolved, markAll used (y.imports s decl base)) := by
  rw [find?, imports, resolve]
  by_cases hbuiltin : builtinTypes.contains base.name = true
  · simp only [hbuiltin, if_true]
    rfl
  cases hplain : splitLast? base.name with
  | some p =>
      simp only [hbuiltin]
      cases y.typeExists (some p.1) p.2 with
      | false => rfl
      | true => rfl
  | none =>
      by_cases hglobal : base.isGlobal = true
      · simp only [hbuiltin, hglobal, if_true]
        cases y.typeExists none base.name with
        | false => rfl
        | true => rfl
      by_cases hbeside : isSibling s decl base.name = true
      · simp only [hbuiltin, hglobal, hbeside, if_true]
        rfl
      by_cases haround : ((scopesFrom decl.scope).any fun scope => y.typeExists scope base.name) = true
      · simp only [hbuiltin, hglobal, hbeside, haround, if_true]
        rfl
      simp only [hbuiltin, hglobal, hbeside, haround, ask?_eq hdecl hused]
      change some (_ || !(y.suppliers s decl base.name).isEmpty, markAll used (y.suppliers s decl base.name)) = _
      cases y.suppliers s decl base.name with
      | nil => rfl
      | cons i is => rfl

theorem foldlM_find? {bases : List NameRef} (hdecl : ∀ i ∈ decl.usings, i < s.usings.length)
    (hused : used.length = s.usings.length) :
    bases.foldlM (fun used base => (y.find? s decl base used).map (·.2)) used =
      some (markAll used (bases.flatMap (y.imports s decl))) := by
  induction bases generalizing used with
  | nil => rfl
  | cons base bases ih =>
      rw [List.foldlM_cons, find?_eq hdecl hused, markAll_flatMap]
      exact ih ((length_markAll _ _).trans hused)

theorem foldlM_foldlM_find? {decls : List TypeDecl}
    (hdecls : ∀ decl ∈ decls, ∀ i ∈ decl.usings, i < s.usings.length) (hused : used.length = s.usings.length) :
    decls.foldlM
        (fun used decl => decl.bases.foldlM (fun used base => (y.find? s decl base used).map (·.2)) used) used =
      some (markAll used (decls.flatMap fun decl => decl.bases.flatMap (y.imports s decl))) := by
  induction decls generalizing used with
  | nil => rfl
  | cons decl decls ih =>
      obtain ⟨hdecl, hdecls⟩ := List.forall_mem_cons.1 hdecls
      rw [List.foldlM_cons, foldlM_find? hdecl hused, markAll_flatMap]
      exact ih hdecls ((length_markAll _ _).trans hused)

theorem marks?_eq (h : s.WellScoped) :
    y.marks? s = some ((List.range s.usings.length).map (y.usedUsings s).contains) := by
  have hdecls : ∀ decl ∈ s.types, ∀ i ∈ decl.usings, i < s.usings.length := by
    intro decl hdecl i hi
    obtain ⟨hlt, -⟩ := h.inScope decl hdecl i hi
    exact hlt
  rw [marks?, foldlM_foldlM_find? hdecls List.length_replicate, markAll_replicate, usedUsings_eq]

end Symbols

namespace Compilation

/-- The directives in scope of a declaration are there, in order, and stand in its namespace or around it, whatever
the text. So every directive and every mark is looked up in range, and resolution comes to what it does without
marks. -/
theorem lookups_inRange :
    (∀ text, (Skeleton.ofText text).WellScoped) ∧
    ∀ c : Compilation, ∀ t ∈ c.trees,
      c.symbols.marks? t.skeleton =
        some ((List.range t.skeleton.usings.length).map (c.symbols.usedUsings t.skeleton).contains) ∧
      ∀ decl ∈ t.skeleton.types, ∀ base ∈ decl.bases, ∀ used : List Bool, used.length = t.skeleton.usings.length →
        c.symbols.find? t.skeleton decl base used =
          some (c.symbols.resolve t.skeleton decl base != .unresolved,
            markAll used (c.symbols.imports t.skeleton decl base)) := by
  refine ⟨Skeleton.wellScoped_ofText, fun c t _ => ⟨?_, ?_⟩⟩
  · exact Symbols.marks?_eq (Skeleton.wellScoped_ofText t.text)
  · intro decl hdecl base _ used hused
    refine Symbols.find?_eq (fun i hi => ?_) hused
    obtain ⟨hlt, -⟩ := (Skeleton.wellScoped_ofText t.text).inScope decl hdecl i hi
    exact hlt

/-- A declaration that sees a directive of its namespace and one from outside, of which it needs the latter. -/
theorem lookups_inRange_nested :
    let t : SourceTree :=
      ⟨none, "using A;\nnamespace N \x7b using B; class D : X \x7b\x7d \x7d\nnamespace A \x7b class X \x7b\x7d \x7d"⟩
    let c := ofTrees "T" [t] [] {}
    c.symbols.marks? t.skeleton = some [true, false] ∧
      ∃ decl ∈ t.skeleton.types, ∃ base ∈ decl.bases,
        (decl.scope = some "N" ∧ decl.usings = [0, 1] ∧ t.skeleton.usings.length = 2) ∧
        (∀ i ∈ decl.usings, InScope t.skeleton.usings decl.scope i) ∧
        c.symbols.find? t.skeleton decl base [false, false] = some (true, [true, false]) := by
  intro t c
  have hread : Skeleton.ofText t.text = _ := Parser.ofText_iterate 12 (by decide +kernel)
  have hfound : t.skeleton.usings.length = 2 ∧ c.symbols.usedUsings t.skeleton = [0] ∧
      ∃ decl ∈ t.skeleton.types, ∃ base ∈ decl.bases, decl.scope = some "N" ∧ decl.usings = [0, 1] ∧
        c.symbols.resolve t.skeleton decl base = .imported [0] := by
    simp only [symbols, c, ofTrees, List.map, SourceTree.skeleton, hread]
    decide +kernel
  obtain ⟨hcount, hused, decl, hdecl, base, hbase, hscope, husings, hresolve⟩ := hfound
  obtain ⟨hscoped, hlookups⟩ := lookups_inRange
  obtain ⟨hmarks, hfind⟩ := hlookups c t (List.mem_singleton_self t)
  refine ⟨?_, decl, hdecl, base, hbase, ⟨hscope, husings, hcount⟩, (hscoped t.text).inScope decl hdecl, ?_⟩
  · rw [hmarks, hcount, hused]
    rfl
  · rw [hfind decl hdecl base hbase [false, false] hcount.symm, Symbols.imports, hresolve]
    rfl

end Compilation

end GeneratorBench
