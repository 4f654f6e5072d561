import GeneratorBench.Proofs.Compilation.Groups

/-!
Duplicates of nested types. A declaration is told apart from others by its namespace and the name of the type that
it stands in, not by the types further out. So two types of one name are also taken for one if they stand in
different types that have the same name.
-/

namespace GeneratorBench

namespace Declaration

/-- Declarations of one type: one name, in one namespace and inside the same types. -/
def SameType (d e : Declaration) : Prop :=
  d.decl.scope = e.decl.scope ∧ d.outer = e.outer ∧ d.decl.name.name = e.decl.name.name

/-- Types of one name and one namespace in different types that are named alike. -/
def Namesakes (d e : Declaration) : Prop :=
  d.decl.scope = e.decl.scope ∧ (d.outer.head? = e.outer.head? ∧ d.outer ≠ e.outer) ∧
    d.decl.name.name = e.decl.name.name

instance (d e : Declaration) : Decidable (d.SameType e) := inferInstanceAs (Decidable (_ ∧ _))

instance (d e : Declaration) : Decidable (d.Namesakes e) := inferInstanceAs (Decidable (_ ∧ _))

end Declaration

namespace Compilation

variable {c : Compilation} {d e : Declaration}

theorem exists_nestings {ts : List SourceTree} {before after : List (Option String × TypeDecl × List String)}
    {x : Option String × TypeDecl × List String} (h : declared ts = before ++ x :: after) :
    ∃ t ∈ ts, ∃ first later, Skeleton.nestings (tokens t.text) = first ++ x.2 :: later ∧ x.1 = t.path ∧
      ∀ y ∈ first, (t.path, y) ∈ before := by
  induction ts generalizing before with
  | nil => exact absurd h.symm (by simp [declared])
  | cons t ts ih =>
      have later {us : List (Option String × TypeDecl × List String)} (hsub : us ⊆ before)
          (hus : declared ts = us ++ x :: after) : ∃ u ∈ t :: ts, ∃ first later,
            Skeleton.nestings (tokens u.text) = first ++ x.2 :: later ∧ x.1 = u.path ∧
              ∀ y ∈ first, (u.path, y) ∈ before := by
        obtain ⟨u, hu, first, rest, hread, hpath, hfirst⟩ := ih hus
        exact ⟨u, List.mem_cons_of_mem _ hu, first, rest, hread, hpath, fun y hy => hsub (hfirst y hy)⟩
      rw [declared, List.flatMap_cons, List.append_eq_append_iff] at h
      obtain ⟨us, rfl, hus⟩ | ⟨us, hmap, hus⟩ := h
      · exact later (List.subset_append_right _ _) hus
      · cases us with
        | nil => exact later (List.nil_subset _) hus.symm
        | cons u us =>
            obtain ⟨rfl, -⟩ := List.cons.inj hus
            obtain ⟨first, rest, hread, rfl, hrest⟩ := List.map_eq_append_iff.1 hmap
            obtain ⟨y, others, rfl, rfl, -⟩ := List.map_eq_cons_iff.1 hrest
            exact ⟨t, List.mem_cons_self, first, others, hread, rfl, fun z hz => List.mem_map_of_mem hz⟩

theorem declarations_rooted (hd : d ∈ c.declarations) : d.decl.container = d.outer.head? ∧
    ∀ type outer, d.outer = type :: outer →
      ∃ e ∈ c.declarations, e.place < d.place ∧ e.path = d.path ∧ e.decl.name.name = type ∧
        e.decl.scope = d.decl.scope ∧ e.outer = outer := by
  obtain ⟨after, hsplit, hplaces⟩ := exists_split hd
  have hdeclared := (map_numbered 0 (declared c.trees)).symm.trans (congrArg (List.map _) hsplit)
  rw [List.map_append, List.map_cons] at hdeclared
  obtain ⟨t, -, first, later, hread, hpath, hfirst⟩ := exists_nestings hdeclared
  obtain ⟨hcontainer, houter⟩ := Skeleton.nestings_rooted hread
  refine ⟨hcontainer, fun type outer heq => ?_⟩
  obtain ⟨decl, hdecl, hname, hscope⟩ := houter type outer heq
  obtain ⟨e, he, heq⟩ := List.mem_map.1 (hfirst _ hdecl)
  rw [Prod.mk.injEq, Prod.mk.injEq] at heq
  obtain ⟨htree, rfl, rfl⟩ := heq
  exact ⟨e, List.mem_of_mem_take he, hplaces e he, htree.trans hpath.symm, hname, hscope, rfl⟩

theorem key_eq_iff (hd : d ∈ c.declarations) (he : e ∈ c.declarations) :
    e.decl.key = d.decl.key ↔ e.SameType d ∨ e.Namesakes d := by
  have hkey : e.decl.key = d.decl.key ↔ e.decl.scope = d.decl.scope ∧ e.outer.head? = d.outer.head? ∧
      e.decl.name.name = d.decl.name.name := by
    rw [← (declarations_rooted hd).1, ← (declarations_rooted he).1]
    simp [TypeDecl.key]
  rw [hkey, Declaration.SameType, Declaration.Namesakes]
  constructor
  · rintro ⟨hscope, hhead, hname⟩
    by_cases houter : e.outer = d.outer
    · exact .inl ⟨hscope, houter, hname⟩
    · exact .inr ⟨hscope, ⟨hhead, houter⟩, hname⟩
  · rintro (⟨hscope, houter, hname⟩ | ⟨hscope, ⟨hhead, -⟩, hname⟩)
    · exact ⟨hscope, congrArg List.head? houter, hname⟩
    · exact ⟨hscope, hhead, hname⟩

/-- A declaration is reported as a duplicate exactly if the first declaration of the same type or of a namesake
comes before it, and not both are parts. The types around a declaration were declared before it, in its tree and
namespace, each inside those that follow. -/
theorem repeats_nested (c : Compilation) :
    (c.diagnostics.filter isRedeclaration = c.repeats.map fun d => duplicate d.path d.decl) ∧
    ∀ d ∈ c.declarations,
      (∀ type outer, d.outer = type :: outer →
        ∃ e ∈ c.declarations, e.place < d.place ∧ e.path = d.path ∧ e.decl.name.name = type ∧
          e.decl.scope = d.decl.scope ∧ e.outer = outer) ∧
      (d ∈ c.repeats ↔
        ∃ e ∈ c.declarations, (e.SameType d ∨ e.Namesakes d) ∧ e.place < d.place ∧
          (∀ f ∈ c.declarations, f.SameType d ∨ f.Namesakes d → e.place ≤ f.place) ∧
          ¬ (e.decl.isPartial = true ∧ d.decl.isPartial = true)) := by
  refine ⟨reports_eq c, fun d hd => ⟨(declarations_rooted hd).2, ?_⟩⟩
  have hgroup (e : Declaration) : e ∈ c.group d.decl.key ↔ e ∈ c.declarations ∧ (e.SameType d ∨ e.Namesakes d) := by
    rw [mem_group]
    exact and_congr_right (key_eq_iff hd)
  rw [mem_repeats_iff hd]
  constructor
  · rintro ⟨e, later, hfirst, hlt, hparts⟩
    obtain ⟨he, hleast⟩ := exists_group_iff.1 ⟨later, hfirst⟩
    obtain ⟨hmem, hclash⟩ := (hgroup e).1 he
    exact ⟨e, hmem, hclash, hlt, fun f hf hf' => hleast f ((hgroup f).2 ⟨hf, hf'⟩), hparts⟩
  · rintro ⟨e, hmem, hclash, hlt, hleast, hparts⟩
    obtain ⟨later, hfirst⟩ := exists_group_iff.2 ⟨(hgroup e).2 ⟨hmem, hclash⟩, fun f hf =>
      hleast f ((hgroup f).1 hf).1 ((hgroup f).1 hf).2⟩
    exact ⟨e, later, hfirst, hlt, hparts⟩

/-- Two types of one name, each in a type of one name, in different types: the second is reported although nothing
else declares it. -/
theorem repeats_nested_outer :
    let t : SourceTree := ⟨none, "class A \x7b class X \x7b class I \x7b\x7d \x7d \x7d\nclass B \x7b class X \x7b class I \x7b\x7d \x7d \x7d"⟩
    let c := ofTrees "Test" [t] [] {}
    t.skeleton.errors = [] ∧
      ∃ d ∈ c.repeats, d.decl.name.name = "I" ∧ d.outer = ["X", "B"] ∧
        ∀ e ∈ c.declarations, e.place < d.place → ¬ e.SameType d := by
  intro t c
  have hread : Skeleton.ofText t.text = _ := Parser.ofText_iterate 12 (by decide +kernel)
  have hnestings : Skeleton.nestings (tokens t.text) = _ := Parser.nestings_iterate 12 (by decide +kernel)
  have hfound : ∃ d ∈ c.declarations, (d.decl.name.name = "I" ∧ d.outer = ["X", "B"]) ∧
      (∃ e ∈ c.declarations, (e.SameType d ∨ e.Namesakes d) ∧ e.place < d.place ∧
        (∀ f ∈ c.declarations, f.SameType d ∨ f.Namesakes d → e.place ≤ f.place) ∧
        ¬ (e.decl.isPartial = true ∧ d.decl.isPartial = true)) ∧
      ∀ e ∈ c.declarations, e.place < d.place → ¬ e.SameType d := by
    simp only [declarations, declared, c, ofTrees, List.flatMap_singleton, hnestings]
    decide +kernel
  obtain ⟨d, hd, ⟨hname, houter⟩, hclash, hnone⟩ := hfound
  refine ⟨?_, d, (((repeats_nested c).2 d hd).2).2 hclash, hname, houter, hnone⟩
  rw [SourceTree.skeleton, hread]
  decide +kernel

end Compilation

end GeneratorBench
