import GeneratorBench.Compilation.Binding
import Mathlib.Data.List.Basic

/-!
What the look-up of names depends on: which namespaces and types a compilation has to offer, and
nothing else. Where there is more to offer, whatever was found before is still found.
-/

namespace GeneratorBench

/-- Every namespace and every type that `rs` export, `qs` export too. -/
structure Reference.Covers (qs rs : List Reference) : Prop where
  namespaces : ∀ name, rs.any (·.exportsNamespace name) = true → qs.any (·.exportsNamespace name) = true
  types : ∀ scope name,
    rs.any (·.exportsType scope name) = true → qs.any (·.exportsType scope name) = true

theorem Reference.Covers.refl (rs : List Reference) : Covers rs rs := ⟨fun _ h => h, fun _ _ h => h⟩

namespace Symbols

/-- Whatever `y` has to offer, `z` has too. -/
structure Covers (z y : Symbols) : Prop where
  namespaces : ∀ name, y.namespaceExists name = true → z.namespaceExists name = true
  types : ∀ scope name, y.typeExists scope name = true → z.typeExists scope name = true

variable {y z : Symbols} {s : Skeleton} {decl : TypeDecl}

theorem covers_ofSkeletons {qs rs : List Reference} {ss us : List Skeleton}
    (hrefs : Reference.Covers qs rs) (hsub : ss ⊆ us) : (ofSkeletons qs us).Covers (ofSkeletons rs ss) := by
  constructor
  · intro name h
    simp only [namespaceExists, Bool.or_eq_true, List.contains_iff_mem] at h ⊢
    refine h.imp ?_ (hrefs.namespaces name)
    intro hmem
    obtain ⟨s, hs, hname⟩ := List.mem_flatMap.1 hmem
    exact List.mem_flatMap.2 ⟨s, hsub hs, hname⟩
  · intro scope name h
    simp only [typeExists, Bool.or_eq_true, List.contains_iff_mem] at h ⊢
    refine h.imp ?_ ?_
    · intro hmem
      obtain ⟨s, hs, htype⟩ := List.mem_flatMap.1 hmem
      exact List.mem_flatMap.2 ⟨s, hsub hs, htype⟩
    · intro hexport
      cases scope with
      | none => exact hexport
      | some scope => exact hrefs.types scope name hexport

theorem Covers.namespaceExists_eq (hzy : z.Covers y) (hyz : y.Covers z) :
    y.namespaceExists = z.namespaceExists :=
  funext fun name => Bool.eq_iff_iff.2 ⟨hzy.namespaces name, hyz.namespaces name⟩

theorem Covers.typeExists_eq (hzy : z.Covers y) (hyz : y.Covers z) : y.typeExists = z.typeExists :=
  funext fun scope => funext fun name =>
    Bool.eq_iff_iff.2 ⟨hzy.types scope name, hyz.types scope name⟩

theorem suppliers_sublist (h : z.Covers y) (s : Skeleton) (decl : TypeDecl) (name : String) :
    (y.suppliers s decl name).Sublist (z.suppliers s decl name) := by
  apply List.monotone_filter_right
  intro i hi
  obtain ⟨u, hu, hexists⟩ := (Option.any_eq_true _ _).1 hi
  exact (Option.any_eq_true _ _).2 ⟨u, hu, h.types _ _ hexists⟩

theorem resolve_plain_eq_unresolved {base : NameRef} (hbuiltin : builtinTypes.contains base.name = false)
    (hplain : splitLast? base.name = none) (hlocal : base.isGlobal = false) :
    y.resolve s decl base = .unresolved ↔
      isSibling s decl base.name = false ∧
        (∀ scope ∈ scopesFrom decl.scope, y.typeExists scope base.name = false) ∧
        y.suppliers s decl base.name = [] := by
  have hnone : ((scopesFrom decl.scope).any fun scope => y.typeExists scope base.name) = false ↔
      ∀ scope ∈ scopesFrom decl.scope, y.typeExists scope base.name = false := by
    simp
  rw [← hnone]
  simp only [resolve, hbuiltin, hplain, hlocal, Bool.false_eq_true, if_false]
  cases isSibling s decl base.name with
  | true => simp
  | false =>
      cases (scopesFrom decl.scope).any fun scope => y.typeExists scope base.name with
      | true => simp
      | false =>
          cases y.suppliers s decl base.name with
          | nil => simp
          | cons i usings => simp

/-- A base is not found if no place in which it is looked for has it. -/
theorem resolve_eq_unresolved {base : NameRef} :
    y.resolve s decl base = .unresolved ↔
      builtinTypes.contains base.name = false ∧
      match splitLast? base.name with
      | some (scope, name) => y.typeExists (some scope) name = false
      | none =>
        if base.isGlobal then y.typeExists none base.name = false
        else isSibling s decl base.name = false ∧
          (∀ scope ∈ scopesFrom decl.scope, y.typeExists scope base.name = false) ∧
          y.suppliers s decl base.name = [] := by
  cases hbuiltin : builtinTypes.contains base.name with
  | true => simp only [resolve, hbuiltin, if_true, reduceCtorEq, Bool.true_eq_false, false_and]
  | false =>
      cases hsplit : splitLast? base.name with
      | some p =>
          simp only [resolve, hbuiltin, hsplit]
          simp
      | none =>
          cases hglobal : base.isGlobal with
          | true =>
              simp only [resolve, hbuiltin, hsplit, hglobal]
              simp
          | false => simpa using resolve_plain_eq_unresolved hbuiltin hsplit hglobal

/-- A base that is found stays found. What it is found through may change: a type that comes in
nearer by leaves a directive without use. -/
theorem resolve_mono (h : z.Covers y) {base : NameRef} (hz : z.resolve s decl base = .unresolved) :
    y.resolve s decl base = .unresolved := by
  have htype : ∀ scope name, z.typeExists scope name = false → y.typeExists scope name = false := by
    intro scope name hnone
    exact Bool.eq_false_iff.2 fun hy => Bool.eq_false_iff.1 hnone (h.types scope name hy)
  obtain ⟨hbuiltin, hz⟩ := resolve_eq_unresolved.1 hz
  refine resolve_eq_unresolved.2 ⟨hbuiltin, ?_⟩
  cases hsplit : splitLast? base.name with
  | some p =>
      rw [hsplit] at hz
      exact htype _ _ hz
  | none =>
      simp only [hsplit] at hz ⊢
      by_cases hglobal : base.isGlobal = true
      · rw [if_pos hglobal] at hz ⊢
        exact htype _ _ hz
      · rw [if_neg hglobal] at hz ⊢
        obtain ⟨hsibling, houter, hsuppliers⟩ := hz
        refine ⟨hsibling, fun scope hscope => htype _ _ (houter scope hscope), ?_⟩
        have hsub := suppliers_sublist h s decl base.name
        rwa [hsuppliers, List.sublist_nil] at hsub

theorem resolve_congr (hzy : z.Covers y) (hyz : y.Covers z) : y.resolve = z.resolve := by
  funext s decl base
  simp only [resolve, suppliers, hzy.typeExists_eq hyz]

end Symbols

end GeneratorBench
