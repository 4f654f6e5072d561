import GeneratorBench.Proofs.Compilation.Reports
import GeneratorBench.Proofs.Syntax.Steps
import Mathlib.Data.List.Pairwise

/-!
The order of trees. Which declarations count as declared again depends on what comes first; whether
a name is declared again at all does not, and nor does any other diagnostic.
-/

namespace GeneratorBench

/-- What a declaration declares: its name in its namespace and in the type around it. -/
def TypeDecl.key (decl : TypeDecl) : Option String × Option String × String :=
  (decl.scope, decl.container, decl.name.name)

namespace Compilation

def redeclared (earlier : List TypeDecl) : List TypeDecl → List TypeDecl
  | [] => []
  | decl :: decls =>
    (if isDuplicate earlier decl then [decl] else []) ++ redeclared (earlier ++ [decl]) decls

def redeclaredIn (earlier : List TypeDecl) :
    List (Option String × Skeleton) → List (Option String × TypeDecl)
  | [] => []
  | (path, s) :: trees =>
    (redeclared earlier s.types).map (path, ·) ++ redeclaredIn (earlier ++ s.types) trees

def redeclarations (c : Compilation) : List (Option String × TypeDecl) := redeclaredIn [] c.located

/-- Two declarations may both declare `key` only as parts of one type. -/
def Compatible (key : Option String × Option String × String) (a b : TypeDecl) : Prop :=
  a.key = key → b.key = key → a.isPartial = true ∧ b.isPartial = true

variable {key : Option String × Option String × String} {a b decl : TypeDecl}
  {earlier decls : List TypeDecl}

theorem Compatible.symm (h : Compatible key a b) : Compatible key b a :=
  fun hb ha => (h ha hb).symm

instance : Std.Symm (Compatible key) := ⟨fun _ _ h => h.symm⟩

theorem sameKey_iff : sameKey a b = true ↔ a.key = b.key := by
  simp [sameKey, TypeDecl.key, and_assoc]

/-- As long as nothing was declared twice, comparing with the first declaration of a name is as
good as comparing with each. -/
theorem isDuplicate_iff (hearlier : earlier.Pairwise (Compatible key)) (hkey : decl.key = key) :
    isDuplicate earlier decl = true ↔ ¬ ∀ a ∈ earlier, Compatible key a decl := by
  rw [isDuplicate]
  cases hfind : earlier.find? (sameKey decl) with
  | none =>
      have hnone := List.find?_eq_none.1 hfind
      have hall : ∀ a ∈ earlier, Compatible key a decl := by
        intro a ha hsame
        exact absurd (sameKey_iff.2 (hkey.trans hsame.symm)) (hnone a ha)
      simpa using hall
  | some first =>
      have hmem : first ∈ earlier := List.mem_of_find?_eq_some hfind
      have hfirst : first.key = key := (sameKey_iff.1 (List.find?_some hfind)).symm.trans hkey
      cases hparts : first.isPartial && decl.isPartial with
      | false =>
          have hclash : ¬ Compatible key first decl := by
            intro hcompatible
            obtain ⟨hp, hq⟩ := hcompatible hfirst hkey
            rw [hp, hq] at hparts
            cases hparts
          simp only [hparts, Bool.not_false, true_iff]
          exact fun hall => hclash (hall first hmem)
      | true =>
          obtain ⟨hp, hq⟩ := Bool.and_eq_true_iff.1 hparts
          have hall : ∀ a ∈ earlier, Compatible key a decl := by
            intro a ha hsame _
            by_cases heq : a = first
            · exact heq ▸ ⟨hp, hq⟩
            · have hpair := hearlier.forall ha hmem heq
              exact ⟨(hpair hsame hfirst).1, hq⟩
          simpa [hparts] using hall

theorem forall_redeclared_iff (hearlier : earlier.Pairwise (Compatible key)) :
    (∀ r ∈ redeclared earlier decls, r.key ≠ key) ↔ (earlier ++ decls).Pairwise (Compatible key) := by
  induction decls generalizing earlier with
  | nil => simpa [redeclared] using hearlier
  | cons decl decls ih =>
      by_cases hall : ∀ a ∈ earlier, Compatible key a decl
      · have hnext : (earlier ++ [decl]).Pairwise (Compatible key) := by
          refine List.pairwise_append.2 ⟨hearlier, List.pairwise_singleton _ _, ?_⟩
          intro a ha b hb
          rw [List.mem_singleton.1 hb]
          exact hall a ha
        have hfresh : ∀ r ∈ (if isDuplicate earlier decl then [decl] else []), r.key ≠ key := by
          intro r hr hkey
          split at hr
          · rename_i hduplicate
            rw [List.mem_singleton.1 hr] at hkey
            exact (isDuplicate_iff hearlier hkey).1 hduplicate hall
          · cases hr
        rw [List.append_cons, ← ih hnext, redeclared, List.forall_mem_append]
        exact and_iff_right hfresh
      · have hkey : decl.key = key := by
          by_contra hother
          exact hall fun a _ _ hsame => absurd hsame hother
        have hduplicate := (isDuplicate_iff hearlier hkey).2 hall
        constructor
        · intro hnone
          refine absurd hkey (hnone decl ?_)
          rw [redeclared, if_pos hduplicate]
          exact List.mem_append_left _ (List.mem_singleton_self _)
        · intro hpairwise
          refine absurd ?_ hall
          intro a ha
          exact (List.pairwise_append.1 hpairwise).2.2 a ha decl List.mem_cons_self

theorem exists_redeclared_iff :
    (∃ r ∈ redeclared [] decls, r.key = key) ↔ ¬ decls.Pairwise (Compatible key) := by
  have hiff : (∀ r ∈ redeclared [] decls, r.key ≠ key) ↔ decls.Pairwise (Compatible key) :=
    forall_redeclared_iff List.Pairwise.nil
  rw [← hiff]
  push Not
  rfl

theorem redeclared_append (earlier ds es : List TypeDecl) :
    redeclared earlier (ds ++ es) = redeclared earlier ds ++ redeclared (earlier ++ ds) es := by
  induction ds generalizing earlier with
  | nil => simp [redeclared]
  | cons d ds ih => simp [redeclared, ih]

theorem map_redeclaredIn (earlier : List TypeDecl) (trees : List (Option String × Skeleton)) :
    (redeclaredIn earlier trees).map (·.2) = redeclared earlier (trees.flatMap (·.2.types)) := by
  induction trees generalizing earlier with
  | nil => rfl
  | cons t trees ih =>
      rw [redeclaredIn, List.map_append, ih, List.flatMap_cons, redeclared_append, List.map_map]
      exact congrArg (· ++ _) (List.map_id _)

theorem exists_redeclarations_iff (c : Compilation) :
    (∃ r ∈ c.redeclarations, r.2.key = key) ↔
      ¬ (c.located.flatMap (·.2.types)).Pairwise (Compatible key) := by
  rw [← exists_redeclared_iff, ← map_redeclaredIn, redeclarations]
  constructor
  · rintro ⟨r, hr, hkey⟩
    exact ⟨r.2, List.mem_map_of_mem hr, hkey⟩
  · rintro ⟨r, hr, hkey⟩
    obtain ⟨p, hp, rfl⟩ := List.mem_map.1 hr
    exact ⟨p, hp, hkey⟩

def isRedeclaration (d : Diagnostic) : Bool := d.id == "CS0101"

def others (ds : List Diagnostic) : List Diagnostic := ds.filter fun d => !isRedeclaration d

variable {y : Symbols} {path : Option String} {s : Skeleton}

theorem others_append (ds es : List Diagnostic) : others (ds ++ es) = others ds ++ others es :=
  List.filter_append ds es

theorem isRedeclaration_unresolvedBases {e : Diagnostic} (he : e ∈ unresolvedBases y path s decl) :
    isRedeclaration e = false := by
  obtain ⟨base, -, rfl⟩ := List.mem_map.1 he
  rfl

theorem filter_declDiagnostics :
    (declDiagnostics y path s earlier decls).filter isRedeclaration =
      (redeclared earlier decls).map (duplicate path) := by
  induction decls generalizing earlier with
  | nil => rfl
  | cons decl decls ih =>
      have hbases : (unresolvedBases y path s decl).filter isRedeclaration = [] :=
        List.filter_eq_nil_iff.2 fun e he => Bool.eq_false_iff.1 (isRedeclaration_unresolvedBases he)
      rw [declDiagnostics, redeclared, List.filter_append, List.filter_append, hbases, ih,
        List.append_nil, List.map_append]
      split
      · rfl
      · rfl

theorem others_declDiagnostics :
    others (declDiagnostics y path s earlier decls) = decls.flatMap (unresolvedBases y path s) := by
  induction decls generalizing earlier with
  | nil => rfl
  | cons decl decls ih =>
      have hbases : others (unresolvedBases y path s decl) = unresolvedBases y path s decl :=
        List.filter_eq_self.2 fun e he => by rw [isRedeclaration_unresolvedBases he]; rfl
      rw [declDiagnostics, others_append, others_append, hbases, ih, List.flatMap_cons]
      split
      · rfl
      · rfl

theorem filter_treeDiagnostics :
    (treeDiagnostics y path s earlier).filter isRedeclaration =
      (redeclared earlier s.types).map (duplicate path) :=
  (filter_id_treeDiagnostics (by decide) earlier).trans
    ((List.append_nil _).trans filter_declDiagnostics)

theorem others_treeDiagnostics :
    others (treeDiagnostics y path s earlier) = others (treeDiagnostics y path s []) := by
  simp only [treeDiagnostics, others_append, others_declDiagnostics]

theorem filter_treesDiagnostics (trees : List (Option String × Skeleton)) :
    (treesDiagnostics y earlier trees).filter isRedeclaration =
      (redeclaredIn earlier trees).map fun r => duplicate r.1 r.2 := by
  induction trees generalizing earlier with
  | nil => rfl
  | cons t trees ih =>
      rw [treesDiagnostics, redeclaredIn, List.filter_append, filter_treeDiagnostics, ih, List.map_append,
        List.map_map]
      rfl

theorem others_treesDiagnostics (trees : List (Option String × Skeleton)) :
    others (treesDiagnostics y earlier trees) =
      trees.flatMap fun t => others (treeDiagnostics y t.1 t.2 []) := by
  induction trees generalizing earlier with
  | nil => rfl
  | cons t trees ih =>
      rw [treesDiagnostics, others_append, others_treeDiagnostics, ih, List.flatMap_cons]

theorem filter_diagnostics (c : Compilation) :
    c.diagnostics.filter isRedeclaration = c.redeclarations.map fun r => duplicate r.1 r.2 := by
  have hoverall : c.overall.filter isRedeclaration = [] := by
    rw [overall]
    split
    · rfl
    · rfl
  rw [diagnostics_eq_append, List.filter_append, filter_treesDiagnostics, hoverall, List.append_nil]
  rfl

/-- What keeps a compilation from being emitted is some other diagnostic or some name that is
declared again. -/
theorem emits_eq_false_iff (c : Compilation) :
    c.emits = false ↔
      (∃ e ∈ others c.diagnostics, blocksEmit c.options e = true) ∨
        ∃ key, ∃ r ∈ c.redeclarations, r.2.key = key := by
  rw [emits, Bool.not_eq_false', List.any_eq_true]
  constructor
  · rintro ⟨e, he, hblocks⟩
    cases hkind : isRedeclaration e with
    | false =>
        refine .inl ⟨e, List.mem_filter.2 ⟨he, ?_⟩, hblocks⟩
        rw [hkind]
        rfl
    | true =>
        have hmem : e ∈ c.diagnostics.filter isRedeclaration := List.mem_filter.2 ⟨he, hkind⟩
        rw [filter_diagnostics] at hmem
        obtain ⟨r, hr, -⟩ := List.mem_map.1 hmem
        exact .inr ⟨_, r, hr, rfl⟩
  · rintro (⟨e, he, hblocks⟩ | ⟨key, r, hr, -⟩)
    · exact ⟨e, (List.mem_filter.1 he).1, hblocks⟩
    · have hmem : duplicate r.1 r.2 ∈ c.diagnostics.filter isRedeclaration := by
        rw [filter_diagnostics]
        exact List.mem_map_of_mem hr
      exact ⟨_, (List.mem_filter.1 hmem).1, rfl⟩

section

variable {c d : Compilation}

theorem redeclarations_perm (htrees : c.trees.Perm d.trees) :
    (∃ r ∈ c.redeclarations, r.2.key = key) ↔ ∃ r ∈ d.redeclarations, r.2.key = key := by
  have hlocated : c.located.Perm d.located := by
    rw [located_eq, located_eq]
    exact htrees.map _
  rw [exists_redeclarations_iff, exists_redeclarations_iff,
    (hlocated.flatMap_right _).pairwise_iff Compatible.symm]

theorem others_perm (htrees : c.trees.Perm d.trees) (hrefs : c.references = d.references)
    (hoptions : c.options = d.options) : (others c.diagnostics).Perm (others d.diagnostics) := by
  have hlocated : c.located.Perm d.located := by
    rw [located_eq, located_eq]
    exact htrees.map _
  have hdc : d.symbols.Covers c.symbols := covers_symbols htrees.subset (hrefs ▸ Reference.Covers.refl _)
  have hcd : c.symbols.Covers d.symbols :=
    covers_symbols htrees.symm.subset (hrefs ▸ Reference.Covers.refl _)
  have hmain : c.skeletons.any (·.hasMain) = d.skeletons.any (·.hasMain) := by
    rw [c.skeletons_eq, d.skeletons_eq]
    exact (htrees.map _).any_eq
  have hoverall : c.overall = d.overall := by rw [overall, overall, hoptions, hmain]
  rw [diagnostics_eq_append, diagnostics_eq_append, treesDiagnostics_congr hdc hcd, others_append,
    others_append, others_treesDiagnostics, others_treesDiagnostics, hoverall]
  exact (hlocated.flatMap_right _).append_right _

end

/-- Trees in another order can be emitted exactly if these can. They have the same diagnostics but for
those of names that are declared again; and those are about the same names. -/
theorem diagnostics_perm {ts us : List SourceTree} (perm : ts.Perm us) (assemblyName : String)
    (references : List Reference) (options : CompilationOptions) :
    let c := ofTrees assemblyName ts references options
    let d := ofTrees assemblyName us references options
    c.emits = d.emits ∧
      (others c.diagnostics).Perm (others d.diagnostics) ∧
      c.diagnostics.filter isRedeclaration = c.redeclarations.map (fun r => duplicate r.1 r.2) ∧
      d.diagnostics.filter isRedeclaration = d.redeclarations.map (fun r => duplicate r.1 r.2) ∧
      ∀ key, (∃ r ∈ c.redeclarations, r.2.key = key) ↔ ∃ r ∈ d.redeclarations, r.2.key = key := by
  intro c d
  have hothers : (others c.diagnostics).Perm (others d.diagnostics) := others_perm perm rfl rfl
  have hkeys : ∀ key, (∃ r ∈ c.redeclarations, r.2.key = key) ↔ ∃ r ∈ d.redeclarations, r.2.key = key :=
    fun key => redeclarations_perm perm
  have hemits : c.emits = false ↔ d.emits = false := by
    rw [emits_eq_false_iff, emits_eq_false_iff, exists_congr hkeys]
    refine or_congr_left (exists_congr fun e => ?_)
    rw [hothers.mem_iff]
    rfl
  exact ⟨Bool.eq_iff_iff.2 (by simpa using not_congr hemits), hothers, filter_diagnostics c,
    filter_diagnostics d, hkeys⟩

/-- Of a whole type and a part of one name, the one that comes second is reported. -/
theorem diagnostics_perm_partial :
    let ts : List SourceTree := [⟨none, "class A : B \x7b\x7d"⟩, ⟨none, "partial class A \x7b\x7d"⟩]
    let us : List SourceTree := [⟨none, "partial class A \x7b\x7d"⟩, ⟨none, "class A : B \x7b\x7d"⟩]
    let c := ofTrees "T" ts [] {}
    let d := ofTrees "T" us [] {}
    ts.Perm us ∧
      (c.redeclarations.map (·.2.isPartial) = [true] ∧ d.redeclarations.map (·.2.isPartial) = [false]) ∧
      (others c.diagnostics).length = 1 ∧
      (others c.diagnostics).Perm (others d.diagnostics) ∧ c.emits = d.emits := by
  intro ts us c d
  have perm : ts.Perm us := List.Perm.swap _ _ _
  have hwhole : Skeleton.ofText "class A : B \x7b\x7d" = _ := Parser.ofText_iterate 2 (by decide +kernel)
  have hpart : Skeleton.ofText "partial class A \x7b\x7d" = _ :=
    Parser.ofText_iterate 2 (by decide +kernel)
  have hfirst : c.redeclarations.map (·.2.isPartial) = [true] := by
    simp only [redeclarations, located_eq, c, ts, ofTrees, List.map, SourceTree.skeleton, hwhole, hpart]
    decide +kernel
  have hsecond : d.redeclarations.map (·.2.isPartial) = [false] := by
    simp only [redeclarations, located_eq, d, us, ofTrees, List.map, SourceTree.skeleton, hwhole, hpart]
    decide +kernel
  have hothers : (others c.diagnostics).length = 1 := by
    have hoverall : c.overall = [] := rfl
    rw [diagnostics_eq_append, hoverall]
    simp only [symbols, located_eq, c, ts, ofTrees, List.map, SourceTree.skeleton, hwhole, hpart]
    decide +kernel
  obtain ⟨hemits, hperm, -⟩ := diagnostics_perm perm "T" [] {}
  exact ⟨perm, ⟨hfirst, hsecond⟩, hothers, hperm, hemits⟩

end Compilation

end GeneratorBench
