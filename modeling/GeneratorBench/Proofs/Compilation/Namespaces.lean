import GeneratorBench.Proofs.Compilation.Visibility
import GeneratorBench.Proofs.Syntax.Names

/-!
Which namespaces exist: those that a tree declares or a reference exports, and those around them. Whoever offers a
name, its segments decide, not its characters. A namespace that has a type is one of them.
-/

namespace GeneratorBench

theorem exists_prefix_cons_iff {α : Type} {Q : List α → Prop} {a : α} {as : List α} :
    (∃ p, p <+: a :: as ∧ p ≠ [] ∧ Q p) ↔ Q [a] ∨ ∃ p, p <+: as ∧ p ≠ [] ∧ Q (a :: p) := by
  constructor
  · rintro ⟨p, hp, hne, hq⟩
    cases p with
    | nil => exact absurd rfl hne
    | cons b p =>
        obtain ⟨rfl, hrest⟩ := List.cons_prefix_cons.1 hp
        by_cases hnil : p = []
        · exact .inl (hnil ▸ hq)
        · exact .inr ⟨p, hrest, hnil, hq⟩
  · rintro (hq | ⟨p, hp, -, hq⟩)
    · exact ⟨[a], List.cons_prefix_cons.2 ⟨rfl, List.nil_prefix⟩, List.cons_ne_nil _ _, hq⟩
    · exact ⟨a :: p, List.cons_prefix_cons.2 ⟨rfl, hp⟩, List.cons_ne_nil _ _, hq⟩

theorem around_iff_segments {outer name : String} : Around (some name) (some outer) ↔
    ∃ p, p <+: Text.splitAt '.' name ∧ p ≠ [] ∧ outer = ".".intercalate p := by
  have hscopes : Around (some name) (some outer) ↔ outer ∈ enclosing (Text.splitAt '.' name).reverse := by
    rw [← mem_scopesFrom_iff]
    simp [scopesFrom]
  rw [hscopes, mem_enclosing_iff]
  constructor
  · rintro ⟨p, hp, hne, rfl⟩
    refine ⟨p.reverse, ?_, by simpa using hne, rfl⟩
    rwa [← List.reverse_suffix, List.reverse_reverse]
  · rintro ⟨p, hp, hne, rfl⟩
    exact ⟨p.reverse, List.reverse_suffix.2 hp, by simpa using hne, by rw [List.reverse_reverse]⟩

theorem around_iff_prefix {outer name : String} : Around (some name) (some outer) ↔
    Text.splitAt '.' outer <+: Text.splitAt '.' name := by
  constructor
  · rintro ⟨_, ⟨rfl⟩, rfl | ⟨tail, rfl⟩⟩
    · exact List.prefix_refl _
    · rw [Text.splitAt_append]
      exact List.prefix_append _ _
  · intro h
    exact around_iff_segments.2 ⟨_, h, Text.splitAt_ne_nil '.' outer, (Text.intercalate_splitAt '.' outer).symm⟩

theorem not_prefix_of_longer {name tail : String} (hne : tail ≠ "") (hdot : tail.toList.head? ≠ some '.') :
    ¬ Text.splitAt '.' name <+: Text.splitAt '.' (name ++ tail) := by
  rw [← around_iff_prefix]
  rintro ⟨_, ⟨rfl⟩, hsame | ⟨more, hmore⟩⟩
  · exact hne (String.append_right_inj name |>.1 (hsame.symm.trans String.append_empty.symm))
  · rw [String.append_assoc, String.append_right_inj] at hmore
    rw [hmore, String.toList_append] at hdot
    exact hdot rfl

def declareNext (declared : String × List String) (segment : String) : String × List String :=
  let inner := if declared.1 = "" then segment else declared.1 ++ "." ++ segment
  (inner, declared.2 ++ [inner])

theorem declaredWith_eq (name : String) :
    declaredWith name = ((Text.splitAt '.' name).foldl declareNext ("", [])).2 := rfl

theorem mem_foldl_declareNext {outer name : String} (ho : outer ≠ "") (found segments : List String) :
    name ∈ (segments.foldl declareNext (outer, found)).2 ↔
      name ∈ found ∨ ∃ p, p <+: segments ∧ p ≠ [] ∧ name = ".".intercalate (outer :: p) := by
  induction segments generalizing outer found with
  | nil => simp
  | cons s segments ih =>
      have hnext : declareNext (outer, found) s = (outer ++ "." ++ s, found ++ [outer ++ "." ++ s]) := by
        rw [declareNext, if_neg ho]
      rw [List.foldl_cons, hnext, ih (by simp [ho]), List.mem_append, List.mem_singleton, or_assoc,
        exists_prefix_cons_iff]
      rfl

/-- A namespace whose name does not start with a dot is declared with all those around it, and no others. -/
theorem mem_declaredWith_iff {outer name : String} (h : (Text.splitAt '.' name).head? ≠ some "") :
    outer ∈ declaredWith name ↔ Around (some name) (some outer) := by
  obtain ⟨s, segments, hsegments⟩ := List.exists_cons_of_ne_nil (Text.splitAt_ne_nil '.' name)
  rw [around_iff_segments, declaredWith_eq, hsegments, exists_prefix_cons_iff]
  rw [hsegments] at h
  have hs : s ≠ "" := fun heq => h (congrArg some heq)
  have hfirst : declareNext ("", []) s = (s, [s]) := rfl
  rw [List.foldl_cons, hfirst, mem_foldl_declareNext hs, List.mem_singleton]
  rfl

namespace Compilation

def HasNamespace (c : Compilation) (name : String) : Prop :=
  (∃ s ∈ c.skeletons, ∃ inner ∈ s.namespaces, Around (some inner) (some name)) ∨
    ∃ r ∈ c.references, ∃ ns ∈ r.namespaces, Around (some ns.name) (some name)

def Worded (c : Compilation) : Prop := ∀ t ∈ c.trees, ∀ token ∈ tokens t.text, token.kind ≠ .word ""

variable {c : Compilation} {name : String}

theorem Worded.named (h : c.Worded) {s : Skeleton} (hs : s ∈ c.skeletons) : s.Named IsName := by
  obtain ⟨t, ht, rfl⟩ := mem_skeletons_iff.1 hs
  exact Skeleton.named_ofTokens (wordsAre_tokens (h t ht))

theorem exportsNamespace_iff (r : Reference) (name : String) :
    r.exportsNamespace name = true ↔ ∃ ns ∈ r.namespaces, Around (some ns.name) (some name) := by
  have haround (ns : ExportedNamespace) : Around (some ns.name) (some name) ↔
      (ns.name == name || (name.toList ++ ['.']).isPrefixOf ns.name.toList) = true := by
    rw [Bool.or_eq_true, beq_iff_eq, List.isPrefixOf_iff_prefix]
    constructor
    · rintro ⟨_, ⟨rfl⟩, heq | ⟨tail, heq⟩⟩
      · exact .inl heq.symm
      · exact .inr ⟨tail.toList, by rw [heq]; simp⟩
    · rintro (heq | ⟨tail, heq⟩)
      · exact ⟨_, rfl, .inl heq.symm⟩
      · refine ⟨_, rfl, .inr ⟨String.ofList tail, ?_⟩⟩
        rw [← String.toList_inj, ← heq]
        simp
  simp only [Reference.exportsNamespace, List.any_eq_true, haround]

theorem namespaceExists_symbols (h : c.Worded) : c.symbols.namespaceExists name = true ↔ c.HasNamespace name := by
  have hsource : name ∈ c.symbols.namespaces ↔
      ∃ s ∈ c.skeletons, ∃ inner ∈ s.namespaces, Around (some inner) (some name) := by
    simp only [symbols, Symbols.ofSkeletons, List.mem_flatMap]
    refine exists_congr fun s => and_congr_right fun hs => exists_congr fun inner => and_congr_right fun hinner => ?_
    refine mem_declaredWith_iff fun hhead => ?_
    exact ((h.named hs).namespaces inner hinner "" (List.mem_of_mem_head? hhead)).1 rfl
  rw [Symbols.namespaceExists, Bool.or_eq_true, List.contains_iff_mem, hsource, List.any_eq_true, HasNamespace]
  simp only [exportsNamespace_iff]
  rfl

def offered (c : Compilation) : List String :=
  c.skeletons.flatMap (·.namespaces) ++ c.references.flatMap fun r => r.namespaces.map (·.name)

theorem hasNamespace_iff : c.HasNamespace name ↔
    ∃ inner ∈ c.offered, Text.splitAt '.' name <+: Text.splitAt '.' inner := by
  simp only [HasNamespace, offered, around_iff_prefix, List.mem_append, List.mem_flatMap, List.mem_map]
  constructor
  · rintro (⟨s, hs, inner, hinner, h⟩ | ⟨r, hr, ns, hns, h⟩)
    · exact ⟨inner, .inl ⟨s, hs, hinner⟩, h⟩
    · exact ⟨ns.name, .inr ⟨r, hr, ns, hns, rfl⟩, h⟩
  · rintro ⟨inner, ⟨s, hs, hinner⟩ | ⟨r, hr, ns, hns, rfl⟩, h⟩
    · exact .inl ⟨s, hs, inner, hinner, h⟩
    · exact .inr ⟨r, hr, ns, hns, h⟩

/-- A name is that of a namespace exactly if its segments are the first ones of some namespace on offer. It does not
matter whether trees or references offer it, and a name that breaks off inside a segment is none. -/
theorem namespaceExists_segments (h : c.Worded) (name : String) :
    (c.symbols.namespaceExists name = true ↔
      ∃ inner ∈ c.offered, Text.splitAt '.' name ≠ [] ∧ Text.splitAt '.' name <+: Text.splitAt '.' inner) ∧
    (∀ d : Compilation, d.Worded → (∀ inner, inner ∈ d.offered ↔ inner ∈ c.offered) →
      d.symbols.namespaceExists name = c.symbols.namespaceExists name) ∧
    ∀ tail, tail ≠ "" → tail.toList.head? ≠ some '.' → (∀ inner ∈ c.offered, inner = name ++ tail) →
      c.symbols.namespaceExists name = false := by
  have hexists {d : Compilation} (hd : d.Worded) : d.symbols.namespaceExists name = true ↔
      ∃ inner ∈ d.offered, Text.splitAt '.' name <+: Text.splitAt '.' inner :=
    (namespaceExists_symbols hd).trans hasNamespace_iff
  refine ⟨?_, fun d hd hsame => ?_, fun tail hne hdot hall => ?_⟩
  · simp only [hexists h, Text.splitAt_ne_nil, ne_eq, not_false_eq_true, true_and]
  · rw [Bool.eq_iff_iff, hexists hd, hexists h]
    simp only [hsame]
  · rw [← Bool.not_eq_true, hexists h]
    rintro ⟨inner, hinner, hprefix⟩
    rw [hall inner hinner] at hprefix
    exact not_prefix_of_longer hne hdot hprefix

/-- A namespace declared by a tree, and the same one exported by a reference. -/
theorem namespaceExists_segments_moved :
    let c := ofTrees "T" [⟨none, "namespace A.Bc \x7b\x7d"⟩] [] {}
    let d := ofTrees "T" [] [⟨"R", [⟨"A.Bc", []⟩]⟩] {}
    c.Worded ∧ d.Worded ∧ c.symbols.namespaceExists "A" = true ∧ d.symbols.namespaceExists "A" = true ∧
      c.symbols.namespaceExists "A.B" = false := by
  intro c d
  have hread : Skeleton.ofText "namespace A.Bc \x7b\x7d" = _ := Parser.ofText_iterate 2 (by decide +kernel)
  have hwords : c.Worded := List.forall_mem_singleton.2 (by decide +kernel)
  have hnone : d.Worded := List.forall_mem_nil _
  have hoffered : c.offered = ["A.Bc"] ∧ d.offered = ["A.Bc"] := by
    simp only [offered, c, d, ofTrees, List.map, SourceTree.skeleton, hread]
    decide +kernel
  obtain ⟨hiff, hmoved, -⟩ := namespaceExists_segments hwords "A"
  obtain ⟨-, -, hlonger⟩ := namespaceExists_segments hwords "A.B"
  have hdeclared : c.symbols.namespaceExists "A" = true := by
    refine hiff.2 ⟨"A.Bc", by rw [hoffered.1]; exact List.mem_singleton_self _, ?_⟩
    decide +kernel
  refine ⟨hwords, hnone, hdeclared, ?_, ?_⟩
  · rw [hmoved d hnone (by rw [hoffered.1, hoffered.2]; exact fun _ => Iff.rfl), hdeclared]
  · refine hlonger "c" (by decide) (by decide) ?_
    rw [hoffered.1]
    exact List.forall_mem_singleton.2 rfl

theorem HasType.hasNamespace (h : c.Worded) {type : String} (ht : c.HasType (some name) type) : c.HasNamespace name := by
  obtain ⟨s, hs, decl, hdecl, hscope, -⟩ | ⟨r, hr, ns, hns, hscope, -⟩ := ht
  · exact .inl ⟨s, hs, name, (h.named hs).scopes decl hdecl name hscope, around_self _⟩
  · exact .inr ⟨r, hr, ns, hns, hscope ▸ around_self _⟩

end Compilation

end GeneratorBench
