import GeneratorBench.Proofs.Compilation.Order
import GeneratorBench.Proofs.Syntax.Nesting

/-!
The declarations of a compilation in groups, one for each name in its namespace and container. What is reported
of a group depends on its first declaration: all others if that is a whole type, the whole types among them if it
is a part.
-/

namespace GeneratorBench

/-- A declaration at its place among those of a compilation, with the types around it, innermost first. -/
structure Declaration where
  place : Nat
  path : Option String
  decl : TypeDecl
  outer : List String
  deriving DecidableEq

namespace Compilation

def numbered (n : Nat) (ds : List (Option String × TypeDecl × List String)) : List Declaration :=
  (ds.zipIdx n).map fun d => ⟨d.2, d.1.1, d.1.2.1, d.1.2.2⟩

def declared (ts : List SourceTree) : List (Option String × TypeDecl × List String) :=
  ts.flatMap fun t => (Skeleton.nestings (tokens t.text)).map (t.path, ·)

def declarations (c : Compilation) : List Declaration := numbered 0 (declared c.trees)

def repeats (c : Compilation) : List Declaration :=
  c.declarations.filter fun d => isDuplicate ((c.declarations.take d.place).map (·.decl)) d.decl

def group (c : Compilation) (key : Option String × Option String × String) : List Declaration :=
  c.declarations.filter (·.decl.key == key)

variable {c : Compilation} {d : Declaration} {key : Option String × Option String × String}

theorem numbered_append (n : Nat) (ds es : List (Option String × TypeDecl × List String)) :
    numbered n (ds ++ es) = numbered n ds ++ numbered (n + ds.length) es := by
  simp [numbered, List.zipIdx_append]

theorem numbered_cons (n : Nat) (d : Option String × TypeDecl × List String)
    (ds : List (Option String × TypeDecl × List String)) :
    numbered n (d :: ds) = ⟨n, d.1, d.2.1, d.2.2⟩ :: numbered (n + 1) ds := rfl

theorem map_numbered (n : Nat) (ds : List (Option String × TypeDecl × List String)) :
    (numbered n ds).map (fun d => (d.path, d.decl, d.outer)) = ds := by
  rw [numbered, List.map_map]
  exact List.zipIdx_map_fst _ _

theorem map_declarations (c : Compilation) :
    (c.declarations.map fun d => (d.path, d.decl)) =
      c.trees.flatMap fun t => t.skeleton.types.map (t.path, ·) := by
  have hpairs := congrArg (List.map fun d => (d.1, d.2.1)) (map_numbered 0 (declared c.trees))
  rw [List.map_map, declared, List.map_flatMap] at hpairs
  refine hpairs.trans (List.flatMap_congr fun t _ => ?_)
  rw [SourceTree.skeleton, Skeleton.ofText, ← Skeleton.map_nestings, List.map_map, List.map_map]
  rfl

theorem place_eq {before after : List Declaration} (h : c.declarations = before ++ d :: after) :
    d.place = before.length := by
  have hplace : c.declarations[before.length]? = some d := by simp [h]
  rw [declarations, numbered, List.getElem?_map, List.getElem?_zipIdx, Option.map_eq_some_iff] at hplace
  obtain ⟨x, hx, rfl⟩ := hplace
  obtain ⟨y, -, rfl⟩ := Option.map_eq_some_iff.1 hx
  exact Nat.zero_add _

theorem declarations_sorted (c : Compilation) : c.declarations.Pairwise (·.place < ·.place) := by
  have hplaces : c.declarations.map (·.place) = List.range' 0 (declared c.trees).length := by
    rw [declarations, numbered, List.map_map]
    exact List.zipIdx_map_snd _ _
  rw [← List.pairwise_map, hplaces]
  exact List.pairwise_lt_range'

theorem declarations_nodup (c : Compilation) : c.declarations.Nodup := by
  refine c.declarations_sorted.imp ?_
  rintro d e hlt rfl
  exact Nat.lt_irrefl _ hlt

theorem exists_split (hd : d ∈ c.declarations) : ∃ after,
    c.declarations = c.declarations.take d.place ++ d :: after ∧
      ∀ e ∈ c.declarations.take d.place, e.place < d.place := by
  obtain ⟨before, after, h⟩ := List.append_of_mem hd
  have hsorted := c.declarations_sorted
  rw [h, List.pairwise_append] at hsorted
  have htake : c.declarations.take d.place = before := by rw [place_eq h, h, List.take_left]
  rw [htake]
  exact ⟨after, h, fun e he => hsorted.2.2 e he d List.mem_cons_self⟩

theorem filter_numbered_tree (path : Option String) (earlier : List TypeDecl)
    (ds : List (TypeDecl × List String)) (rest : List TypeDecl) :
    ((numbered earlier.length (ds.map (path, ·))).filter fun d =>
        isDuplicate ((earlier ++ ds.map (·.1) ++ rest).take d.place) d.decl).map (fun d => (d.path, d.decl)) =
      (redeclared earlier (ds.map (·.1))).map (path, ·) := by
  induction ds generalizing earlier with
  | nil => rfl
  | cons d ds ih =>
      have hih := ih (earlier ++ [d.1])
      have hall : earlier ++ (d :: ds).map (·.1) ++ rest = earlier ++ [d.1] ++ ds.map (·.1) ++ rest := by simp
      rw [List.length_append, List.length_singleton] at hih
      rw [hall, List.map_cons, numbered_cons, List.filter_cons, List.map_cons, redeclared, List.map_append, ← hih]
      have htake : (earlier ++ [d.1] ++ ds.map (·.1) ++ rest).take earlier.length = earlier := by simp
      dsimp only
      rw [htake]
      split
      · rfl
      · rfl

theorem filter_numbered (earlier : List TypeDecl) (ts : List SourceTree) :
    ((numbered earlier.length (declared ts)).filter fun d =>
        isDuplicate ((earlier ++ (declared ts).map (·.2.1)).take d.place) d.decl).map
          (fun d => (d.path, d.decl)) =
      redeclaredIn earlier (ts.map fun t => (t.path, t.skeleton)) := by
  induction ts generalizing earlier with
  | nil => rfl
  | cons t ts ih =>
      have htypes : (Skeleton.nestings (tokens t.text)).map (·.1) = t.skeleton.types := Skeleton.map_nestings _
      have hih := ih (earlier ++ t.skeleton.types)
      have htree := filter_numbered_tree t.path earlier (Skeleton.nestings (tokens t.text))
        ((declared ts).map (·.2.1))
      have hdeclared : declared (t :: ts) =
          (Skeleton.nestings (tokens t.text)).map (t.path, ·) ++ declared ts := rfl
      have hall : earlier ++ (declared (t :: ts)).map (·.2.1) =
          earlier ++ t.skeleton.types ++ (declared ts).map (·.2.1) := by
        rw [hdeclared, List.map_append, List.map_map, List.append_assoc, ← htypes]
        rfl
      have hlength : ((Skeleton.nestings (tokens t.text)).map (t.path, ·)).length = t.skeleton.types.length := by
        rw [← htypes, List.length_map, List.length_map]
      rw [htypes] at htree
      rw [List.length_append] at hih
      rw [hall, hdeclared, numbered_append, List.filter_append, List.map_append, hlength, htree, hih]
      rfl

/-- The reported declarations are those that the binding reports, in its order. -/
theorem map_repeats (c : Compilation) : c.repeats.map (fun d => (d.path, d.decl)) = c.redeclarations := by
  have hall := filter_numbered [] c.trees
  rw [List.nil_append, List.length_nil] at hall
  have hdecls := congrArg (List.map (·.2.1)) (map_numbered 0 (declared c.trees))
  rw [List.map_map] at hdecls
  rw [redeclarations, located_eq, ← hall, ← hdecls]
  simp only [repeats, declarations, List.map_take]
  rfl

theorem reports_eq (c : Compilation) :
    c.diagnostics.filter isRedeclaration = c.repeats.map fun d => duplicate d.path d.decl := by
  rw [filter_diagnostics, ← map_repeats, List.map_map]
  rfl

theorem find?_sameKey (ds : List Declaration) (decl : TypeDecl) :
    (ds.map (·.decl)).find? (sameKey decl) = (ds.filter (·.decl.key == decl.key)).head?.map (·.decl) := by
  have hkey : ∀ e : Declaration, sameKey decl e.decl = (e.decl.key == decl.key) := by
    intro e
    rw [Bool.eq_iff_iff, sameKey_iff, beq_iff_eq]
    exact eq_comm
  rw [List.find?_map, List.head?_filter]
  exact congrArg (fun p => (ds.find? p).map (·.decl)) (funext hkey)

/-- A declaration is reported if the first one of its key comes before it and not both are parts. -/
theorem mem_repeats_iff (hd : d ∈ c.declarations) :
    d ∈ c.repeats ↔ ∃ first later, c.group d.decl.key = first :: later ∧ first.place < d.place ∧
      ¬ (first.decl.isPartial = true ∧ d.decl.isPartial = true) := by
  obtain ⟨after, hsplit, hplaces⟩ := exists_split hd
  have hrepeats : d ∈ c.repeats ↔ isDuplicate ((c.declarations.take d.place).map (·.decl)) d.decl = true := by
    rw [repeats, List.mem_filter, and_iff_right hd]
  have hgroup : c.group d.decl.key = (c.declarations.take d.place).filter (·.decl.key == d.decl.key) ++
      d :: after.filter (·.decl.key == d.decl.key) := by
    rw [group]
    conv => enter [1]; rw [hsplit]
    rw [List.filter_append, List.filter_cons, if_pos (beq_self_eq_true _)]
  rw [hrepeats, isDuplicate, find?_sameKey, hgroup]
  cases hfilter : (c.declarations.take d.place).filter (·.decl.key == d.decl.key) with
  | nil => simp
  | cons first others =>
      have hfirst : first ∈ c.declarations.take d.place :=
        (List.mem_filter.1 (hfilter ▸ List.mem_cons_self)).1
      simp [hplaces first hfirst, or_iff_not_imp_left]

theorem mem_group : d ∈ c.group key ↔ d ∈ c.declarations ∧ d.decl.key = key := by
  rw [group, List.mem_filter, beq_iff_eq]

theorem group_sorted (c : Compilation) (key : Option String × Option String × String) :
    (c.group key).Pairwise (·.place < ·.place) :=
  c.declarations_sorted.sublist List.filter_sublist

section

variable {first : Declaration} {later : List Declaration}

theorem not_mem_repeats_of_group (h : c.group key = first :: later) : first ∉ c.repeats := by
  obtain ⟨hfirst, rfl⟩ := mem_group.1 (h ▸ List.mem_cons_self)
  rw [mem_repeats_iff hfirst, h]
  rintro ⟨_, _, ⟨⟩, hlt, -⟩
  exact Nat.lt_irrefl _ hlt

theorem mem_repeats_iff_of_group (h : c.group key = first :: later) (hd : d ∈ later) :
    d ∈ c.repeats ↔ ¬ (first.decl.isPartial = true ∧ d.decl.isPartial = true) := by
  obtain ⟨hmem, rfl⟩ := mem_group.1 (h ▸ List.mem_cons_of_mem _ hd)
  have hlt : first.place < d.place := by
    have hsorted := c.group_sorted d.decl.key
    rw [h] at hsorted
    exact List.rel_of_pairwise_cons hsorted hd
  rw [mem_repeats_iff hmem, h]
  constructor
  · rintro ⟨_, _, ⟨⟩, -, hparts⟩
    exact hparts
  · intro hparts
    exact ⟨first, later, rfl, hlt, hparts⟩

end

theorem exists_group_iff {e : Declaration} : (∃ later, c.group key = e :: later) ↔
    e ∈ c.group key ∧ ∀ f ∈ c.group key, e.place ≤ f.place := by
  have hsorted := c.group_sorted key
  constructor
  · rintro ⟨later, h⟩
    rw [h] at hsorted ⊢
    refine ⟨List.mem_cons_self, List.forall_mem_cons.2 ⟨Nat.le_refl _, fun f hf => ?_⟩⟩
    exact Nat.le_of_lt (List.rel_of_pairwise_cons hsorted hf)
  · rintro ⟨he, hleast⟩
    cases h : c.group key with
    | nil => simp [h] at he
    | cons first later =>
        rw [h] at he hleast hsorted
        obtain rfl | he := List.mem_cons.1 he
        · exact ⟨later, rfl⟩
        · have hlt := List.rel_of_pairwise_cons hsorted he
          exact absurd (hleast first List.mem_cons_self) (Nat.not_le.2 hlt)

theorem forall_group_iff (c : Compilation) (key : Option String × Option String × String) :
    (∀ d ∈ c.group key, d ∉ c.repeats) ↔
      (c.group key).length ≤ 1 ∨ ∀ d ∈ c.group key, d.decl.isPartial = true := by
  cases h : c.group key with
  | nil => simp
  | cons first later =>
      rw [List.forall_mem_cons, and_iff_right (not_mem_repeats_of_group h), List.forall_mem_cons]
      cases later with
      | nil => simp
      | cons e later =>
          constructor
          · intro hnone
            have hparts : ∀ d ∈ e :: later, first.decl.isPartial = true ∧ d.decl.isPartial = true := fun d hd =>
              not_not.1 (mt (mem_repeats_iff_of_group h hd).2 (hnone d hd))
            exact .inr ⟨(hparts e List.mem_cons_self).1, fun d hd => (hparts d hd).2⟩
          · rintro (hlength | ⟨hfirst, hparts⟩) d hd
            · simp at hlength
            · rw [mem_repeats_iff_of_group h hd, not_not]
              exact ⟨hfirst, hparts d hd⟩

/-- Each duplicate that is reported is one declaration, at its own place. Of the declarations of one name in one
namespace and one container, none is reported if there is one only or all are parts. The first one never is; each
later one is reported once, unless it and the first one are both parts, and then not at all. -/
theorem repeats_groups (c : Compilation) :
    (c.diagnostics.filter isRedeclaration = c.repeats.map fun d => duplicate d.path d.decl) ∧
    (∀ d ∈ c.repeats, (duplicate d.path d.decl).location = .inTree d.path d.decl.name.span) ∧
    (c.declarations.map fun d => (d.path, d.decl)) =
      (c.trees.flatMap fun t => t.skeleton.types.map (t.path, ·)) ∧
    c.repeats.Sublist c.declarations ∧
    ∀ key,
      ((∀ d ∈ c.group key, d ∉ c.repeats) ↔
        (c.group key).length ≤ 1 ∨ ∀ d ∈ c.group key, d.decl.isPartial = true) ∧
      ∀ first later, c.group key = first :: later →
        first ∉ c.repeats ∧
        ∀ d ∈ later, c.repeats.count d = if first.decl.isPartial && d.decl.isPartial then 0 else 1 := by
  refine ⟨reports_eq c, fun _ _ => rfl, map_declarations c, List.filter_sublist,
    fun key => ⟨forall_group_iff c key, ?_⟩⟩
  intro first later h
  refine ⟨not_mem_repeats_of_group h, fun d hd => ?_⟩
  have hrepeats := mem_repeats_iff_of_group h hd
  rw [← Bool.and_eq_true_iff] at hrepeats
  have hnodup : c.repeats.Nodup := c.declarations_nodup.sublist List.filter_sublist
  rw [hnodup.count]
  by_cases hmem : d ∈ c.repeats
  · rw [if_pos hmem, if_neg (hrepeats.1 hmem)]
  · rw [if_neg hmem, if_pos (not_not.1 (mt hrepeats.2 hmem))]

/-- A whole type between two parts. -/
theorem repeats_groups_parts :
    let c := ofTrees "T" [⟨none, "partial class A \x7b\x7d\nclass A \x7b\x7d"⟩, ⟨none, "partial class A \x7b\x7d"⟩] [] {}
    ∃ first d e, c.group (none, none, "A") = [first, d, e] ∧
      first ∉ c.repeats ∧ c.repeats.count d = 1 ∧ c.repeats.count e = 0 := by
  intro c
  have hfirst : Skeleton.nestings (tokens "partial class A \x7b\x7d\nclass A \x7b\x7d") = _ :=
    Parser.nestings_iterate 4 (by decide +kernel)
  have hsecond : Skeleton.nestings (tokens "partial class A \x7b\x7d") = _ :=
    Parser.nestings_iterate 2 (by decide +kernel)
  have hparts : (c.group (none, none, "A")).map (·.decl.isPartial) = [true, false, true] := by
    simp only [group, declarations, declared, c, ofTrees, List.flatMap_cons, List.flatMap_nil, hfirst, hsecond]
    decide +kernel
  obtain ⟨first, _, hgroup, hwhole, hparts⟩ := List.map_eq_cons_iff.1 hparts
  obtain ⟨d, _, rfl, hd, hparts⟩ := List.map_eq_cons_iff.1 hparts
  obtain ⟨e, _, rfl, he, hparts⟩ := List.map_eq_cons_iff.1 hparts
  obtain rfl := List.map_eq_nil_iff.1 hparts
  obtain ⟨hnever, hlater⟩ := ((repeats_groups c).2.2.2.2 (none, none, "A")).2 first [d, e] hgroup
  refine ⟨first, d, e, hgroup, hnever, ?_, ?_⟩
  · rw [hlater d List.mem_cons_self, hd, Bool.and_false]
    rfl
  · rw [hlater e (List.mem_cons_of_mem _ (List.mem_singleton_self e)), hwhole, he]
    rfl

end Compilation

end GeneratorBench
