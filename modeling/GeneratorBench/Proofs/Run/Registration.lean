import GeneratorBench.Run.Context
import Mathlib.Data.List.Nodup
import Mathlib.Data.List.Perm.Basic

/-!
A configuration keeps its generators in a list for each kind, and their ids in a third one. However it was made, the
ids are those of the generators, each once. So each generator of a run gets a driver of its own.
-/

namespace GeneratorBench

variable {σ : Type}

def Unused (known ids : List String) : Prop := ids.Nodup ∧ ids.Disjoint known

section

variable {known ids xs ys : List String} {id : String}

theorem unused_nil (known : List String) : Unused known [] := ⟨List.nodup_nil, List.disjoint_nil_left _⟩

theorem unused_append : Unused known (xs ++ ys) ↔ Unused known xs ∧ Unused (known ++ xs) ys := by
  simp only [Unused, List.nodup_append', List.disjoint_append_left, List.disjoint_append_right]
  constructor
  · rintro ⟨⟨hxs, hys, hdisjoint⟩, hx, hy⟩
    exact ⟨⟨hxs, hx⟩, hys, hy, List.disjoint_symm hdisjoint⟩
  · rintro ⟨⟨hxs, hx⟩, hys, hy, hdisjoint⟩
    exact ⟨⟨hxs, hys, List.disjoint_symm hdisjoint⟩, hx, hy⟩

theorem unused_singleton : Unused known [id] ↔ id ∉ known := by
  simp [Unused]

theorem unused_cons : Unused known (id :: ids) ↔ id ∉ known ∧ Unused (known ++ [id]) ids := by
  rw [← unused_singleton, ← unused_append, List.singleton_append]

theorem unused_perm (h : xs.Perm ys) : Unused known xs ↔ Unused known ys :=
  and_congr h.nodup_iff ⟨fun hxs _ hmem => hxs (h.mem_iff.2 hmem), fun hys _ hmem => hys (h.mem_iff.1 hmem)⟩

end

def Change.ofKind : GeneratorKind → Change σ → List (Generator σ)
  | .oneShot, oneShotGenerators gs => gs.map .oneShot
  | .incremental, incrementalGenerators gs => gs.map .incremental
  | _, _ => []

def Change.generators (change : Change σ) : List (Generator σ) := change.ofKind .oneShot ++ change.ofKind .incremental

namespace Generator

def oneShot? : Generator σ → Option (OneShotGenerator σ)
  | oneShot g => some g
  | incremental _ => none

def incremental? : Generator σ → Option (IncrementalGenerator σ)
  | oneShot _ => none
  | incremental g => some g

theorem map_oneShot (gs : List (Generator σ)) :
    (gs.filterMap oneShot?).map oneShot = gs.filter (·.kind == .oneShot) := by
  induction gs with
  | nil => rfl
  | cons g gs ih =>
      cases g with
      | oneShot g => exact congrArg (oneShot g :: ·) ih
      | incremental g => exact ih

theorem map_incremental (gs : List (Generator σ)) :
    (gs.filterMap incremental?).map incremental = gs.filter (·.kind == .incremental) := by
  induction gs with
  | nil => rfl
  | cons g gs ih =>
      cases g with
      | oneShot g => exact ih
      | incremental g => exact congrArg (incremental g :: ·) ih

theorem filter_kind_perm (gs : List (Generator σ)) :
    (gs.filter (·.kind == .oneShot) ++ gs.filter (·.kind == .incremental)).Perm gs := by
  have hkind : gs.filter (·.kind == .incremental) = gs.filter fun g => !(g.kind == .oneShot) := by
    refine List.filter_congr fun g _ => ?_
    cases g with
    | oneShot g => rfl
    | incremental g => rfl
  rw [hkind]
  exact List.filter_append_perm _ _

end Generator

namespace Configuration

variable {c d : Configuration σ} {change : Change σ}

inductive Reachable : Configuration σ → Prop
  | new (references : List Reference) : Reachable { references }
  | single (references : List Reference) (g : IncrementalGenerator σ) :
      Reachable (single references g)
  | ofProfile {fs : Files} {path : String} {c : Configuration σ} (h : ofProfile fs path = .ok c) :
      Reachable c
  | apply {c d : Configuration σ} {change : Change σ} (hc : Reachable c)
      (h : c.apply change = .ok d) : Reachable d

/-- The ids that are taken are those of the generators, each once. -/
structure InStep (c : Configuration σ) : Prop where
  nodup : c.generatorIds.Nodup
  perm : c.generatorIds.Perm (c.generators.map (·.id))

def ofKind (c : Configuration σ) : GeneratorKind → List (Generator σ)
  | .oneShot => c.oneShots.map .oneShot
  | .incremental => c.incrementals.map .incremental

def adding (c : Configuration σ) (gs : List (Generator σ)) : Configuration σ :=
  { c with
    oneShots := c.oneShots ++ gs.filterMap Generator.oneShot?
    incrementals := c.incrementals ++ gs.filterMap Generator.incremental?
    generatorIds := c.generatorIds ++ gs.map (·.id) }

theorem adding_adding (c : Configuration σ) (gs hs : List (Generator σ)) :
    (c.adding gs).adding hs = c.adding (gs ++ hs) := by
  simp only [adding, List.append_assoc, List.filterMap_append, List.map_append]

theorem ofKind_adding (c : Configuration σ) (gs : List (Generator σ)) (kind : GeneratorKind) :
    (c.adding gs).ofKind kind = c.ofKind kind ++ gs.filter (·.kind == kind) := by
  cases kind with
  | oneShot => rw [← Generator.map_oneShot]; exact List.map_append
  | incremental => rw [← Generator.map_incremental]; exact List.map_append

theorem generators_adding (c : Configuration σ) (gs : List (Generator σ)) :
    (c.adding gs).generators.Perm (c.generators ++ gs) := by
  have hgenerators (c : Configuration σ) : c.generators = c.ofKind .oneShot ++ c.ofKind .incremental := rfl
  rw [hgenerators, hgenerators, ofKind_adding, ofKind_adding]
  refine List.Perm.trans ?_ ((Generator.filter_kind_perm gs).append_left _)
  rw [List.append_assoc, List.append_assoc]
  exact (List.perm_append_comm_assoc _ _ _).append_left _

theorem InStep.adding {gs : List (Generator σ)} (h : c.InStep) (hgs : Unused c.generatorIds (gs.map (·.id))) :
    (c.adding gs).InStep where
  nodup := (unused_append.2 ⟨⟨h.nodup, List.disjoint_nil_right _⟩, hgs⟩).1
  perm := by
    refine List.Perm.trans ?_ ((c.generators_adding gs).map _).symm
    rw [List.map_append]
    exact h.perm.append_right _

def register (c : Configuration σ) : Generator σ → Except Error (Configuration σ)
  | .oneShot g => c.registerOneShot g
  | .incremental g => c.registerIncremental g

theorem register_of_mem {g : Generator σ} (h : g.id ∈ c.generatorIds) :
    c.register g = .error (.duplicateGenerator g.id) := by
  have htrack : c.track g.id = .error (.duplicateGenerator g.id) := if_pos (List.contains_iff_mem.2 h)
  cases g with
  | oneShot g => exact congrArg (· >>= _) htrack
  | incremental g => exact congrArg (· >>= _) htrack

theorem register_of_not_mem {g : Generator σ} (h : g.id ∉ c.generatorIds) : c.register g = .ok (c.adding [g]) := by
  have htrack : c.track g.id = .ok { c with generatorIds := c.generatorIds ++ [g.id] } :=
    if_neg (mt List.contains_iff_mem.1 h)
  cases g with
  | oneShot g =>
      refine (congrArg (· >>= _) htrack).trans (congrArg Except.ok ?_)
      simp [adding, Generator.oneShot?, Generator.incremental?, Generator.id]
  | incremental g =>
      refine (congrArg (· >>= _) htrack).trans (congrArg Except.ok ?_)
      simp [adding, Generator.oneShot?, Generator.incremental?, Generator.id]

def registerAll (c : Configuration σ) (gs : List (Generator σ)) : Except Error (Configuration σ) :=
  gs.foldlM register c

theorem registerAll_of_unused {gs : List (Generator σ)} (h : Unused c.generatorIds (gs.map (·.id))) :
    c.registerAll gs = .ok (c.adding gs) := by
  induction gs generalizing c with
  | nil => simp only [adding, List.filterMap_nil, List.map_nil, List.append_nil]; rfl
  | cons g gs ih =>
      obtain ⟨hfirst, hrest⟩ := unused_cons.1 h
      have hnext := ih (c := c.adding [g]) hrest
      rw [adding_adding] at hnext
      rw [registerAll, List.foldlM_cons, register_of_not_mem hfirst]
      exact hnext

theorem registerAll_of_not_unused {gs : List (Generator σ)} (h : ¬ Unused c.generatorIds (gs.map (·.id))) :
    ∃ pre g post, gs = pre ++ g :: post ∧ Unused c.generatorIds (pre.map (·.id)) ∧
      g.id ∈ c.generatorIds ++ pre.map (·.id) ∧ c.registerAll gs = .error (.duplicateGenerator g.id) := by
  induction gs generalizing c with
  | nil => exact absurd (unused_nil _) h
  | cons g gs ih =>
      by_cases hfirst : g.id ∈ c.generatorIds
      · refine ⟨[], g, gs, rfl, unused_nil _, by simpa using hfirst, ?_⟩
        rw [registerAll, List.foldlM_cons, register_of_mem hfirst]
        rfl
      · have hrest : ¬ Unused (c.adding [g]).generatorIds (gs.map (·.id)) :=
          fun hrest => h (unused_cons.2 ⟨hfirst, hrest⟩)
        obtain ⟨pre, other, post, rfl, hpre, hother, herror⟩ := ih hrest
        have hids : (c.adding [g]).generatorIds = c.generatorIds ++ [g.id] := rfl
        rw [hids, List.append_assoc] at hother
        refine ⟨g :: pre, other, post, rfl, unused_cons.2 ⟨hfirst, hpre⟩, hother, ?_⟩
        rw [registerAll, List.foldlM_cons, register_of_not_mem hfirst]
        exact herror

theorem registerAll_ok_iff {gs : List (Generator σ)} :
    (∃ d, c.registerAll gs = .ok d) ↔ Unused c.generatorIds (gs.map (·.id)) := by
  constructor
  · rintro ⟨d, hd⟩
    by_contra h
    obtain ⟨pre, g, post, -, -, -, herror⟩ := registerAll_of_not_unused h
    rw [herror] at hd
    cases hd
  · exact fun h => ⟨_, registerAll_of_unused h⟩

theorem apply_oneShots (c : Configuration σ) (gs : List (OneShotGenerator σ)) :
    c.apply (.oneShotGenerators gs) = c.registerAll (gs.map .oneShot) := by
  rw [apply, registerAll, List.foldlM_map]
  rfl

theorem apply_incrementals (c : Configuration σ) (gs : List (IncrementalGenerator σ)) :
    c.apply (.incrementalGenerators gs) = c.registerAll (gs.map .incremental) := by
  rw [apply, registerAll, List.foldlM_map]
  rfl

theorem apply_cases (c : Configuration σ) (change : Change σ) :
    c.apply change = c.registerAll change.generators ∨
      change.generators = [] ∧ ∃ d, c.apply change = .ok d ∧ d.generatorIds = c.generatorIds ∧
        ∀ kind, d.ofKind kind = c.ofKind kind := by
  cases change with
  | oneShotGenerators gs => exact .inl (by simp [apply_oneShots, Change.generators, Change.ofKind])
  | incrementalGenerators gs => exact .inl (by simp [apply_incrementals, Change.generators, Change.ofKind])
  | assemblyName | options | references | analyzers | filters =>
      refine .inr ⟨rfl, _, rfl, rfl, fun kind => ?_⟩
      cases kind with
      | oneShot | incremental => rfl

theorem apply_ok_iff : (∃ d, c.apply change = .ok d) ↔ Unused c.generatorIds (change.generators.map (·.id)) := by
  obtain h | ⟨hnone, d, h, -⟩ := c.apply_cases change
  · rw [h, registerAll_ok_iff]
  · rw [hnone]
    exact ⟨fun _ => unused_nil _, fun _ => ⟨d, h⟩⟩

theorem apply_error (h : ¬ Unused c.generatorIds (change.generators.map (·.id))) :
    ∃ pre g post, change.generators = pre ++ g :: post ∧ Unused c.generatorIds (pre.map (·.id)) ∧
      g.id ∈ c.generatorIds ++ pre.map (·.id) ∧ c.apply change = .error (.duplicateGenerator g.id) := by
  obtain hall | ⟨hnone, -⟩ := c.apply_cases change
  · rw [hall]
    exact registerAll_of_not_unused h
  · rw [hnone] at h
    exact absurd (unused_nil _) h

theorem filter_generators (change : Change σ) (kind : GeneratorKind) :
    change.generators.filter (·.kind == kind) = change.ofKind kind := by
  cases change with
  | oneShotGenerators gs => cases kind <;> simp [Change.generators, Change.ofKind, Generator.kind]
  | incrementalGenerators gs => cases kind <;> simp [Change.generators, Change.ofKind, Generator.kind]
  | assemblyName | options | references | analyzers | filters => cases kind <;> rfl

/-- A change that succeeds takes the ids of its generators, and puts each kind behind those that are there. -/
theorem apply_ok (h : c.apply change = .ok d) : Unused c.generatorIds (change.generators.map (·.id)) ∧
    d.generatorIds = c.generatorIds ++ change.generators.map (·.id) ∧
    ∀ kind, d.ofKind kind = c.ofKind kind ++ change.ofKind kind := by
  have hunused := apply_ok_iff.1 ⟨d, h⟩
  refine ⟨hunused, ?_⟩
  obtain hall | ⟨hnone, e, he, hids, hkinds⟩ := c.apply_cases change
  · rw [hall, registerAll_of_unused hunused] at h
    cases h
    refine ⟨rfl, fun kind => ?_⟩
    rw [ofKind_adding, filter_generators]
  · rw [he] at h
    cases h
    refine ⟨by rw [hids, hnone, List.map_nil, List.append_nil], fun kind => ?_⟩
    rw [hkinds, ← filter_generators, hnone, List.filter_nil, List.append_nil]

theorem InStep.apply (h : c.InStep) (hd : c.apply change = .ok d) : d.InStep := by
  obtain ⟨hunused, hids, hkinds⟩ := apply_ok hd
  have hadded := h.adding hunused
  have hgenerators : d.generators = (c.adding change.generators).generators := by
    refine congrArg₂ (· ++ ·) ((hkinds .oneShot).trans ?_) ((hkinds .incremental).trans ?_)
    · rw [← filter_generators, ← ofKind_adding]
      rfl
    · rw [← filter_generators, ← ofKind_adding]
      rfl
  exact ⟨hids ▸ hadded.nodup, hgenerators ▸ hids ▸ hadded.perm⟩

theorem inStep_new (references : List Reference) : InStep ({ references } : Configuration σ) :=
  ⟨List.nodup_nil, .nil⟩

theorem inStep_ofProfile {fs : Files} {path : String} (h : Configuration.ofProfile fs path = .ok c) : c.InStep := by
  simp only [Configuration.ofProfile, bind, Except.bind] at h
  split at h
  · cases h
  · split at h
    · cases h
    · cases h
      exact ⟨List.nodup_nil, .nil⟩

theorem Reachable.inStep (h : c.Reachable) : c.InStep := by
  induction h with
  | new references => exact inStep_new references
  | single references g => exact ⟨List.nodup_singleton _, .refl _⟩
  | ofProfile h => exact inStep_ofProfile h
  | apply _ h ih => exact ih.apply h

theorem Reachable.nodup_generators (h : c.Reachable) : (c.generators.map (·.id)).Nodup :=
  h.inStep.perm.nodup_iff.1 h.inStep.nodup

end Configuration

theorem Drivers.insert_of_fresh {drivers : Drivers σ} {id : String} (h : id ∉ drivers.map (·.1))
    (driver : GeneratorDriver σ) : drivers.insert id driver = drivers ++ [(id, driver)] := by
  have hnone : drivers.any (·.1 == id) = false := by
    rw [List.any_eq_false]
    intro old hold hid
    exact h (List.mem_map.2 ⟨old, hold, beq_iff_eq.1 hid⟩)
  rw [insert, hnone]
  rfl

end GeneratorBench
