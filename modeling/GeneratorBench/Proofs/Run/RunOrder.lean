import GeneratorBench.Proofs.Run.Registration

/-!
The generators of a configuration: which can be registered, and in which order they run. Each kind runs in
the order of its own registrations, so calls that register generators of different kinds can be swapped.
-/

namespace GeneratorBench

variable {σ : Type}

namespace Configuration

variable {c d : Configuration σ}

theorem applyAll_cons {changes : List (Change σ)} (h : c.applyAll (change :: changes) = .ok d) :
    ∃ mid, c.apply change = .ok mid ∧ mid.applyAll changes = .ok d := by
  rw [applyAll, List.foldlM_cons] at h
  cases hfirst : c.apply change with
  | error e =>
      rw [hfirst] at h
      cases h
  | ok mid =>
      rw [hfirst] at h
      exact ⟨mid, rfl, h⟩

/-- Changes succeed one after the other exactly if all the ids they register are unused. -/
theorem applyAll_ok_iff {changes : List (Change σ)} :
    (∃ d, c.applyAll changes = .ok d) ↔
      Unused c.generatorIds ((changes.flatMap Change.generators).map (·.id)) := by
  induction changes generalizing c with
  | nil => exact ⟨fun _ => unused_nil _, fun _ => ⟨c, rfl⟩⟩
  | cons change changes ih =>
      rw [List.flatMap_cons, List.map_append, unused_append, ← apply_ok_iff, applyAll, List.foldlM_cons]
      cases hfirst : c.apply change with
      | error e =>
          constructor
          · rintro ⟨d, hd⟩
            cases hd
          · rintro ⟨⟨d, hd⟩, -⟩
            cases hd
      | ok mid =>
          obtain ⟨-, hids, -⟩ := apply_ok hfirst
          rw [← hids, ← ih, and_iff_right ⟨mid, rfl⟩]
          rfl

theorem applyAll_ofKind {changes : List (Change σ)} (h : c.applyAll changes = .ok d) (kind : GeneratorKind) :
    d.ofKind kind = c.ofKind kind ++ changes.flatMap (Change.ofKind kind) := by
  induction changes generalizing c with
  | nil =>
      cases h
      exact (List.append_nil _).symm
  | cons change changes ih =>
      obtain ⟨mid, hfirst, hrest⟩ := applyAll_cons h
      obtain ⟨-, -, hkinds⟩ := apply_ok hfirst
      rw [ih hrest, hkinds, List.append_assoc, List.flatMap_cons]

/-- Changes that register the same generators of each kind in the same order succeed together, and lead to
one run order. -/
theorem applyAll_interleaved {xs ys : List (Change σ)}
    (h : ∀ kind, xs.flatMap (Change.ofKind kind) = ys.flatMap (Change.ofKind kind)) :
    ((∃ d, c.applyAll xs = .ok d) ↔ ∃ d, c.applyAll ys = .ok d) ∧
      ∀ d e, c.applyAll xs = .ok d → c.applyAll ys = .ok e → d.generators = e.generators := by
  have hperm (xs : List (Change σ)) : (xs.flatMap Change.generators).Perm
      (xs.flatMap (Change.ofKind .oneShot) ++ xs.flatMap (Change.ofKind .incremental)) :=
    (List.flatMap_append_perm xs _ _).symm
  constructor
  · rw [applyAll_ok_iff, applyAll_ok_iff, unused_perm ((hperm xs).map _), unused_perm ((hperm ys).map _), h, h]
  · intro d e hd he
    have hkind (kind : GeneratorKind) : d.ofKind kind = e.ofKind kind := by
      rw [applyAll_ofKind hd, applyAll_ofKind he, h]
    exact congrArg₂ (· ++ ·) (hkind .oneShot) (hkind .incremental)

inductive Initial : Configuration σ → Prop
  | new (references : List Reference) : Initial { references }
  | single (references : List Reference) (g : IncrementalGenerator σ) : Initial (single references g)

theorem Initial.reachable (h : c.Initial) : c.Reachable := by
  cases h with
  | new references => exact .new references
  | single references g => exact .single references g

theorem Initial.ofKind_oneShot (h : c.Initial) : c.ofKind .oneShot = [] := by
  cases h with
  | new | single => rfl

theorem Reachable.applyAll {changes : List (Change σ)} (hc : c.Reachable) (h : c.applyAll changes = .ok d) :
    d.Reachable := by
  induction changes generalizing c with
  | nil =>
      cases h
      exact hc
  | cons change changes ih =>
      obtain ⟨mid, hfirst, hrest⟩ := applyAll_cons h
      exact ih (.apply hc hfirst) hrest

/-- A configuration made by changes knows exactly the ids of its generators, each once, and runs the one-shot
ones first, each kind as registered. A change fails exactly if it registers an id that is in use, over the
first one, and calls for different kinds can be swapped. -/
theorem applyAll_registration {start : Configuration σ} (hstart : start.Initial) {changes : List (Change σ)}
    (h : start.applyAll changes = .ok c) :
    let ids := c.generators.map (·.id)
    (ids.Nodup ∧ (∀ id, c.hasGenerator id = true ↔ id ∈ ids) ∧ c.generatorCount = ids.length) ∧
    c.generators = changes.flatMap (Change.ofKind .oneShot) ++
      (start.generators ++ changes.flatMap (Change.ofKind .incremental)) ∧
    (∀ change, (∃ d, c.apply change = .ok d) ↔ Unused ids (change.generators.map (·.id))) ∧
    (∀ change, ¬ Unused ids (change.generators.map (·.id)) →
      ∃ pre g post, change.generators = pre ++ g :: post ∧ Unused ids (pre.map (·.id)) ∧
        g.id ∈ ids ++ pre.map (·.id) ∧ c.apply change = .error (.duplicateGenerator g.id)) ∧
    ∀ gs hs later,
      let xs := .oneShotGenerators gs :: .incrementalGenerators hs :: later
      let ys := .incrementalGenerators hs :: .oneShotGenerators gs :: later
      ((∃ d, c.applyAll xs = .ok d) ↔ ∃ d, c.applyAll ys = .ok d) ∧
        ∀ d e, c.applyAll xs = .ok d → c.applyAll ys = .ok e → d.generators = e.generators := by
  intro ids
  have hreachable : c.Reachable := hstart.reachable.applyAll h
  have hperm : ids.Perm c.generatorIds := hreachable.inStep.perm.symm
  have hunused (xs : List String) : Unused ids xs ↔ Unused c.generatorIds xs := by
    simp only [Unused, List.Disjoint, hperm.mem_iff]
  refine ⟨⟨hreachable.nodup_generators, ?_, hperm.length_eq.symm⟩, ?_, ?_, ?_, ?_⟩
  · intro id
    rw [hasGenerator, List.contains_iff_mem, hperm.mem_iff]
  · have hincremental : start.generators = start.ofKind .incremental := by
      rw [generators, ← ofKind, hstart.ofKind_oneShot, List.nil_append]
      rfl
    rw [hincremental, ← applyAll_ofKind h, ← List.nil_append (List.flatMap _ _), ← hstart.ofKind_oneShot,
      ← applyAll_ofKind h]
    rfl
  · intro change
    rw [hunused, apply_ok_iff]
  · intro change hused
    rw [hunused] at hused
    obtain ⟨pre, g, post, hsplit, hpre, hg, herror⟩ := apply_error hused
    refine ⟨pre, g, post, hsplit, (hunused _).2 hpre, ?_, herror⟩
    rw [List.mem_append] at hg ⊢
    exact hg.imp_left hperm.mem_iff.2
  · intro gs hs later
    refine applyAll_interleaved fun kind => ?_
    cases kind with
    | oneShot => rfl
    | incremental => rfl

/-- A one-shot generator that is registered last runs first. A call that repeats an id of the other kind fails,
and registers nothing of what stands before it. -/
theorem applyAll_registration_mixed :
    let shot (id : String) : OneShotGenerator Unit := ⟨id, fun _ _ _ => ⟨{}, false, ()⟩⟩
    let incremental (id : String) : IncrementalGenerator Unit := ⟨id, fun _ _ _ _ => ⟨{}, false, ()⟩, none⟩
    let start := single [] (incremental "first")
    let changes : List (Change Unit) :=
      [.incrementalGenerators [incremental "second"], .assemblyName "Test", .oneShotGenerators [shot "last"]]
    start.Initial ∧ ∃ c, start.applyAll changes = .ok c ∧
      c.generators.map (·.id) = ["last", "first", "second"] ∧
      c.apply (.oneShotGenerators [shot "new", shot "second", shot "new"]) =
        .error (.duplicateGenerator "second") := by
  intro shot incremental start changes
  have hstart : start.Initial := .single [] _
  obtain ⟨c, hreached, hfails⟩ : ∃ c, start.applyAll changes = .ok c ∧
      c.apply (.oneShotGenerators [shot "new", shot "second", shot "new"]) =
        .error (.duplicateGenerator "second") := ⟨_, rfl, rfl⟩
  obtain ⟨-, horder, -⟩ := applyAll_registration hstart hreached
  refine ⟨hstart, c, hreached, ?_, hfails⟩
  rw [horder]
  rfl

end Configuration

end GeneratorBench
