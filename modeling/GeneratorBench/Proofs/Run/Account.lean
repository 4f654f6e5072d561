import GeneratorBench.Proofs.Run.Folding

/-!
What a run that succeeds is made of: the turns of its analyzers and of its generators. Its context is
left with all that they had to say, its result with what the filters let through.
-/

namespace GeneratorBench

variable {σ : Type}

structure Inspection (σ : Type) where
  analyzer : Analyzer σ
  outcome : Except Failure (List Diagnostic)

def Inspection.report (i : Inspection σ) : List Diagnostic := i.analyzer.report i.outcome

/-- Analyzers one after the other on one compilation, each in the session that the one before it left. -/
inductive Inspected (c : Compilation) : Session σ → List (Inspection σ) → Session σ → Prop
  | done {s : Session σ} (live : s.cancelled = false) : Inspected c s [] s
  | turn {i : Inspection σ} {is : List (Inspection σ)} {s mid s' : Session σ}
      (live : s.cancelled = false)
      (called : s.call (.analyze i.analyzer.id) (i.analyzer.analyze c) = (i.outcome, mid))
      (rest : Inspected c mid is s') : Inspected c s (i :: is) s'

theorem Analyzer.runAll_inspected {c : Compilation} {as : List (Analyzer σ)} {s s' : Session σ}
    {ds : List Diagnostic} (h : runAll c as s = (some ds, s')) :
    ∃ is : List (Inspection σ), is.map (·.analyzer) = as ∧ Inspected c s is s' ∧
      ds = is.flatMap Inspection.report := by
  induction as generalizing s ds with
  | nil =>
      rw [runAll] at h
      split at h
      · cases h
      · rename_i live
        cases h
        exact ⟨[], rfl, .done (eq_false_of_ne_true live), rfl⟩
  | cons a as ih =>
      rw [runAll] at h
      split at h
      · cases h
      · rename_i live
        cases hrest : runAll c as (s.call (.analyze a.id) (a.analyze c)).2 with
        | mk later last =>
            simp only [hrest] at h
            cases later with
            | none => cases h
            | some later =>
                cases h
                obtain ⟨is, his, hinspected, rfl⟩ := ih hrest
                exact ⟨⟨a, _⟩ :: is, congrArg (a :: ·) his,
                  .turn (eq_false_of_ne_true live) rfl hinspected, rfl⟩

/-- Where there is no analyzer the phase is passed over, and nothing is reported. -/
theorem Phase.analyze_inspected {c : Compilation} {run after : Run σ} (hc : run.context.compilation = some c)
    (fresh : run.context.analyzerDiagnostics = []) (h : analyze.run run = (none, after)) :
    ∃ (is : List (Inspection σ)) (s s' : Session σ),
      is.map (·.analyzer) = run.context.configuration.analyzers ∧ Inspected c s is s' ∧
      after.context = { run.context with analyzerDiagnostics := is.flatMap Inspection.report } ∧
      s.memory = run.session.memory ∧ after.session.memory = s'.memory := by
  simp only [Phase.run, RunContext.requireCompilation, hc] at h
  split at h
  · rename_i hnone
    cases h
    refine ⟨[], { run.session with cancelled := false }, _, ?_, .done rfl, ?_, rfl, rfl⟩
    · exact (List.isEmpty_iff.1 hnone).symm
    · rw [List.flatMap_nil, ← fresh]
  · split at h
    · cases h
    · rename_i ds s' hrun
      cases h
      obtain ⟨is, his, hinspected, rfl⟩ := Analyzer.runAll_inspected hrun
      exact ⟨is, _, _, his, hinspected, by rw [← hc], rfl, rfl⟩

namespace TestResult

variable {r : TestResult σ} {id : String} {run : GeneratorRun}

theorem runOf_of_lookup {g : Generator σ} (h : r.drivers.lookup id = some ⟨g, some run⟩) : r.runOf id = .ok run := by
  rw [runOf, driver, h]

theorem runOf_of_mem (nodup : (r.drivers.map (·.1)).Nodup) {g : Generator σ} (h : (id, ⟨g, some run⟩) ∈ r.drivers) :
    r.runOf id = .ok run := by
  obtain ⟨xs, ys, hsplit⟩ := List.append_of_mem h
  refine runOf_of_lookup (List.lookup_eq_some_iff.2 ⟨xs, ys, hsplit, fun old hold => ?_⟩)
  rw [hsplit, List.map_append] at nodup
  have hne := (List.nodup_append.1 nodup).2.2 old.1 (List.mem_map_of_mem hold) id List.mem_cons_self
  exact bne_iff_ne.2 hne.symm

theorem runOf_of_not_mem (h : id ∉ r.drivers.map (·.1)) : r.runOf id = .error (.unknownGenerator id) := by
  have hlookup : r.drivers.lookup id = none := by
    rw [List.lookup_eq_none_iff]
    intro old hold
    exact bne_iff_ne.2 fun hid => h (hid ▸ List.mem_map_of_mem hold)
  rw [runOf, driver, hlookup]

theorem mem_of_runOf (h : r.runOf id = .ok run) : ∃ g, (id, ⟨g, some run⟩) ∈ r.drivers := by
  rw [runOf, driver] at h
  cases hlookup : r.drivers.lookup id with
  | none =>
      rw [hlookup] at h
      cases h
  | some d =>
      rw [hlookup] at h
      obtain ⟨g, _ | last⟩ := d
      · cases h
      · cases h
        obtain ⟨xs, ys, hsplit, -⟩ := List.lookup_eq_some_iff.1 hlookup
        exact ⟨g, hsplit ▸ List.mem_append_right _ List.mem_cons_self⟩

theorem runOf_of_split {q : TestResult σ} {xs ys : Drivers σ} {other : String} {d : GeneratorDriver σ}
    (hr : r.drivers = xs ++ (other, d) :: ys) (hq : q.drivers = xs ++ ys) (hid : other ≠ id) :
    q.runOf id = r.runOf id := by
  have hlookup : r.drivers.lookup id = q.drivers.lookup id := by
    rw [hr, hq, List.lookup_append, List.lookup_append, List.lookup_cons, beq_false_of_ne hid.symm]
  rw [runOf, runOf, driver, driver, hlookup]

end TestResult

/-- All that was reported, before any filter. -/
def RunContext.diagnostics (ctx : RunContext σ) : Stage → List Diagnostic
  | .analyzer => ctx.analyzerDiagnostics
  | .generator => ctx.generatorDiagnostics
  | .final => ctx.finalDiagnostics

structure Course (σ : Type) where
  inspections : List (Inspection σ)
  turns : List (Turn σ)
  beforeAnalyzers : Session σ
  afterAnalyzers : Session σ
  beforeGenerators : Session σ
  afterGenerators : Session σ

structure Course.Undisturbed (k : Course σ) (s s' : Session σ) : Prop where
  start : k.beforeAnalyzers.memory = s.memory
  between : k.beforeGenerators.memory = k.afterAnalyzers.memory
  final : s'.memory = k.afterGenerators.memory

/-- What became of the context of a run that succeeded, and of its result, in the course of it. -/
structure Account (ctx : RunContext σ) (k : Course σ) (r : TestResult σ) (after : RunContext σ) : Prop where
  analyzers : k.inspections.map (·.analyzer) = ctx.configuration.analyzers
  inspected : Inspected (ctx.configuration.compile ctx.decoratedTrees)
    k.beforeAnalyzers k.inspections k.afterAnalyzers
  generators : k.turns.map (·.generator) = ctx.configuration.generators
  folded : Folded (ctx.configuration.compile ctx.decoratedTrees)
    k.beforeGenerators k.turns r.compilation k.afterGenerators
  drivers : r.drivers = k.turns.map fun t => (t.generator.id, t.driver)
  analyzer : after.diagnostics .analyzer = k.inspections.flatMap Inspection.report
  generator : after.diagnostics .generator = k.turns.flatMap (·.run.diagnostics)
  final : after.diagnostics .final = r.compilation.diagnostics
  views : ∀ stage, r.diagnostics stage = ctx.configuration.filters.apply (after.diagnostics stage)

namespace Account

variable {ctx after : RunContext σ} {k : Course σ} {r : TestResult σ}

theorem map_drivers (h : Account ctx k r after) :
    r.drivers.map (·.1) = ctx.configuration.generators.map (·.id) := by
  rw [h.drivers, ← h.generators, List.map_map, List.map_map]
  rfl

theorem runs_eq (h : Account ctx k r after) : r.runs = k.turns.map (·.run) := Run.runs_of_turns h.drivers

theorem map_generator (h : Account ctx k r after) :
    r.runs.map (·.generator) = ctx.configuration.generators.map (·.id) := by
  rw [h.runs_eq, ← h.generators, List.map_map, List.map_map]
  exact List.map_congr_left h.folded.run_generator

end Account

namespace Run

theorem foldl_addTurn_generatorDiagnostics (ts : List (Turn σ)) (ctx : RunContext σ) :
    (ts.foldl RunContext.addTurn ctx).generatorDiagnostics =
      ctx.generatorDiagnostics ++ ts.flatMap (·.output.diagnostics) := by
  induction ts generalizing ctx with
  | nil => simp
  | cons t ts ih =>
      rw [List.foldl_cons, ih, List.flatMap_cons, ← List.append_assoc]
      rfl

theorem foldl_addTurn_kept {α : Type} {f : RunContext σ → α} (hf : ∀ ctx t, f (ctx.addTurn t) = f ctx)
    (ts : List (Turn σ)) (ctx : RunContext σ) : f (ts.foldl RunContext.addTurn ctx) = f ctx := by
  induction ts generalizing ctx with
  | nil => rfl
  | cons t ts ih => rw [List.foldl_cons, ih, hf]

/-- Every run that succeeds can be accounted for, whatever its plugins do. -/
theorem runAll_account {ctx : RunContext σ} (fresh : ctx.Fresh)
    (nodup : (ctx.configuration.generators.map (·.id)).Nodup) {plugins : List (Plugin σ)} {s : Session σ}
    {r : TestResult σ} {after : Run σ} (h : runAll plugins ⟨ctx, s⟩ = (.ok r, after)) :
    ∃ k : Course σ, Account ctx k r after.context ∧
      ((∀ p ∈ plugins, p.KeepsMemory) → k.Undisturbed s after.session) := by
  obtain ⟨s₁, s₂, analyzed, last, done, hanalyzed, hgenerate, hafter, hresult, hmemory⟩ := runAll_stages h
  obtain ⟨is, s₃, s₄, hanalyzers, hinspected, hcontext, hstart, hbetween⟩ :=
    Phase.analyze_inspected rfl fresh.analyzerDiagnostics hanalyzed
  rw [hcontext] at hgenerate
  obtain ⟨ts, hgenerators, hfold, hdone⟩ := generate_folded hgenerate
  rw [fresh.trees, List.nil_append] at hinspected hfold
  have hdrivers : done.context.drivers = ts.map fun t => (t.generator.id, t.driver) := by
    rw [hdone]
    exact drivers_of_turns fresh.drivers (hgenerators ▸ nodup)
  have hgenerator : done.context.generatorDiagnostics = ts.flatMap (·.run.diagnostics) := by
    rw [hdone, foldl_addTurn_generatorDiagnostics, fresh.generatorDiagnostics, List.nil_append]
    exact List.flatMap_congr fun t ht => congrArg DriverOutput.diagnostics (hfold.output_eq t ht)
  have hanalyzer : done.context.analyzerDiagnostics = is.flatMap Inspection.report := by
    rw [hdone]
    exact foldl_addTurn_kept (f := RunContext.analyzerDiagnostics) (fun _ _ => rfl) ts _
  have hconfiguration : done.context.configuration = ctx.configuration := by
    rw [hdone]
    exact foldl_addTurn_kept (f := RunContext.configuration) (fun _ _ => rfl) ts _
  let k : Course σ := ⟨is, ts, s₃, s₄, s₂, done.session⟩
  have hundisturbed : (∀ p ∈ plugins, p.KeepsMemory) → k.Undisturbed s after.session := by
    intro hkeeps
    obtain ⟨hfirst, hsecond, hlast⟩ := hmemory hkeeps
    exact ⟨hstart.trans hfirst, hsecond.trans hbetween, hlast⟩
  cases hresult
  rw [hafter]
  refine ⟨k, ?_, hundisturbed⟩
  exact {
    analyzers := hanalyzers
    inspected := hinspected
    generators := hgenerators
    folded := hfold
    drivers := hdrivers
    analyzer := hanalyzer
    generator := hgenerator
    final := rfl
    views := by
      intro stage
      rw [← hconfiguration]
      cases stage with
      | analyzer => rfl
      | generator => rfl
      | final => rfl }

end Run

end GeneratorBench
