import GeneratorBench.Proofs.Run.Account
import GeneratorBench.Proofs.Run.Blocks
import GeneratorBench.Proofs.Run.Closing

/-!
The views of a result are what the filters let through of all that was reported. The filters decide
nothing else: until the result is made, nobody asks them.
-/

namespace GeneratorBench

variable {σ : Type}

def RunContext.withFilters (ctx : RunContext σ) (chain : FilterChain) : RunContext σ :=
  { ctx with configuration := { ctx.configuration with filters := chain } }

def Run.withFilters (run : Run σ) (chain : FilterChain) : Run σ :=
  { run with context := run.context.withFilters chain }

/-- The hooks of a plugin, but those of the last phase, do not look at the filters. -/
def Plugin.IgnoresFilters (p : Plugin σ) : Prop :=
  ∀ moment phase ctx chain, phase ≠ .aggregate →
    p.hook moment phase (ctx.withFilters chain) = p.hook moment phase ctx

theorem LoggingOptions.plugin_ignoresFilters (options : LoggingOptions) :
    (options.plugin : Plugin σ).IgnoresFilters := by
  intro moment phase ctx chain h
  cases moment with
  | before => rfl
  | after =>
      cases phase with
      | aggregate => exact absurd rfl h
      | decorate | assemble | analyze | generate => rfl

namespace Run

theorem generate_withFilters (gs : List (Generator σ)) (c : Compilation) (run : Run σ) (chain : FilterChain) :
    generate gs c (run.withFilters chain) =
      ((generate gs c run).1, (generate gs c run).2.withFilters chain) := by
  induction gs generalizing c run with
  | nil => rfl
  | cons g gs ih =>
      have hsession : (run.withFilters chain).session = run.session := rfl
      rw [generate_cons, generate_cons, hsession]
      cases g.run c run.session with
      | mk r s =>
          cases r with
          | none => rfl
          | some x => exact ih x.2.compilation ⟨run.context.addRun g.id ⟨g, some x.1⟩ x.2, s⟩

end Run

theorem Phase.run_withFilters {phase : Phase} (h : phase ≠ .aggregate) (run : Run σ) (chain : FilterChain) :
    phase.run (run.withFilters chain) = ((phase.run run).1, (phase.run run).2.withFilters chain) := by
  have hrequire : (run.withFilters chain).context.requireCompilation phase.name =
      run.context.requireCompilation phase.name := rfl
  cases phase with
  | decorate =>
      dsimp only [Phase.run, Run.withFilters, RunContext.withFilters]
      split
      · rfl
      · rfl
  | assemble => rfl
  | analyze =>
      have hanalyzers : (run.withFilters chain).context.configuration.analyzers =
          run.context.configuration.analyzers := rfl
      have hsession : (run.withFilters chain).session = run.session := rfl
      simp only [Phase.run, hrequire, hanalyzers, hsession]
      split
      · rfl
      · cases run.context.requireCompilation analyze.name with
        | error e => rfl
        | ok c =>
            dsimp only
            cases Analyzer.runAll c run.context.configuration.analyzers run.session with
            | mk ds s =>
                cases ds with
                | none => rfl
                | some ds => rfl
  | generate =>
      have hgenerators : (run.withFilters chain).context.configuration.generators =
          run.context.configuration.generators := rfl
      simp only [Phase.run, hrequire, hgenerators, Run.generate_withFilters]
      cases run.context.requireCompilation generate.name with
      | error e => rfl
      | ok c =>
          dsimp only
          cases Run.generate run.context.configuration.generators c run with
          | mk outcome done =>
              cases outcome with
              | error e => rfl
              | ok last => rfl
  | aggregate => exact absurd rfl h

namespace Run

variable {plugins : List (Plugin σ)} {phase : Phase} {phases : List Phase} {run mid : Run σ}

theorem callAll_withFilters (hi : ∀ p ∈ plugins, p.IgnoresFilters) (h : phase ≠ .aggregate) (moment : Moment)
    (ctx : RunContext σ) (chain : FilterChain) (s : Session σ) :
    Plugin.callAll moment phase (ctx.withFilters chain) plugins s = Plugin.callAll moment phase ctx plugins s := by
  induction plugins generalizing s with
  | nil => rfl
  | cons p ps ih =>
      have hcall : p.call moment phase (ctx.withFilters chain) s = p.call moment phase ctx s := by
        rw [Plugin.call, Plugin.call, hi p List.mem_cons_self moment phase ctx chain h]
      rw [Plugin.callAll, Plugin.callAll, hcall]
      cases p.call moment phase ctx s with
      | mk failure s =>
          cases failure with
          | some e => rfl
          | none => exact ih (fun p hp => hi p (List.mem_cons_of_mem _ hp)) s

theorem hooks_withFilters (hi : ∀ p ∈ plugins, p.IgnoresFilters) (h : phase ≠ .aggregate) (moment : Moment)
    (run : Run σ) (chain : FilterChain) :
    hooks plugins moment phase (run.withFilters chain) =
      ((hooks plugins moment phase run).1, (hooks plugins moment phase run).2.withFilters chain) := by
  have hcalls := callAll_withFilters hi h moment run.context chain run.session
  have hsession : (run.withFilters chain).session = run.session := rfl
  have hcontext : (run.withFilters chain).context = run.context.withFilters chain := rfl
  rw [hooks, hooks, hsession, hcontext, hcalls]
  rfl

theorem runPhase_withFilters (hi : ∀ p ∈ plugins, p.IgnoresFilters) (h : phase ≠ .aggregate)
    (run : Run σ) (chain : FilterChain) :
    runPhase plugins phase (run.withFilters chain) =
      ((runPhase plugins phase run).1, (runPhase plugins phase run).2.withFilters chain) := by
  have hbefore := hooks_withFilters hi h .before
    { run with session := run.session.emit (phaseEvent phase) } chain
  have hstart : ({ run.withFilters chain with
      session := (run.withFilters chain).session.emit (phaseEvent phase) } : Run σ) =
        Run.withFilters { run with session := run.session.emit (phaseEvent phase) } chain := rfl
  rw [runPhase, runPhase, hstart, hbefore]
  cases hooks plugins .before phase { run with session := run.session.emit (phaseEvent phase) } with
  | mk failure before =>
      cases failure with
      | some e => rfl
      | none =>
          dsimp only
          rw [Phase.run_withFilters h]
          cases phase.run before with
          | mk failure done =>
              cases failure with
              | some e => rfl
              | none => exact hooks_withFilters hi h .after done chain

theorem runPhases_withFilters (hi : ∀ p ∈ plugins, p.IgnoresFilters) (h : .aggregate ∉ phases)
    (run : Run σ) (chain : FilterChain) :
    runPhases plugins phases (run.withFilters chain) =
      ((runPhases plugins phases run).1, (runPhases plugins phases run).2.withFilters chain) := by
  induction phases generalizing run with
  | nil => rfl
  | cons phase phases ih =>
      rw [List.mem_cons, not_or] at h
      have hsession : (run.withFilters chain).session = run.session := rfl
      rw [runPhases, runPhases, hsession, runPhase_withFilters hi (Ne.symm h.1)]
      split
      · rfl
      · cases runPhase plugins phase run with
        | mk failure mid =>
            cases failure with
            | some e => rfl
            | none => exact ih h.2 mid

theorem runAll_withFilters (hp : ∀ p ∈ plugins, p.Passive) (hi : ∀ p ∈ plugins, p.IgnoresFilters)
    {r : TestResult σ} {after : Run σ} (h : runAll plugins run = (.ok r, after)) (chain : FilterChain) :
    ∃ q after', runAll plugins (run.withFilters chain) = (.ok q, after') ∧
      q.drivers = r.drivers ∧ q.compilation = r.compilation := by
  have hnone := (exists_result_iff plugins run).1 ⟨r, congrArg Prod.fst h⟩
  obtain ⟨hearly, live, -⟩ := runPhases_all_eq_none.1 (Prod.ext hnone rfl)
  generalize hmid : (runPhases plugins leading run).2 = mid at live
  have hearly : runPhases plugins leading run = (none, mid) := Prod.ext hearly hmid
  have hother := runPhases_withFilters hi aggregate_not_mem_leading run chain
  rw [hearly] at hother
  obtain ⟨c, r', after₁, hc, hr, hrun⟩ := runAll_of_passive hp hearly live
  obtain ⟨c', q, after₂, hc', hq, hrun'⟩ := runAll_of_passive hp hother live
  rw [h] at hrun
  cases hrun
  cases hc.symm.trans hc'
  cases hr
  cases hq
  exact ⟨_, after₂, hrun', rfl, rfl⟩

end Run

namespace TestCase

theorem plugins_ignoreFilters (logging : LoggingOptions) (s : Session σ) :
    ∀ p ∈ plugins logging s, p.IgnoresFilters := fun _ hmem =>
  eq_of_mem_plugins hmem ▸ logging.plugin_ignoresFilters

theorem context_fresh (t : TestCase σ) : t.context.Fresh := ⟨rfl, rfl, rfl, rfl, rfl, rfl, rfl⟩

theorem plugins_keepMemory (logging : LoggingOptions) (s : Session σ) :
    ∀ p ∈ plugins logging s, p.KeepsMemory := by
  intro p hmem
  rw [eq_of_mem_plugins hmem]
  exact fun _ _ _ _ _ => rfl

theorem runAll_of_run {t u : TestCase σ} {logging : LoggingOptions} {s s' : Session σ} {r : TestResult σ}
    (h : t.run logging s = (.ok (u, r), s')) :
    ∃ after, Run.runAll (plugins logging s) ⟨t.context, s⟩ = (.ok r, after) ∧ after.session = s' := by
  rw [run_eq] at h
  cases hrun : Run.runAll (plugins logging s) ⟨t.context, s⟩ with
  | mk outcome after =>
      rw [hrun] at h
      cases outcome with
      | error e => cases h
      | ok r' =>
          cases h
          exact ⟨after, rfl, rfl⟩

theorem run_withFilters {t u : TestCase σ} {logging : LoggingOptions} {s s' : Session σ} {r : TestResult σ}
    (h : t.run logging s = (.ok (u, r), s')) (chain : FilterChain) :
    ∃ v q s'', ({ t with configuration := { t.configuration with filters := chain } } : TestCase σ).run
        logging s = (.ok (v, q), s'') ∧ q.drivers = r.drivers ∧ q.compilation = r.compilation := by
  obtain ⟨after, hrun, -⟩ := runAll_of_run h
  obtain ⟨q, after', hother, hdrivers, hcompilation⟩ :=
    Run.runAll_withFilters (plugins_passive logging s) (plugins_ignoreFilters logging s) hrun chain
  let other : TestCase σ := { t with configuration := { t.configuration with filters := chain } }
  have hother : Run.runAll (plugins logging s) ⟨other.context, s⟩ = (.ok q, after') := hother
  refine ⟨{ other with results := t.results ++ [q] }, q, after'.session, ?_, hdrivers, hcompilation⟩
  rw [run_eq, hother]
  rfl

/-- Every generator of a case leaves one driver, under its id and in run order, which remembers a run; an id that
no generator has is unknown. Each view is what the filters let through of what was reported: by the analyzers in
their order, in the runs that are remembered, and of the final compilation. Nobody else touches what the code
under test remembers. Under other filters the same run leaves the same drivers and the same compilation. -/
theorem run_views {t u : TestCase σ} (hc : t.configuration.Reachable) {logging : LoggingOptions}
    {s s' : Session σ} {r : TestResult σ} (h : t.run logging s = (.ok (u, r), s')) :
    let start := t.configuration.compile t.context.decoratedTrees
    let view := t.configuration.filters.apply
    let ids := t.configuration.generators.map (·.id)
    ∃ (is : List (Inspection σ)) (blocks : List (List Diagnostic)) (ts : List (Turn σ)) (s₁ s₂ s₃ s₄ : Session σ),
      (is.map (·.analyzer) = t.configuration.analyzers ∧ Inspected start s₁ is s₂ ∧
        List.Forall₂ (fun i => i.analyzer.Fills i.outcome) is blocks) ∧
      (ts.map (·.generator) = t.configuration.generators ∧ Folded start s₃ ts r.compilation s₄) ∧
      (s₁.memory = s.memory ∧ s₃.memory = s₂.memory ∧ s'.memory = s₄.memory) ∧
      (r.drivers = ts.map (fun t => (t.generator.id, ⟨t.generator, some t.run⟩)) ∧
        r.drivers.map (·.1) = ids ∧ ids.Nodup ∧ ∀ t ∈ ts, t.run.generator = t.generator.id) ∧
      ((∀ t ∈ ts, r.runOf t.generator.id = .ok t.run) ∧ ∀ id ∉ ids, r.runOf id = .error (.unknownGenerator id)) ∧
      (r.analyzerDiagnostics = view blocks.flatten ∧ r.analyzerDiagnostics.Sublist blocks.flatten) ∧
      (r.generatorDiagnostics = view (ts.flatMap (·.run.diagnostics)) ∧
        r.generatorDiagnostics.Sublist (ts.flatMap (·.run.diagnostics))) ∧
      (r.finalDiagnostics = view r.compilation.diagnostics ∧
        r.finalDiagnostics.Sublist r.compilation.diagnostics) ∧
      ∀ chain : FilterChain, ∃ v q s'',
        ({ t with configuration := { t.configuration with filters := chain } } : TestCase σ).run logging s =
          (.ok (v, q), s'') ∧
        q.drivers = r.drivers ∧ q.compilation = r.compilation ∧ q.compilation.emits = r.compilation.emits := by
  intro start view ids
  obtain ⟨after, hrun, rfl⟩ := runAll_of_run h
  obtain ⟨k, account, hmemory⟩ := Run.runAll_account t.context_fresh hc.nodup_generators hrun
  have hids : r.drivers.map (·.1) = ids := account.map_drivers
  have hnodup : ids.Nodup := hc.nodup_generators
  have hundisturbed := hmemory (plugins_keepMemory logging s)
  have hblocks : List.Forall₂ (fun i => i.analyzer.Fills i.outcome) k.inspections
      (k.inspections.map Inspection.report) := by
    rw [List.forall₂_map_right_iff, List.forall₂_same]
    exact fun i _ => i.analyzer.report_fills i.outcome
  have hanalyzer : r.analyzerDiagnostics = view (k.inspections.map Inspection.report).flatten := by
    rw [← List.flatMap_def, ← account.analyzer]
    exact account.views .analyzer
  have hgenerator : r.generatorDiagnostics = view (k.turns.flatMap (·.run.diagnostics)) := by
    rw [← account.generator]
    exact account.views .generator
  have hfinal : r.finalDiagnostics = view r.compilation.diagnostics := by
    rw [← account.final]
    exact account.views .final
  have hview : ∀ ds, (view ds).Sublist ds := fun ds => List.filter_sublist
  refine ⟨k.inspections, _, k.turns, k.beforeAnalyzers, k.afterAnalyzers, k.beforeGenerators, k.afterGenerators,
    ⟨account.analyzers, account.inspected, hblocks⟩, ⟨account.generators, account.folded⟩,
    ⟨hundisturbed.start, hundisturbed.between, hundisturbed.final⟩,
    ⟨account.drivers, hids, hnodup, account.folded.run_generator⟩, ⟨?_, ?_⟩,
    ⟨hanalyzer, hanalyzer ▸ hview _⟩, ⟨hgenerator, hgenerator ▸ hview _⟩, ⟨hfinal, hfinal ▸ hview _⟩, ?_⟩
  · intro turn hturn
    refine TestResult.runOf_of_mem (g := turn.generator) (hids ▸ hnodup) ?_
    rw [account.drivers]
    exact List.mem_map_of_mem hturn
  · intro id hid
    exact TestResult.runOf_of_not_mem (hids ▸ hid)
  · intro chain
    obtain ⟨v, q, s'', hother, hdrivers, hcompilation⟩ := run_withFilters h chain
    exact ⟨v, q, s'', hother, hdrivers, hcompilation, by rw [hcompilation]⟩

/-- An analyzer that reports one diagnostic for the reader and a hidden one, and a generator that fails. -/
theorem run_views_hidden :
    let reports : Analyzer Unit :=
      ⟨"Reports", fun _ _ _ =>
        ⟨.ok [⟨"T1", .hidden, "no", none, none⟩, ⟨"T2", .info, "yes", none, none⟩], false, ()⟩⟩
    let fails : OneShotGenerator Unit :=
      ⟨"Fails", fun _ _ _ => ⟨{ failure := some (.panicked none) }, false, ()⟩⟩
    let t : TestCase Unit :=
      { configuration :=
          { analyzers := [reports], oneShots := [fails], generatorIds := ["Fails"], filters := ⟨[.notHidden]⟩ } }
    t.configuration.Reachable ∧
      ∃ u r s', t.run .all { memory := () } = (.ok (u, r), s') ∧
        r.analyzerDiagnostics.map (·.id) = ["T2"] ∧ r.drivers.map (·.1) = ["Fails"] ∧
        r.runOf "Other" = .error (.unknownGenerator "Other") := by
  intro reports fails t
  have analyzes : ({ references := [] } : Configuration Unit).apply (.analyzers [reports]) = .ok _ := rfl
  have registers : ({ analyzers := [reports] } : Configuration Unit).apply
      (.oneShotGenerators [fails]) = .ok _ := rfl
  have filters : ({ analyzers := [reports], oneShots := [fails], generatorIds := ["Fails"] } : Configuration Unit).apply
      (.filters [.notHidden]) = .ok t.configuration := rfl
  have reachable : t.configuration.Reachable := .apply (.apply (.apply (.new []) analyzes) registers) filters
  obtain ⟨u, r, s', h, hanalyzer⟩ : ∃ u r s', t.run .all { memory := () } = (.ok (u, r), s') ∧
      r.analyzerDiagnostics.map (·.id) = ["T2"] :=
    ⟨_, _, _, rfl, rfl⟩
  obtain ⟨is, blocks, ts, -, -, -, -, -, -, -, ⟨-, hids, -⟩, ⟨-, hunknown⟩, -⟩ := run_views reachable h
  exact ⟨reachable, u, r, s', h, hanalyzer, hids, hunknown "Other" (by decide)⟩

end TestCase

end GeneratorBench
