import GeneratorBench.Proofs.Run.Closing
import GeneratorBench.Proofs.Run.Replay
import Mathlib.Data.List.Nodup

/-!
Generators that fail leave no trace but their own: the turns of a run can be taken again without that of a
generator that failed, and the run comes to the same compilation.
-/

namespace GeneratorBench

variable {σ : Type}

namespace Configuration

variable {c : Configuration σ}

def without (c : Configuration σ) (id : String) : Configuration σ :=
  { c with
    oneShots := c.oneShots.filter (·.id != id)
    incrementals := c.incrementals.filter (·.id != id)
    generatorIds := c.generatorIds.filter (· != id) }

theorem generators_without (c : Configuration σ) (id : String) :
    (c.without id).generators = c.generators.filter (·.id != id) := by
  simp only [generators, without, List.filter_append, List.filter_map]
  rfl

theorem generators_without_of_split {g : Generator σ} {xs ys : List (Generator σ)}
    (nodup : (c.generators.map (·.id)).Nodup) (hsplit : c.generators = xs ++ g :: ys) :
    (c.without g.id).generators = xs ++ ys := by
  have nodup : (g.id :: (xs ++ ys).map (·.id)).Nodup := by
    rw [hsplit] at nodup
    exact ((List.perm_middle.map _).nodup_iff).1 nodup
  rw [List.nodup_cons] at nodup
  have hothers : (xs ++ ys).filter (·.id != g.id) = xs ++ ys := by
    rw [List.filter_eq_self]
    intro other hmem
    rw [bne_iff_ne]
    intro hid
    exact nodup.1 (hid ▸ List.mem_map_of_mem hmem)
  rw [generators_without, hsplit, List.filter_append, List.filter_cons_of_neg (by simp),
    ← List.filter_append, hothers]

theorem nodup_generators_without (nodup : (c.generators.map (·.id)).Nodup) (id : String) :
    ((c.without id).generators.map (·.id)).Nodup := by
  rw [generators_without]
  exact nodup.sublist (List.filter_sublist.map _)

theorem Stateless.without (h : c.Stateless) (id : String) : (c.without id).Stateless where
  analyzers := h.analyzers
  generators g hg := by
    rw [generators_without] at hg
    exact h.generators g (List.mem_filter.1 hg).1

end Configuration

def RunContext.without (ctx : RunContext σ) (id : String) : RunContext σ :=
  { ctx with configuration := ctx.configuration.without id }

theorem RunContext.Fresh.without {ctx : RunContext σ} (h : ctx.Fresh) (id : String) : (ctx.without id).Fresh where
  trees := h.trees
  compilation := h.compilation
  analyzerDiagnostics := h.analyzerDiagnostics
  drivers := h.drivers
  generatorDiagnostics := h.generatorDiagnostics
  finalDiagnostics := h.finalDiagnostics
  result := h.result

/-- In whatever uncancelled session the phase is begun, it makes `after` of `ctx` and is not cancelled. -/
def Phase.Passes (phase : Phase) (ctx after : RunContext σ) : Prop :=
  ∀ s, s.cancelled = false → ∃ s', phase.run ⟨ctx, s⟩ = (none, ⟨after, s'⟩) ∧ s'.cancelled = false

namespace Run

variable {plugins : List (Plugin σ)} {phase : Phase}

theorem runPhases_passes (hp : ∀ p ∈ plugins, p.Passive) {ctx after : RunContext σ}
    (h : phase.Passes ctx after) {s : Session σ} (live : s.cancelled = false) (phases : List Phase) :
    ∃ s', runPhases plugins (phase :: phases) ⟨ctx, s⟩ = runPhases plugins phases ⟨after, s'⟩ ∧
      s'.cancelled = false := by
  obtain ⟨s₁, hs, houtcome, hcontext, hcancelled⟩ := runPhase_passive hp phase ⟨ctx, s⟩
  obtain ⟨s', hphase, hlive⟩ := h s₁ (hs.trans live)
  rw [hphase] at houtcome hcontext hcancelled
  cases hran : runPhase plugins phase ⟨ctx, s⟩ with
  | mk failure done =>
      rw [hran] at houtcome hcontext hcancelled
      obtain rfl : failure = none := houtcome
      obtain ⟨context, last⟩ := done
      obtain rfl : context = after := hcontext
      refine ⟨last, ?_, hcancelled.trans hlive⟩
      rw [runPhases, if_neg (ne_true_of_eq_false live), hran]

/-- Turns that were taken once are taken again in every run that is only looked on, and it comes to a result. -/
theorem exists_runAll_of_turns {ctx : RunContext σ} (fresh : ctx.Fresh) (hp : ∀ p ∈ plugins, p.Passive)
    (stateless : ctx.configuration.Stateless) {s s₁ s₂ s₃ s₄ : Session σ} (live : s.cancelled = false)
    {is : List (Inspection σ)} (hanalyzers : is.map (·.analyzer) = ctx.configuration.analyzers)
    (inspected : Inspected (ctx.configuration.compile ctx.decoratedTrees) s₁ is s₂)
    {ts : List (Turn σ)} (hgenerators : ts.map (·.generator) = ctx.configuration.generators)
    {c : Compilation} (folded : Folded (ctx.configuration.compile ctx.decoratedTrees) s₃ ts c s₄) :
    ∃ r after, runAll plugins ⟨ctx, s⟩ = (.ok r, after) := by
  have hinspect : ∀ i ∈ is, i.analyzer.Stateless := fun i hi =>
    stateless.analyzers _ (hanalyzers ▸ List.mem_map_of_mem hi)
  have hturn : ∀ t ∈ ts, t.generator.Stateless := fun t ht =>
    stateless.generators _ (hgenerators ▸ List.mem_map_of_mem ht)
  let start := ctx.configuration.compile ctx.decoratedTrees
  let decorated : RunContext σ := { ctx with trees := ctx.decoratedTrees }
  let assembled : RunContext σ := { decorated with compilation := some start }
  let analyzed : RunContext σ := { assembled with analyzerDiagnostics := is.flatMap Inspection.report }
  let generated : RunContext σ :=
    { ts.foldl RunContext.addTurn analyzed with compilation := some c }
  have hdecorate : Phase.decorate.Passes ctx decorated := by
    intro s live
    refine ⟨s, ?_, live⟩
    simp only [Phase.run, live, Bool.false_and, Bool.false_eq_true, if_false, fresh.trees, List.nil_append]
    rfl
  have hassemble : Phase.assemble.Passes decorated assembled := fun s live => ⟨s, rfl, live⟩
  have hanalyze : Phase.analyze.Passes assembled analyzed := by
    intro s live
    obtain ⟨s', hinspected, hlive⟩ := inspected.replay hinspect live
    exact ⟨s', hinspected.analyze_eq rfl fresh.analyzerDiagnostics hanalyzers, hlive⟩
  have hgenerate : Phase.generate.Passes analyzed generated := by
    intro s live
    obtain ⟨s', hfolded, hlive⟩ := folded.replay hturn live
    exact ⟨s', hfolded.phase_eq rfl hgenerators, hlive⟩
  obtain ⟨t₁, h₁, live₁⟩ := runPhases_passes hp hdecorate live [.assemble, .analyze, .generate]
  obtain ⟨t₂, h₂, live₂⟩ := runPhases_passes hp hassemble live₁ [.analyze, .generate]
  obtain ⟨t₃, h₃, live₃⟩ := runPhases_passes hp hanalyze live₂ [.generate]
  obtain ⟨t₄, h₄, live₄⟩ := runPhases_passes hp hgenerate live₃ []
  obtain ⟨-, r, after, -, -, hrun⟩ := runAll_of_passive hp (((h₁.trans h₂).trans h₃).trans h₄) live₄
  exact ⟨r, after, hrun⟩

theorem exists_failed_turn {ctx after : RunContext σ} {k : Course σ} {r : TestResult σ}
    (account : Account ctx k r after) (nodup : (ctx.configuration.generators.map (·.id)).Nodup)
    {g : Generator σ} (hg : g ∈ ctx.configuration.generators) {e : GeneratorException}
    (failed : r.exception g.id = .ok (some e)) :
    ∃ earlier own later, k.turns = earlier ++ own :: later ∧ own.generator = g ∧
      own.run.exception = some e ∧ own.run.sources = [] ∧
      ∃ warning, Generator.Warns g.id e.message warning ∧ own.run.diagnostics = [warning] ∧
        own.output = ⟨own.seen, [warning]⟩ := by
  obtain ⟨run, hrun, hexception⟩ : ∃ run, r.runOf g.id = .ok run ∧ run.exception = some e := by
    rw [TestResult.exception] at failed
    cases hrun : r.runOf g.id with
    | error e =>
        rw [hrun] at failed
        cases failed
    | ok run =>
        rw [hrun] at failed
        exact ⟨run, rfl, Except.ok.inj failed⟩
  obtain ⟨h, hmem⟩ := TestResult.mem_of_runOf hrun
  rw [account.drivers] at hmem
  obtain ⟨own, hown, hentry⟩ := List.mem_map.1 hmem
  obtain ⟨howner, hdriver⟩ := Prod.mk.inj hentry
  obtain ⟨-, hlast⟩ := GeneratorDriver.mk.inj hdriver
  obtain rfl : own.run = run := Option.some.inj hlast
  have hmem : own.generator ∈ ctx.configuration.generators :=
    account.generators ▸ List.mem_map_of_mem hown
  have hgenerator : own.generator = g := List.inj_on_of_nodup_map nodup hmem hg howner
  obtain ⟨earlier, later, hsplit⟩ := List.append_of_mem hown
  obtain ⟨s₁, s₂, ran⟩ := account.folded.ran hown
  obtain ⟨hsources, warning, hwarns, hdiagnostics⟩ := Generator.run_failed ran hexception
  rw [hgenerator] at hwarns
  refine ⟨earlier, own, later, hsplit, hgenerator, hexception, hsources, warning, hwarns, hdiagnostics, ?_⟩
  rw [Generator.run_output ran, GeneratorRun.trees, hsources, List.map_nil, Compilation.addTrees_nil, hdiagnostics]

/-- The turns of the others are those of a run without the generator that failed. -/
theorem skip_failed_turn {ctx after : RunContext σ} {k : Course σ} {r : TestResult σ} (account : Account ctx k r after)
    (nodup : (ctx.configuration.generators.map (·.id)).Nodup) (stateless : ctx.configuration.Stateless)
    {earlier later : List (Turn σ)} {own : Turn σ} (hturns : k.turns = earlier ++ own :: later)
    {e : GeneratorException} (failed : own.run.exception = some e) {s : Session σ} (live : s.cancelled = false) :
    (earlier ++ later).map (·.generator) = (ctx.without own.generator.id).configuration.generators ∧
      (∀ t ∈ earlier ++ later, t.generator.Stateless) ∧
      ∃ last, Folded (ctx.configuration.compile ctx.decoratedTrees) s (earlier ++ later) r.compilation last := by
  have hsplit : ctx.configuration.generators =
      earlier.map (·.generator) ++ own.generator :: later.map (·.generator) := by
    rw [← account.generators, hturns, List.map_append, List.map_cons]
  have hremaining : (earlier ++ later).map (·.generator) =
      (ctx.without own.generator.id).configuration.generators := by
    rw [List.map_append]
    exact (Configuration.generators_without_of_split nodup hsplit).symm
  have hturn : ∀ t ∈ earlier ++ later, t.generator.Stateless := fun t ht =>
    (stateless.without own.generator.id).generators _ (hremaining ▸ List.mem_map_of_mem ht)
  have hfolded := account.folded
  rw [hturns] at hfolded
  obtain ⟨last, hskipped, -⟩ := hfolded.skip failed hturn live
  exact ⟨hremaining, hturn, last, hskipped⟩

/-- A generator that fails leaves no trace but its own. Without it, and with code that depends only on what it
is handed, the run comes to a result as well; all others take the turns they took, on the same compilations
and to the same ends, and the compilation is the same. All that is kept of the generator is its warning,
among what the generators reported at the place of its turn. -/
theorem runAll_without_failing {ctx : RunContext σ} (fresh : ctx.Fresh) (hc : ctx.configuration.Reachable)
    (stateless : ctx.configuration.Stateless) {g : Generator σ} (hg : g ∈ ctx.configuration.generators)
    {plugins : List (Plugin σ)} {s : Session σ} {r : TestResult σ} {after : Run σ}
    (h : runAll plugins ⟨ctx, s⟩ = (.ok r, after)) {e : GeneratorException}
    (failed : r.exception g.id = .ok (some e)) (others : List (Plugin σ)) (t : Session σ) :
    let reported (ts : List (Turn σ)) := ts.flatMap (·.run.diagnostics)
    ∃ (k : Course σ) (earlier : List (Turn σ)) (own : Turn σ) (later : List (Turn σ)) (warning : Diagnostic),
      Account ctx k r after.context ∧ k.turns = earlier ++ own :: later ∧ own.generator = g ∧
      Generator.Warns g.id e.message warning ∧
      (own.run.exception = some e ∧ own.run.sources = [] ∧ own.run.diagnostics = [warning] ∧
        own.output = ⟨own.seen, [warning]⟩) ∧
      ((∀ p ∈ others, p.Passive) → t.cancelled = false →
        ∃ q after', runAll others ⟨ctx.without g.id, t⟩ = (.ok q, after')) ∧
      ∀ q after', runAll others ⟨ctx.without g.id, t⟩ = (.ok q, after') →
        (∃ k', Account (ctx.without g.id) k' q after'.context ∧
          k'.inspections = k.inspections ∧ k'.turns = earlier ++ later) ∧
        (∀ id, g.id ≠ id → q.runOf id = r.runOf id) ∧
        q.compilation = r.compilation ∧
        after'.context.diagnostics .analyzer = after.context.diagnostics .analyzer ∧
        after'.context.diagnostics .final = after.context.diagnostics .final ∧
        after.context.diagnostics .generator = reported earlier ++ warning :: reported later ∧
        after'.context.diagnostics .generator = reported earlier ++ reported later := by
  intro reported
  have nodup := hc.nodup_generators
  obtain ⟨k, account, -⟩ := runAll_account fresh nodup h
  obtain ⟨earlier, own, later, hturns, rfl, hexception, hsources, warning, hwarns, hdiagnostics, houtput⟩ :=
    exists_failed_turn account nodup hg failed
  refine ⟨k, earlier, own, later, warning, account, hturns, rfl, hwarns,
    ⟨hexception, hsources, hdiagnostics, houtput⟩, ?_⟩
  obtain ⟨hremaining, hturn, last, hskipped⟩ :=
    skip_failed_turn account nodup stateless hturns hexception (s := { memory := s.memory }) rfl
  have hinspect : ∀ i ∈ k.inspections, i.analyzer.Stateless := fun i hi =>
    stateless.analyzers _ (account.analyzers ▸ List.mem_map_of_mem hi)
  constructor
  · intro hp live
    exact exists_runAll_of_turns (fresh.without _) hp (stateless.without _) live account.analyzers account.inspected
      hremaining hskipped
  · intro q after' hother
    obtain ⟨k', account', -⟩ :=
      runAll_account (fresh.without _) (Configuration.nodup_generators_without nodup _) hother
    have hinspections : k'.inspections = k.inspections :=
      account.inspected.unique account'.inspected hinspect (account'.analyzers.trans account.analyzers.symm)
    obtain ⟨hturns', hcompilation⟩ :=
      hskipped.unique account'.folded hturn (account'.generators.trans hremaining.symm)
    refine ⟨⟨k', account', hinspections, hturns'⟩, ?_, hcompilation, ?_, ?_, ?_, ?_⟩
    · intro id hid
      let entry (t : Turn σ) : String × GeneratorDriver σ := (t.generator.id, t.driver)
      have hr : r.drivers = earlier.map entry ++ entry own :: later.map entry := by
        rw [account.drivers, hturns, List.map_append, List.map_cons]
      have hq : q.drivers = earlier.map entry ++ later.map entry := by
        rw [account'.drivers, hturns', List.map_append]
      exact TestResult.runOf_of_split hr hq hid
    · rw [account'.analyzer, account.analyzer, hinspections]
    · rw [account'.final, account.final, hcompilation]
    · rw [account.generator, hturns, List.flatMap_append, List.flatMap_cons, hdiagnostics]
      rfl
    · rw [account'.generator, hturns', List.flatMap_append]

/-- A generator that adds a source and reports, before one that fails after it added one. -/
theorem runAll_without_failing_late :
    let adds : OneShotGenerator Unit :=
      ⟨"Adds", fun _ _ _ =>
        ⟨{ sources := [("A", "class A {}")], diagnostics := [⟨"G1", .info, "done", none, none⟩] },
          false, ()⟩⟩
    let fails : OneShotGenerator Unit :=
      ⟨"Fails", fun _ _ _ =>
        ⟨{ sources := [("B", "class B {}")], failure := some (.panicked (some "no")) }, false, ()⟩⟩
    let ctx : RunContext Unit :=
      { configuration := { oneShots := [adds, fails], generatorIds := ["Adds", "Fails"] }
        fragments := [⟨none, "class C : A {}"⟩] }
    (ctx.Fresh ∧ ctx.configuration.Reachable ∧ ctx.configuration.Stateless) ∧
      ∃ r after, runAll [] ⟨ctx, { memory := () }⟩ = (.ok r, after) ∧
        r.exception "Fails" = .ok (some ⟨"no", true⟩) ∧
        ∃ q after', runAll [] ⟨ctx.without "Fails", { memory := () }⟩ = (.ok q, after') ∧
          q.compilation = r.compilation ∧ after'.context.generatorDiagnostics.map (·.id) = ["G1"] ∧
          after.context.generatorDiagnostics.map (·.id) = ["G1", "GEN8785"] := by
  intro adds fails ctx
  have fresh : ctx.Fresh := ⟨rfl, rfl, rfl, rfl, rfl, rfl, rfl⟩
  have registers : ({ references := [] } : Configuration Unit).apply
      (.oneShotGenerators [adds, fails]) = .ok ctx.configuration := rfl
  have reachable : ctx.configuration.Reachable := .apply (.new []) registers
  have stateless : ctx.configuration.Stateless := by
    constructor
    · intro a ha
      cases ha
    · intro g hg
      obtain rfl | hg := List.mem_cons.1 hg
      · exact fun _ _ _ _ => ⟨rfl, rfl⟩
      · rw [List.mem_singleton.1 hg]
        exact fun _ _ _ _ => ⟨rfl, rfl⟩
  have hg : .oneShot fails ∈ ctx.configuration.generators := List.mem_cons_of_mem _ List.mem_cons_self
  obtain ⟨r, after, h, failed, hbefore⟩ : ∃ r after, runAll [] ⟨ctx, { memory := () }⟩ = (.ok r, after) ∧
      r.exception "Fails" = .ok (some ⟨"no", true⟩) ∧
      after.context.generatorDiagnostics.map (·.id) = ["G1", "GEN8785"] :=
    ⟨_, _, rfl, rfl, rfl⟩
  obtain ⟨q, after', hother, hwithout⟩ : ∃ q after',
      runAll [] ⟨ctx.without "Fails", { memory := () }⟩ = (.ok q, after') ∧
      after'.context.generatorDiagnostics.map (·.id) = ["G1"] :=
    ⟨_, _, rfl, rfl⟩
  obtain ⟨k, earlier, own, later, warning, -, -, -, -, -, -, hsame⟩ :=
    runAll_without_failing fresh reachable stateless hg h failed [] { memory := () }
  obtain ⟨-, -, hcompilation, -⟩ := hsame q after' hother
  exact ⟨⟨fresh, reachable, stateless⟩, r, after, h, failed, q, after', hother, hcompilation, hwithout, hbefore⟩

end Run

end GeneratorBench
