import GeneratorBench.Proofs.Run.Phases
import GeneratorBench.Proofs.Run.Registration
import GeneratorBench.Observation.Plugin

/-!
Cancellation, step by step. Analyzers and generators are given up over nothing else, and so is every
phase that has the compilation it needs and every schedule that supplies its phases. Code that never
cancels leaves the request as it was, however it fails.
-/

namespace GeneratorBench

variable {σ α : Type}

/-! ### Code under test that never cancels -/

def Callback.NeverCancels (f : Callback σ α) : Prop :=
  ∀ cancelled memory, (f cancelled memory).cancels = false

theorem Session.call_cancelled {f : Callback σ α} (h : Callback.NeverCancels f) (s : Session σ)
    (c : Call) : (s.call c f).2.cancelled = s.cancelled := by
  simp [Session.call, h s.cancelled s.memory]

namespace Analyzer

def NeverCancels (a : Analyzer σ) : Prop := ∀ c, Callback.NeverCancels (a.analyze c)

theorem runAll_isSome (c : Compilation) (as : List (Analyzer σ)) (s : Session σ) :
    (runAll c as s).1.isSome = !(runAll c as s).2.cancelled := by
  induction as generalizing s with
  | nil =>
      rw [runAll]
      cases s.cancelled with
      | true => rfl
      | false => rfl
  | cons a as ih =>
      rw [runAll]
      split
      · rename_i cancelled
        rw [cancelled]
        rfl
      · exact Option.isSome_map.trans (ih _)

theorem runAll_cancelled (c : Compilation) {as : List (Analyzer σ)} (h : ∀ a ∈ as, a.NeverCancels)
    (s : Session σ) : (runAll c as s).2.cancelled = s.cancelled := by
  induction as generalizing s with
  | nil => rfl
  | cons a as ih =>
      rw [runAll]
      split
      · rfl
      · exact (ih (fun a ha => h a (List.mem_cons_of_mem _ ha)) _).trans
          (Session.call_cancelled (h a List.mem_cons_self c) s _)

end Analyzer

namespace Generator

def NeverCancels : Generator σ → Prop
  | oneShot g => ∀ ctx, Callback.NeverCancels (g.execute ctx)
  | incremental g =>
    (∀ t ctx, Callback.NeverCancels (g.visit t ctx)) ∧
      ∀ f ∈ g.finalize, ∀ ctx, Callback.NeverCancels (f ctx)

theorem run_isSome (g : Generator σ) (c : Compilation) (s : Session σ) :
    (g.run c s).1.isSome = !(g.run c s).2.cancelled := by
  rw [run]
  split
  · rename_i cancelled
    rw [cancelled]
    rfl
  · dsimp only
    split
    · rename_i cancelled
      rw [cancelled]
      rfl
    · rename_i live
      rw [Bool.eq_false_iff.2 live]
      rfl

theorem finish_eq_cancelled {g : IncrementalGenerator σ} (h : (incremental g).NeverCancels) (p : Progress)
    (s : Session σ) : (finish g p s).2.cancelled = s.cancelled := by
  rw [finish]
  split
  · rfl
  · rename_i f hf
    exact Session.call_cancelled (h.2 f hf p.context) s _

theorem visitTrees_cancelled {g : IncrementalGenerator σ} (h : (incremental g).NeverCancels)
    (ts : List SourceTree) (p : Progress) (s : Session σ) :
    (visitTrees g ts p s).2.cancelled = s.cancelled := by
  induction ts generalizing p s with
  | nil => exact finish_eq_cancelled h p s
  | cons t ts ih =>
      have hvisit := Session.call_cancelled (h.1 t p.context) s (.visit g.id t.filePath)
      rw [visitTrees]
      split
      · exact finish_eq_cancelled h p s
      · dsimp only
        split
        · exact hvisit
        · exact (ih _ _).trans hvisit

theorem run_cancelled {g : Generator σ} (h : g.NeverCancels) (c : Compilation) (s : Session σ) :
    (g.run c s).2.cancelled = s.cancelled := by
  have hperform : (g.perform c s).2.cancelled = s.cancelled := by
    cases g with
    | oneShot g => exact Session.call_cancelled (h _) s _
    | incremental g => exact visitTrees_cancelled h c.trees _ s
  rw [run]
  split
  · rfl
  · exact hperform

end Generator

structure Configuration.NeverCancels (c : Configuration σ) : Prop where
  analyzers : ∀ a ∈ c.analyzers, a.NeverCancels
  generators : ∀ g ∈ c.generators, g.NeverCancels

/-! ### Phases -/

namespace Run

theorem generate_error {gs : List (Generator σ)} {c : Compilation} {run done : Run σ} {e : Error}
    (h : generate gs c run = (.error e, done)) : e = .cancelled ∧ done.session.cancelled = true := by
  induction gs generalizing c run with
  | nil => cases h
  | cons g gs ih =>
      have hsome := g.run_isSome c run.session
      rw [generate_cons] at h
      split at h
      · rename_i s hrun
        cases h
        rw [hrun] at hsome
        exact ⟨rfl, by simpa using hsome⟩
      · exact ih h

theorem generate_cancelled {gs : List (Generator σ)} (hgs : ∀ g ∈ gs, g.NeverCancels) (c : Compilation)
    (run : Run σ) : (generate gs c run).2.session.cancelled = run.session.cancelled :=
  generate_related (R := fun s s' => s'.cancelled = s.cancelled) (fun _ => rfl) (fun h h' => h'.trans h)
    (fun g hg c s => Generator.run_cancelled (hgs g hg) c s) c run

theorem generate_kept {f : RunContext σ → α} (hf : ∀ ctx id d out, f (ctx.addRun id d out) = f ctx)
    (gs : List (Generator σ)) (c : Compilation) (run : Run σ) :
    f (generate gs c run).2.context = f run.context := by
  induction gs generalizing c run with
  | nil => rfl
  | cons g gs ih =>
      rw [generate_cons]
      split
      · rfl
      · exact (ih _ _).trans (hf _ _ _ _)

end Run

namespace Phase

def needsCompilation : Phase → Bool
  | decorate | assemble => false
  | analyze | generate | aggregate => true

variable {phase : Phase} {run after : Run σ} {e : Error}

theorem requireCompilation_of_isSome {ctx : RunContext σ} (h : ctx.compilation.isSome = true) (name : String) :
    ∃ c, ctx.requireCompilation name = .ok c := by
  obtain ⟨c, hc⟩ := Option.isSome_iff_exists.1 h
  exact ⟨c, by rw [RunContext.requireCompilation, hc]⟩

/-- A phase that has what it needs is given up only over a cancellation. -/
theorem run_error (h : phase.run run = (some e, after))
    (hneeds : (run.context.compilation.isSome || !phase.needsCompilation) = true) :
    e = .cancelled ∧ after.session.cancelled = true := by
  cases phase with
  | decorate =>
      simp only [Phase.run] at h
      split at h
      · rename_i hcancelled
        cases h
        exact ⟨rfl, (Bool.and_eq_true_iff.1 hcancelled).1⟩
      · cases h
  | assemble => cases h
  | analyze =>
      obtain ⟨c, hc⟩ := requireCompilation_of_isSome (by simpa [needsCompilation] using hneeds) analyze.name
      simp only [Phase.run, hc] at h
      split at h
      · cases h
      · have hsome := Analyzer.runAll_isSome c run.context.configuration.analyzers run.session
        split at h
        · rename_i s hrun
          cases h
          rw [hrun] at hsome
          exact ⟨rfl, by simpa using hsome⟩
        · cases h
  | generate =>
      obtain ⟨c, hc⟩ := requireCompilation_of_isSome (by simpa [needsCompilation] using hneeds) generate.name
      simp only [Phase.run, hc] at h
      split at h
      · rename_i done hrun
        cases h
        exact Run.generate_error hrun
      · cases h
  | aggregate =>
      obtain ⟨c, hc⟩ := requireCompilation_of_isSome (by simpa [needsCompilation] using hneeds) aggregate.name
      simp only [Phase.run, hc] at h
      cases h

theorem run_compilation (h : phase.run run = (none, after))
    (hhas : (run.context.compilation.isSome || phase == .assemble) = true) :
    after.context.compilation.isSome = true := by
  cases phase with
  | decorate =>
      rw [decorate_ok h]
      simpa using hhas
  | assemble =>
      rw [assemble_ok h]
      rfl
  | analyze =>
      obtain ⟨ds, hds⟩ := analyze_ok h
      rw [hds]
      simpa using hhas
  | generate =>
      obtain ⟨c, hc⟩ := Option.isSome_iff_exists.1 (by simpa using hhas)
      obtain ⟨last, done, -, hdone⟩ := generate_ok hc h
      rw [hdone]
      rfl
  | aggregate =>
      obtain ⟨c, hc⟩ := Option.isSome_iff_exists.1 (by simpa using hhas)
      rw [aggregate_ok hc h]
      exact Option.isSome_iff_exists.2 ⟨c, hc⟩

theorem aggregate_session (run : Run σ) : (aggregate.run run).2.session = run.session := by
  simp only [Phase.run]
  split
  · rfl
  · rfl

theorem run_aggregate (run : Run σ) (h : run.context.compilation.isSome = true) :
    ∃ r, aggregate.run run = (none, { run with context := r }) ∧ r.result.isSome = true := by
  obtain ⟨c, hc⟩ := requireCompilation_of_isSome h aggregate.name
  exact ⟨run.context.conclude c, by simp only [Phase.run, hc], rfl⟩

/-- A part of a context that is neither its trees, its compilation, nor what was reported or recorded. -/
structure Unaffected (f : RunContext σ → α) : Prop where
  trees : ∀ ctx ts, f { ctx with trees := ts } = f ctx
  compilation : ∀ ctx c, f { ctx with compilation := c } = f ctx
  analyzerDiagnostics : ∀ ctx ds, f { ctx with analyzerDiagnostics := ds } = f ctx
  addRun : ∀ ctx id d out, f (ctx.addRun id d out) = f ctx

theorem run_kept {f : RunContext σ → α} (hf : Unaffected f) (h : phase ≠ .aggregate) (run : Run σ) :
    f (phase.run run).2.context = f run.context := by
  cases phase with
  | decorate =>
      simp only [Phase.run]
      split
      · rfl
      · exact hf.trees _ _
  | assemble => exact hf.compilation _ _
  | analyze =>
      simp only [Phase.run]
      split
      · rfl
      · split
        · rfl
        · split
          · rfl
          · exact hf.analyzerDiagnostics _ _
  | generate =>
      simp only [Phase.run]
      split
      · rfl
      · rename_i c _
        have hkept := Run.generate_kept hf.addRun run.context.configuration.generators c run
        split
        · rename_i done hrun
          rw [hrun] at hkept
          exact hkept
        · rename_i last done hrun
          rw [hrun] at hkept
          exact (hf.compilation _ _).trans hkept
  | aggregate => exact absurd rfl h

theorem run_configuration (phase : Phase) (run : Run σ) :
    (phase.run run).2.context.configuration = run.context.configuration := by
  by_cases h : phase = .aggregate
  · subst h
    simp only [Phase.run]
    split
    · rfl
    · rfl
  · exact run_kept (f := RunContext.configuration)
      ⟨fun _ _ => rfl, fun _ _ => rfl, fun _ _ => rfl, fun _ _ _ _ => rfl⟩ h run

theorem run_cancelled (phase : Phase) (run : Run σ) (h : run.context.configuration.NeverCancels) :
    (phase.run run).2.session.cancelled = run.session.cancelled := by
  obtain hkept | ⟨c, hkept⟩ | ⟨c, hkept⟩ := phase.run_session run
  · rw [hkept]
  · rw [hkept]
    exact Analyzer.runAll_cancelled c h.analyzers run.session
  · rw [hkept]
    exact Run.generate_cancelled h.generators c run

end Phase

/-! ### Hooks -/

namespace Plugin

/-- A plugin that only looks on: its hooks neither cancel nor fail. -/
structure Passive (p : Plugin σ) : Prop where
  neverCancels : ∀ moment phase ctx, Callback.NeverCancels (p.hook moment phase ctx)
  neverFails : ∀ moment phase ctx cancelled memory,
    (p.hook moment phase ctx cancelled memory).value.failure = none

variable {moment : Moment} {phase : Phase} {ctx : RunContext σ} {ps : List (Plugin σ)}

theorem call_cancelled {p : Plugin σ} (h : Callback.NeverCancels (p.hook moment phase ctx)) (s : Session σ) :
    (p.call moment phase ctx s).2.cancelled = s.cancelled := by
  have hkept := Session.call_cancelled h s (.hook p.name moment phase)
  simp only [call, Session.emitAll_cancelled]
  cases (s.call (.hook p.name moment phase) (p.hook moment phase ctx)).1.note with
  | none => exact hkept
  | some text => exact hkept

theorem callAll_cancelled (h : ∀ p ∈ ps, Callback.NeverCancels (p.hook moment phase ctx)) (s : Session σ) :
    (callAll moment phase ctx ps s).2.cancelled = s.cancelled :=
  callAll_kept (f := Session.cancelled) (fun p hp s => call_cancelled (h p hp) s) s

theorem callAll_failure
    (h : ∀ p ∈ ps, ∀ cancelled memory, (p.hook moment phase ctx cancelled memory).value.failure = none)
    (s : Session σ) : (callAll moment phase ctx ps s).1 = none := by
  induction ps generalizing s with
  | nil => rfl
  | cons p ps ih =>
      have hfine : (p.call moment phase ctx s).1 = none := h p List.mem_cons_self s.cancelled s.memory
      rw [callAll]
      split
      · rename_i e s' hcall
        rw [hcall] at hfine
        cases hfine
      · exact ih (fun p hp => h p (List.mem_cons_of_mem _ hp)) _

end Plugin

theorem LoggingOptions.plugin_passive (options : LoggingOptions) : (options.plugin : Plugin σ).Passive where
  neverCancels _ _ _ _ _ := rfl
  neverFails _ _ _ _ _ := rfl

/-! ### Schedules -/

namespace Run

variable {plugins : List (Plugin σ)} {phase : Phase} {phases : List Phase} {run after : Run σ} {e : Error}

theorem hooks_cancelled {moment : Moment}
    (h : ∀ p ∈ plugins, ∀ ctx, Callback.NeverCancels (p.hook moment phase ctx)) (run : Run σ) :
    (hooks plugins moment phase run).2.session.cancelled = run.session.cancelled :=
  Plugin.callAll_cancelled (fun p hp => h p hp run.context) run.session

/-- Plugins that only look on change nothing of what a phase comes to. -/
theorem runPhase_passive (hp : ∀ p ∈ plugins, p.Passive) (phase : Phase) (run : Run σ) :
    ∃ s, s.cancelled = run.session.cancelled ∧
      (runPhase plugins phase run).1 = (phase.run ⟨run.context, s⟩).1 ∧
      (runPhase plugins phase run).2.context = (phase.run ⟨run.context, s⟩).2.context ∧
      (runPhase plugins phase run).2.session.cancelled =
        (phase.run ⟨run.context, s⟩).2.session.cancelled := by
  have hfine : ∀ moment run, (hooks plugins moment phase run).1 = none :=
    fun moment run =>
      Plugin.callAll_failure (fun p hmem => (hp p hmem).neverFails moment phase run.context) run.session
  have hkept : ∀ moment run, (hooks plugins moment phase run).2.session.cancelled = run.session.cancelled :=
    fun moment => hooks_cancelled fun p hmem ctx => (hp p hmem).neverCancels moment phase ctx
  rw [runPhase]
  split
  · rename_i e before hbefore
    exact absurd (hfine .before _) (by rw [hbefore]; exact Option.some_ne_none e)
  · rename_i before hbefore
    have hcontext : before.context = run.context := congrArg (·.2.context) hbefore.symm
    have hsame : before.session.cancelled = run.session.cancelled := by
      have h := hkept .before { run with session := run.session.emit (phaseEvent phase) }
      rw [hbefore] at h
      exact h.trans (Session.emit_cancelled _ _)
    have hbeforeEq : before = ⟨run.context, before.session⟩ := by rw [← hcontext]
    refine ⟨before.session, hsame, ?_⟩
    rw [← hbeforeEq]
    split
    · rename_i e done hdone
      rw [hdone]
      exact ⟨rfl, rfl, rfl⟩
    · rename_i done hdone
      rw [hdone]
      exact ⟨hfine .after done, rfl, hkept .after done⟩

theorem runPhases_of_cancelled (h : run.session.cancelled = true) :
    runPhases plugins (phase :: phases) run = (some .cancelled, run) := by
  rw [runPhases, if_pos h]

theorem runPhases_append (plugins : List (Plugin σ)) (ps qs : List Phase) (run : Run σ) :
    runPhases plugins (ps ++ qs) run =
      match runPhases plugins ps run with
      | (some e, run) => (some e, run)
      | (none, run) => runPhases plugins qs run := by
  induction ps generalizing run with
  | nil => rfl
  | cons p ps ih =>
      rw [List.cons_append, runPhases, runPhases]
      split
      · rfl
      · split
        · rfl
        · exact ih _

/-- Every phase of a schedule finds a compilation where it needs one; `has` says whether there is one
already. -/
def supplied (has : Bool) : List Phase → Bool
  | [] => true
  | phase :: phases => (has || !phase.needsCompilation) && supplied (has || phase == .assemble) phases

theorem supplied_mono (has : Bool) (h : supplied false phases = true) : supplied has phases = true := by
  induction phases generalizing has with
  | nil => rfl
  | cons phase phases ih =>
      cases has with
      | false => exact h
      | true =>
          obtain ⟨-, hrest⟩ := Bool.and_eq_true_iff.1 h
          rw [Bool.false_or] at hrest
          rw [supplied, Bool.true_or, Bool.true_or, Bool.true_and]
          cases hassemble : phase == .assemble with
          | false => exact ih true (hassemble ▸ hrest)
          | true => exact hassemble ▸ hrest

/-- A schedule that supplies its phases is given up only over a cancellation. -/
theorem runPhases_error (hp : ∀ p ∈ plugins, p.Passive)
    (hs : supplied run.context.compilation.isSome phases = true)
    (h : runPhases plugins phases run = (some e, after)) :
    e = .cancelled ∧ after.session.cancelled = true := by
  induction phases generalizing run with
  | nil => cases h
  | cons phase phases ih =>
      obtain ⟨hneeds, hrest⟩ := Bool.and_eq_true_iff.1 hs
      obtain ⟨s, -, houtcome, hcontext, hcancelled⟩ := runPhase_passive hp phase run
      rw [runPhases] at h
      split at h
      · rename_i hstart
        cases h
        exact ⟨rfl, hstart⟩
      · split at h
        · rename_i e' mid hmid
          cases h
          rw [hmid] at houtcome hcancelled
          have hran : phase.run ⟨run.context, s⟩ = (some e, (phase.run ⟨run.context, s⟩).2) :=
            Prod.ext houtcome.symm rfl
          obtain ⟨he, hdone⟩ := Phase.run_error hran hneeds
          exact ⟨he, hcancelled.trans hdone⟩
        · rename_i mid hmid
          rw [hmid] at houtcome hcontext
          refine ih ?_ h
          rw [hcontext]
          cases hhas : run.context.compilation.isSome || phase == .assemble with
          | false => exact supplied_mono _ (hhas ▸ hrest)
          | true =>
              have hran : phase.run ⟨run.context, s⟩ = (none, (phase.run ⟨run.context, s⟩).2) :=
                Prod.ext houtcome.symm rfl
              rw [Phase.run_compilation hran hhas]
              rwa [hhas] at hrest

theorem runPhases_cancelled (hp : ∀ p ∈ plugins, p.Passive) (phases : List Phase)
    (hc : run.context.configuration.NeverCancels) :
    (runPhases plugins phases run).2.session.cancelled = run.session.cancelled := by
  induction phases generalizing run with
  | nil => rfl
  | cons phase phases ih =>
      obtain ⟨s, hs, -, hcontext, hcancelled⟩ := runPhase_passive hp phase run
      have hkept : (runPhase plugins phase run).2.session.cancelled = run.session.cancelled :=
        (hcancelled.trans (Phase.run_cancelled phase ⟨run.context, s⟩ hc)).trans hs
      rw [runPhases]
      split
      · rfl
      · split
        · rename_i e mid hmid
          rw [hmid] at hkept
          exact hkept
        · rename_i mid hmid
          rw [hmid] at hkept hcontext
          refine (ih ?_).trans hkept
          rw [hcontext, Phase.run_configuration]
          exact hc

end Run

end GeneratorBench
