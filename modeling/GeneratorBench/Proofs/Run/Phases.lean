import GeneratorBench.Run.Schedule

/-!
Runs that succeed. Plugins only look on, so what such a run leaves behind is the work of its
phases, each on what the one before it left.
-/

namespace GeneratorBench

variable {σ α : Type}

/-- Nothing has happened in a context but that its inputs were set. -/
structure RunContext.Fresh (ctx : RunContext σ) : Prop where
  trees : ctx.trees = []
  compilation : ctx.compilation = none
  analyzerDiagnostics : ctx.analyzerDiagnostics = []
  drivers : ctx.drivers = []
  generatorDiagnostics : ctx.generatorDiagnostics = []
  finalDiagnostics : ctx.finalDiagnostics = []
  result : ctx.result = none

def Plugin.KeepsMemory (p : Plugin σ) : Prop :=
  ∀ moment phase ctx cancelled memory, (p.hook moment phase ctx cancelled memory).memory = memory

namespace Plugin

variable {ps : List (Plugin σ)} {moment : Moment} {phase : Phase} {ctx : RunContext σ}

theorem callAll_kept {f : Session σ → α} (h : ∀ p ∈ ps, ∀ s, f (p.call moment phase ctx s).2 = f s)
    (s : Session σ) : f (callAll moment phase ctx ps s).2 = f s := by
  induction ps generalizing s with
  | nil => rfl
  | cons p ps ih =>
      have hkept := h p List.mem_cons_self s
      rw [callAll]
      split
      · rename_i e s' hcall
        rw [hcall] at hkept
        exact hkept
      · rename_i s' hcall
        rw [hcall] at hkept
        exact (ih (fun p hp => h p (List.mem_cons_of_mem _ hp)) s').trans hkept

theorem KeepsMemory.call_memory {p : Plugin σ} (h : p.KeepsMemory) (s : Session σ) :
    (p.call moment phase ctx s).2.memory = s.memory := by
  have hcall := h moment phase ctx s.cancelled s.memory
  simp only [call, Session.emitAll_memory]
  cases (s.call (.hook p.name moment phase) (p.hook moment phase ctx)).1.note with
  | none => exact hcall
  | some text => exact hcall

end Plugin

namespace Run

variable {plugins : List (Plugin σ)}

theorem hooks_memory (h : ∀ p ∈ plugins, p.KeepsMemory) (moment : Moment) (phase : Phase) (run : Run σ) :
    (hooks plugins moment phase run).2.session.memory = run.session.memory :=
  Plugin.callAll_kept (f := Session.memory) (fun p hp s => (h p hp).call_memory s) run.session

theorem runPhase_passed {phase : Phase} {run after : Run σ}
    (h : runPhase plugins phase run = (none, after)) :
    ∃ (s : Session σ) (done : Run σ), phase.run ⟨run.context, s⟩ = (none, done) ∧
      after.context = done.context ∧
      ((∀ p ∈ plugins, p.KeepsMemory) →
        s.memory = run.session.memory ∧ after.session.memory = done.session.memory) := by
  rw [runPhase] at h
  split at h
  · cases h
  · rename_i before hbefore
    have hcontext : before.context = run.context := congrArg (·.2.context) hbefore.symm
    split at h
    · cases h
    · rename_i done hdone
      have hran : phase.run ⟨run.context, before.session⟩ = (none, done) := by
        rw [← hcontext]
        exact hdone
      refine ⟨before.session, done, hran, congrArg (·.2.context) h.symm, ?_⟩
      intro hkeeps
      have hopened := hooks_memory hkeeps .before phase
        { run with session := run.session.emit (phaseEvent phase) }
      have hclosed := hooks_memory hkeeps .after phase done
      rw [hbefore] at hopened
      rw [h] at hclosed
      exact ⟨hopened.trans (Session.emit_memory _ _), hclosed⟩

theorem runPhase_ok {phase : Phase} {run after : Run σ}
    (h : runPhase plugins phase run = (none, after)) :
    ∃ (s : Session σ) (done : Run σ), phase.run ⟨run.context, s⟩ = (none, done) ∧
      after.context = done.context := by
  obtain ⟨s, done, hdone, hcontext, -⟩ := runPhase_passed h
  exact ⟨s, done, hdone, hcontext⟩

theorem runPhase_kept {phase : Phase} {f : RunContext σ → α}
    (h : ∀ run, f (phase.run run).2.context = f run.context) (plugins : List (Plugin σ)) (run : Run σ) :
    f (runPhase plugins phase run).2.context = f run.context := by
  rw [runPhase]
  split
  · rename_i e before hbefore
    have hcontext : before.context = run.context := congrArg (·.2.context) hbefore.symm
    rw [hcontext]
  · rename_i before hbefore
    have hcontext : before.context = run.context := congrArg (·.2.context) hbefore.symm
    have hphase := h before
    rw [hcontext] at hphase
    split
    · rename_i e done hdone
      rw [hdone] at hphase
      exact hphase
    · rename_i done hdone
      rw [hdone] at hphase
      exact hphase

theorem runPhases_ok {phase : Phase} {phases : List Phase} {run after : Run σ}
    (h : runPhases plugins (phase :: phases) run = (none, after)) :
    ∃ mid, runPhase plugins phase run = (none, mid) ∧ runPhases plugins phases mid = (none, after) := by
  rw [runPhases] at h
  split at h
  · cases h
  · split at h
    · cases h
    · rename_i mid hmid
      exact ⟨mid, hmid, h⟩

end Run

theorem Run.generate_cons (g : Generator σ) (gs : List (Generator σ)) (c : Compilation) (run : Run σ) :
    generate (g :: gs) c run = match g.run c run.session with
      | (none, session) => (.error .cancelled, { run with session })
      | (some (r, out), session) =>
        generate gs out.compilation ⟨run.context.addRun g.id ⟨g, some r⟩ out, session⟩ := by
  rw [generate, GeneratorDriver.run]
  rcases g.run c run.session with ⟨_ | ⟨r, out⟩, session⟩
  · rfl
  · rfl

theorem Run.generate_related {R : Session σ → Session σ → Prop} (refl : ∀ s, R s s)
    (trans : ∀ {s mid s'}, R s mid → R mid s' → R s s') {gs : List (Generator σ)}
    (h : ∀ g ∈ gs, ∀ c s, R s (g.run c s).2) (c : Compilation) (run : Run σ) :
    R run.session (generate gs c run).2.session := by
  induction gs generalizing c run with
  | nil => exact refl _
  | cons g gs ih =>
      have hfirst := h g List.mem_cons_self c run.session
      rw [generate_cons]
      split
      · rename_i s hrun
        rw [hrun] at hfirst
        exact hfirst
      · rename_i r out s hrun
        rw [hrun] at hfirst
        exact trans hfirst
          (ih (fun g hg => h g (List.mem_cons_of_mem _ hg)) _ ⟨run.context.addRun g.id ⟨g, some r⟩ out, s⟩)

namespace Phase

theorem run_session (phase : Phase) (run : Run σ) :
    (phase.run run).2.session = run.session ∨
      (∃ c, (phase.run run).2.session =
        (Analyzer.runAll c run.context.configuration.analyzers run.session).2) ∨
      ∃ c, (phase.run run).2.session =
        (Run.generate run.context.configuration.generators c run).2.session := by
  cases phase with
  | decorate =>
      refine .inl ?_
      simp only [Phase.run]
      split
      · rfl
      · rfl
  | assemble => exact .inl rfl
  | analyze =>
      simp only [Phase.run]
      split
      · exact .inl rfl
      · split
        · exact .inl rfl
        · rename_i c _
          refine .inr (.inl ⟨c, ?_⟩)
          cases Analyzer.runAll c run.context.configuration.analyzers run.session with
          | mk ds s =>
              cases ds with
              | none => rfl
              | some ds => rfl
  | generate =>
      simp only [Phase.run]
      split
      · exact .inl rfl
      · rename_i c _
        refine .inr (.inr ⟨c, ?_⟩)
        cases Run.generate run.context.configuration.generators c run with
        | mk outcome done =>
            cases outcome with
            | error e => rfl
            | ok last => rfl
  | aggregate =>
      refine .inl ?_
      simp only [Phase.run]
      split
      · rfl
      · rfl

variable {run after : Run σ}

theorem decorate_ok (h : decorate.run run = (none, after)) :
    after = { run with
      context := { run.context with trees := run.context.trees ++ run.context.decoratedTrees } } := by
  simp only [Phase.run] at h
  split at h
  · cases h
  · cases h
    rfl

theorem assemble_ok (h : assemble.run run = (none, after)) :
    after = { run with
      context := { run.context with
        compilation := some (run.context.configuration.compile run.context.trees) } } := by
  cases h
  rfl

theorem analyze_ok (h : analyze.run run = (none, after)) :
    ∃ ds, after.context = { run.context with analyzerDiagnostics := ds } := by
  simp only [Phase.run] at h
  split at h
  · cases h
    exact ⟨_, rfl⟩
  · split at h
    · cases h
    · split at h
      · cases h
      · cases h
        exact ⟨_, rfl⟩

theorem generate_ok {c : Compilation} (hc : run.context.compilation = some c)
    (h : generate.run run = (none, after)) :
    ∃ last done, Run.generate run.context.configuration.generators c run = (.ok last, done) ∧
      after = { done with context := { done.context with compilation := some last } } := by
  simp only [Phase.run, RunContext.requireCompilation, hc] at h
  split at h
  · cases h
  · rename_i last done hdone
    cases h
    exact ⟨last, done, hdone, rfl⟩

theorem aggregate_ok {c : Compilation} (hc : run.context.compilation = some c)
    (h : aggregate.run run = (none, after)) : after = { run with context := run.context.conclude c } := by
  simp only [Phase.run, RunContext.requireCompilation, hc] at h
  cases h
  rfl

end Phase

namespace Run

variable {plugins : List (Plugin σ)}

/-- A whole run that succeeds, phase by phase: what the analyzers and the generators were run on, and
what was made of what they left. -/
theorem runAll_stages {ctx : RunContext σ} {s : Session σ} {result : TestResult σ} {after : Run σ}
    (h : runAll plugins ⟨ctx, s⟩ = (.ok result, after)) :
    ∃ (s₁ s₂ : Session σ) (analyzed : Run σ) (last : Compilation) (done : Run σ),
      Phase.analyze.run
        ⟨{ ctx with
          trees := ctx.trees ++ ctx.decoratedTrees
          compilation := some (ctx.configuration.compile (ctx.trees ++ ctx.decoratedTrees)) }, s₁⟩ =
            (none, analyzed) ∧
      generate ctx.configuration.generators
        (ctx.configuration.compile (ctx.trees ++ ctx.decoratedTrees)) ⟨analyzed.context, s₂⟩ =
          (.ok last, done) ∧
      after.context =
        { RunContext.conclude { done.context with compilation := some last } last with result := none } ∧
      (done.context.conclude last).result = some result ∧
      ((∀ p ∈ plugins, p.KeepsMemory) → s₁.memory = s.memory ∧
        s₂.memory = analyzed.session.memory ∧ after.session.memory = done.session.memory) := by
  rw [runAll] at h
  split at h
  · cases h
  · rename_i final hphases
    obtain ⟨r₁, h₁, hphases⟩ := runPhases_ok hphases
    obtain ⟨r₂, h₂, hphases⟩ := runPhases_ok hphases
    obtain ⟨r₃, h₃, hphases⟩ := runPhases_ok hphases
    obtain ⟨r₄, h₄, hphases⟩ := runPhases_ok hphases
    obtain ⟨r₅, h₅, hphases⟩ := runPhases_ok hphases
    cases hphases
    obtain ⟨s₁, d₁, decorated, e₁, m₁⟩ := runPhase_passed h₁
    obtain ⟨s₂, d₂, assembled, e₂, m₂⟩ := runPhase_passed h₂
    obtain ⟨s₃, d₃, analyzed, e₃, m₃⟩ := runPhase_passed h₃
    obtain ⟨s₄, d₄, generated, e₄, m₄⟩ := runPhase_passed h₄
    obtain ⟨s₅, d₅, aggregated, e₅, m₅⟩ := runPhase_passed h₅
    obtain rfl := Phase.decorate_ok decorated
    obtain rfl := Phase.assemble_ok assembled
    rw [e₂, e₁] at analyzed
    obtain ⟨ds, hds⟩ := Phase.analyze_ok analyzed
    rw [e₃, hds] at generated
    obtain ⟨last, done, hgenerate, rfl⟩ := Phase.generate_ok rfl generated
    rw [e₄] at aggregated
    obtain rfl := Phase.aggregate_ok rfl aggregated
    refine ⟨s₃, s₄, d₃, last, done, analyzed, hds ▸ hgenerate, ?_⟩
    simp only [takeResult, e₅] at h
    cases h
    refine ⟨rfl, rfl, fun hkeeps => ?_⟩
    obtain ⟨a₁, b₁⟩ := m₁ hkeeps
    obtain ⟨a₂, b₂⟩ := m₂ hkeeps
    obtain ⟨a₃, b₃⟩ := m₃ hkeeps
    obtain ⟨a₄, b₄⟩ := m₄ hkeeps
    obtain ⟨a₅, b₅⟩ := m₅ hkeeps
    -- the phases around the analyzers and the generators call nobody
    exact ⟨((a₃.trans b₂).trans (a₂.trans b₁)).trans a₁, a₄.trans b₃, (b₅.trans a₅).trans b₄⟩

/-- A whole run that succeeds: the generators ran on the compilation of the decorated fragments,
and the result was made of what they left. -/
theorem runAll_ok {ctx : RunContext σ} {s : Session σ} {result : TestResult σ} {after : Run σ}
    (h : runAll plugins ⟨ctx, s⟩ = (.ok result, after)) :
    ∃ (ds : List Diagnostic) (s' : Session σ) (last : Compilation) (done : Run σ),
      generate ctx.configuration.generators
        (ctx.configuration.compile (ctx.trees ++ ctx.decoratedTrees))
        ⟨{ ctx with
          trees := ctx.trees ++ ctx.decoratedTrees
          compilation := some (ctx.configuration.compile (ctx.trees ++ ctx.decoratedTrees))
          analyzerDiagnostics := ds }, s'⟩ = (.ok last, done) ∧
      (done.context.conclude last).result = some result := by
  obtain ⟨s₁, s₂, analyzed, last, done, hanalyzed, hgenerate, -, hresult, -⟩ := runAll_stages h
  obtain ⟨ds, hds⟩ := Phase.analyze_ok hanalyzed
  exact ⟨ds, s₂, last, done, hds ▸ hgenerate, hresult⟩

end Run

end GeneratorBench
