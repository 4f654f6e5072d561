import GeneratorBench.Proofs.Run.Promptness

/-!
Two runs of the same code side by side. A relation between sessions that is kept by every call of the code
under test is kept by analyzers, generators and phases; if it is kept by the hooks of both runs as well,
the two runs come to the same in every phase, whatever their plugins are.
-/

namespace GeneratorBench

variable {σ α : Type}

/-- From related memories a call comes to the same and leaves related memories. -/
def Callback.Respects (M : σ → σ → Prop) (f : Callback σ α) : Prop :=
  ∀ cancelled m n, M m n → (f cancelled m).value = (f cancelled n).value ∧
    (f cancelled m).cancels = (f cancelled n).cancels ∧ M (f cancelled m).memory (f cancelled n).memory

def Analyzer.Respects (M : σ → σ → Prop) (a : Analyzer σ) : Prop :=
  ∀ c, Callback.Respects M (a.analyze c)

def Generator.Respects (M : σ → σ → Prop) : Generator σ → Prop
  | oneShot g => ∀ ctx, Callback.Respects M (g.execute ctx)
  | incremental g =>
    (∀ t ctx, Callback.Respects M (g.visit t ctx)) ∧
      ∀ f ∈ g.finalize, ∀ ctx, Callback.Respects M (f ctx)

structure Configuration.Respects (M : σ → σ → Prop) (c : Configuration σ) : Prop where
  analyzers : ∀ a ∈ c.analyzers, a.Respects M
  generators : ∀ g ∈ c.generators, g.Respects M

/-- A relation between sessions that are cancelled together and called together. -/
structure Session.Lockstep (M : σ → σ → Prop) (Q : Session σ → Session σ → Prop) : Prop where
  cancelled : ∀ {s t}, Q s t → s.cancelled = t.cancelled
  call : ∀ {α : Type} {f : Callback σ α} {c : Call} {s t : Session σ}, Callback.Respects M f →
    c.isCallback = true → Q s t → (s.call c f).1 = (t.call c f).1 ∧ Q (s.call c f).2 (t.call c f).2

def Session.Alike (Q : Session σ → Session σ → Prop) (x y : α × Session σ) : Prop :=
  x.1 = y.1 ∧ Q x.2 y.2

structure Run.Alike (Q : Session σ → Session σ → Prop) (x y : α × Run σ) : Prop where
  outcome : x.1 = y.1
  context : x.2.context = y.2.context
  session : Q x.2.session y.2.session

section

variable {Q : Session σ → Session σ → Prop}

theorem Session.Alike.exists_eq {x y : α × Session σ} (h : Session.Alike Q x y) :
    ∃ v s t, x = (v, s) ∧ y = (v, t) ∧ Q s t :=
  ⟨x.1, x.2, y.2, rfl, Prod.ext h.1.symm rfl, h.2⟩

theorem Run.Alike.exists_eq {x y : α × Run σ} (h : Run.Alike Q x y) :
    ∃ v ctx s t, x = (v, ⟨ctx, s⟩) ∧ y = (v, ⟨ctx, t⟩) ∧ Q s t := by
  obtain ⟨v, ctx, s⟩ := x
  obtain ⟨w, ctx', t⟩ := y
  obtain ⟨houtcome, hcontext, hsession⟩ := h
  cases houtcome
  cases hcontext
  exact ⟨v, ctx, s, t, rfl, rfl, hsession⟩

end

open Session (Lockstep)

variable {M : σ → σ → Prop} {Q : Session σ → Session σ → Prop} {s t : Session σ}

theorem Analyzer.runAll_alike (hQ : Lockstep M Q) (c : Compilation) {as : List (Analyzer σ)}
    (has : ∀ a ∈ as, a.Respects M) (hst : Q s t) : Session.Alike Q (runAll c as s) (runAll c as t) := by
  induction as generalizing s t with
  | nil =>
      rw [runAll, runAll, hQ.cancelled hst]
      exact ⟨rfl, hst⟩
  | cons a as ih =>
      obtain ⟨hvalue, hcall⟩ := hQ.call (c := .analyze a.id) (has a List.mem_cons_self c) rfl hst
      obtain ⟨hlater, hend⟩ := ih (fun a ha => has a (List.mem_cons_of_mem _ ha)) hcall
      rw [runAll, runAll, hQ.cancelled hst]
      split
      · exact ⟨rfl, hst⟩
      · refine ⟨?_, hend⟩
        dsimp only
        rw [hvalue, hlater]

namespace Generator

theorem finish_alike (hQ : Lockstep M Q) {g : IncrementalGenerator σ} (hg : (incremental g).Respects M)
    (p : Progress) (hst : Q s t) : Session.Alike Q (finish g p s) (finish g p t) := by
  rw [finish, finish]
  cases hf : g.finalize with
  | none => exact ⟨rfl, hst⟩
  | some f =>
      obtain ⟨hvalue, hcall⟩ := hQ.call (c := .finalize g.id) (hg.2 f hf p.context) rfl hst
      exact ⟨congrArg p.accept hvalue, hcall⟩

theorem visitTrees_alike (hQ : Lockstep M Q) {g : IncrementalGenerator σ} (hg : (incremental g).Respects M)
    (trees : List SourceTree) (p : Progress) (hst : Q s t) :
    Session.Alike Q (visitTrees g trees p s) (visitTrees g trees p t) := by
  induction trees generalizing p s t with
  | nil => exact finish_alike hQ hg p hst
  | cons tree trees ih =>
      obtain ⟨hvalue, hcall⟩ := hQ.call (c := .visit g.id tree.filePath) (hg.1 tree p.context) rfl hst
      rw [visitTrees, visitTrees, hQ.cancelled hst]
      split
      · exact finish_alike hQ hg p hst
      · dsimp only
        rw [hvalue]
        split
        · exact ⟨rfl, hcall⟩
        · exact ih _ hcall

theorem run_alike (hQ : Lockstep M Q) {g : Generator σ} (hg : g.Respects M) (c : Compilation) (hst : Q s t) :
    Session.Alike Q (g.run c s) (g.run c t) := by
  have hperform : Session.Alike Q (g.perform c s) (g.perform c t) := by
    cases g with
    | oneShot g =>
        obtain ⟨hvalue, hcall⟩ := hQ.call (c := .execute g.id) (hg { generator := g.id, compilation := c })
          rfl hst
        exact ⟨congrArg (Progress.accept _) hvalue, hcall⟩
    | incremental g => exact visitTrees_alike hQ hg c.trees _ hst
  rw [run, run, hQ.cancelled hst]
  split
  · exact ⟨rfl, hst⟩
  · dsimp only
    rw [hperform.1, hQ.cancelled hperform.2]
    exact ⟨rfl, hperform.2⟩

end Generator

theorem Run.generate_alike (hQ : Lockstep M Q) {gs : List (Generator σ)} (hgs : ∀ g ∈ gs, g.Respects M)
    (c : Compilation) (ctx : RunContext σ) (hst : Q s t) :
    Run.Alike Q (generate gs c ⟨ctx, s⟩) (generate gs c ⟨ctx, t⟩) := by
  induction gs generalizing c ctx s t with
  | nil => exact ⟨rfl, rfl, hst⟩
  | cons g gs ih =>
      obtain ⟨r, s', t', hs, ht, hst⟩ :=
        (Generator.run_alike hQ (hgs g List.mem_cons_self) c hst).exists_eq
      rw [generate_cons, generate_cons]
      dsimp only
      rw [hs, ht]
      cases r with
      | none => exact ⟨rfl, rfl, hst⟩
      | some r => exact ih (fun g hg => hgs g (List.mem_cons_of_mem _ hg)) _ _ hst

theorem Phase.run_alike (hQ : Lockstep M Q) (phase : Phase) {ctx : RunContext σ}
    (hc : ctx.configuration.Respects M) (hst : Q s t) :
    Run.Alike Q (phase.run ⟨ctx, s⟩) (phase.run ⟨ctx, t⟩) := by
  cases phase with
  | decorate =>
      simp only [Phase.run, hQ.cancelled hst]
      split
      · exact ⟨rfl, rfl, hst⟩
      · exact ⟨rfl, rfl, hst⟩
  | assemble => exact ⟨rfl, rfl, hst⟩
  | analyze =>
      simp only [Phase.run]
      split
      · exact ⟨rfl, rfl, hst⟩
      · cases ctx.requireCompilation analyze.name with
        | error e => exact ⟨rfl, rfl, hst⟩
        | ok c =>
            obtain ⟨ds, s', t', hs, ht, hst⟩ := (Analyzer.runAll_alike hQ c hc.analyzers hst).exists_eq
            dsimp only
            rw [hs, ht]
            cases ds with
            | none => exact ⟨rfl, rfl, hst⟩
            | some ds => exact ⟨rfl, rfl, hst⟩
  | generate =>
      simp only [Phase.run]
      cases ctx.requireCompilation generate.name with
      | error e => exact ⟨rfl, rfl, hst⟩
      | ok c =>
          have hgs : ∀ g ∈ ctx.configuration.generators, g.Respects M := hc.generators
          obtain ⟨outcome, ctx', s', t', hs, ht, hst⟩ := (Run.generate_alike hQ hgs c ctx hst).exists_eq
          dsimp only
          rw [hs, ht]
          cases outcome with
          | error e => exact ⟨rfl, rfl, hst⟩
          | ok last => exact ⟨rfl, rfl, hst⟩
  | aggregate =>
      simp only [Phase.run]
      cases ctx.requireCompilation aggregate.name with
      | error e => exact ⟨rfl, rfl, hst⟩
      | ok c => exact ⟨rfl, rfl, hst⟩

structure Plugin.Lockstep (Q : Session σ → Session σ → Prop) (ps qs : List (Plugin σ)) : Prop where
  start : ∀ phase {s t}, Q s t → Q (s.emit (Run.phaseEvent phase)) (t.emit (Run.phaseEvent phase))
  hooks : ∀ moment phase ctx {s t}, Q s t →
    Session.Alike Q (callAll moment phase ctx ps s) (callAll moment phase ctx qs t)

namespace Run

variable {ps qs : List (Plugin σ)} {ctx : RunContext σ}

theorem hooks_alike (hp : Plugin.Lockstep Q ps qs) (moment : Moment) (phase : Phase) (ctx : RunContext σ)
    (hst : Q s t) : Run.Alike Q (hooks ps moment phase ⟨ctx, s⟩) (hooks qs moment phase ⟨ctx, t⟩) :=
  have h := hp.hooks moment phase ctx hst
  ⟨h.1, rfl, h.2⟩

theorem runPhase_alike (hQ : Lockstep M Q) (hp : Plugin.Lockstep Q ps qs) (phase : Phase)
    (hc : ctx.configuration.Respects M) (hst : Q s t) :
    Run.Alike Q (runPhase ps phase ⟨ctx, s⟩) (runPhase qs phase ⟨ctx, t⟩) := by
  obtain ⟨failure, opened, s', t', hs, ht, hst⟩ :=
    (hooks_alike hp .before phase ctx (hp.start phase hst)).exists_eq
  have hcontext : opened = ctx := congrArg (·.2.context) hs.symm
  subst hcontext
  rw [runPhase, runPhase]
  dsimp only
  rw [hs, ht]
  cases failure with
  | some e => exact ⟨rfl, rfl, hst⟩
  | none =>
      obtain ⟨failure, done, s'', t'', hs, ht, hst⟩ := (phase.run_alike hQ hc hst).exists_eq
      dsimp only
      rw [hs, ht]
      cases failure with
      | some e => exact ⟨rfl, rfl, hst⟩
      | none => exact hooks_alike hp .after phase done hst

theorem runPhases_alike (hQ : Lockstep M Q) (hp : Plugin.Lockstep Q ps qs) (phases : List Phase)
    (hc : ctx.configuration.Respects M) (hst : Q s t) :
    Run.Alike Q (runPhases ps phases ⟨ctx, s⟩) (runPhases qs phases ⟨ctx, t⟩) := by
  induction phases generalizing ctx s t with
  | nil => exact ⟨rfl, rfl, hst⟩
  | cons phase phases ih =>
      obtain ⟨failure, mid, s', t', hs, ht, hst'⟩ := (runPhase_alike hQ hp phase hc hst).exists_eq
      -- the code that later phases call is still the code that respects `M`
      have hkept := runPhase_kept phase.run_configuration ps ⟨ctx, s⟩
      rw [hs] at hkept
      rw [runPhases, runPhases]
      dsimp only
      rw [hQ.cancelled hst, hs, ht]
      split
      · exact ⟨rfl, rfl, hst⟩
      · cases failure with
        | some e => exact ⟨rfl, rfl, hst'⟩
        | none => exact ih (hkept ▸ hc) hst'

/-- Two runs in lockstep come to the same result or to the same error. -/
theorem runAll_alike (hQ : Lockstep M Q) (hp : Plugin.Lockstep Q ps qs) (hc : ctx.configuration.Respects M)
    (hst : Q s t) : Run.Alike Q (runAll ps ⟨ctx, s⟩) (runAll qs ⟨ctx, t⟩) := by
  obtain ⟨failure, last, s', t', hs, ht, hst⟩ := (runPhases_alike hQ hp Phase.all hc hst).exists_eq
  rw [runAll, runAll, hs, ht]
  cases failure with
  | some e => exact ⟨rfl, rfl, hst⟩
  | none =>
      simp only [takeResult]
      split
      · exact ⟨rfl, rfl, hst⟩
      · exact ⟨rfl, rfl, hst⟩

end Run

end GeneratorBench
