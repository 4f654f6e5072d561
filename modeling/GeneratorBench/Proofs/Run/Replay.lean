import GeneratorBench.Proofs.Run.Account
import GeneratorBench.Proofs.Run.Lockstep

/-!
Turns taken again. Code that depends only on what it is handed takes the same turns, to the same ends, in
any session that is not cancelled; a turn that generated nothing can be left out.
-/

namespace GeneratorBench

variable {σ α : Type}

/-- Neither what a call comes to nor whether it cancels depends on what is remembered. -/
def Callback.Stateless (f : Callback σ α) : Prop :=
  ∀ cancelled memory other, (f cancelled memory).value = (f cancelled other).value ∧
    (f cancelled memory).cancels = (f cancelled other).cancels

/-- The same was come to, and the request is cancelled after both or after neither. -/
def Session.Agree (x y : α × Session σ) : Prop := x.1 = y.1 ∧ x.2.cancelled = y.2.cancelled

theorem Callback.Stateless.respects {f : Callback σ α} (h : Callback.Stateless f) :
    Callback.Respects (fun _ _ => True) f := fun cancelled m n _ =>
  ⟨(h cancelled m n).1, (h cancelled m n).2, trivial⟩

theorem Session.agree_lockstep :
    Lockstep (fun _ _ => True) fun s t : Session σ => s.cancelled = t.cancelled where
  cancelled h := h
  call {_ f c s t} hf _ hst := by
    obtain ⟨hvalue, hcancels, -⟩ := hf t.cancelled s.memory t.memory trivial
    constructor
    · simp only [call, hst]
      exact hvalue
    · simp only [call, hst, hcancels]

def Analyzer.Stateless (a : Analyzer σ) : Prop := ∀ c, Callback.Stateless (a.analyze c)

theorem Analyzer.Stateless.respects {a : Analyzer σ} (h : a.Stateless) : a.Respects fun _ _ => True :=
  fun c => (h c).respects

theorem Analyzer.call_agree {a : Analyzer σ} (h : a.Stateless) (c : Compilation) {s t : Session σ}
    (hst : s.cancelled = t.cancelled) :
    Session.Agree (s.call (.analyze a.id) (a.analyze c)) (t.call (.analyze a.id) (a.analyze c)) :=
  Session.agree_lockstep.call (h.respects c) rfl hst

namespace Generator

def Stateless : Generator σ → Prop
  | oneShot g => ∀ ctx, Callback.Stateless (g.execute ctx)
  | incremental g =>
    (∀ t ctx, Callback.Stateless (g.visit t ctx)) ∧
      ∀ f ∈ g.finalize, ∀ ctx, Callback.Stateless (f ctx)

variable {s t : Session σ}

theorem Stateless.respects {g : Generator σ} (h : g.Stateless) : g.Respects fun _ _ => True := by
  cases g with
  | oneShot g => exact fun ctx => (h ctx).respects
  | incremental g =>
      exact ⟨fun t ctx => (h.1 t ctx).respects, fun f hf ctx => (h.2 f hf ctx).respects⟩

theorem run_agree {g : Generator σ} (h : g.Stateless) (hst : s.cancelled = t.cancelled) (c : Compilation) :
    Session.Agree (g.run c s) (g.run c t) :=
  run_alike Session.agree_lockstep h.respects c hst

theorem live_of_run {g : Generator σ} {c : Compilation} {x : GeneratorRun × DriverOutput}
    (h : g.run c s = (some x, t)) : s.cancelled = false := by
  rw [run] at h
  split at h
  · cases h
  · rename_i live
    exact eq_false_of_ne_true live

end Generator

structure Configuration.Stateless (c : Configuration σ) : Prop where
  analyzers : ∀ a ∈ c.analyzers, a.Stateless
  generators : ∀ g ∈ c.generators, g.Stateless

theorem Configuration.Stateless.respects {c : Configuration σ} (h : c.Stateless) :
    c.Respects fun _ _ => True where
  analyzers a ha := (h.analyzers a ha).respects
  generators g hg := (h.generators g hg).respects

namespace Inspected

variable {c : Compilation} {s s' t t' : Session σ} {is js : List (Inspection σ)}

theorem live (h : Inspected c s is s') : s.cancelled = false := by
  cases h with
  | done live => exact live
  | turn live called rest => exact live

theorem runAll_eq (h : Inspected c s is s') :
    Analyzer.runAll c (is.map (·.analyzer)) s = (some (is.flatMap Inspection.report), s') := by
  induction h with
  | done live =>
      rw [List.map_nil, Analyzer.runAll, live]
      rfl
  | turn live called rest ih =>
      rw [List.map_cons, Analyzer.runAll, live, if_neg Bool.false_ne_true]
      simp only [called, ih]
      rfl

theorem analyze_eq {ctx : RunContext σ} (hc : ctx.compilation = some c) (fresh : ctx.analyzerDiagnostics = [])
    (hanalyzers : is.map (·.analyzer) = ctx.configuration.analyzers) (h : Inspected c s is s') :
    Phase.analyze.run ⟨ctx, s⟩ =
      (none, ⟨{ ctx with analyzerDiagnostics := is.flatMap Inspection.report }, s'⟩) := by
  have hrun := h.runAll_eq
  rw [hanalyzers] at hrun
  simp only [Phase.run, RunContext.requireCompilation, hc, hrun]
  split
  · rename_i hnone
    rw [← hanalyzers, List.isEmpty_iff, List.map_eq_nil_iff] at hnone
    subst hnone
    cases h
    rw [List.flatMap_nil, ← fresh, ← hc]
  · rw [← hc]

theorem replay (h : Inspected c s is s') (hs : ∀ i ∈ is, i.analyzer.Stateless) (live : t.cancelled = false) :
    ∃ t', Inspected c t is t' ∧ t'.cancelled = false := by
  induction h generalizing t with
  | done _ => exact ⟨t, .done live, live⟩
  | @turn i is s mid s' was called rest ih =>
      obtain ⟨hvalue, hcancelled⟩ :=
        Analyzer.call_agree (hs i List.mem_cons_self) c (was.trans live.symm)
      cases again : t.call (.analyze i.analyzer.id) (i.analyzer.analyze c) with
      | mk outcome t₁ =>
          rw [called, again] at hvalue hcancelled
          obtain rfl : i.outcome = outcome := hvalue
          obtain ⟨t', hrest, hlive⟩ :=
            ih (fun i hi => hs i (List.mem_cons_of_mem _ hi)) (hcancelled.symm.trans rest.live)
          exact ⟨t', .turn live again hrest, hlive⟩

theorem unique (h : Inspected c s is s') (h' : Inspected c t js t') (hs : ∀ i ∈ is, i.analyzer.Stateless)
    (heq : js.map (·.analyzer) = is.map (·.analyzer)) : js = is := by
  induction h generalizing t js with
  | done live => exact List.map_eq_nil_iff.1 heq
  | @turn i is s mid s' live called rest ih =>
      cases h' with
      | done live => cases heq
      | @turn j js s mid' s' live' called' rest' =>
          obtain ⟨a, outcome⟩ := j
          obtain ⟨rfl, htail⟩ := List.cons_eq_cons.1 heq
          obtain ⟨hvalue, hcancelled⟩ := Analyzer.call_agree (hs i List.mem_cons_self) c (live'.trans live.symm)
          rw [called, called'] at hvalue
          obtain rfl := hvalue
          rw [ih rest' (fun i hi => hs i (List.mem_cons_of_mem _ hi)) htail]

end Inspected

namespace Folded

variable {c d e : Compilation} {s s' t t' : Session σ} {ts us : List (Turn σ)}

theorem append {s₁ : Session σ} (h : Folded c s ts d s₁) (h' : Folded d s₁ us e s') :
    Folded c s (ts ++ us) e s' := by
  induction h with
  | done c s => exact h'
  | turn ran rest ih => exact .turn ran (ih h')

theorem generate_eq (h : Folded c s ts d s') (ctx : RunContext σ) :
    Run.generate (ts.map (·.generator)) c ⟨ctx, s⟩ =
      (.ok d, ⟨ts.foldl RunContext.addTurn ctx, s'⟩) := by
  induction h generalizing ctx with
  | done c s => rfl
  | turn ran rest ih =>
      rw [List.map_cons, Run.generate_cons]
      simp only [ran]
      exact ih _

theorem phase_eq {ctx : RunContext σ} (hc : ctx.compilation = some c)
    (hgenerators : ts.map (·.generator) = ctx.configuration.generators) (h : Folded c s ts d s') :
    Phase.generate.run ⟨ctx, s⟩ =
      (none, ⟨{ ts.foldl RunContext.addTurn ctx with compilation := some d }, s'⟩) := by
  have hrun := h.generate_eq ctx
  rw [hgenerators] at hrun
  simp only [Phase.run, RunContext.requireCompilation, hc, hrun]

theorem replay (h : Folded c s ts d s') (hs : ∀ u ∈ ts, u.generator.Stateless) (live : t.cancelled = false) :
    ∃ t', Folded c t ts d t' ∧ t'.cancelled = false := by
  induction h generalizing t with
  | done c s => exact ⟨t, .done c t, live⟩
  | @turn u ts c s mid s' ran rest ih =>
      have hlive := Generator.live_of_run ran
      obtain ⟨hrun, hcancelled⟩ :=
        Generator.run_agree (hs u List.mem_cons_self) (hlive.trans live.symm) u.seen
      obtain ⟨p, -, -, -, hmid⟩ := Generator.run_some ran
      cases again : u.generator.run u.seen t with
      | mk r t₁ =>
          rw [ran, again] at hrun hcancelled
          obtain rfl : some (u.run, u.output) = r := hrun
          obtain ⟨t', hrest, hlast⟩ :=
            ih (fun u hu => hs u (List.mem_cons_of_mem _ hu)) (hcancelled.symm.trans hmid)
          exact ⟨t', .turn again hrest, hlast⟩

theorem unique (h : Folded c s ts d s') (h' : Folded c t us e t') (hs : ∀ u ∈ ts, u.generator.Stateless)
    (heq : us.map (·.generator) = ts.map (·.generator)) : us = ts ∧ e = d := by
  induction h generalizing t us with
  | done c s =>
      obtain rfl := List.map_eq_nil_iff.1 heq
      cases h'
      exact ⟨rfl, rfl⟩
  | @turn u ts c s mid s' ran rest ih =>
      obtain ⟨g, seen, r, out⟩ := u
      obtain _ | ⟨⟨g', seen', r', out'⟩, us⟩ := us
      · cases heq
      · obtain ⟨hg, htail⟩ := List.cons_eq_cons.1 heq
        cases h' with
        | turn ran' rest' =>
            have hlive := (Generator.live_of_run ran').trans (Generator.live_of_run ran).symm
            obtain ⟨hrun, -⟩ := Generator.run_agree (hs _ List.mem_cons_self) hlive _
            cases hg
            rw [ran, ran'] at hrun
            cases hrun
            obtain ⟨rfl, rfl⟩ := ih rest' (fun u hu => hs u (List.mem_cons_of_mem _ hu)) htail
            exact ⟨rfl, rfl⟩

/-- A turn that failed can be left out: the next generator sees what this one saw. -/
theorem skip {own : Turn σ} (h : Folded c s (ts ++ own :: us) d s') {e : GeneratorException}
    (failed : own.run.exception = some e)
    (hs : ∀ u ∈ ts ++ us, u.generator.Stateless) (live : t.cancelled = false) :
    ∃ t', Folded c t (ts ++ us) d t' ∧ t'.cancelled = false := by
  obtain ⟨mid, s₁, hts, hrest⟩ := h.split
  cases hrest with
  | turn ran rest =>
      have hsame : own.output.compilation = own.seen := by
        obtain ⟨hsources, -⟩ := Generator.run_failed ran failed
        rw [Generator.run_output ran, GeneratorRun.trees, hsources, List.map_nil, Compilation.addTrees_nil]
      rw [hsame] at rest
      obtain ⟨t₁, hts, hlive⟩ := hts.replay (fun u hu => hs u (List.mem_append_left _ hu)) live
      obtain ⟨t₂, hus, hlast⟩ := rest.replay (fun u hu => hs u (List.mem_append_right _ hu)) hlive
      exact ⟨t₂, hts.append hus, hlast⟩

end Folded

end GeneratorBench
