import GeneratorBench.Proofs.Run.FinalDiagnostics
import GeneratorBench.Proofs.Run.Isolation

/-!
A chain is the intersection of its filters, however it was put together. So further filters in a configuration do
to the views of a run what they do to any list of diagnostics.
-/

namespace GeneratorBench

inductive FilterChain.Extension
  | add (filter : DiagnosticFilter)
  | extend (filters : List DiagnosticFilter)

def FilterChain.Extension.filters : Extension → List DiagnosticFilter
  | add filter => [filter]
  | extend filters => filters

namespace FilterChain

def grow (c : FilterChain) : Extension → FilterChain
  | .add filter => c.add filter
  | .extend filters => c.extend filters

def build (xs : List Extension) : FilterChain := xs.foldl grow {}

variable {c d : FilterChain} {ds : List Diagnostic} {x : Diagnostic}

theorem filters_foldl (xs : List Extension) (c : FilterChain) :
    (xs.foldl grow c).filters = c.filters ++ xs.flatMap Extension.filters := by
  induction xs generalizing c with
  | nil => simp
  | cons x xs ih =>
      have hx : (c.grow x).filters = c.filters ++ x.filters := by cases x <;> rfl
      rw [List.foldl_cons, ih, hx, List.flatMap_cons, List.append_assoc]

theorem filters_build (xs : List Extension) : (build xs).filters = xs.flatMap Extension.filters := by
  rw [build, filters_foldl]
  rfl

theorem build_append (xs ys : List Extension) : build (xs ++ ys) = (build xs).extend (build ys).filters := by
  have hfilters : (build (xs ++ ys)).filters = (build xs).filters ++ (build ys).filters := by
    rw [filters_build, filters_build, filters_build, List.flatMap_append]
  exact congrArg FilterChain.mk hfilters

theorem accepts_iff : c.accepts x = true ↔ ∀ f ∈ c.filters, f x = true := List.all_eq_true

theorem mem_apply : x ∈ c.apply ds ↔ x ∈ ds ∧ ∀ f ∈ c.filters, f x = true := by
  rw [apply, List.mem_filter, accepts_iff]

theorem apply_comm (c d : FilterChain) (ds : List Diagnostic) : c.apply (d.apply ds) = d.apply (c.apply ds) := by
  simp only [apply, List.filter_filter, Bool.and_comm]

theorem apply_apply (c : FilterChain) (ds : List Diagnostic) : c.apply (c.apply ds) = c.apply ds := by
  simp only [apply, List.filter_filter, Bool.and_self]

/-- Which filters there are decides, not their order nor how often each of them comes. -/
theorem apply_of_same (h : ∀ f, f ∈ d.filters ↔ f ∈ c.filters) (ds : List Diagnostic) : d.apply ds = c.apply ds := by
  apply List.filter_congr
  intro x _
  rw [Bool.eq_iff_iff, accepts_iff, accepts_iff]
  simp only [h]

theorem count_apply (h : ∀ f ∈ c.filters, f x = true) (ds : List Diagnostic) : (c.apply ds).count x = ds.count x :=
  List.count_filter (accepts_iff.2 h)

end FilterChain

variable {σ : Type}

theorem RunContext.Fresh.withFilters {ctx : RunContext σ} (h : ctx.Fresh) (chain : FilterChain) :
    (ctx.withFilters chain).Fresh where
  trees := h.trees
  compilation := h.compilation
  analyzerDiagnostics := h.analyzerDiagnostics
  drivers := h.drivers
  generatorDiagnostics := h.generatorDiagnostics
  finalDiagnostics := h.finalDiagnostics
  result := h.result

theorem Configuration.Stateless.withFilters {c : Configuration σ} (h : c.Stateless) (chain : FilterChain) :
    ({ c with filters := chain } : Configuration σ).Stateless := ⟨h.analyzers, h.generators⟩

namespace Run

variable {ctx : RunContext σ} {ps qs : List (Plugin σ)} {s s' : Session σ} {q r : TestResult σ} {after after' : Run σ}

/-- Two runs of the same code under different filters hear the same and show what their filters let through. -/
theorem runAll_refiltered (fresh : ctx.Fresh) (nodup : (ctx.configuration.generators.map (·.id)).Nodup)
    (stateless : ctx.configuration.Stateless) {chain : FilterChain} (h : runAll ps ⟨ctx, s⟩ = (.ok r, after))
    (h' : runAll qs ⟨ctx.withFilters chain, s'⟩ = (.ok q, after')) (stage : Stage) :
    ∃ ds, r.diagnostics stage = ctx.configuration.filters.apply ds ∧ q.diagnostics stage = chain.apply ds := by
  obtain ⟨k, account, -⟩ := runAll_account fresh nodup h
  obtain ⟨k', account', -⟩ := runAll_account (fresh.withFilters chain) nodup h'
  have hinspections : k'.inspections = k.inspections := by
    apply account.inspected.unique account'.inspected
    · exact fun i hi => stateless.analyzers _ (account.analyzers ▸ List.mem_map_of_mem hi)
    · exact account'.analyzers.trans account.analyzers.symm
  obtain ⟨hturns, hcompilation⟩ : k'.turns = k.turns ∧ q.compilation = r.compilation := by
    apply account.folded.unique account'.folded
    · exact fun u hu => stateless.generators _ (account.generators ▸ List.mem_map_of_mem hu)
    · exact account'.generators.trans account.generators.symm
  have hsame : after'.context.diagnostics stage = after.context.diagnostics stage := by
    cases stage with
    | analyzer => rw [account.analyzer, account'.analyzer, hinspections]
    | generator => rw [account.generator, account'.generator, hturns]
    | final => rw [account.final, account'.final, hcompilation]
  exact ⟨_, account.views stage, hsame ▸ account'.views stage⟩

theorem exists_runAll_refiltered (fresh : ctx.Fresh) (nodup : (ctx.configuration.generators.map (·.id)).Nodup)
    (stateless : ctx.configuration.Stateless) (h : runAll ps ⟨ctx, s⟩ = (.ok r, after)) (chain : FilterChain)
    (hqs : ∀ p ∈ qs, p.Passive) (live : s'.cancelled = false) :
    ∃ q after', runAll qs ⟨ctx.withFilters chain, s'⟩ = (.ok q, after') := by
  obtain ⟨k, account, -⟩ := runAll_account fresh nodup h
  exact exists_runAll_of_turns (fresh.withFilters chain) hqs (stateless.withFilters chain) live account.analyzers
    account.inspected account.generators account.folded

end Run

namespace TestCase

def withFilters (t : TestCase σ) (chain : FilterChain) : TestCase σ :=
  t.withConfiguration { t.configuration with filters := chain }

variable {t : TestCase σ} {a b : LoggingOptions} {s s' : Session σ}

theorem run_live_iff (t : TestCase σ) (a : LoggingOptions) (s : Session σ) :
    (t.run a s).2.cancelled = false ↔ ∃ u r, (t.run a s).1 = .ok (u, r) := by
  rcases t.run_cases a s with ⟨u, r, s', hrun, live⟩ | ⟨s', hrun, hcancelled⟩
  · rw [hrun]
    exact iff_of_true live ⟨u, r, rfl⟩
  · rw [hrun]
    apply iff_of_false
    · exact ne_false_of_eq_true hcancelled
    · rintro ⟨u, r, ⟨⟩⟩

theorem run_live_withFilters (nodup : (t.configuration.generators.map (·.id)).Nodup)
    (stateless : t.configuration.Stateless) (chain : FilterChain) (live : s'.cancelled = false)
    (h : (t.run a s).2.cancelled = false) : ((t.withFilters chain).run b s').2.cancelled = false := by
  obtain ⟨u, r, hrun⟩ := (t.run_live_iff a s).1 h
  obtain ⟨after, hrun, -⟩ := runAll_of_run (Prod.ext hrun rfl)
  obtain ⟨q, after', hother⟩ := Run.exists_runAll_refiltered t.context_fresh nodup stateless hrun chain
    (plugins_passive b s') live
  have hcontext : (t.withFilters chain).context = t.context.withFilters chain := rfl
  apply (run_live_iff _ b s').2
  rw [run_eq, hcontext, hother]
  exact ⟨_, q, rfl⟩

end TestCase

/-- Chains are put together by extensions, and hold all filters of these. One extended by another is both of them
one after the other, in either order. A chain keeps, in order, each diagnostic that all of its filters accept and no
other; so it changes nothing when it is applied again, respects appending, and depends on which filters it has only.
If code depends only on what it is handed, further filters in its configuration leave the fate of a run as it is,
and its views are what these filters let through of the views without them, whatever plugins look on. -/
theorem FilterChain.apply_build {t : TestCase σ} (hc : t.configuration.Reachable)
    (stateless : t.configuration.Stateless) (xs ys : List Extension) (ds es : List Diagnostic) :
    let c := build xs
    let d := build ys
    let both := build (xs ++ ys)
    (c.filters = xs.flatMap Extension.filters ∧ both = c.extend d.filters) ∧
    (both.apply ds = d.apply (c.apply ds) ∧ both.apply ds = c.apply (d.apply ds)) ∧
    ((c.apply ds).Sublist ds ∧ (∀ x, x ∈ c.apply ds ↔ x ∈ ds ∧ ∀ f ∈ c.filters, f x = true) ∧
      ∀ x, (∀ f ∈ c.filters, f x = true) → (c.apply ds).count x = ds.count x) ∧
    c.apply (c.apply ds) = c.apply ds ∧
    c.apply (ds ++ es) = c.apply ds ++ c.apply es ∧
    (∀ zs, (∀ f, f ∈ (build zs).filters ↔ f ∈ c.filters) → (build zs).apply ds = c.apply ds) ∧
    ∀ fs : List DiagnosticFilter, ∃ u, t.configure (·.apply (.filters fs)) = .ok u ∧
      (∀ ps qs s s' r q after after', Run.runAll ps ⟨t.context, s⟩ = (.ok r, after) →
        Run.runAll qs ⟨u.context, s'⟩ = (.ok q, after') →
        ∀ stage, q.diagnostics stage = FilterChain.apply ⟨fs⟩ (r.diagnostics stage)) ∧
      ∀ a b s s', s.cancelled = false → s'.cancelled = false →
        (u.run b s').2.cancelled = (t.run a s).2.cancelled ∧
        ((t.run a s).2.cancelled = false → ∃ v w r q, (t.run a s).1 = .ok (v, r) ∧ (u.run b s').1 = .ok (w, q) ∧
          ∀ stage, q.diagnostics stage = FilterChain.apply ⟨fs⟩ (r.diagnostics stage)) := by
  intro c d both
  have hboth : both = c.extend d.filters := build_append xs ys
  have happly : both.apply ds = d.apply (c.apply ds) := by
    rw [hboth]
    exact apply_extend c ds d.filters
  refine ⟨⟨filters_build xs, hboth⟩, ⟨happly, happly.trans (apply_comm d c ds)⟩,
    ⟨List.filter_sublist, fun x => mem_apply, fun x hx => count_apply hx ds⟩, c.apply_apply ds,
    c.apply_append ds es, fun zs hzs => apply_of_same hzs ds, fun fs => ?_⟩
  let u := t.withFilters (t.configuration.filters.extend fs)
  have nodup := hc.nodup_generators
  have hviews : ∀ ps qs s s' r q after after', Run.runAll ps ⟨t.context, s⟩ = (.ok r, after) →
      Run.runAll qs ⟨u.context, s'⟩ = (.ok q, after') →
      ∀ stage, q.diagnostics stage = FilterChain.apply ⟨fs⟩ (r.diagnostics stage) := by
    intro ps qs s s' r q after after' hrun hother stage
    obtain ⟨heard, hr, hq⟩ := Run.runAll_refiltered t.context_fresh nodup stateless hrun hother stage
    rw [hr, hq]
    exact apply_extend _ heard fs
  refine ⟨u, rfl, hviews, fun a b s s' live live' => ?_⟩
  have hfate : (t.run a s).2.cancelled = false ↔ (u.run b s').2.cancelled = false := by
    constructor
    · exact TestCase.run_live_withFilters nodup stateless _ live'
    · exact TestCase.run_live_withFilters (t := u) nodup (stateless.withFilters _) t.configuration.filters live
  refine ⟨?_, fun hlive => ?_⟩
  · cases h : (t.run a s).2.cancelled with
    | false => exact hfate.1 h
    | true => simpa [h] using hfate
  · obtain ⟨v, r, hr⟩ := (t.run_live_iff a s).1 hlive
    obtain ⟨w, q, hq⟩ := (u.run_live_iff b s').1 (hfate.1 hlive)
    obtain ⟨after, hrun, -⟩ := TestCase.runAll_of_run (Prod.ext hr rfl)
    obtain ⟨after', hother, -⟩ := TestCase.runAll_of_run (Prod.ext hq rfl)
    exact ⟨v, w, r, q, hr, hq, hviews _ _ _ _ _ _ _ _ hrun hother⟩

/-- An analyzer that reports a hidden diagnostic and two others, of which the configuration excludes one. -/
theorem FilterChain.apply_build_hidden :
    let reports : Analyzer Unit :=
      ⟨"Reports", fun _ _ _ =>
        ⟨.ok [⟨"T1", .hidden, "", none, none⟩, ⟨"T2", .info, "", none, none⟩, ⟨"T3", .info, "", none, none⟩], false, ()⟩⟩
    let t : TestCase Unit := { configuration := { analyzers := [reports], filters := ⟨[.excludeIds ["T3"]]⟩ } }
    (t.configuration.Reachable ∧ t.configuration.Stateless) ∧
      (∀ ds, (build [.add .notHidden, .extend [.excludeIds ["T3"]]]).apply ds =
        (build [.add .notHidden]).apply ((build [.extend [.excludeIds ["T3"]]]).apply ds)) ∧
      ∃ u w q, t.configure (·.apply (.filters [.notHidden])) = .ok u ∧
        (u.run .all { memory := () }).1 = .ok (w, q) ∧ (q.diagnostics .analyzer).map (·.id) = ["T2"] := by
  intro reports t
  have analyzes : ({ references := [] } : Configuration Unit).apply (.analyzers [reports]) = .ok _ := rfl
  have filters : ({ analyzers := [reports] } : Configuration Unit).apply
      (.filters [.excludeIds ["T3"]]) = .ok t.configuration := rfl
  have reachable : t.configuration.Reachable := .apply (.apply (.new []) analyzes) filters
  have stateless : t.configuration.Stateless := by
    constructor
    · intro a ha
      rw [List.mem_singleton.1 ha]
      exact fun _ _ _ _ => ⟨rfl, rfl⟩
    · intro g hg
      cases hg
  have hall (ds : List Diagnostic) :=
    apply_build reachable stateless [.add .notHidden] [.extend [.excludeIds ["T3"]]] ds []
  obtain ⟨-, -, -, -, -, -, hruns⟩ := hall []
  obtain ⟨u, hu, -, hlive⟩ := hruns [.notHidden]
  obtain ⟨-, hviews⟩ := hlive .all .all { memory := () } { memory := () } rfl rfl
  obtain ⟨v, w, r, q, hr, hq, hsame⟩ := hviews rfl
  refine ⟨⟨reachable, stateless⟩, fun ds => (hall ds).2.1.2, u, w, q, hu, hq, ?_⟩
  cases hr
  rw [hsame]
  rfl

end GeneratorBench
