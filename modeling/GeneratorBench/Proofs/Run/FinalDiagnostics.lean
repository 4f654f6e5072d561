import GeneratorBench.GeneratorTest
import GeneratorBench.Proofs.Run.Views
import Mathlib.Logic.Basic

/-!
Tests of the final compilation. Such a test asks the compilation of the run anew and does not look at the final
view of the result, so the filters of the configuration do not count: it finds all that its own filter accepts.
That is what the view shows exactly if the filters of the configuration accept it too.
-/

namespace GeneratorBench

variable {σ : Type}

/-- The final view is what the filters let through of the final compilation, whatever the plugins do. -/
theorem Run.runAll_finalDiagnostics {plugins : List (Plugin σ)} {ctx : RunContext σ} {s : Session σ}
    {r : TestResult σ} {after : Run σ} (h : runAll plugins ⟨ctx, s⟩ = (.ok r, after)) :
    r.finalDiagnostics = ctx.configuration.filters.apply r.compilation.diagnostics := by
  obtain ⟨ds, s', last, done, hgenerate, hresult⟩ := runAll_ok h
  have hkept : done.context.configuration = ctx.configuration := by
    have hgenerated := generate_kept (f := RunContext.configuration) (fun _ _ _ _ => rfl)
      ctx.configuration.generators (ctx.configuration.compile (ctx.trees ++ ctx.decoratedTrees))
      ⟨{ ctx with
        trees := ctx.trees ++ ctx.decoratedTrees
        compilation := some (ctx.configuration.compile (ctx.trees ++ ctx.decoratedTrees))
        analyzerDiagnostics := ds }, s'⟩
    rwa [hgenerate] at hgenerated
  cases hresult
  rw [← hkept]

theorem TestCase.run_finalDiagnostics {t u : TestCase σ} {logging : LoggingOptions} {s s' : Session σ}
    {r : TestResult σ} (h : t.run logging s = (.ok (u, r), s')) :
    r.finalDiagnostics = t.configuration.filters.apply r.compilation.diagnostics := by
  obtain ⟨after, hrun, -⟩ := runAll_of_run h
  exact Run.runAll_finalDiagnostics hrun

/-- A run of a case ends uncancelled with a result, or it is given up over its cancellation. -/
theorem TestCase.run_cases (t : TestCase σ) (logging : LoggingOptions) (s : Session σ) :
    (∃ u r s', t.run logging s = (.ok (u, r), s') ∧ s'.cancelled = false) ∨
      ∃ s', t.run logging s = (.error .cancelled, s') ∧ s'.cancelled = true := by
  obtain ⟨⟨r, hr⟩, live⟩ | ⟨hr, hcancelled⟩ :=
    Run.runAll_passive (plugins_passive logging s) ⟨t.context, s⟩
  · exact .inl ⟨_, r, _, by rw [run_eq, hr]; rfl, live⟩
  · exact .inr ⟨_, by rw [run_eq, hr]; rfl, hcancelled⟩

namespace GeneratorTest

/-- The verdict on a result if these diagnostics are found where there should be none. -/
def finding (r : TestResult σ) (ds : List Diagnostic) : Verdict σ :=
  if ds.isEmpty then .ok r else .error (.unexpectedDiagnostics .final ds.length (Diagnostic.listing ds))

variable {t : GeneratorTest σ} {filter : DiagnosticFilter} {s s' : Session σ} {u : TestCase σ}
  {r : TestResult σ} {ds es : List Diagnostic}

theorem finding_eq_ok_iff : finding r ds = .ok r ↔ ds = [] := by
  cases ds with
  | nil => exact iff_of_true rfl rfl
  | cons d ds => exact iff_of_false nofun nofun

theorem length_eq_of_finding_eq (h : finding r ds = finding r es) : ds.length = es.length := by
  cases ds with
  | nil => rw [finding_eq_ok_iff.1 h.symm]
  | cons d ds =>
      cases es with
      | nil => exact absurd (finding_eq_ok_iff.1 h) nofun
      | cons e es =>
          rw [finding, finding, if_neg nofun, if_neg nofun] at h
          exact (AssertionError.unexpectedDiagnostics.inj (Except.error.inj h)).2.1

theorem finding_eq_iff_of_sublist (h : ds.Sublist es) : finding r ds = finding r es ↔ ds = es := by
  constructor
  · exact fun heq => h.eq_of_length (length_eq_of_finding_eq heq)
  · exact congrArg _

/-- Nothing is left where there was nothing, and there only, unless something was there and all of it went. -/
theorem eq_nil_iff_filter_eq_nil_iff {α : Type} (p : α → Bool) (xs : List α) :
    (xs = [] ↔ xs.filter p = []) ↔ xs = [] ∨ ∃ x ∈ xs, p x = true := by
  rw [List.filter_eq_nil_iff]
  cases xs with
  | nil => simp
  | cons x xs => simp [or_iff_not_imp_left]

theorem finalReportsNone_of_error {e : Error}
    (h : t.case.run { finalDiagnostics := true } s = (.error e, s')) :
    (t.finalReportsNone filter s).1 = .error (.bench e) := by
  simp only [finalReportsNone, examine, runCase, h]

theorem finalReportsNone_of_ok (h : t.case.run { finalDiagnostics := true } s = (.ok (u, r), s')) :
    (t.finalReportsNone filter s).1 = finding r (r.compilation.diagnostics.filter filter) := by
  simp only [finalReportsNone, examine, runCase, h, finding]
  split
  · rfl
  · rfl

/-- A test of the final compilation fails over the cancellation of the run, or it finds all diagnostics of the
final compilation that its filter accepts: it passes exactly if there are none, and else counts and lists them in
order. The final view shows those of them that the filters of the configuration accept. Its being clean decides
the test unless there are some and the configuration rejects them all; the test finds just what the view shows
exactly if the configuration accepts them all. -/
theorem finalReportsNone_outcome (t : GeneratorTest σ) (filter : DiagnosticFilter) (s : Session σ) :
    let run := t.case.run { finalDiagnostics := true } s
    let verdict := (t.finalReportsNone filter s).1
    let chain := t.case.configuration.filters
    run.2.cancelled = true ∧ verdict = .error (.bench .cancelled) ∨
      run.2.cancelled = false ∧ ∃ u r, run.1 = .ok (u, r) ∧
        let view := r.diagnostics .final
        let found := r.compilation.diagnostics.filter filter
        view = chain.apply r.compilation.diagnostics ∧
          (verdict = finding r found ∧ (verdict = .ok r ↔ ∀ d ∈ r.compilation.diagnostics, filter d = false)) ∧
          ((verdict = .ok r ↔ ∀ d ∈ view, filter d = false) ↔ found = [] ∨ ∃ d ∈ found, chain.accepts d = true) ∧
          (verdict = finding r (view.filter filter) ↔ ∀ d ∈ found, chain.accepts d = true) := by
  intro run verdict chain
  obtain ⟨u, r, s', hrun, live⟩ | ⟨s', hrun, hcancelled⟩ := t.case.run_cases { finalDiagnostics := true } s
  · have hresult : run = (.ok (u, r), s') := hrun
    have hverdict : verdict = finding r (r.compilation.diagnostics.filter filter) := finalReportsNone_of_ok hrun
    have hview : r.diagnostics .final = chain.apply r.compilation.diagnostics := TestCase.run_finalDiagnostics hrun
    rw [hresult]
    refine .inr ⟨live, u, r, rfl, ?_⟩
    intro view found
    have hshown : view.filter filter = found.filter chain.accepts := by
      have hview : view = r.compilation.diagnostics.filter chain.accepts := hview
      rw [hview, List.filter_filter, List.filter_filter]
      exact List.filter_congr fun d _ => Bool.and_comm _ _
    have hpasses : verdict = .ok r ↔ found = [] := by rw [hverdict, finding_eq_ok_iff]
    have hrejects : (∀ d ∈ view, filter d = false) ↔ found.filter chain.accepts = [] := by
      rw [← hshown, List.filter_eq_nil_iff]
      simp only [Bool.not_eq_true]
    refine ⟨hview, ⟨hverdict, ?_⟩, ?_, ?_⟩
    · rw [hpasses, List.filter_eq_nil_iff]
      simp only [Bool.not_eq_true]
    · rw [hpasses, hrejects]
      exact eq_nil_iff_filter_eq_nil_iff chain.accepts found
    · rw [hverdict, hshown, eq_comm, finding_eq_iff_of_sublist List.filter_sublist, List.filter_eq_self]
  · have hresult : run = (.error .cancelled, s') := hrun
    rw [hresult]
    exact .inl ⟨hcancelled, finalReportsNone_of_error hrun⟩

/-- A test that fails over a diagnostic that the configuration excludes, and that the final view does not show. -/
theorem finalReportsNone_outcome_excluded :
    let t : GeneratorTest Unit :=
      { case :=
          { configuration :=
              { options := { outputKind := .console }, filters := ⟨[.excludeIds ["CS5001"]]⟩ } }
        generator := "G" }
    let s : Session Unit := { memory := () }
    let verdict := (t.finalReportsNone .notHidden s).1
    ∃ u r, (t.case.run { finalDiagnostics := true } s).1 = .ok (u, r) ∧
      (∀ d ∈ r.diagnostics .final, DiagnosticFilter.notHidden d = false) ∧
      verdict = .error (.unexpectedDiagnostics .final 1 (Diagnostic.listing [Compilation.noEntryPoint])) := by
  intro t s verdict
  have hcompilation : ∀ u r, (t.case.run { finalDiagnostics := true } s).1 = .ok (u, r) →
      r.compilation.diagnostics = [Compilation.noEntryPoint] := by
    rintro u r ⟨⟩
    decide
  obtain ⟨hcancelled, -⟩ | ⟨-, u, r, hrun, hview, ⟨hverdict, -⟩, -⟩ := finalReportsNone_outcome t .notHidden s
  · exact absurd hcancelled (by decide)
  · rw [hcompilation u r hrun] at hview hverdict
    refine ⟨u, r, hrun, ?_, hverdict⟩
    rw [hview]
    decide

end GeneratorTest

end GeneratorBench
