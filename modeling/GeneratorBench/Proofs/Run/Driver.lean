import GeneratorBench.Proofs.Run.Answers
import Mathlib.Data.List.Induction

/-!
One driver, many runs. The driver remembers the last run that came to something, and that one whole.
-/

namespace GeneratorBench

variable {σ : Type}

structure RunRequest (σ : Type) where
  compilation : Compilation
  session : Session σ

namespace GeneratorDriver

def after (d : GeneratorDriver σ) (requests : List (RunRequest σ)) : GeneratorDriver σ :=
  requests.foldl (fun d q => (d.run q.compilation q.session).2.1) d

variable {d : GeneratorDriver σ}

theorem run_eq (d : GeneratorDriver σ) (c : Compilation) (s : Session σ) :
    ((d.run c s).1, (d.run c s).2.1) =
      ((d.generator.run c s).1.map (·.2), ⟨d.generator, ((d.generator.run c s).1.map (·.1)).or d.lastRun⟩) := by
  rw [run]
  cases d.generator.run c s with
  | mk outcome s' =>
      cases outcome with
      | none => rfl
      | some outcome => rfl

theorem run_lastRun (d : GeneratorDriver σ) (c : Compilation) (s : Session σ) :
    (d.run c s).2.1.lastRun = ((d.generator.run c s).1.map (·.1)).or d.lastRun :=
  congrArg (·.2.lastRun) (d.run_eq c s)

theorem run_generator (d : GeneratorDriver σ) (c : Compilation) (s : Session σ) :
    (d.run c s).2.1.generator = d.generator :=
  congrArg (·.2.generator) (d.run_eq c s)

theorem after_generator (requests : List (RunRequest σ)) : (d.after requests).generator = d.generator := by
  induction requests generalizing d with
  | nil => rfl
  | cons q requests ih => exact ih.trans (d.run_generator ..)

theorem after_lastRun (requests : List (RunRequest σ)) : (d.after requests).lastRun =
    (requests.filterMap fun q => (d.generator.run q.compilation q.session).1.map (·.1)).getLast?.or d.lastRun := by
  induction requests using List.reverseRecOn with
  | nil => rfl
  | append_singleton requests q ih =>
      rw [after, List.foldl_concat, ← after, run_lastRun, after_generator, ih, List.filterMap_append,
        List.getLast?_append, Option.or_assoc]
      congr 1
      cases h : (d.generator.run q.compilation q.session).1 with
      | none => simp [h]
      | some r => simp [h]

/-- A driver remembers the last run that was not cancelled. A run is cancelled exactly if the request was, or
if an answer of the generator cancels it, and then it leaves the driver as it was. Any other run comes to what
the generator answers in that run, and is all that the driver remembers. Its caller gets the diagnostics that
are remembered, with the compilation and the trees that were generated, or with the same compilation if the
generator failed. -/
theorem run_remembers (g : Generator σ) (earlier : List (RunRequest σ)) (c : Compilation) (s : Session σ) :
    let d := after ⟨g, none⟩ earlier
    let out := (d.run c s).1
    let next := (d.run c s).2.1
    let xs := g.answers c s.memory
    (d.generator = g ∧
      d.lastRun = (earlier.filterMap fun q => (g.run q.compilation q.session).1.map (·.1)).getLast?) ∧
    (out = none ↔ s.cancelled = true ∨ ∃ x ∈ xs, x.cancels = true) ∧
    (out = none → next = d) ∧
    ∀ o, out = some o → ∃ r, next = ⟨g, some r⟩ ∧ g.Outcome xs r ∧ o.diagnostics = r.diagnostics ∧
      (r.exception = none → o.compilation = c.addTrees r.trees ∧ o.compilation.trees = c.trees ++ r.trees) ∧
      (∀ e, r.exception = some e → o.compilation = c) ∧
      (g.kind = .oneShot → r.trackedInputs = 0) ∧
      (g.kind = .incremental → (r.trackedInputs = c.trees.length ↔
        ∀ x ∈ xs, x.failure? ≠ none → x.question = .finalize)) := by
  intro d out next xs
  have hgenerator : d.generator = g := after_generator earlier
  obtain ⟨hout, hnext⟩ : out = (g.run c s).1.map (·.2) ∧ next = ⟨g, ((g.run c s).1.map (·.1)).or d.lastRun⟩ := by
    rw [← hgenerator]
    exact Prod.mk.inj (d.run_eq c s)
  refine ⟨⟨hgenerator, ?_⟩, ?_, ?_, ?_⟩
  · rw [after_lastRun, Option.or_none]
  · rw [hout, Option.map_eq_none_iff]
    exact g.run_eq_none_iff c s
  · intro hnone
    rw [hout, Option.map_eq_none_iff] at hnone
    rw [hnext, hnone, ← hgenerator, Option.map_none, Option.none_or]
  · intro o ho
    rw [hout, Option.map_eq_some_iff] at ho
    obtain ⟨⟨r, out⟩, hr, rfl⟩ := ho
    have hrun : g.run c s = (some (r, out), (g.run c s).2) := Prod.ext hr rfl
    have houtcome : g.Outcome xs r := Generator.run_follows hrun
    obtain rfl := Generator.run_output hrun
    refine ⟨r, by rw [hnext, hr, Option.map_some, Option.some_or], houtcome, rfl, ?_, ?_, ?_, ?_⟩
    · exact fun _ => ⟨rfl, rfl⟩
    · intro e failed
      obtain ⟨hsources, -⟩ := houtcome.dropped e failed
      rw [GeneratorRun.trees, hsources, List.map_nil, Compilation.addTrees_nil]
    · cases g with
      | oneShot g => exact fun _ => Generator.outcome_trackedInputs_oneShot houtcome
      | incremental g =>
          intro hkind
          cases hkind
    · cases g with
      | oneShot g =>
          intro hkind
          cases hkind
      | incremental g =>
          intro _
          rw [houtcome.trackedInputs]
          exact Generator.countP_visited_eq_iff g c.trees

/-- A run that cancels leaves the one before it remembered. One that fails when it finishes has visited every
tree, and nothing is kept of it or of the run before it. -/
theorem run_remembers_cancelled :
    let g : Generator Nat := .incremental ⟨"G", fun _ _ _ m => ⟨{ sources := [("A", "")] }, m == 1, m⟩,
      some fun _ _ m => ⟨{ failure := if m = 0 then none else some (.raised "no" []) }, false, m⟩⟩
    let c : Compilation := .ofTrees "Test" [⟨none, ""⟩] [] {}
    let request (m : Nat) : RunRequest Nat := ⟨c, { memory := m }⟩
    let d := after ⟨g, none⟩ [request 0, request 1]
    let fails := d.run c { memory := 2 }
    (∃ r, d.lastRun = some r ∧ r.trees = [⟨some "G/A", ""⟩]) ∧
      (d.run c { memory := 1 }).1 = none ∧ (d.run c { memory := 1 }).2.1 = d ∧
      ∃ o r warning, fails.1 = some o ∧ fails.2.1.lastRun = some r ∧ o.compilation = c ∧ r.trees = [] ∧
        r.trackedInputs = c.trees.length ∧ Generator.Warns "G" "no" warning ∧ o.diagnostics = [warning] := by
  intro g c request d fails
  obtain ⟨⟨-, hlast⟩, hnone, hkept, -⟩ := run_remembers g [request 0, request 1] c { memory := 1 }
  obtain ⟨-, -, -, hfails⟩ := run_remembers g [request 0, request 1] c { memory := 2 }
  have hcancelled : (d.run c { memory := 1 }).1 = none :=
    hnone.2 (.inr ⟨_, List.mem_cons_self, rfl⟩)
  obtain ⟨o, ho, thrown, hthrown, hmessage⟩ : ∃ o, fails.1 = some o ∧ ∃ e, fails.2.1.lastRun.bind (·.exception) = some e ∧
      e.message = "no" := ⟨_, rfl, _, rfl, rfl⟩
  obtain ⟨r, hremembered, houtcome, hdiagnostics, -, hsame, -, hvisited⟩ := hfails o ho
  have hlastRun : fails.2.1.lastRun = some r := congrArg _ hremembered
  have hfailed : r.exception = some thrown := by
    rw [hlastRun] at hthrown
    exact hthrown
  obtain ⟨hsources, warning, hwarns, hreported⟩ := houtcome.dropped _ hfailed
  refine ⟨⟨_, hlast, rfl⟩, hcancelled, hkept hcancelled, o, r, warning, ho, hlastRun, hsame _ hfailed, ?_, ?_,
    hmessage ▸ hwarns, hdiagnostics.trans hreported⟩
  · rw [GeneratorRun.trees, hsources]
    rfl
  · refine (hvisited rfl).2 fun x hx failed => ?_
    obtain rfl | hx := List.mem_cons.1 hx
    · exact absurd rfl failed
    · exact Generator.question_of_mem_closing hx

end GeneratorDriver

end GeneratorBench
