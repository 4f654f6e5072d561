import GeneratorBench.Proofs.Run.Phases
import GeneratorBench.Proofs.Run.Registration

/-!
The generators of a run are folded over the compilation of the decorated fragments. What the fold
ends in is the compilation of all the trees at once, and so is what each generator sees.
-/

namespace GeneratorBench

variable {σ : Type}

namespace Generator

variable {g : IncrementalGenerator σ}

theorem finish_cancelled {p : Progress} {s : Session σ} (h : s.cancelled = true) :
    (finish g p s).2.cancelled = true := by
  rw [finish]
  split
  · exact h
  · exact s.call_cancelled_of _ _ h

theorem run_some {g : Generator σ} {c : Compilation} {s s' : Session σ} {r : GeneratorRun} {out : DriverOutput}
    (h : g.run c s = (some (r, out), s')) : ∃ p, g.perform c s = (p, s') ∧ r = (conclude g.id c p).1 ∧
      out = (conclude g.id c p).2 ∧ s'.cancelled = false := by
  rw [run] at h
  split at h
  · cases h
  · dsimp only at h
    split at h
    · cases h
    · rename_i live
      rw [Prod.mk.injEq, Option.some.injEq] at h
      obtain ⟨hx, rfl⟩ := h
      exact ⟨_, rfl, congrArg Prod.fst hx.symm, congrArg Prod.snd hx.symm, eq_false_of_ne_true live⟩

variable {id : String} {c : Compilation} {p : Progress}

theorem conclude_of_fine (h : p.failure = none) :
    conclude id c p = (⟨id, p.context.sources, p.context.diagnostics, none, p.visited⟩,
      ⟨c.addTrees (p.context.sources.map (·.tree)), p.context.diagnostics⟩) := by
  rw [conclude, h]
  dsimp only
  split
  · rename_i hnone
    rw [List.isEmpty_iff.1 hnone, List.map_nil, Compilation.addTrees_nil]
  · rfl

theorem conclude_of_failed {f : Failure} (h : p.failure = some f) :
    conclude id c p = (⟨id, [], [failedWarning id ⟨f.chain, f.isPanic⟩], some ⟨f.chain, f.isPanic⟩, p.visited⟩,
      ⟨c, [failedWarning id ⟨f.chain, f.isPanic⟩]⟩) := by
  rw [conclude, h]

theorem conclude_output (id : String) (c : Compilation) (p : Progress) :
    (conclude id c p).2 = ⟨c.addTrees (conclude id c p).1.trees, (conclude id c p).1.diagnostics⟩ := by
  cases h : p.failure with
  | none =>
      rw [conclude_of_fine h]
      rfl
  | some f =>
      rw [conclude_of_failed h, GeneratorRun.trees, List.map_nil, Compilation.addTrees_nil]

theorem conclude_generator (id : String) (c : Compilation) (p : Progress) : (conclude id c p).1.generator = id := by
  cases h : p.failure with
  | none => rw [conclude_of_fine h]
  | some f => rw [conclude_of_failed h]

theorem conclude_trackedInputs (id : String) (c : Compilation) (p : Progress) :
    (conclude id c p).1.trackedInputs = p.visited := by
  cases h : p.failure with
  | none => rw [conclude_of_fine h]
  | some f => rw [conclude_of_failed h]

theorem conclude_exception (id : String) (c : Compilation) (p : Progress) :
    (conclude id c p).1.exception = p.failure.map fun f => ⟨f.chain, f.isPanic⟩ := by
  cases h : p.failure with
  | none => rw [conclude_of_fine h]; rfl
  | some f => rw [conclude_of_failed h]; rfl

/-- The warning that takes the place of all that a failing generator added and reported. -/
structure Warns (generator thrown : String) (d : Diagnostic) : Prop where
  id : d.id = "GEN8785"
  severity : d.severity = .warning
  message : d.message = "Generator '" ++ generator ++ "' failed to generate source. It will not contribute to the " ++
    "output and compilation errors may occur as a result. Exception was '" ++ thrown ++ "'"
  location : d.location = {}

theorem failedWarning_warns (id : String) (e : GeneratorException) : Warns id e.message (failedWarning id e) :=
  ⟨rfl, rfl, by simp [failedWarning, String.append_assoc], rfl⟩

section

variable {g : Generator σ} {s s' : Session σ} {r : GeneratorRun} {out : DriverOutput}

theorem run_generator (h : g.run c s = (some (r, out), s')) : r.generator = g.id := by
  obtain ⟨p, -, rfl, -, -⟩ := run_some h
  exact conclude_generator ..

theorem run_output (h : g.run c s = (some (r, out), s')) : out = ⟨c.addTrees r.trees, r.diagnostics⟩ := by
  obtain ⟨p, -, rfl, rfl, -⟩ := run_some h
  exact conclude_output ..

theorem run_failed {e : GeneratorException} (h : g.run c s = (some (r, out), s')) (failed : r.exception = some e) :
    r.sources = [] ∧ ∃ warning, Warns g.id e.message warning ∧ r.diagnostics = [warning] := by
  obtain ⟨p, -, rfl, -, -⟩ := run_some h
  rw [conclude_exception, Option.map_eq_some_iff] at failed
  obtain ⟨f, hf, rfl⟩ := failed
  rw [conclude_of_failed hf]
  exact ⟨rfl, _, failedWarning_warns g.id _, rfl⟩

end

end Generator

/-- A generator's turn in a run: the compilation it was run on, what is kept of it and what it handed on. -/
structure Turn (σ : Type) where
  generator : Generator σ
  seen : Compilation
  run : GeneratorRun
  output : DriverOutput

namespace Turn

def driver (t : Turn σ) : GeneratorDriver σ := ⟨t.generator, some t.run⟩

def trees (ts : List (Turn σ)) : List SourceTree := ts.flatMap (·.run.trees)

end Turn

def RunContext.addTurn (ctx : RunContext σ) (t : Turn σ) : RunContext σ := ctx.addRun t.generator.id t.driver t.output

/-- Turns one after the other, each on the compilation and in the session that the one before it
left. -/
inductive Folded : Compilation → Session σ → List (Turn σ) → Compilation → Session σ → Prop
  | done (c : Compilation) (s : Session σ) : Folded c s [] c s
  | turn {t : Turn σ} {ts : List (Turn σ)} {c : Compilation} {s mid s' : Session σ}
      (ran : t.generator.run t.seen s = (some (t.run, t.output), mid))
      (rest : Folded t.output.compilation mid ts c s') : Folded t.seen s (t :: ts) c s'

namespace Folded

variable {c d : Compilation} {s s' : Session σ} {ts us : List (Turn σ)}

/-- Turns leave the compilation of the trees that were there and of those they generated. -/
theorem compilation_eq (h : Folded c s ts d s') : d = c.addTrees (Turn.trees ts) := by
  induction h with
  | done c s => exact c.addTrees_nil.symm
  | turn ran rest ih =>
      rw [ih, Generator.run_output ran, Compilation.addTrees_addTrees]
      rfl

theorem split (h : Folded c s (ts ++ us) d s') :
    ∃ mid s₁, Folded c s ts mid s₁ ∧ Folded mid s₁ us d s' := by
  induction ts generalizing c s with
  | nil => exact ⟨c, s, .done c s, h⟩
  | cons t ts ih =>
      cases h with
      | turn ran rest =>
          obtain ⟨mid, s₁, hts, hus⟩ := ih rest
          exact ⟨mid, s₁, .turn ran hts, hus⟩

/-- Each generator sees what those before it generated. -/
theorem seen_eq {t : Turn σ} (h : Folded c s (ts ++ t :: us) d s') :
    t.seen = c.addTrees (Turn.trees ts) ∧
      ∃ s₁ s₂, t.generator.run t.seen s₁ = (some (t.run, t.output), s₂) := by
  obtain ⟨mid, s₁, hts, hrest⟩ := h.split
  cases hrest with
  | turn ran rest => exact ⟨hts.compilation_eq, _, _, ran⟩

theorem ran (h : Folded c s ts d s') {t : Turn σ} (ht : t ∈ ts) :
    ∃ s₁ s₂, t.generator.run t.seen s₁ = (some (t.run, t.output), s₂) := by
  obtain ⟨us, vs, rfl⟩ := List.append_of_mem ht
  exact h.seen_eq.2

theorem run_generator (h : Folded c s ts d s') : ∀ t ∈ ts, t.run.generator = t.generator.id := by
  intro t ht
  obtain ⟨s₁, s₂, ran⟩ := h.ran ht
  exact Generator.run_generator ran

theorem output_eq (h : Folded c s ts d s') :
    ∀ t ∈ ts, t.output = ⟨t.seen.addTrees t.run.trees, t.run.diagnostics⟩ := by
  intro t ht
  obtain ⟨s₁, s₂, ran⟩ := h.ran ht
  exact Generator.run_output ran

end Folded

namespace Run

theorem generate_folded {gs : List (Generator σ)} {c last : Compilation} {run done : Run σ}
    (h : generate gs c run = (.ok last, done)) :
    ∃ ts : List (Turn σ), ts.map (·.generator) = gs ∧ Folded c run.session ts last done.session ∧
      done.context = ts.foldl RunContext.addTurn run.context := by
  induction gs generalizing c run with
  | nil =>
      cases h
      exact ⟨[], rfl, .done _ _, rfl⟩
  | cons g gs ih =>
      rw [generate_cons] at h
      split at h
      · cases h
      · rename_i r out s ran
        obtain ⟨ts, hgs, hfold, hctx⟩ := ih h
        exact ⟨⟨g, c, r, out⟩ :: ts, congrArg (g :: ·) hgs, .turn (t := ⟨g, c, r, out⟩) ran hfold,
          hctx⟩

theorem foldl_addTurn_drivers {ts : List (Turn σ)} {ctx : RunContext σ}
    (nodup : (ctx.drivers.map (·.1) ++ ts.map (·.generator.id)).Nodup) :
    (ts.foldl RunContext.addTurn ctx).drivers = ctx.drivers ++ ts.map fun t => (t.generator.id, t.driver) := by
  induction ts generalizing ctx with
  | nil => exact (List.append_nil _).symm
  | cons t ts ih =>
      have fresh : t.generator.id ∉ ctx.drivers.map (·.1) := by
        intro hmem
        exact (List.nodup_append.1 nodup).2.2 _ hmem _ List.mem_cons_self rfl
      have hdrivers : (ctx.addTurn t).drivers = ctx.drivers ++ [(t.generator.id, t.driver)] :=
        Drivers.insert_of_fresh fresh _
      have hnodup : ((ctx.addTurn t).drivers.map (·.1) ++ ts.map (·.generator.id)).Nodup := by
        rw [hdrivers, List.map_append, List.append_assoc]
        exact nodup
      rw [List.foldl_cons, ih hnodup, hdrivers, List.append_assoc]
      rfl

theorem drivers_of_turns {ts : List (Turn σ)} {ctx : RunContext σ} (hnone : ctx.drivers = [])
    (nodup : ((ts.map (·.generator)).map (·.id)).Nodup) :
    (ts.foldl RunContext.addTurn ctx).drivers = ts.map fun t => (t.generator.id, t.driver) := by
  rw [List.map_map] at nodup
  rw [foldl_addTurn_drivers, hnone, List.nil_append]
  rw [hnone, List.map_nil, List.nil_append]
  exact nodup

section

variable {result : TestResult σ} {ts : List (Turn σ)}

theorem runs_of_turns (h : result.drivers = ts.map fun t => (t.generator.id, t.driver)) :
    result.runs = ts.map (·.run) := by
  rw [TestResult.runs, h, List.filterMap_map]
  exact congrFun (List.filterMap_eq_map (f := fun t : Turn σ => t.run)) ts

end

end Run

end GeneratorBench
