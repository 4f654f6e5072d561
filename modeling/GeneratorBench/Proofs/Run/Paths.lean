import GeneratorBench.Proofs.Run.Account
import Mathlib.Data.List.Nodup
import Mathlib.Data.List.Pairwise

/-!
The paths of generated trees: the id of the generator and the hint name, with a slash between them. Each part
is unique where it is chosen, but both may hold slashes, so the paths of two generators can still meet.
-/

namespace GeneratorBench

variable {σ : Type}

theorem eq_or_goes_on {a b x y : String} {rest : List Char} (hb : b.toList = a.toList ++ rest)
    (hx : '/' :: x.toList = rest ++ '/' :: y.toList) :
    a = b ∧ x = y ∨ ∃ middle, b = a ++ "/" ++ middle ∧ x = middle ++ "/" ++ y := by
  cases rest with
  | nil =>
      rw [List.nil_append, List.cons.injEq] at hx
      exact .inl ⟨String.toList_inj.1 (by simpa using hb.symm), String.toList_inj.1 hx.2⟩
  | cons d middle =>
      rw [List.cons_append, List.cons.injEq] at hx
      obtain ⟨rfl, hx⟩ := hx
      refine .inr ⟨.ofList middle, String.toList_inj.1 ?_, String.toList_inj.1 ?_⟩
      · simpa using hb
      · simpa using hx

/-- Two names joined by a slash are joined at the same slash, or one of them goes on to a later one. -/
theorem join_eq_join {a b x y : String} :
    a ++ "/" ++ x = b ++ "/" ++ y ↔
      a = b ∧ x = y ∨ (∃ middle, b = a ++ "/" ++ middle ∧ x = middle ++ "/" ++ y) ∨
        ∃ middle, a = b ++ "/" ++ middle ∧ y = middle ++ "/" ++ x := by
  constructor
  · intro h
    have h : a.toList ++ '/' :: x.toList = b.toList ++ '/' :: y.toList := by
      simpa using congrArg String.toList h
    obtain ⟨rest, hb, hx⟩ | ⟨rest, ha, hy⟩ := List.append_eq_append_iff.1 h
    · obtain hsame | hlater := eq_or_goes_on hb hx
      · exact .inl hsame
      · exact .inr (.inl hlater)
    · obtain ⟨hname, hhint⟩ | hlater := eq_or_goes_on ha hy
      · exact .inl ⟨hname.symm, hhint.symm⟩
      · exact .inr (.inr hlater)
  · rintro (⟨rfl, rfl⟩ | ⟨middle, rfl, rfl⟩ | ⟨middle, rfl, rfl⟩)
    · rfl
    · simp only [String.append_assoc]
    · simp only [String.append_assoc]

structure NamedBy (id : String) (sources : List GeneratedSource) : Prop where
  path : ∀ source ∈ sources, source.tree.path = some (id ++ "/" ++ source.hintName)
  nodup : (sources.map (·.hintName)).Nodup

theorem namedBy_nil (id : String) : NamedBy id [] := ⟨nofun, List.nodup_nil⟩

theorem NamedBy.nodup_paths {id : String} {sources : List GeneratedSource} (h : NamedBy id sources) :
    (sources.map (·.tree.path)).Nodup := by
  have hpaths : sources.map (·.tree.path) =
      (sources.map (·.hintName)).map fun name => some (id ++ "/" ++ name) := by
    rw [List.map_map]
    exact List.map_congr_left h.path
  rw [hpaths]
  refine h.nodup.map fun x y hxy => ?_
  exact String.append_right_inj _ |>.1 (Option.some.inj hxy)

namespace GeneratorContext

variable {P : GeneratorContext → Prop} {ctx ctx' : GeneratorContext}

def hintNames (ctx : GeneratorContext) : List String := ctx.sources.map (·.hintName)

theorem addSource_cases (ctx : GeneratorContext) (hintName text : String) :
    hintName ∈ ctx.hintNames ∧ (∃ e, ctx.addSource hintName text = .error e) ∨
      hintName ∉ ctx.hintNames ∧ ctx.addSource hintName text = .ok { ctx with
        sources := ctx.sources ++ [⟨hintName, .ofText (some (ctx.generator ++ "/" ++ hintName)) text⟩] } := by
  have hused : ctx.sources.any (·.hintName == hintName) = true ↔ hintName ∈ ctx.hintNames := by
    simp [hintNames]
  rw [addSource, ← hused]
  by_cases h : ctx.sources.any (·.hintName == hintName) = true
  · exact .inl ⟨h, _, if_pos h⟩
  · exact .inr ⟨h, if_neg h⟩

theorem accept_induction
    (hsource : ∀ ctx ctx' hintName text, ctx.addSource hintName text = .ok ctx' → P ctx → P ctx')
    (hdiagnostics : ∀ ctx ds, P ctx → P { ctx with diagnostics := ds }) (c : Contribution) (h : P ctx) :
    P (ctx.accept c) := by
  refine hdiagnostics _ _ ?_
  induction c.sources generalizing ctx with
  | nil => exact h
  | cons source sources ih =>
      refine ih ?_
      dsimp only
      split
      · rename_i hadd
        exact hsource _ _ _ _ hadd h
      · exact h

structure Of (ctx : GeneratorContext) (id : String) : Prop where
  generator : ctx.generator = id
  sources : NamedBy id ctx.sources

theorem Of.addSource {id hintName text : String} (h : ctx.Of id) (hadd : ctx.addSource hintName text = .ok ctx') :
    ctx'.Of id := by
  obtain ⟨-, e, herror⟩ | ⟨hfresh, hok⟩ := ctx.addSource_cases hintName text
  · rw [herror] at hadd
    cases hadd
  · rw [hok] at hadd
    cases hadd
    refine ⟨h.generator, ?_, ?_⟩
    · intro source hmem
      rw [List.mem_append, List.mem_singleton] at hmem
      obtain hmem | rfl := hmem
      · exact h.sources.path source hmem
      · rw [h.generator, SourceTree.ofText, Location.properPath, Option.filter_some_pos (by simp)]
    · rw [List.map_append, List.map_singleton, ← List.concat_eq_append]
      exact h.sources.nodup.concat hfresh

theorem Of.accept {id : String} (c : Contribution) (h : ctx.Of id) : (ctx.accept c).Of id :=
  accept_induction (P := (·.Of id)) (fun _ _ _ _ hadd h => h.addSource hadd)
    (fun _ _ h => ⟨h.generator, h.sources⟩) c h

end GeneratorContext

namespace Generator

variable {P : GeneratorContext → Prop}

theorem visitTrees_induction (h : ∀ ctx c, P ctx → P (ctx.accept c)) {g : IncrementalGenerator σ}
    (ts : List SourceTree) {p : Progress} (hp : P p.context) (s : Session σ) :
    P (visitTrees g ts p s).1.context := by
  have hfinish {p : Progress} (hp : P p.context) (s : Session σ) : P (finish g p s).1.context := by
    rw [finish]
    split
    · exact hp
    · exact h _ _ hp
  induction ts generalizing p s with
  | nil => exact hfinish hp s
  | cons t ts ih =>
      rw [visitTrees]
      split
      · exact hfinish hp s
      · dsimp only
        split
        · exact h _ _ hp
        · exact ih (h _ _ hp) _

theorem run_namedBy {g : Generator σ} {c : Compilation} {s s' : Session σ} {r : GeneratorRun} {out : DriverOutput}
    (h : g.run c s = (some (r, out), s')) : NamedBy g.id r.sources := by
  obtain ⟨p, hperform, rfl, -, -⟩ := run_some h
  have hstart : GeneratorContext.Of { generator := g.id, compilation := c } g.id := ⟨rfl, namedBy_nil _⟩
  have hp : (g.perform c s).1.context.Of g.id := by
    cases g with
    | oneShot g => exact hstart.accept _
    | incremental g =>
        exact visitTrees_induction (P := (·.Of g.id)) (fun _ c h => h.accept c) c.trees hstart s
  rw [hperform] at hp
  rw [conclude]
  split
  · exact hp.sources
  · exact namedBy_nil _

end Generator

theorem Folded.namedBy {c d : Compilation} {s s' : Session σ} {ts : List (Turn σ)} (h : Folded c s ts d s') :
    ∀ t ∈ ts, NamedBy t.run.generator t.run.sources := by
  intro t ht
  obtain ⟨s₁, s₂, ran⟩ := h.ran ht
  rw [Generator.run_generator ran]
  exact Generator.run_namedBy ran

namespace GeneratorRun

/-- The id of `b` goes on from that of `a` into a hint name of `a`, which ends in one of `b`. -/
def Meets (a b : GeneratorRun) : Prop :=
  ∃ middle, b.generator = a.generator ++ "/" ++ middle ∧ ∃ source ∈ a.sources, ∃ other ∈ b.sources,
    source.hintName = middle ++ "/" ++ other.hintName

variable {a b : GeneratorRun}

def paths (r : GeneratorRun) : List (Option String) := r.sources.map (·.tree.path)

theorem disjoint_paths_iff (ha : NamedBy a.generator a.sources) (hb : NamedBy b.generator b.sources)
    (hne : a.generator ≠ b.generator) : a.paths.Disjoint b.paths ↔ ¬ a.Meets b ∧ ¬ b.Meets a := by
  have hcommon : (∃ path ∈ a.paths, path ∈ b.paths) ↔ a.Meets b ∨ b.Meets a := by
    simp only [paths, List.mem_map]
    constructor
    · rintro ⟨_, ⟨source, hsource, rfl⟩, other, hother, heq⟩
      rw [ha.path source hsource, hb.path other hother, Option.some.injEq] at heq
      obtain ⟨hid, -⟩ | ⟨middle, hid, hname⟩ | ⟨middle, hid, hname⟩ := join_eq_join.1 heq
      · exact absurd hid.symm hne
      · exact .inr ⟨middle, hid, other, hother, source, hsource, hname⟩
      · exact .inl ⟨middle, hid, source, hsource, other, hother, hname⟩
    · rintro (⟨middle, hid, source, hsource, other, hother, hname⟩ |
        ⟨middle, hid, other, hother, source, hsource, hname⟩)
      · refine ⟨_, ⟨source, hsource, rfl⟩, other, hother, ?_⟩
        rw [ha.path source hsource, hb.path other hother]
        exact congrArg some (join_eq_join.2 (.inr (.inr ⟨middle, hid, hname⟩)))
      · refine ⟨_, ⟨source, hsource, rfl⟩, other, hother, ?_⟩
        rw [ha.path source hsource, hb.path other hother]
        exact congrArg some (join_eq_join.2 (.inr (.inl ⟨middle, hid, hname⟩)))
  rw [← not_or, ← hcommon]
  exact ⟨fun h ⟨_, hmem, hmem'⟩ => h hmem hmem', fun h _ hmem hmem' => h ⟨_, hmem, hmem'⟩⟩

theorem not_meets_self (r : GeneratorRun) : ¬ r.Meets r := by
  rintro ⟨middle, hid, -⟩
  have hlength := congrArg String.length hid
  simp only [String.length_append] at hlength
  have : "/".length = 1 := rfl
  omega

end GeneratorRun

namespace TestResult

def generatedPaths (r : TestResult σ) : List (Option String) := r.generatedTrees.map (·.path)

theorem generatedPaths_eq (r : TestResult σ) : r.generatedPaths = r.runs.flatMap (·.paths) := by
  simp only [generatedPaths, generatedTrees, List.map_flatMap, GeneratorRun.trees, List.map_map]
  rfl

theorem nodup_generatedPaths_iff {r : TestResult σ} (hnamed : ∀ a ∈ r.runs, NamedBy a.generator a.sources)
    (nodup : (r.runs.map (·.generator)).Nodup) :
    r.generatedPaths.Nodup ↔ ∀ a ∈ r.runs, ∀ b ∈ r.runs, ¬ a.Meets b := by
  have hids : r.runs.Pairwise fun a b => a.generator ≠ b.generator := List.pairwise_map.1 nodup
  rw [generatedPaths_eq, List.nodup_flatMap]
  constructor
  · rintro ⟨-, hdisjoint⟩ a ha b hb hmeets
    have : Std.Symm (Function.onFun List.Disjoint GeneratorRun.paths) := ⟨fun _ _ => List.disjoint_symm⟩
    have hne : a ≠ b := by
      rintro rfl
      exact a.not_meets_self hmeets
    have hneId : a.generator ≠ b.generator := fun hid => hne (List.inj_on_of_nodup_map nodup ha hb hid)
    have hpaths := hdisjoint.forall ha hb hne
    exact ((GeneratorRun.disjoint_paths_iff (hnamed a ha) (hnamed b hb) hneId).1 hpaths).1 hmeets
  · intro h
    refine ⟨fun a ha => (hnamed a ha).nodup_paths, hids.imp_of_mem fun {a b} ha hb hne => ?_⟩
    exact (GeneratorRun.disjoint_paths_iff (hnamed a ha) (hnamed b hb) hne).2 ⟨h a ha b hb, h b hb a ha⟩

end TestResult

/-- No id goes on from another one with a slash. -/
def Configuration.Unnested (c : Configuration σ) : Prop :=
  ∀ g ∈ c.generators, ∀ h ∈ c.generators, ∀ middle, h.id ≠ g.id ++ "/" ++ middle

/-- A generated tree goes by the id of its generator and its hint name. That tells the trees of a run apart
exactly if no id goes on from another one into a hint name of that generator. -/
theorem Run.runAll_paths {ctx : RunContext σ} (fresh : ctx.Fresh) (hc : ctx.configuration.Reachable)
    {plugins : List (Plugin σ)} {s : Session σ} {result : TestResult σ} {after : Run σ}
    (h : runAll plugins ⟨ctx, s⟩ = (.ok result, after)) :
    (∀ run ∈ result.runs, NamedBy run.generator run.sources) ∧
      (result.generatedPaths.Nodup ↔ ∀ a ∈ result.runs, ∀ b ∈ result.runs, ¬ a.Meets b) ∧
      (ctx.configuration.Unnested → result.generatedPaths.Nodup) := by
  obtain ⟨k, account, -⟩ := runAll_account fresh hc.nodup_generators h
  have hnamed : ∀ run ∈ result.runs, NamedBy run.generator run.sources := by
    intro run hmem
    rw [account.runs_eq] at hmem
    obtain ⟨t, ht, rfl⟩ := List.mem_map.1 hmem
    exact account.folded.namedBy t ht
  have hids := account.map_generator
  have hiff := TestResult.nodup_generatedPaths_iff hnamed (by rw [hids]; exact hc.nodup_generators)
  have hgenerator : ∀ run ∈ result.runs, ∃ g ∈ ctx.configuration.generators, g.id = run.generator := by
    intro run hmem
    exact List.mem_map.1 (hids ▸ List.mem_map_of_mem hmem)
  refine ⟨hnamed, hiff, fun hunnested => hiff.2 ?_⟩
  rintro a ha b hb ⟨middle, hid, -⟩
  obtain ⟨g, hg, hga⟩ := hgenerator a ha
  obtain ⟨i, hi, hib⟩ := hgenerator b hb
  exact hunnested g hg i hi middle (by rw [hib, hga, hid])

/-- Two generators that are told apart, and whose trees are not. -/
theorem Run.runAll_paths_meeting :
    let adds (id hintName : String) : OneShotGenerator Unit :=
      ⟨id, fun _ _ _ => ⟨{ sources := [(hintName, "")] }, false, ()⟩⟩
    let ctx : RunContext Unit :=
      { configuration := { oneShots := [adds "a" "b/c", adds "a/b" "c"], generatorIds := ["a", "a/b"] } }
    ctx.Fresh ∧ ctx.configuration.Reachable ∧
      ∃ result after, runAll [] ⟨ctx, { memory := () }⟩ = (.ok result, after) ∧
        result.generatedPaths = [some "a/b/c", some "a/b/c"] ∧
        ∃ a ∈ result.runs, ∃ b ∈ result.runs, a.Meets b := by
  intro adds ctx
  have fresh : ctx.Fresh := ⟨rfl, rfl, rfl, rfl, rfl, rfl, rfl⟩
  have registers : ({ references := [] } : Configuration Unit).apply
      (.oneShotGenerators [⟨"a", _⟩, ⟨"a/b", _⟩]) = .ok ctx.configuration := rfl
  have reachable : ctx.configuration.Reachable := .apply (.new []) registers
  obtain ⟨result, after, h, hpaths⟩ : ∃ result after, runAll [] ⟨ctx, { memory := () }⟩ = (.ok result, after) ∧
      result.generatedPaths = [some "a/b/c", some "a/b/c"] := ⟨_, _, rfl, by decide +kernel⟩
  obtain ⟨-, hiff, -⟩ := runAll_paths fresh reachable h
  refine ⟨fresh, reachable, result, after, h, hpaths, ?_⟩
  by_contra hnone
  have hnodup : result.generatedPaths.Nodup := hiff.2 fun a ha b hb hmeets => hnone ⟨a, ha, b, hb, hmeets⟩
  rw [hpaths] at hnodup
  exact absurd hnodup (by decide)

end GeneratorBench
