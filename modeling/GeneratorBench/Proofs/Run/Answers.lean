import GeneratorBench.Proofs.Run.Blocks
import GeneratorBench.Proofs.Run.Paths
import GeneratorBench.Proofs.Run.Promptness
import GeneratorBench.Proofs.Run.Replay

/-!
One run of a generator, as what it answers question by question and up to the first failure. A run that no
answer cancels comes to what the answers add up to; a failure costs it all but a warning.
-/

namespace GeneratorBench

variable {σ : Type}

/-! ### What a generator adds -/

/-- The sources that the generator `id` has after these attempts to add one, by hint name and text: one for
each hint name, from its first use. -/
structure FirstUses (id : String) (attempts : List (String × String)) (sources : List GeneratedSource) : Prop where
  hintNames : sources.map (·.hintName) = (attempts.map (·.1)).eraseDups
  tree : ∀ source ∈ sources, ∃ text, attempts.lookup source.hintName = some text ∧
    source.tree = .ofText (some (id ++ "/" ++ source.hintName)) text

namespace FirstUses

variable {id name text : String} {attempts : List (String × String)} {sources : List GeneratedSource}

theorem mem_hintNames_iff (h : FirstUses id attempts sources) :
    name ∈ sources.map (·.hintName) ↔ name ∈ attempts.map (·.1) := by
  rw [h.hintNames, List.mem_eraseDups]

theorem tree_append (h : FirstUses id attempts sources) (later : List (String × String)) :
    ∀ source ∈ sources, ∃ text, (attempts ++ later).lookup source.hintName = some text ∧
      source.tree = .ofText (some (id ++ "/" ++ source.hintName)) text := by
  intro source hsource
  obtain ⟨text, hlookup, htree⟩ := h.tree source hsource
  exact ⟨text, by rw [List.lookup_append, hlookup, Option.some_or], htree⟩

theorem again (h : FirstUses id attempts sources) (hused : name ∈ sources.map (·.hintName)) :
    FirstUses id (attempts ++ [(name, text)]) sources := by
  have hknown : [name].removeAll (attempts.map (·.1)) = [] := by
    simpa [List.removeAll] using h.mem_hintNames_iff.1 hused
  refine ⟨?_, h.tree_append _⟩
  rw [List.map_append, List.eraseDups_append, List.map_singleton, hknown, List.eraseDups_nil, List.append_nil]
  exact h.hintNames

theorem fresh (h : FirstUses id attempts sources) (hfresh : name ∉ sources.map (·.hintName)) :
    FirstUses id (attempts ++ [(name, text)])
      (sources ++ [⟨name, .ofText (some (id ++ "/" ++ name)) text⟩]) := by
  have hunknown : name ∉ attempts.map (·.1) := fun hmem => hfresh (h.mem_hintNames_iff.2 hmem)
  refine ⟨?_, fun source hsource => ?_⟩
  · have hnew : [name].removeAll (attempts.map (·.1)) = [name] := by
      simpa [List.removeAll] using hunknown
    rw [List.map_append, List.map_append, List.eraseDups_append, List.map_singleton, List.map_singleton, hnew,
      h.hintNames]
    rfl
  · obtain hsource | hsource := List.mem_append.1 hsource
    · exact h.tree_append _ source hsource
    · obtain rfl := List.mem_singleton.1 hsource
      have hnone : attempts.lookup name = none := by
        rw [List.lookup_eq_none_iff]
        intro attempt hattempt
        exact bne_iff_ne.2 fun heq => hunknown (heq ▸ List.mem_map_of_mem hattempt)
      exact ⟨text, by rw [List.lookup_append, hnone, Option.none_or, List.lookup_cons_self], rfl⟩

end FirstUses

namespace GeneratorContext

variable {ctx : GeneratorContext} {id : String}

/-- The context after an attempt to add a source, which changes nothing if the hint name was used before. -/
def attempt (ctx : GeneratorContext) (source : String × String) : GeneratorContext :=
  match ctx.addSource source.1 source.2 with
  | .ok ctx => ctx
  | .error _ => ctx

theorem accept_eq (ctx : GeneratorContext) (c : Contribution) :
    ctx.accept c = { c.sources.foldl attempt ctx with
      diagnostics := (c.sources.foldl attempt ctx).diagnostics ++ c.diagnostics } := rfl

theorem attempt_cases (ctx : GeneratorContext) (name text : String) :
    name ∈ ctx.hintNames ∧ ctx.attempt (name, text) = ctx ∨
      name ∉ ctx.hintNames ∧ ctx.attempt (name, text) = { ctx with
        sources := ctx.sources ++ [⟨name, .ofText (some (ctx.generator ++ "/" ++ name)) text⟩] } := by
  obtain ⟨hused, e, herror⟩ | ⟨hfresh, hok⟩ := ctx.addSource_cases name text
  · exact .inl ⟨hused, by rw [attempt, herror]⟩
  · exact .inr ⟨hfresh, by rw [attempt, hok]⟩

variable {attempts : List (String × String)}

theorem attempt_firstUses (source : String × String) (h : FirstUses ctx.generator attempts ctx.sources) :
    let next := ctx.attempt source
    next.generator = ctx.generator ∧ next.diagnostics = ctx.diagnostics ∧
      FirstUses ctx.generator (attempts ++ [source]) next.sources := by
  obtain ⟨name, text⟩ := source
  obtain ⟨hused, heq⟩ | ⟨hfresh, heq⟩ := ctx.attempt_cases name text
  · rw [heq]
    exact ⟨rfl, rfl, h.again hused⟩
  · rw [heq]
    exact ⟨rfl, rfl, h.fresh hfresh⟩

theorem foldl_attempt_firstUses (sources : List (String × String))
    (h : FirstUses ctx.generator attempts ctx.sources) :
    let after := sources.foldl attempt ctx
    after.generator = ctx.generator ∧ after.diagnostics = ctx.diagnostics ∧
      FirstUses ctx.generator (attempts ++ sources) after.sources := by
  induction sources generalizing ctx attempts with
  | nil => exact ⟨rfl, rfl, (List.append_nil attempts).symm ▸ h⟩
  | cons source sources ih =>
      obtain ⟨hgenerator, hdiagnostics, hnext⟩ := attempt_firstUses source h
      rw [← hgenerator] at hnext
      obtain ⟨hgenerator', hdiagnostics', hrest⟩ := ih hnext
      rw [hgenerator, List.append_assoc] at hrest
      exact ⟨hgenerator'.trans hgenerator, hdiagnostics'.trans hdiagnostics, hrest⟩

structure Holds (ctx : GeneratorContext) (id : String) (cs : List Contribution) : Prop where
  generator : ctx.generator = id
  sources : FirstUses id (cs.flatMap (·.sources)) ctx.sources
  diagnostics : ctx.diagnostics = cs.flatMap (·.diagnostics)

theorem Holds.accept {cs : List Contribution} (h : ctx.Holds id cs) (c : Contribution) :
    (ctx.accept c).Holds id (cs ++ [c]) := by
  obtain ⟨rfl, hsources, hdiagnostics⟩ := h
  obtain ⟨hgenerator, hreported, hadded⟩ := foldl_attempt_firstUses c.sources hsources
  rw [accept_eq]
  refine ⟨hgenerator, ?_, ?_⟩
  · rw [List.flatMap_append, List.flatMap_singleton]
    exact hadded
  · rw [List.flatMap_append, List.flatMap_singleton, ← hdiagnostics]
    exact congrArg (· ++ c.diagnostics) hreported

theorem Holds.foldl {cs : List Contribution} (h : ctx.Holds id cs) (later : List Contribution) :
    (later.foldl GeneratorContext.accept ctx).Holds id (cs ++ later) := by
  induction later generalizing ctx cs with
  | nil => exact (List.append_nil cs).symm ▸ h
  | cons c later ih =>
      have hrest := ih (h.accept c)
      rwa [List.append_assoc] at hrest

end GeneratorContext

/-! ### Questions and answers -/

namespace Generator

inductive Question
  | execute
  | visit (t : SourceTree)
  | finalize
  deriving Repr, DecidableEq

structure Inquiry (σ : Type) where
  question : Question
  code : GeneratorContext → Callback σ Contribution

structure Answer (σ : Type) where
  question : Question
  reply : Reply σ Contribution

namespace Answer

variable (x : Answer σ)

def cancels : Bool := x.reply.cancels

def failure? : Option Failure := x.reply.value.failure

def visited : Bool :=
  match x.question with
  | .visit _ => x.failure?.isNone
  | .execute | .finalize => false

variable {x}

theorem not_visited_of_failed {e : Failure} (h : x.failure? = some e) : x.visited = false := by
  rw [visited, h]
  cases x.question with
  | execute | visit t | finalize => rfl

theorem visited_of_fine {t : SourceTree} (hvisit : x.question = .visit t) (h : x.failure? = none) :
    x.visited = true := by
  rw [visited, hvisit, h]
  rfl

end Answer

def closing (g : IncrementalGenerator σ) : List (Inquiry σ) := g.finalize.toList.map (⟨.finalize, ·⟩)

def visiting (g : IncrementalGenerator σ) (ts : List SourceTree) : List (Inquiry σ) :=
  ts.map fun t => ⟨.visit t, g.visit t⟩

theorem visiting_cons (g : IncrementalGenerator σ) (t : SourceTree) (ts : List SourceTree) :
    visiting g (t :: ts) = ⟨.visit t, g.visit t⟩ :: visiting g ts := rfl

def inquiries (g : Generator σ) (ts : List SourceTree) : List (Inquiry σ) :=
  match g with
  | oneShot g => [⟨.execute, g.execute⟩]
  | incremental g => visiting g ts ++ closing g

/-- What is answered in a live request, one after the other and up to the first failure. -/
def replies : List (Inquiry σ) → GeneratorContext → σ → List (Answer σ)
  | [], _, _ => []
  | q :: qs, ctx, memory =>
    let reply := q.code ctx false memory
    ⟨q.question, reply⟩ ::
      if reply.value.failure.isSome then [] else replies qs (ctx.accept reply.value) reply.memory

section

variable {q : Inquiry σ} {ctx : GeneratorContext} {memory : σ}

theorem replies_of_failed (h : (q.code ctx false memory).value.failure.isSome = true) (qs : List (Inquiry σ)) :
    replies (q :: qs) ctx memory = [⟨q.question, q.code ctx false memory⟩] := by
  rw [replies, if_pos h]

theorem replies_of_fine (h : (q.code ctx false memory).value.failure = none) (qs : List (Inquiry σ)) :
    replies (q :: qs) ctx memory = ⟨q.question, q.code ctx false memory⟩ ::
      replies qs (ctx.accept (q.code ctx false memory).value) (q.code ctx false memory).memory := by
  rw [replies, h]
  rfl

end

/-- The answers of a generator that is run on `c`, as long as none of them cancels. -/
def answers (g : Generator σ) (c : Compilation) (memory : σ) : List (Answer σ) :=
  replies (g.inquiries c.trees) { generator := g.id, compilation := c } memory

/-! ### A run follows the answers -/

def Progress.hear (p : Progress) (x : Answer σ) : Progress :=
  { p.accept x.reply.value with visited := p.visited + if x.visited then 1 else 0 }

theorem Progress.hear_of_not_visited (p : Progress) {x : Answer σ} (h : x.visited = false) :
    p.hear x = p.accept x.reply.value := by
  rw [hear, h, if_neg Bool.false_ne_true]
  rfl

theorem Progress.hear_of_visited (p : Progress) {x : Answer σ} (h : x.visited = true) :
    p.hear x = { p.accept x.reply.value with visited := p.visited + 1 } := by
  rw [hear, h, if_pos rfl]

/-- What was come to from `p` is cancelled if an answer cancels, and else what the answers add up to. -/
def Follows (r : Progress × Session σ) (p : Progress) (xs : List (Answer σ)) : Prop :=
  r.2.cancelled = xs.any Answer.cancels ∧ (r.2.cancelled = false → r.1 = xs.foldl Progress.hear p)

section

variable {g : IncrementalGenerator σ} {r : Progress × Session σ} {p : Progress} {s : Session σ} {x : Answer σ}
  {xs : List (Answer σ)}

theorem follows_of_cancels (hcancels : x.cancels = true) (h : r.2.cancelled = true) : Follows r p (x :: xs) := by
  constructor
  · rw [h, List.any_cons, hcancels, Bool.true_or]
  · intro live
    rw [h] at live
    cases live

theorem Follows.cons (hcancels : x.cancels = false) (h : Follows r (p.hear x) xs) : Follows r p (x :: xs) := by
  constructor
  · rw [List.any_cons, hcancels, Bool.false_or]
    exact h.1
  · exact h.2

theorem follows_last (p : Progress) (hlast : x.visited = false) (hcancelled : s.cancelled = x.cancels) :
    Follows (p.accept x.reply.value, s) p [x] := by
  constructor
  · rw [List.any_cons, List.any_nil, Bool.or_false]
    exact hcancelled
  · exact fun _ => (p.hear_of_not_visited hlast).symm

theorem finish_follows (p : Progress) (live : s.cancelled = false) :
    Follows (finish g p s) p (replies (closing g) p.context s.memory) := by
  rw [finish, closing]
  cases g.finalize with
  | none => exact ⟨live, fun _ => rfl⟩
  | some f =>
      obtain ⟨mid, hcall, hcancelled, -⟩ := s.call_of_live live (.finalize g.id) (f p.context)
      have hend := follows_last p (x := ⟨.finalize, f p.context false s.memory⟩) rfl hcancelled
      simpa [hcall, replies] using hend

theorem visitTrees_of_failed {t : SourceTree} {c : Contribution} {mid : Session σ} (live : s.cancelled = false)
    (hcall : s.call (.visit g.id t.filePath) (g.visit t p.context) = (c, mid)) (h : c.failure.isSome = true)
    (ts : List SourceTree) : visitTrees g (t :: ts) p s = (p.accept c, mid) := by
  rw [visitTrees, if_neg (ne_true_of_eq_false live)]
  simp only [hcall]
  exact if_pos h

theorem visitTrees_of_fine {t : SourceTree} {c : Contribution} {mid : Session σ} (live : s.cancelled = false)
    (hcall : s.call (.visit g.id t.filePath) (g.visit t p.context) = (c, mid)) (h : c.failure = none)
    (ts : List SourceTree) :
    visitTrees g (t :: ts) p s = visitTrees g ts { p.accept c with visited := p.visited + 1 } mid := by
  rw [visitTrees, if_neg (ne_true_of_eq_false live)]
  simp only [hcall]
  exact if_neg (Option.not_isSome_iff_eq_none.2 h)

theorem visitTrees_follows (ts : List SourceTree) (p : Progress) (live : s.cancelled = false) :
    Follows (visitTrees g ts p s) p (replies (visiting g ts ++ closing g) p.context s.memory) := by
  induction ts generalizing p s with
  | nil => exact finish_follows p live
  | cons t ts ih =>
      obtain ⟨mid, hcall, hcancelled, hmemory, -⟩ :=
        s.call_of_live live (.visit g.id t.filePath) (g.visit t p.context)
      let x : Answer σ := ⟨.visit t, g.visit t p.context false s.memory⟩
      rw [visiting_cons, List.cons_append]
      cases hfailure : x.failure? with
      | some e =>
          have failed : x.failure?.isSome = true := Option.isSome_iff_exists.2 ⟨e, hfailure⟩
          rw [visitTrees_of_failed live hcall failed, replies_of_failed failed]
          exact follows_last p (Answer.not_visited_of_failed hfailure) hcancelled
      | none =>
          have hvisited : x.visited = true := Answer.visited_of_fine rfl hfailure
          rw [visitTrees_of_fine live hcall hfailure, replies_of_fine hfailure, ← hmemory]
          cases hcancels : x.cancels with
          | true =>
              -- what is asked to finish is not among the answers then, but the request stays cancelled
              have hlate : mid.cancelled = true := hcancelled.trans hcancels
              refine follows_of_cancels hcancels ?_
              rw [visitTrees_of_cancelled _ _ hlate]
              exact finish_cancelled hlate
          | false =>
              have hrest := ih (p.hear x) (hcancelled.trans hcancels)
              rw [← p.hear_of_visited hvisited]
              exact .cons hcancels hrest

end

theorem perform_follows (g : Generator σ) (c : Compilation) {s : Session σ} (live : s.cancelled = false) :
    Follows (g.perform c s) { context := { generator := g.id, compilation := c } } (g.answers c s.memory) := by
  cases g with
  | oneShot g =>
      let ctx : GeneratorContext := { generator := g.id, compilation := c }
      obtain ⟨mid, hcall, hcancelled, -⟩ := s.call_of_live live (.execute g.id) (g.execute ctx)
      have hend := follows_last { context := ctx } (x := ⟨.execute, g.execute ctx false s.memory⟩) rfl hcancelled
      have hperform : perform (oneShot g) c s =
          (Progress.accept { context := ctx } (g.execute ctx false s.memory).value, mid) := by
        simp only [perform, id]
        rw [hcall]
      rw [hperform]
      simpa [answers, inquiries, replies, id] using hend
  | incremental g => exact visitTrees_follows c.trees _ live

/-! ### What the answers add up to -/

theorem foldl_hear_context (xs : List (Answer σ)) (p : Progress) :
    (xs.foldl Progress.hear p).context = (xs.map (·.reply.value)).foldl GeneratorContext.accept p.context := by
  induction xs generalizing p with
  | nil => rfl
  | cons x xs ih => exact ih (p.hear x)

theorem foldl_hear_visited (xs : List (Answer σ)) (p : Progress) :
    (xs.foldl Progress.hear p).visited = p.visited + xs.countP Answer.visited := by
  induction xs generalizing p with
  | nil => rfl
  | cons x xs ih =>
      have hfirst : (p.hear x).visited = p.visited + if x.visited then 1 else 0 := rfl
      rw [List.foldl_cons, ih, hfirst, List.countP_cons]
      omega

/-- Nothing is asked after a failure, so the first one is the last word. -/
theorem foldl_hear_failure (qs : List (Inquiry σ)) {ctx : GeneratorContext} {memory : σ} {p : Progress}
    (fine : p.failure = none) : ((replies qs ctx memory).foldl Progress.hear p).failure =
      (replies qs ctx memory).findSome? Answer.failure? := by
  induction qs generalizing ctx memory p with
  | nil => exact fine
  | cons q qs ih =>
      cases hfailure : (q.code ctx false memory).value.failure with
      | some e =>
          rw [replies_of_failed (by rw [hfailure]; rfl)]
          simp [Progress.hear, Progress.accept, Answer.failure?, hfailure]
      | none =>
          rw [replies_of_fine hfailure, List.foldl_cons, List.findSome?_cons_of_isNone (by simp [Answer.failure?, hfailure])]
          exact ih hfailure

theorem question_of_mem_replies {qs : List (Inquiry σ)} {ctx : GeneratorContext} {memory : σ} {x : Answer σ}
    (h : x ∈ replies qs ctx memory) : ∃ q ∈ qs, q.question = x.question := by
  induction qs generalizing ctx memory with
  | nil => cases h
  | cons q qs ih =>
      rw [replies] at h
      obtain rfl | h := List.mem_cons.1 h
      · exact ⟨q, List.mem_cons_self, rfl⟩
      · split at h
        · cases h
        · obtain ⟨q', hq', hquestion⟩ := ih h
          exact ⟨q', List.mem_cons_of_mem _ hq', hquestion⟩

theorem question_of_mem_closing {g : IncrementalGenerator σ} {ctx : GeneratorContext} {memory : σ} {x : Answer σ}
    (h : x ∈ replies (closing g) ctx memory) : x.question = .finalize := by
  obtain ⟨q, hq, hquestion⟩ := question_of_mem_replies h
  obtain ⟨f, -, rfl⟩ := List.mem_map.1 hq
  exact hquestion.symm

theorem countP_visited_eq_iff (g : IncrementalGenerator σ) (ts : List SourceTree) {ctx : GeneratorContext}
    {memory : σ} :
    let xs := replies (visiting g ts ++ closing g) ctx memory
    xs.countP Answer.visited = ts.length ↔ ∀ x ∈ xs, x.failure? ≠ none → x.question = .finalize := by
  induction ts generalizing ctx memory with
  | nil =>
      have hfinal : ∀ x ∈ replies (closing g) ctx memory, x.question = .finalize := fun x => question_of_mem_closing
      have hnone : (replies (closing g) ctx memory).countP Answer.visited = 0 := by
        rw [List.countP_eq_zero]
        intro x hx
        simp [Answer.visited, hfinal x hx]
      exact ⟨fun _ x hx _ => hfinal x hx, fun _ => hnone⟩
  | cons t ts ih =>
      let x : Answer σ := ⟨.visit t, g.visit t ctx false memory⟩
      cases hfailure : x.failure? with
      | some e =>
          have hreplies : replies (visiting g (t :: ts) ++ closing g) ctx memory = [x] :=
            replies_of_failed (Option.isSome_iff_exists.2 ⟨e, hfailure⟩) _
          have hlost : x.visited = false := Answer.not_visited_of_failed hfailure
          rw [hreplies]
          simp [hlost, hfailure, x]
      | none =>
          have hreplies : replies (visiting g (t :: ts) ++ closing g) ctx memory =
              x :: replies (visiting g ts ++ closing g) (ctx.accept x.reply.value) x.reply.memory :=
            replies_of_fine hfailure _
          have hvisited : x.visited = true := Answer.visited_of_fine rfl hfailure
          have hrest := @ih (ctx.accept x.reply.value) x.reply.memory
          rw [hreplies]
          simpa [hvisited, hfailure] using hrest

/-! ### One run -/

theorem run_eq_none_iff (g : Generator σ) (c : Compilation) (s : Session σ) :
    (g.run c s).1 = none ↔ s.cancelled = true ∨ ∃ x ∈ g.answers c s.memory, x.cancels = true := by
  rw [run]
  cases hcancelled : s.cancelled with
  | true => simp
  | false =>
      obtain ⟨hlast, -⟩ := g.perform_follows c hcancelled
      rw [if_neg Bool.false_ne_true, or_iff_right Bool.false_ne_true, ← List.any_eq_true, ← hlast]
      cases hend : (g.perform c s).2.cancelled with
      | true => simp [hend]
      | false => simp [hend]

/-- What is kept of a run with these answers. -/
structure Outcome (g : Generator σ) (xs : List (Answer σ)) (r : GeneratorRun) : Prop where
  generator : r.generator = g.id
  exception : r.exception = (xs.findSome? Answer.failure?).map fun f => ⟨f.chain, f.isPanic⟩
  trackedInputs : r.trackedInputs = xs.countP Answer.visited
  /-- Without a failure all that was added and reported is kept. -/
  kept : r.exception = none → FirstUses g.id (xs.flatMap (·.reply.value.sources)) r.sources ∧
    NamedBy g.id r.sources ∧ r.diagnostics = xs.flatMap (·.reply.value.diagnostics)
  dropped : ∀ e, r.exception = some e →
    r.sources = [] ∧ ∃ warning, Warns g.id e.message warning ∧ r.diagnostics = [warning]

theorem holds_start (g : Generator σ) (c : Compilation) :
    GeneratorContext.Holds { generator := g.id, compilation := c } g.id [] :=
  ⟨rfl, ⟨rfl, nofun⟩, rfl⟩

theorem run_follows {g : Generator σ} {c : Compilation} {s s' : Session σ} {r : GeneratorRun} {out : DriverOutput}
    (h : g.run c s = (some (r, out), s')) : Outcome g (g.answers c s.memory) r := by
  have hnamed := run_namedBy h
  have hdropped (e : GeneratorException) (failed : r.exception = some e) := run_failed h failed
  have hfollows := g.perform_follows c (live_of_run h)
  obtain ⟨p, hperform, rfl, -, live⟩ := run_some h
  rw [hperform] at hfollows
  obtain rfl := hfollows.2 live
  have hcontext := (holds_start g c).foldl ((g.answers c s.memory).map (·.reply.value))
  rw [List.nil_append, ← foldl_hear_context _ { context := { generator := g.id, compilation := c } }] at hcontext
  refine ⟨conclude_generator .., ?_, ?_, fun fine => ?_, hdropped⟩
  · rw [conclude_exception]
    exact congrArg _ (foldl_hear_failure (g.inquiries c.trees) rfl)
  · rw [conclude_trackedInputs, foldl_hear_visited]
    exact Nat.zero_add _
  · rw [conclude_exception, Option.map_eq_none_iff] at fine
    rw [conclude_of_fine fine] at hnamed ⊢
    refine ⟨?_, hnamed, ?_⟩
    · rw [← List.flatMap_map]
      exact hcontext.sources
    · rw [← List.flatMap_map]
      exact hcontext.diagnostics

theorem outcome_trackedInputs_oneShot {g : OneShotGenerator σ} {c : Compilation} {memory : σ} {r : GeneratorRun}
    (h : Outcome (oneShot g) (answers (oneShot g) c memory) r) : r.trackedInputs = 0 := by
  rw [h.trackedInputs, List.countP_eq_zero]
  intro x hx
  obtain ⟨q, hq, hquestion⟩ := question_of_mem_replies hx
  obtain rfl := List.mem_singleton.1 hq
  simp [Answer.visited, ← hquestion]

end Generator

end GeneratorBench
