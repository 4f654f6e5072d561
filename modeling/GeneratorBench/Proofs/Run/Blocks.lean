import GeneratorBench.Proofs.Run.Lockstep

/-!
Analyzers leave each other alone. Each is asked in its turn, up to the first that cancels the request, and
has a block of the report to itself: what it reported, or that it failed.
-/

namespace GeneratorBench

variable {σ α : Type}

theorem Session.call_of_live {s : Session σ} (live : s.cancelled = false) (start : Call) (f : Callback σ α) :
    ∃ mid, s.call start f = ((f false s.memory).value, mid) ∧ mid.cancelled = (f false s.memory).cancels ∧
      mid.memory = (f false s.memory).memory ∧ mid.journal = s.journal ++ [⟨start, false⟩] := by
  refine ⟨(s.call start f).2, ?_⟩
  simp only [call, write, live, Bool.false_or, and_self]

namespace Analyzer

/-- The warning that takes the place of all that a failing analyzer reported. -/
structure Warns (analyzer thrown : String) (d : Diagnostic) : Prop where
  id : d.id = "AD0001"
  severity : d.severity = .warning
  message : d.message = "Analyzer '" ++ analyzer ++ "' threw an exception: " ++ thrown
  location : d.location = {}

/-- What the report says of an analyzer that came to this. -/
inductive Fills (a : Analyzer σ) : Except Failure (List Diagnostic) → List Diagnostic → Prop
  | reported (ds : List Diagnostic) : Fills a (.ok ds) ds
  | raised {root : String} {contexts : List String} {d : Diagnostic}
      (warns : Warns a.id (contexts.getLastD root) d) : Fills a (.error (.raised root contexts)) [d]
  | panicked {message : Option String} {d : Diagnostic}
      (warns : Warns a.id (message.getD "panicked with a non-string payload") d) :
      Fills a (.error (.panicked message)) [d]

theorem failed_warns (id : String) (f : Failure) : Warns id f.headline (failed id f) := ⟨rfl, rfl, rfl, rfl⟩

theorem report_fills (a : Analyzer σ) (outcome : Except Failure (List Diagnostic)) : a.Fills outcome (a.report outcome) := by
  cases outcome with
  | ok ds => exact .reported ds
  | error f =>
      cases f with
      | raised root contexts => exact .raised (failed_warns a.id (.raised root contexts))
      | panicked message => exact .panicked (failed_warns a.id (.panicked message))

structure Answer (σ : Type) where
  analyzer : Analyzer σ
  reply : Reply σ (Except Failure (List Diagnostic))

namespace Answer

def cancels (x : Answer σ) : Bool := x.reply.cancels

/-- What the journal says of it if the request was live. -/
def entry (x : Answer σ) : JournalEntry := ⟨.analyze x.analyzer.id, false⟩

end Answer

/-- What analyzers answer one after the other in a live request, if no answer ends it. -/
def answers (c : Compilation) : List (Analyzer σ) → σ → List (Answer σ)
  | [], _ => []
  | a :: as, memory =>
    let reply := a.analyze c false memory
    ⟨a, reply⟩ :: answers c as reply.memory

/-- The answers up to the first that cancels, and that one. -/
def heard (xs : List (Answer σ)) : List (Answer σ) := xs.take (xs.findIdx Answer.cancels + 1)

variable {c : Compilation} {as bs : List (Analyzer σ)} {s : Session σ}

theorem map_answers (as : List (Analyzer σ)) (memory : σ) : (answers c as memory).map (·.analyzer) = as := by
  induction as generalizing memory with
  | nil => rfl
  | cons a as ih => exact congrArg (a :: ·) (ih _)

theorem heard_cons_of_cancels {x : Answer σ} (h : x.cancels = true) (xs : List (Answer σ)) :
    heard (x :: xs) = [x] := by
  simp [heard, List.findIdx_cons, h]

theorem heard_cons_of_live {x : Answer σ} (h : x.cancels = false) (xs : List (Answer σ)) :
    heard (x :: xs) = x :: heard xs := by
  simp [heard, List.findIdx_cons, h]

theorem runAll_of_cancelled (as : List (Analyzer σ)) (h : s.cancelled = true) : runAll c as s = (none, s) := by
  cases as with
  | nil => rw [runAll, if_pos h]
  | cons a as => rw [runAll, if_pos h]

/-- A live request comes to the blocks of all analyzers, unless one of them cancels it; the journal has those
up to the first that does. -/
theorem runAll_of_live (as : List (Analyzer σ)) (live : s.cancelled = false) :
    (runAll c as s).1 = (if (answers c as s.memory).any Answer.cancels then none
      else some ((answers c as s.memory).flatMap fun x => x.analyzer.report x.reply.value)) ∧
    (runAll c as s).2.cancelled = (answers c as s.memory).any Answer.cancels ∧
    (runAll c as s).2.journal = s.journal ++ (heard (answers c as s.memory)).map Answer.entry := by
  induction as generalizing s with
  | nil => simp [runAll, answers, heard, live]
  | cons a as ih =>
      let x : Answer σ := ⟨a, a.analyze c false s.memory⟩
      obtain ⟨mid, hcall, hcancelled, hmemory, hjournal⟩ := s.call_of_live live (.analyze a.id) (a.analyze c)
      have hanswers : answers c (a :: as) s.memory = x :: answers c as mid.memory := by
        rw [hmemory]
        rfl
      rw [runAll, if_neg (ne_true_of_eq_false live), hcall, hanswers]
      cases hcancels : x.cancels with
      | true =>
          have hstop : mid.cancelled = true := hcancelled.trans hcancels
          simp only [runAll_of_cancelled as hstop, heard_cons_of_cancels hcancels, List.any_cons, hcancels,
            Bool.true_or, if_true]
          exact ⟨rfl, hstop, hjournal⟩
      | false =>
          obtain ⟨houtcome, hlast, htrace⟩ := ih (hcancelled.trans hcancels)
          simp only [houtcome, hlast, htrace, heard_cons_of_live hcancels, List.any_cons, hcancels,
            Bool.false_or, List.flatMap_cons]
          refine ⟨?_, trivial, ?_⟩
          · split
            · rfl
            · rfl
          · rw [hjournal, List.map_cons, List.append_assoc]
            rfl

theorem runAll_append (as bs : List (Analyzer σ)) (s : Session σ) :
    let first := runAll c as s
    let second := runAll c bs first.2
    runAll c (as ++ bs) s = (first.1.bind fun ds => second.1.map (ds ++ ·), second.2) := by
  induction as generalizing s with
  | nil =>
      cases hcancelled : s.cancelled with
      | true => simp [runAll, runAll_of_cancelled bs hcancelled, hcancelled]
      | false => simp [runAll, hcancelled]
  | cons a as ih =>
      cases hcancelled : s.cancelled with
      | true => simp only [runAll_of_cancelled _ hcancelled, Option.bind_none]
      | false =>
          simp only [List.cons_append, runAll, hcancelled, Bool.false_eq_true, if_false, ih]
          cases (runAll c as (s.call (.analyze a.id) (a.analyze c)).2).1 with
          | none => rfl
          | some ds => simp [Function.comp_def]

theorem memory_lockstep (M : σ → σ → Prop) :
    Session.Lockstep M fun s t => s.cancelled = t.cancelled ∧ M s.memory t.memory where
  cancelled h := h.1
  call {_ f c s t} hf _ hst := by
    obtain ⟨hcancelled, hmemory⟩ := hst
    obtain ⟨hvalue, hcancels, hrest⟩ := hf t.cancelled s.memory t.memory hmemory
    simp only [Session.call, hcancelled, hvalue, hcancels]
    exact ⟨trivial, trivial, hrest⟩

theorem live_of_runAll {ds : List Diagnostic} (h : (runAll c as s).1 = some ds) : s.cancelled = false := by
  refine eq_false_of_ne_true fun hcancelled => ?_
  rw [runAll_of_cancelled as hcancelled] at h
  cases h

/-- Another analyzer in the place of `a` has its own block in the place of that of `a`, and no other block
changes, as long as those behind it are not told by what it remembers. -/
theorem runAll_replace {a b : Analyzer σ} {M : σ → σ → Prop} {ds : List Diagnostic}
    (h : (runAll c (as ++ a :: bs) s).1 = some ds) (hbs : ∀ d ∈ bs, d.Respects M) :
    let mid := (runAll c as s).2
    let p := a.analyze c false mid.memory
    let q := b.analyze c false mid.memory
    M p.memory q.memory → q.cancels = false → ∃ front back,
      (runAll c as s).1 = some front ∧ ds = front ++ a.report p.value ++ back ∧
        (runAll c (as ++ b :: bs) s).1 = some (front ++ b.report q.value ++ back) := by
  intro mid p q hmemory hcancels
  have happend (d : Analyzer σ) : (runAll c (as ++ d :: bs) s).1 =
      (runAll c as s).1.bind fun ds => (runAll c (d :: bs) mid).1.map (ds ++ ·) :=
    congrArg Prod.fst (runAll_append as (d :: bs) s)
  obtain ⟨front, hfront, rest, hrest, rfl⟩ : ∃ front, (runAll c as s).1 = some front ∧
      ∃ rest, (runAll c (a :: bs) mid).1 = some rest ∧ front ++ rest = ds := by
    simpa [happend, Option.bind_eq_some_iff] using h
  have live := live_of_runAll hrest
  let after (d : Analyzer σ) := (mid.call (.analyze d.id) (d.analyze c)).2
  have hcons (d : Analyzer σ) : (runAll c (d :: bs) mid).1 =
      (runAll c bs (after d)).1.map (d.report (d.analyze c false mid.memory).value ++ ·) := by
    rw [runAll, if_neg (ne_true_of_eq_false live)]
    simp only [after, Session.call, live]
  obtain ⟨back, hback, rfl⟩ : ∃ back, (runAll c bs (after a)).1 = some back ∧ a.report p.value ++ back = rest := by
    simpa [hcons] using hrest
  have hafter : (after a).cancelled = (after b).cancelled ∧ M (after a).memory (after b).memory := by
    refine ⟨(live_of_runAll hback).trans ?_, ?_⟩
    · simp only [after, Session.call, live, Bool.false_or]
      exact hcancels.symm
    · simpa [after, Session.call, live] using hmemory
  obtain ⟨hlater, -⟩ := runAll_alike (memory_lockstep M) c hbs hafter
  refine ⟨front, back, hfront, (List.append_assoc _ _ _).symm, ?_⟩
  simp [happend, hfront, hcons, ← hlater, hback, mid, q]

/-- Analyzers come to nothing exactly if the request is cancelled in the end, which takes one that cancels.
Else they come to the blocks of all of them in order: all that one reported, or a warning that names it and says
what it failed over. It is the same to run some of them and then the others, and an analyzer in the place of
another changes its block. Those are called that are heard. -/
theorem runAll_isolated (c : Compilation) (as : List (Analyzer σ)) (s : Session σ) :
    let after := (runAll c as s).2
    let xs := answers c as s.memory
    xs.map (·.analyzer) = as ∧
    (∃ blocks, List.Forall₂ (fun x => x.analyzer.Fills x.reply.value) xs blocks ∧
      (runAll c as s).1 = if after.cancelled then none else some blocks.flatten) ∧
    (after.cancelled = true ↔ s.cancelled = true ∨ ∃ x ∈ xs, x.cancels = true) ∧
    after.journal = s.journal ++ (if s.cancelled then [] else (heard xs).map Answer.entry) ∧
    (∀ front back, as = front ++ back →
      let first := runAll c front s
      let second := runAll c back first.2
      runAll c as s = (first.1.bind fun ds => second.1.map (ds ++ ·), second.2)) ∧
    ∀ front a back b (M : σ → σ → Prop) ds, as = front ++ a :: back → (runAll c as s).1 = some ds →
      (∀ d ∈ back, d.Respects M) →
      let mid := (runAll c front s).2
      let p := a.analyze c false mid.memory
      let q := b.analyze c false mid.memory
      M p.memory q.memory → q.cancels = false → ∃ before own other later,
        a.Fills p.value own ∧ b.Fills q.value other ∧ (runAll c front s).1 = some before ∧
          ds = before ++ own ++ later ∧ (runAll c (front ++ b :: back) s).1 = some (before ++ other ++ later) := by
  intro after xs
  have hblocks : List.Forall₂ (fun x => x.analyzer.Fills x.reply.value) xs
      (xs.map fun x => x.analyzer.report x.reply.value) := by
    rw [List.forall₂_map_right_iff, List.forall₂_same]
    exact fun x _ => report_fills ..
  have hcourse : (runAll c as s).1 =
        (if after.cancelled then none else some (xs.map fun x => x.analyzer.report x.reply.value).flatten) ∧
      (after.cancelled = true ↔ s.cancelled = true ∨ ∃ x ∈ xs, x.cancels = true) ∧
      after.journal = s.journal ++ (if s.cancelled then [] else (heard xs).map Answer.entry) := by
    cases hcancelled : s.cancelled with
    | true => simp [after, runAll_of_cancelled as hcancelled, hcancelled]
    | false =>
        obtain ⟨houtcome, hafter, hjournal⟩ : _ ∧ _ ∧ _ := runAll_of_live as hcancelled
        refine ⟨?_, ?_, ?_⟩
        · rw [hafter]
          exact houtcome
        · rw [hafter, List.any_eq_true, or_iff_right Bool.false_ne_true]
        · exact hjournal
  obtain ⟨houtcome, hcancelled, hjournal⟩ := hcourse
  refine ⟨map_answers as s.memory, ⟨_, hblocks, houtcome⟩, hcancelled, hjournal, ?_, ?_⟩
  · rintro front back rfl
    exact runAll_append front back s
  · rintro front a back b M ds rfl hds hback mid p q hmemory hcancels
    obtain ⟨before, later, hbefore, hown, hother⟩ := runAll_replace hds hback hmemory hcancels
    exact ⟨before, _, _, later, report_fills .., report_fills .., hbefore, hown, hother⟩

/-- Of three analyzers one breaks down, and has a block of its own in which another one could be silent. One
more that cancels the request is the last one called. -/
theorem runAll_isolated_between :
    let found : Diagnostic := ⟨"A1", .info, "found", none, none⟩
    let reports : Analyzer Unit := ⟨"reports", fun _ _ _ => ⟨.ok [found, found], false, ()⟩⟩
    let breaks : Analyzer Unit := ⟨"breaks", fun _ _ _ => ⟨.error (.panicked (some "no")), false, ()⟩⟩
    let silent : Analyzer Unit := ⟨"silent", fun _ _ _ => ⟨.ok [], false, ()⟩⟩
    let stops : Analyzer Unit := ⟨"stops", fun _ _ _ => ⟨.ok [found], true, ()⟩⟩
    let c : Compilation := .ofTrees "Test" [] [] {}
    let s : Session Unit := { memory := () }
    (∃ warning before later, Warns "breaks" "no" warning ∧
      (runAll c [reports, breaks, reports] s).1 = some (before ++ [warning] ++ later) ∧
      (runAll c [reports, silent, reports] s).1 = some (before ++ [] ++ later)) ∧
    (runAll c [reports, breaks, stops, reports] s).1 = none ∧
    (runAll c [reports, breaks, stops, reports] s).2.journal =
      [⟨.analyze "reports", false⟩, ⟨.analyze "breaks", false⟩, ⟨.analyze "stops", false⟩] := by
  intro found reports breaks silent stops c s
  obtain ⟨-, ⟨blocks, -, hblocks⟩, -, -, -, hreplace⟩ := runAll_isolated c [reports, breaks, reports] s
  obtain ⟨-, ⟨_, -, hnone⟩, -, hjournal, -⟩ := runAll_isolated c [reports, breaks, stops, reports] s
  have hrespects : ∀ d ∈ [reports], d.Respects fun _ _ => True := by
    intro d hd
    rw [List.mem_singleton.1 hd]
    exact fun _ _ _ _ _ => ⟨rfl, rfl, trivial⟩
  obtain ⟨before, own, other, later, hown, hother, -, hds, hsilent⟩ :=
    hreplace [reports] breaks [reports] silent (fun _ _ => True) _ rfl hblocks hrespects trivial rfl
  cases hown with
  | panicked hwarns =>
      cases hother with
      | reported => exact ⟨⟨_, before, later, hwarns, hblocks.trans (congrArg some hds), hsilent⟩, hnone, hjournal⟩

end Analyzer

end GeneratorBench
