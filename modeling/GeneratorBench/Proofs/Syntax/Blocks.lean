import GeneratorBench.Proofs.Syntax.Steps

/-!
What is left of a namespace block once it is read. The directives in scope are again those from
before it; the enclosing namespaces are so as well, unless a file-scoped namespace was opened in
the block, which takes one closing brace for itself.
-/

namespace GeneratorBench

namespace Parser

/-- Reads on until at most `n` braces are open. -/
def runTo (n : Nat) (s : State) : State :=
  if _h : s.frames.length ≤ n then s else runTo n (step s)
termination_by (s.cursor.rest.length, s.frames.length)
decreasing_by
  refine step_progress ?_
  cases hf : s.frames with
  | nil => simp [hf] at _h
  | cons frame frames => simp [State.isDone, hf]

theorem run_runTo (n : Nat) (s : State) : run s = run (runTo n s) := by
  induction s using runTo.induct n with
  | case1 s h => rw [runTo, dif_pos h]
  | case2 s h ih => rw [run_step, ih, runTo.eq_def n s, dif_neg h]

/-- The state behind the namespace whose keyword comes next, with the block that belongs to it. -/
def readNamespace (s : State) : State :=
  runTo s.frames.length (namespaceHead (s.moveTo s.cursor.next))

theorem run_readNamespace {s : State} (hs : s.AtMembers) (h : s.cursor.atWord "namespace" = true) :
    run s = run (readNamespace s) := by
  rw [run_step, step_namespace hs h, run_runTo s.frames.length]
  rfl

/-- Inside the block of the namespace `full`, which was opened in `s`: `inner` are the blocks
opened since, and `extra` the namespaces entered since. -/
structure Inside (s : State) (full : String) (inner : List Nat) (extra : List String)
    (t : State) : Prop where
  blocks : t.blocks = inner.map .block ++ .block s.visible.length :: s.frames
  scopes : t.scopes = extra ++ full :: s.scopes
  extra_length : extra.length = inner.length + if t.fileScoped = s.fileScoped then 0 else 1
  inner_le : ∀ v ∈ inner, s.visible.length ≤ v
  visible : s.visible <+: t.visible
  fileScoped : s.fileScoped = true → t.fileScoped = true

structure Behind (s : State) (full : String) (t : State) : Prop where
  frames : t.frames = s.frames
  scopes : t.scopes = if t.fileScoped = s.fileScoped then s.scopes else full :: s.scopes
  visible : t.visible = s.visible

section Blocks

variable {s t u : State} {full : String} {inner : List Nat} {extra : List String}

theorem dropWhile_blocks (inner : List Nat) (v : Nat) (frames : List Frame) :
    (inner.map Frame.block ++ .block v :: frames).dropWhile Frame.isBody =
      inner.map .block ++ .block v :: frames := by
  cases inner with
  | nil => rfl
  | cons w inner => rfl

theorem Inside.lt_length (h : Inside s full inner extra t) : s.frames.length < t.frames.length := by
  have hsuffix : t.blocks.length ≤ t.frames.length := (List.dropWhile_suffix _).length_le
  rw [h.blocks, List.length_append, List.length_cons] at hsuffix
  omega

theorem Inside.passes (h : Inside s full inner extra t) (h' : Passes t u) :
    Inside s full inner extra u where
  blocks := h'.blocks.trans h.blocks
  scopes := h'.scopes.trans h.scopes
  extra_length := h'.fileScoped ▸ h.extra_length
  inner_le := h.inner_le
  visible := h'.visible ▸ h.visible
  fileScoped := h'.fileScoped ▸ h.fileScoped

theorem Inside.addUsing (h : Inside s full inner extra t) (name : NameRef) :
    Inside s full inner extra (t.addUsing name) :=
  { h with visible := h.visible.trans (List.prefix_append _ _) }

theorem Inside.opens (h : Inside s full inner extra t) (top : t.blocks = t.frames) (name : String) :
    Inside s full (t.visible.length :: inner) (name :: extra) { t with
      scopes := name :: t.scopes
      frames := .block t.visible.length :: t.frames } where
  blocks := by
    have hframes := h.blocks
    rw [top] at hframes
    exact congrArg (Frame.block t.visible.length :: ·) hframes
  scopes := congrArg (name :: ·) h.scopes
  extra_length := by
    have hlength := h.extra_length
    rw [List.length_cons, List.length_cons, hlength]
    exact Nat.add_right_comm ..
  inner_le := by
    intro v hv
    obtain rfl | hv := List.mem_cons.1 hv
    · exact h.visible.length_le
    · exact h.inner_le v hv
  visible := h.visible
  fileScoped := h.fileScoped

theorem Inside.names (h : Inside s full inner extra t) (first : t.fileScoped = false)
    (name : String) :
    Inside s full inner (name :: extra)
      { t with scopes := name :: t.scopes, fileScoped := true } where
  blocks := h.blocks
  scopes := congrArg (name :: ·) h.scopes
  extra_length := by
    have hfirst : s.fileScoped = false := by
      cases hs : s.fileScoped with
      | false => rfl
      | true =>
          rw [h.fileScoped hs] at first
          contradiction
    have hlength := h.extra_length
    rw [first, hfirst, if_pos rfl] at hlength
    rw [List.length_cons, hlength, hfirst]
    rfl
  inner_le := h.inner_le
  visible := h.visible
  fileScoped := fun _ => rfl

theorem Inside.eq_of_block {v : Nat} {frames : List Frame} (h : Inside s full inner extra t)
    (hf : t.frames = .block v :: frames) :
    .block v :: frames = inner.map .block ++ .block s.visible.length :: s.frames := by
  rw [← h.blocks, State.blocks, hf]
  rfl

theorem Inside.closes {v w : Nat} {frames : List Frame}
    (h : Inside s full (w :: inner) extra t) (hf : t.frames = .block v :: frames) :
    Inside s full inner extra.tail { t.leave v with frames } := by
  have heq := h.eq_of_block hf
  rw [List.map_cons, List.cons_append, List.cons.injEq, Frame.block.injEq] at heq
  obtain ⟨rfl, rfl⟩ := heq
  obtain ⟨name, extra, rfl⟩ : ∃ name rest, extra = name :: rest := by
    refine List.exists_cons_of_ne_nil ?_
    rintro rfl
    exact absurd h.extra_length (by simp; omega)
  have hlength := h.extra_length
  have hv : s.visible.length ≤ v := h.inner_le v List.mem_cons_self
  exact {
    blocks := dropWhile_blocks inner s.visible.length s.frames
    scopes := congrArg List.tail h.scopes
    extra_length := by
      rw [List.length_cons, List.length_cons] at hlength
      exact Nat.succ.inj (hlength.trans (Nat.add_right_comm ..))
    inner_le := fun u hu => h.inner_le u (List.mem_cons_of_mem _ hu)
    visible := List.prefix_take_iff.2 ⟨h.visible, hv⟩
    fileScoped := h.fileScoped }

theorem Inside.leaves {v : Nat} {frames : List Frame}
    (h : Inside s full [] extra t) (hf : t.frames = .block v :: frames) :
    Behind s full { t.leave v with frames } := by
  have heq := h.eq_of_block hf
  rw [List.map_nil, List.nil_append, List.cons.injEq, Frame.block.injEq] at heq
  obtain ⟨rfl, rfl⟩ := heq
  have hlength := h.extra_length
  refine ⟨rfl, ?_, (List.prefix_iff_eq_take.1 h.visible).symm⟩
  have htail : t.scopes.tail = (extra ++ full :: s.scopes).tail := by rw [h.scopes]
  by_cases hsame : t.fileScoped = s.fileScoped
  · rw [if_pos hsame] at hlength
    obtain rfl := List.length_eq_zero_iff.1 hlength
    exact htail.trans (if_pos hsame).symm
  · rw [if_neg hsame] at hlength
    obtain ⟨name, rfl⟩ := List.length_eq_one_iff.1 hlength
    exact htail.trans (if_neg hsame).symm

theorem Behind.passes (h : Behind s full t) (h' : Passes t u) (hf : u.frames = t.frames) :
    Behind s full u where
  frames := hf.trans h.frames
  scopes := by rw [h'.scopes, h'.fileScoped, h.scopes]
  visible := h'.visible.trans h.visible

/-- A step inside a block stays inside or is its closing brace. -/
theorem step_inside (h : Inside s full inner extra t) :
    (∃ inner extra, Inside s full inner extra (step t)) ∨ Behind s full (step t) := by
  cases step_effect t with
  | passes h' => exact .inl ⟨_, _, h.passes h'⟩
  | directive name h' => exact .inl ⟨_, _, (h.addUsing name).passes h'⟩
  | declares decl _ h' =>
      have hdecl : Inside s full inner extra (t.addType decl) := { h with }
      exact .inl ⟨_, _, hdecl.passes h'⟩
  | opens name top h' => exact .inl ⟨_, _, (h.opens top name).passes h'⟩
  | names name first h' => exact .inl ⟨_, _, (h.names first name).passes h'⟩
  | closes v frames before after h' =>
      cases inner with
      | nil => exact .inr ((h.leaves before).passes h' after)
      | cons w inner => exact .inl ⟨_, _, (h.closes before).passes h'⟩

theorem runTo_inside (h : Inside s full inner extra t) :
    Behind s full (runTo s.frames.length t) := by
  induction t using runTo.induct s.frames.length generalizing inner extra with
  | case1 t hle => exact absurd hle (Nat.not_le.2 h.lt_length)
  | case2 t hlt ih =>
      rw [runTo, dif_neg hlt]
      obtain ⟨inner, extra, hstep⟩ | hstep := step_inside h
      · exact ih hstep
      · rw [runTo, dif_pos (Nat.le_of_eq (congrArg List.length hstep.frames))]
        exact hstep

end Blocks

theorem inside_namespaceHead {s : State} {ref : NameRef} (hname : s.cursor.next.name.1 = some ref)
    (hbrace : s.cursor.next.name.2.atMark '\x7b' = true) :
    Inside s (s.qualify ref.name) [] [] (namespaceHead (s.moveTo s.cursor.next)) := by
  obtain ⟨t, rest, hrest⟩ : ∃ t rest, s.cursor.next.name.2.rest = t :: rest := by
    cases hrest : s.cursor.next.name.2.rest with
    | nil => simp [Cursor.atMark, hrest] at hbrace
    | cons t rest => exact ⟨t, rest, rfl⟩
  have hkind : t.kind = .mark '\x7b' := by
    simpa [Cursor.atMark, hrest, Token.isMark] using hbrace
  have hsemicolon : s.cursor.next.name.2.atMark ';' = false := by
    simp [Cursor.atMark, hrest, Token.isMark, hkind]
  have hread : (s.moveTo s.cursor.next).cursor.name = (some ref, s.cursor.next.name.2) :=
    Prod.ext hname rfl
  rw [namespaceHead, hread]
  simp only [hsemicolon, hbrace, Bool.false_eq_true, if_false, if_true]
  have hsame : (if s.fileScoped = s.fileScoped then 0 else 1) = 0 := if_pos rfl
  exact {
    blocks := rfl
    scopes := rfl
    extra_length := (congrArg (0 + ·) hsame).symm
    inner_le := by
      intro v hv
      cases hv
    visible := List.prefix_refl _
    fileScoped := fun h => h }

/-- A block gives back the open braces and the directives in scope. It gives back the namespaces
exactly if no file-scoped namespace was opened in it; its own name stays behind otherwise. What
follows is recorded accordingly. -/
theorem readNamespace_block {s : State} {ref : NameRef}
    (hname : s.cursor.next.name.1 = some ref) (hbrace : s.cursor.next.name.2.atMark '\x7b' = true) :
    (s.AtMembers → s.cursor.atWord "namespace" = true → run s = run (readNamespace s)) ∧
    (readNamespace s).frames = s.frames ∧
    (readNamespace s).visible = s.visible ∧
    (readNamespace s).scopes =
      (if (readNamespace s).fileScoped = s.fileScoped then s.scopes
        else s.qualify ref.name :: s.scopes) ∧
    ∃ us ds,
      (step (readNamespace s)).skeleton.usings = (readNamespace s).skeleton.usings ++ us ∧
      (step (readNamespace s)).skeleton.types = (readNamespace s).skeleton.types ++ ds ∧
      (∀ u ∈ us, u.scope = if (readNamespace s).fileScoped = s.fileScoped then s.scopes.head?
        else some (s.qualify ref.name)) ∧
      ∀ d ∈ ds, d.usings = s.visible ∧
        d.scope = if (readNamespace s).fileScoped = s.fileScoped then s.scopes.head?
          else some (s.qualify ref.name) := by
  have hbehind : Behind s (s.qualify ref.name) (readNamespace s) :=
    runTo_inside (inside_namespaceHead hname hbrace)
  have hhead : (readNamespace s).scopes.head? =
      if (readNamespace s).fileScoped = s.fileScoped then s.scopes.head?
        else some (s.qualify ref.name) := by
    rw [hbehind.scopes]
    split
    · rfl
    · rfl
  obtain ⟨us, ds, husings, htypes, hscope, hsees⟩ := step_records (readNamespace s)
  rw [hhead] at hscope
  refine ⟨run_readNamespace, hbehind.frames, hbehind.visible, hbehind.scopes, us, ds, husings, htypes,
    hscope, ?_⟩
  intro d hd
  obtain ⟨scope, visible⟩ := hsees d hd
  exact ⟨visible.trans hbehind.visible, scope.trans hhead⟩

/-- The namespace `B` of the text takes the closing brace of `A`, which then has none. -/
theorem readNamespace_block_leak :
    let s : State := { cursor := ⟨[], tokens "namespace A { namespace B; }\nclass C {}"⟩ }
    (s.cursor.next.name.1 = some ⟨"A", Span.onLine 0 10 1, false⟩ ∧
      s.cursor.next.name.2.atMark '\x7b' = true) ∧
    (readNamespace s).scopes = ["A"] ∧
    ∃ us ds,
      (step (readNamespace s)).skeleton.usings = (readNamespace s).skeleton.usings ++ us ∧
      (step (readNamespace s)).skeleton.types = (readNamespace s).skeleton.types ++ ds ∧
      (∀ u ∈ us, u.scope = some "A") ∧ ∀ d ∈ ds, d.usings = [] ∧ d.scope = some "A" := by
  intro s
  have hname : s.cursor.next.name.1 = some ⟨"A", Span.onLine 0 10 1, false⟩ := by decide +kernel
  have hbrace : s.cursor.next.name.2.atMark '\x7b' = true := by decide +kernel
  have hfile : (readNamespace s).fileScoped = true := by
    rw [readNamespace, runTo, dif_neg (by decide +kernel), runTo, dif_neg (by decide +kernel),
      runTo, dif_pos (by decide +kernel)]
    decide +kernel
  have hblock := readNamespace_block hname hbrace
  rw [hfile] at hblock
  exact ⟨⟨hname, hbrace⟩, hblock.2.2.2.1, hblock.2.2.2.2⟩

end Parser

end GeneratorBench
