import GeneratorBench.Proofs.Syntax.Advance
import Mathlib.Logic.Function.Iterate

/-!
What a step of the reader can do: to the open braces, to the scopes, and to what is recorded.
-/

namespace GeneratorBench

namespace Parser

theorem step_of_isDone {s : State} (h : s.isDone = true) : step s = s := by
  simp only [State.isDone, Bool.and_eq_true, List.isEmpty_iff] at h
  simp [step, closeFrame, h.1, h.2]

theorem run_step (s : State) : run s = run (step s) := by
  by_cases h : s.isDone
  · rw [step_of_isDone h]
  · rw [run, dif_neg h]

theorem run_iterate_eq (n : Nat) (s : State) : run (step^[n] s) = run s := by
  induction n generalizing s with
  | zero => rfl
  | succ n ih => rw [Function.iterate_succ_apply, ih, ← run_step]

/-- A step more than needed does no harm, so a reading is as many steps as are enough. -/
theorem run_iterate {s : State} (n : Nat) (h : (step^[n] s).isDone = true) : run s = step^[n] s := by
  rw [← run_iterate_eq n, run, dif_pos h]

theorem ofText_iterate {text : String} (n : Nat)
    (h : (step^[n] { cursor := ⟨[], tokens text⟩ }).isDone = true) :
    Skeleton.ofText text = (step^[n] { cursor := ⟨[], tokens text⟩ }).skeleton := by
  rw [Skeleton.ofText, Skeleton.ofTokens, run_iterate n h]

theorem run_done {s : State} (hrest : s.cursor.rest = []) (hframes : s.frames = []) : run s = s := by
  rw [run, dif_pos]
  simp [State.isDone, hrest, hframes]

theorem step_of_atMembers {s : State} (hs : s.AtMembers) {t : Token} {rest : List Token}
    (h : s.cursor.rest = t :: rest) : step s = memberStep s t := by
  rw [step, h]
  cases hf : s.frames with
  | nil => rfl
  | cons frame frames =>
      cases frame with
      | block visible => rfl
      | body type depth sawStatic => exact absurd hf (hs _ _ _ _)

theorem exists_rest_of_atWord {c : Cursor} {w : String} (h : c.atWord w = true) :
    ∃ t rest, c.rest = t :: rest ∧ t.kind = .word w := by
  cases hrest : c.rest with
  | nil => simp [Cursor.atWord, hrest] at h
  | cons t rest =>
      have hword : t.word? = some w := by simpa [Cursor.atWord, hrest, Token.isWord] using h
      refine ⟨t, rest, rfl, ?_⟩
      rw [Token.word?] at hword
      split at hword
      · rename_i hkind
        rw [hkind, Option.some.inj hword]
      · cases hword

theorem step_using {s : State} (hs : s.AtMembers) (h : s.cursor.atWord "using" = true) :
    step s = usingDirective (s.moveTo s.cursor.next) := by
  obtain ⟨t, rest, hrest, hkind⟩ := exists_rest_of_atWord h
  rw [step_of_atMembers hs hrest]
  simp [memberStep, Token.isMark, Token.isWord, Token.word?, hkind]

theorem step_namespace {s : State} (hs : s.AtMembers) (h : s.cursor.atWord "namespace" = true) :
    step s = namespaceHead (s.moveTo s.cursor.next) := by
  obtain ⟨t, rest, hrest, hkind⟩ := exists_rest_of_atWord h
  rw [step_of_atMembers hs hrest]
  simp [memberStep, Token.isMark, Token.isWord, Token.word?, hkind]

def Frame.isBody : Frame → Bool
  | block _ => false
  | body .. => true

/-- The open braces from the innermost namespace on. -/
def State.blocks (s : State) : List Frame := s.frames.dropWhile Frame.isBody

theorem blocks_of_atMembers {s : State} (hs : s.AtMembers) : s.blocks = s.frames := by
  rw [State.blocks]
  cases hf : s.frames with
  | nil => rfl
  | cons frame frames =>
      cases frame with
      | block visible => rfl
      | body type depth sawStatic => exact absurd hf (hs _ _ _ _)

theorem blocks_of_body {s : State} {type : String} {depth : Nat} {sawStatic : Bool} {outer : List Frame}
    (hf : s.frames = .body type depth sawStatic :: outer) : s.blocks = outer.dropWhile Frame.isBody := by
  rw [State.blocks, hf]
  rfl

/-- Only the place, the namespaces and the errors differ, and which types are open. -/
structure Passes (s t : State) : Prop where
  blocks : t.blocks = s.blocks
  scopes : t.scopes = s.scopes
  visible : t.visible = s.visible
  fileScoped : t.fileScoped = s.fileScoped
  usings : t.skeleton.usings = s.skeleton.usings
  types : t.skeleton.types = s.skeleton.types

namespace Passes

variable {s t u : State}

theorem refl (s : State) : Passes s s := ⟨rfl, rfl, rfl, rfl, rfl, rfl⟩

theorem trans (h : Passes s t) (h' : Passes t u) : Passes s u where
  blocks := h'.blocks.trans h.blocks
  scopes := h'.scopes.trans h.scopes
  visible := h'.visible.trans h.visible
  fileScoped := h'.fileScoped.trans h.fileScoped
  usings := h'.usings.trans h.usings
  types := h'.types.trans h.types

theorem moveTo (s : State) (c : Cursor) : Passes s (s.moveTo c) := ⟨rfl, rfl, rfl, rfl, rfl, rfl⟩

theorem report (s : State) (cause : SyntaxError.Cause) (span : Span) :
    Passes s (s.report cause span) := ⟨rfl, rfl, rfl, rfl, rfl, rfl⟩

theorem addType (h : Passes s t) (decl : TypeDecl) : Passes (s.addType decl) (t.addType decl) where
  blocks := h.blocks
  scopes := h.scopes
  visible := h.visible
  fileScoped := h.fileScoped
  usings := h.usings
  types := congrArg (· ++ [decl]) h.types

end Passes

/-- The declarations that `s` can record: they see what `s` sees. -/
def State.Sees (s : State) (decl : TypeDecl) : Prop :=
  decl.scope = s.scopes.head? ∧ decl.usings = s.visible

theorem Passes.sees {s t : State} (h : Passes s t) (decl : TypeDecl) : t.Sees decl ↔ s.Sees decl := by
  rw [State.Sees, State.Sees, h.scopes, h.visible]

/-- What a step did, up to the place, the namespaces, the errors and the bodies of types. -/
inductive Effect (s : State) : State → Prop
  | passes {t : State} (h : Passes s t) : Effect s t
  | directive {t : State} (name : NameRef) (h : Passes (s.addUsing name) t) : Effect s t
  | declares {t : State} (decl : TypeDecl) (sees : s.Sees decl) (h : Passes (s.addType decl) t) :
      Effect s t
  | opens {t : State} (full : String) (top : s.blocks = s.frames)
      (h : Passes { s with
        scopes := full :: s.scopes
        frames := .block s.visible.length :: s.frames } t) : Effect s t
  | closes {t : State} (visible : Nat) (frames : List Frame)
      (before : s.frames = .block visible :: frames) (after : t.frames = frames)
      (h : Passes { s.leave visible with frames } t) : Effect s t
  /-- A file-scoped namespace, the first one. -/
  | names {t : State} (full : String) (first : s.fileScoped = false)
      (h : Passes { s with scopes := full :: s.scopes, fileScoped := true } t) : Effect s t

theorem usingDirective_effect (s : State) (c : Cursor) : Effect s (usingDirective (s.moveTo c)) := by
  unfold usingDirective
  dsimp only
  split
  · exact .passes ⟨rfl, rfl, rfl, rfl, rfl, rfl⟩
  · rename_i name d _
    split
    · exact .passes ⟨rfl, rfl, rfl, rfl, rfl, rfl⟩
    · split
      · exact .directive name ⟨rfl, rfl, rfl, rfl, rfl, rfl⟩
      · exact .directive name ⟨rfl, rfl, rfl, rfl, rfl, rfl⟩

theorem namespaceHead_effect {s : State} (top : s.blocks = s.frames) (c : Cursor) :
    Effect s (namespaceHead (s.moveTo c)) := by
  rw [namespaceHead]
  split
  · exact .passes ⟨rfl, rfl, rfl, rfl, rfl, rfl⟩
  · rename_i name d _
    dsimp only
    split
    · split
      · exact .passes ⟨rfl, rfl, rfl, rfl, rfl, rfl⟩
      · rename_i first
        exact .names _ (eq_false_of_ne_true first) ⟨rfl, rfl, rfl, rfl, rfl, rfl⟩
    · split
      · exact .opens _ top ⟨rfl, rfl, rfl, rfl, rfl, rfl⟩
      · exact .passes ⟨rfl, rfl, rfl, rfl, rfl, rfl⟩

theorem baseList_passes (s : State) : Passes s (baseList s).2 := by
  rw [baseList]
  split
  · dsimp only
    split
    · exact Passes.moveTo s _
    · exact (Passes.moveTo s _).trans (Passes.report _ _ _)
  · exact Passes.refl s

theorem skipConstraints_passes (s : State) : Passes s (skipConstraints s) := by
  rw [skipConstraints]
  split
  · exact Passes.moveTo s _
  · exact Passes.refl s

theorem typeBody_passes (name : String) (s : State) : Passes s (typeBody name s) := by
  rw [typeBody]
  split
  · exact ⟨rfl, rfl, rfl, rfl, rfl, rfl⟩
  · split
    · exact Passes.moveTo s _
    · exact Passes.report s _ _

/-- What the head of a type does: it may record one declaration. -/
def Declares (s t : State) : Prop :=
  Passes s t ∨ ∃ decl, s.Sees decl ∧ Passes (s.addType decl) t

theorem Declares.of_passes {s t u : State} (h : Passes s t) (h' : Declares t u) : Declares s u := by
  obtain h' | ⟨decl, sees, h'⟩ := h'
  · exact .inl (h.trans h')
  · exact .inr ⟨decl, (h.sees decl).1 sees, (h.addType decl).trans h'⟩

theorem Declares.effect {s t : State} (h : Declares s t) : Effect s t := by
  obtain h | ⟨decl, sees, h⟩ := h
  · exact .passes h
  · exact .declares decl sees h

theorem typeTail_declares (container : Option String) (isPartial : Bool) (name : NameRef)
    (s : State) : Declares s (typeTail container isPartial name s) := by
  rw [typeTail]
  dsimp only
  generalize (s.cursor.skipGroup '<' '>').skipGroup '(' ')' = c
  have hbases := baseList_passes (s.moveTo c)
  generalize baseList (s.moveTo c) = bases at hbases ⊢
  have hread : Passes s (skipConstraints bases.2) :=
    ((Passes.moveTo s c).trans hbases).trans (skipConstraints_passes _)
  refine Declares.of_passes hread (.inr ⟨_, ⟨rfl, rfl⟩, typeBody_passes _ _⟩)

theorem typeHead_declares (container : Option String) (isPartial : Bool) (s : State) :
    Declares s (typeHead container isPartial s) := by
  rw [typeHead]
  split
  · exact .inl (Passes.report s _ _)
  · split
    · exact .inl (Passes.report s _ _)
    · exact Declares.of_passes (Passes.moveTo s _) (typeTail_declares ..)

theorem typeFrom_declares (container : Option String) (start : Cursor.TypeStart) (s : State) :
    Declares s (typeFrom container start s) :=
  Declares.of_passes (Passes.moveTo s _) (typeHead_declares ..)

theorem Move.effect {s t : State} (h : Move s t) : Effect s t := by
  cases h with
  | done => exact .passes (Passes.refl s)
  | giveUpBlock _ hf => exact .closes _ _ hf rfl ⟨rfl, rfl, rfl, rfl, rfl, rfl⟩
  | closeBlock _ hf => exact .closes _ _ hf rfl ⟨rfl, rfl, rfl, rfl, rfl, rfl⟩
  | giveUpBody _ hf | inBody _ hf | closeBody _ hf =>
      exact .passes ⟨(blocks_of_body hf).symm, rfl, rfl, rfl, rfl, rfl⟩
  | stray => exact .passes ((Passes.moveTo s _).trans (Passes.report _ _ _))
  | directive => exact usingDirective_effect s _
  | scope _ members => exact namespaceHead_effect (blocks_of_atMembers members) _
  | semicolon | attributes => exact .passes (Passes.moveTo s _)
  | type => exact (typeFrom_declares ..).effect
  | @nested _ _ type depth _ outer _ hf =>
      have here : Passes s { s with frames := .body type depth false :: outer } :=
        ⟨(blocks_of_body hf).symm, rfl, rfl, rfl, rfl, rfl⟩
      exact (Declares.of_passes here (typeFrom_declares ..)).effect

theorem step_effect (s : State) : Effect s (step s) := (step_move s).effect

/-- What a step records, it records with what is around it. -/
theorem step_records (s : State) : ∃ us ds,
    (step s).skeleton.usings = s.skeleton.usings ++ us ∧
    (step s).skeleton.types = s.skeleton.types ++ ds ∧
    (∀ u ∈ us, u.scope = s.scopes.head?) ∧ ∀ d ∈ ds, s.Sees d := by
  have same {t : State} (hu : t.skeleton.usings = s.skeleton.usings)
      (ht : t.skeleton.types = s.skeleton.types) : ∃ us ds,
      t.skeleton.usings = s.skeleton.usings ++ us ∧ t.skeleton.types = s.skeleton.types ++ ds ∧
      (∀ u ∈ us, u.scope = s.scopes.head?) ∧ ∀ d ∈ ds, s.Sees d :=
    ⟨[], [], by simp [hu], by simp [ht], by simp, by simp⟩
  cases step_effect s with
  | passes h => exact same h.usings h.types
  | directive name h =>
      refine ⟨[⟨name, s.scopes.head?⟩], [], h.usings, ?_, by simp, by simp⟩
      rw [h.types, List.append_nil]
      rfl
  | declares decl sees h =>
      refine ⟨[], [decl], ?_, h.types, by simp, by simpa using sees⟩
      rw [h.usings, List.append_nil]
      rfl
  | opens full _ h => exact same h.usings h.types
  | closes visible frames _ _ h => exact same h.usings h.types
  | names full _ h => exact same h.usings h.types

theorem fileScoped_step {s : State} (h : s.fileScoped = true) : (step s).fileScoped = true := by
  cases step_effect s with
  | passes hp => exact hp.fileScoped.trans h
  | directive name hp => exact hp.fileScoped.trans h
  | declares decl _ hp => exact hp.fileScoped.trans h
  | opens full _ hp => exact hp.fileScoped.trans h
  | closes visible frames _ _ hp => exact hp.fileScoped.trans h
  | names full _ hp => exact hp.fileScoped

theorem fileScoped_run {s : State} (h : s.fileScoped = true) : (run s).fileScoped = true :=
  run_preserves (P := fun t => t.fileScoped = true) (fun _ => fileScoped_step) h

/-- An open brace was read, and each block among the open braces has its namespace. -/
structure State.Nested (s : State) : Prop where
  started : s.frames ≠ [] → s.cursor.before ≠ []
  count_le : s.blocks.countP (!·.isBody) ≤ s.scopes.length

theorem State.Nested.scopes_ne_nil {s : State} (h : s.Nested) {visible : Nat} {frames : List Frame}
    (hf : s.frames = .block visible :: frames) : s.scopes ≠ [] := by
  have hcount := h.count_le
  have hblocks : s.blocks = .block visible :: frames := by
    rw [State.blocks, hf]
    rfl
  rw [hblocks, List.countP_cons_of_pos rfl] at hcount
  exact List.ne_nil_of_length_pos (Nat.lt_of_lt_of_le (Nat.succ_pos _) hcount)

theorem nested_start (ts : List Token) : State.Nested { cursor := ⟨[], ts⟩ } where
  started h := absurd rfl h
  count_le := Nat.le_refl _

theorem step_count_le {s : State} (h : s.Nested) :
    (step s).blocks.countP (!·.isBody) ≤ (step s).scopes.length := by
  have hcount := h.count_le
  cases step_effect s with
  | passes hp => rwa [hp.blocks, hp.scopes]
  | directive name hp =>
      rw [hp.blocks, hp.scopes]
      exact hcount
  | declares decl _ hp =>
      rw [hp.blocks, hp.scopes]
      exact hcount
  | opens full top hp =>
      rw [top] at hcount
      rw [hp.blocks, hp.scopes]
      change (Frame.block s.visible.length :: s.frames).countP (!·.isBody) ≤ _
      rw [List.countP_cons_of_pos rfl]
      exact Nat.succ_le_succ hcount
  | closes visible frames before _ hp =>
      have hblocks : s.blocks = .block visible :: frames := by
        rw [State.blocks, before]
        rfl
      rw [hblocks, List.countP_cons_of_pos rfl] at hcount
      rw [hp.blocks, hp.scopes]
      calc (frames.dropWhile Frame.isBody).countP (!·.isBody)
        _ ≤ frames.countP (!·.isBody) := (List.dropWhile_sublist _).countP_le
        _ ≤ s.scopes.length - 1 := Nat.le_sub_of_add_le hcount
        _ = s.scopes.tail.length := List.length_tail.symm
  | names full _ hp =>
      rw [hp.blocks, hp.scopes]
      exact Nat.le_succ_of_le hcount

theorem step_nested {s : State} (h : s.Nested) : (step s).Nested where
  started hframes := by
    by_cases hrest : s.cursor.rest = []
    · refine (step_reaches s).started (h.started ?_)
      intro hnil
      simp [step, closeFrame, hrest, hnil] at hframes
    · exact (step_reaches s).started_of_lt (step_rest_lt hrest)
  count_le := step_count_le h

end Parser

end GeneratorBench
