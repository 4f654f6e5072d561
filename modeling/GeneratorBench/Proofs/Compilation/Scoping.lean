import GeneratorBench.Proofs.Compilation.Visibility
import GeneratorBench.Proofs.Syntax.Names
import GeneratorBench.Proofs.Syntax.Nesting
import Mathlib.Data.List.Chain

/-!
The directives in scope of a declaration: they stand before it in the text, each in the namespace of the declaration
or in one around it. The reader keeps to this however the text leaves its namespaces.
-/

namespace GeneratorBench

/-- There is such a directive, in the namespace or in one around it. -/
def InScope (usings : List UsingDirective) (scope : Option String) (i : Nat) : Prop :=
  ∃ h : i < usings.length, Around scope usings[i].scope

def Inner (inner outer : String) : Prop := ∃ tail, inner = outer ++ "." ++ tail

/-- Each declaration sees its directives in order, and stands in a namespace that is declared. -/
structure Skeleton.WellScoped (s : Skeleton) : Prop where
  increasing : ∀ decl ∈ s.types, decl.usings.Pairwise (· < ·)
  inScope : ∀ decl ∈ s.types, ∀ i ∈ decl.usings, InScope s.usings decl.scope i
  declared : ∀ decl ∈ s.types, ∀ name ∈ decl.scope, name ∈ s.namespaces

variable {usings more : List UsingDirective} {scopes : List String} {visible : List Nat} {full : String} {i : Nat}

theorem Around.inside {outer : Option String} (hc : (full :: scopes).IsChain Inner) (h : Around scopes.head? outer) :
    Around (some full) outer := by
  cases outer with
  | none => trivial
  | some outer =>
      obtain ⟨name, hname, hcases⟩ := h
      cases scopes with
      | nil => cases hname
      | cons first scopes =>
          cases hname
          obtain ⟨⟨tail, rfl⟩, -⟩ := List.isChain_cons_cons.1 hc
          rcases hcases with rfl | ⟨middle, rfl⟩
          · exact ⟨_, rfl, .inr ⟨tail, rfl⟩⟩
          · refine ⟨_, rfl, .inr ⟨middle ++ "." ++ tail, ?_⟩⟩
            simp only [String.append_assoc]

theorem InScope.inside (hc : (full :: scopes).IsChain Inner) (h : InScope usings scopes.head? i) :
    InScope usings (some full) i := by
  obtain ⟨hi, haround⟩ := h
  exact ⟨hi, haround.inside hc⟩

theorem InScope.append {scope : Option String} (h : InScope usings scope i) : InScope (usings ++ more) scope i := by
  obtain ⟨hi, haround⟩ := h
  refine ⟨Nat.lt_of_lt_of_le hi (List.length_append ▸ Nat.le_add_right _ _), ?_⟩
  rwa [List.getElem_append_left hi]

theorem inScope_last (u : UsingDirective) : InScope (usings ++ [u]) u.scope usings.length := by
  refine ⟨by simp, ?_⟩
  rw [List.getElem_concat_length rfl]
  exact around_self _

namespace Parser

/-- The directives are in scope here, and those that are left will be once a block ends. -/
def Unwinds (usings : List UsingDirective) : List Frame → List String → List Nat → Prop
  | [], scopes, visible => ∀ i ∈ visible, InScope usings scopes.head? i
  | .body .. :: frames, scopes, visible => Unwinds usings frames scopes visible
  | .block v :: frames, scopes, visible =>
    (∀ i ∈ visible, InScope usings scopes.head? i) ∧ v ≤ visible.length ∧
      Unwinds usings frames scopes.tail (visible.take v)

/-- What was recorded is well scoped, and so is what comes next. -/
structure State.Scoped (s : State) : Prop where
  chain : s.scopes.IsChain Inner
  visible : s.visible.Pairwise (· < ·)
  unwinds : Unwinds s.skeleton.usings s.frames s.scopes s.visible
  increasing : ∀ decl ∈ s.skeleton.types, decl.usings.Pairwise (· < ·)
  inScope : ∀ decl ∈ s.skeleton.types, ∀ i ∈ decl.usings, InScope s.skeleton.usings decl.scope i

variable {frames : List Frame} {s t : State}

namespace Unwinds

theorem inScope (h : Unwinds usings frames scopes visible) : ∀ i ∈ visible, InScope usings scopes.head? i := by
  induction frames with
  | nil => exact h
  | cons frame frames ih =>
      cases frame with
      | block v => exact h.1
      | body type depth sawStatic => exact ih h

theorem dropWhile_iff : Unwinds usings (frames.dropWhile Frame.isBody) scopes visible ↔
    Unwinds usings frames scopes visible := by
  induction frames with
  | nil => rfl
  | cons frame frames ih =>
      cases frame with
      | block v => rfl
      | body type depth sawStatic => exact ih

theorem append (h : Unwinds usings frames scopes visible) : Unwinds (usings ++ more) frames scopes visible := by
  induction frames generalizing scopes visible with
  | nil => exact fun i hi => (h i hi).append
  | cons frame frames ih =>
      cases frame with
      | block v => exact ⟨fun i hi => (h.1 i hi).append, h.2.1, ih h.2.2⟩
      | body type depth sawStatic => exact ih h

theorem addUsing (h : Unwinds usings frames scopes visible) (hi : InScope usings scopes.head? i) :
    Unwinds usings frames scopes (visible ++ [i]) := by
  induction frames with
  | nil => exact List.forall_mem_append.2 ⟨h, List.forall_mem_singleton.2 hi⟩
  | cons frame frames ih =>
      cases frame with
      | block v =>
          obtain ⟨hnow, hle, hlater⟩ := h
          refine ⟨List.forall_mem_append.2 ⟨hnow, List.forall_mem_singleton.2 hi⟩, ?_, ?_⟩
          · rw [List.length_append]
            exact Nat.le_add_right_of_le hle
          · rwa [List.take_append_of_le_length hle]
      | body type depth sawStatic => exact ih h

/-- A namespace inside the innermost one, of which the open blocks know nothing. A block that ends then leaves one
more namespace than there was before it. -/
theorem inside (hc : (full :: scopes).IsChain Inner) (h : Unwinds usings frames scopes visible) :
    Unwinds usings frames (full :: scopes) visible := by
  induction frames generalizing full scopes visible with
  | nil => exact fun i hi => (h i hi).inside hc
  | cons frame frames ih =>
      cases frame with
      | body type depth sawStatic => exact ih hc h
      | block v =>
          obtain ⟨hnow, hle, hlater⟩ := h
          refine ⟨fun i hi => (hnow i hi).inside hc, hle, ?_⟩
          cases scopes with
          | nil => exact hlater
          | cons first scopes => exact ih (List.isChain_cons_cons.1 hc).2 hlater

end Unwinds

theorem Declares.scopes_eq (h : Declares s t) : t.scopes = s.scopes := by
  obtain h | ⟨decl, -, h⟩ := h
  · exact h.scopes
  · exact h.scopes

theorem Move.scopes_cases (h : Move s t) : t.scopes = s.scopes ∨ t.scopes = s.scopes.tail ∨
    ∃ name, t.scopes = s.qualify name :: s.scopes := by
  cases h with
  | done | giveUpBody | stray | semicolon | attributes | inBody | closeBody => exact .inl rfl
  | giveUpBlock | closeBlock => exact .inr (.inl rfl)
  | directive => exact .inl (usingDirective_holds s _).scopes
  | type | nested => exact .inl (typeFrom_declares ..).scopes_eq
  | scope =>
      rw [namespaceHead]
      dsimp only
      repeat' split
      all_goals first | exact .inl rfl | exact .inr (.inr ⟨_, rfl⟩)

theorem isChain_of_step (h : s.scopes.IsChain Inner) (hstep : (step s).scopes = full :: s.scopes) :
    (full :: s.scopes).IsChain Inner := by
  have hlength := congrArg List.length hstep
  rw [List.length_cons] at hlength
  obtain heq | heq | ⟨name, heq⟩ := (step_move s).scopes_cases
  · rw [heq] at hlength
    omega
  · rw [heq, List.length_tail] at hlength
    omega
  · rw [heq, List.cons.injEq] at hstep
    obtain ⟨rfl, -⟩ := hstep
    rw [State.qualify]
    cases hscopes : s.scopes with
    | nil => exact List.isChain_singleton _
    | cons outer scopes => exact List.isChain_cons_cons.2 ⟨⟨name, rfl⟩, hscopes ▸ h⟩

namespace State.Scoped

theorem passes (h : s.Scoped) (hp : Passes s t) : t.Scoped where
  chain := hp.scopes ▸ h.chain
  visible := hp.visible ▸ h.visible
  unwinds := by
    rw [← Unwinds.dropWhile_iff, hp.usings, hp.scopes, hp.visible]
    change Unwinds _ t.blocks _ _
    rw [hp.blocks]
    exact Unwinds.dropWhile_iff.2 h.unwinds
  increasing := hp.types ▸ h.increasing
  inScope := by
    rw [hp.types, hp.usings]
    exact h.inScope

theorem addUsing (h : s.Scoped) (name : NameRef) : (s.addUsing name).Scoped where
  chain := h.chain
  visible := by
    refine List.pairwise_append.2 ⟨h.visible, List.pairwise_singleton _ _, fun i hi j hj => ?_⟩
    rw [List.mem_singleton.1 hj]
    exact (h.unwinds.inScope i hi).1
  unwinds := h.unwinds.append.addUsing (inScope_last ⟨name, s.scopes.head?⟩)
  increasing := h.increasing
  inScope decl hdecl i hi := (h.inScope decl hdecl i hi).append

theorem addType (h : s.Scoped) {decl : TypeDecl} (hsees : s.Sees decl) : (s.addType decl).Scoped where
  chain := h.chain
  visible := h.visible
  unwinds := h.unwinds
  increasing := by
    refine List.forall_mem_append.2 ⟨h.increasing, List.forall_mem_singleton.2 ?_⟩
    rw [hsees.2]
    exact h.visible
  inScope := by
    refine List.forall_mem_append.2 ⟨h.inScope, List.forall_mem_singleton.2 ?_⟩
    rw [hsees.1, hsees.2]
    exact h.unwinds.inScope

theorem opens (h : s.Scoped) (hc : (full :: s.scopes).IsChain Inner) :
    ({ s with scopes := full :: s.scopes, frames := .block s.visible.length :: s.frames } : State).Scoped :=
  { h with
    chain := hc
    unwinds := by
      refine ⟨fun i hi => (h.unwinds.inScope i hi).inside hc, Nat.le_refl _, ?_⟩
      rw [List.take_length]
      exact h.unwinds }

theorem names (h : s.Scoped) (hc : (full :: s.scopes).IsChain Inner) :
    ({ s with scopes := full :: s.scopes, fileScoped := true } : State).Scoped :=
  { h with chain := hc, unwinds := h.unwinds.inside hc }

theorem closes (h : s.Scoped) {v : Nat} (hf : s.frames = .block v :: frames) :
    ({ s.leave v with frames } : State).Scoped :=
  { h with
    chain := h.chain.tail
    visible := h.visible.sublist (List.take_sublist _ _)
    unwinds := by
      have hblock := h.unwinds
      rw [hf] at hblock
      exact hblock.2.2 }

end State.Scoped

theorem step_scoped (h : s.Scoped) : (step s).Scoped := by
  cases step_effect s with
  | passes hp => exact h.passes hp
  | directive name hp => exact (h.addUsing name).passes hp
  | declares decl hsees hp => exact (h.addType hsees).passes hp
  | opens full _ hp => exact (h.opens (isChain_of_step h.chain hp.scopes)).passes hp
  | closes v frames before _ hp => exact (h.closes before).passes hp
  | names full _ hp => exact (h.names (isChain_of_step h.chain hp.scopes)).passes hp

theorem scoped_start (ts : List Token) : State.Scoped { cursor := ⟨[], ts⟩ } where
  chain := List.isChain_nil
  visible := List.Pairwise.nil
  unwinds := List.forall_mem_nil _
  increasing := List.forall_mem_nil _
  inScope := List.forall_mem_nil _

end Parser

theorem Parser.run_scoped (ts : List Token) : (run { cursor := ⟨[], ts⟩ }).Scoped :=
  run_preserves (fun _ => step_scoped) (scoped_start ts)

theorem Skeleton.wellScoped_ofText (text : String) : (ofText text).WellScoped where
  increasing := (Parser.run_scoped (tokens text)).increasing
  inScope := (Parser.run_scoped (tokens text)).inScope
  declared := (named_ofTokens (wordsAre_wordChars text)).scopes

end GeneratorBench
