import GeneratorBench.Proofs.Syntax.Setting

/-!
What the reader makes of tokens is decided by their kinds. Where the tokens stand shows in the spans and
nowhere else.
-/

namespace GeneratorBench

def NameRef.unplaced (n : NameRef) : NameRef := { n with span := .point .origin }

def UsingDirective.unplaced (u : UsingDirective) : UsingDirective := { u with name := u.name.unplaced }

def TypeDecl.unplaced (d : TypeDecl) : TypeDecl :=
  { d with name := d.name.unplaced, bases := d.bases.map NameRef.unplaced }

def SyntaxError.unplaced (x : SyntaxError) : SyntaxError := { x with span := .point .origin }

/-- A skeleton less its spans, which are all put to the start of the text. -/
def Skeleton.unplaced (s : Skeleton) : Skeleton :=
  { s with
    usings := s.usings.map UsingDirective.unplaced
    types := s.types.map TypeDecl.unplaced
    errors := s.errors.map SyntaxError.unplaced }

def Placement.nowhere : Placement := ⟨fun _ => .origin, [], none⟩

namespace Placement

theorem inside_nowhere (scope : Option String) : nowhere.inside scope = scope := by
  cases scope with
  | none => rfl
  | some name => rfl

theorem visible_nowhere (usings : List Nat) : nowhere.visible usings = usings := by
  simp [visible, nowhere]

theorem directive_nowhere (u : UsingDirective) : nowhere.directive u = u.unplaced := by
  rw [directive, inside_nowhere]
  rfl

theorem decl_nowhere (d : TypeDecl) : nowhere.decl d = d.unplaced := by
  rw [decl, inside_nowhere, visible_nowhere]
  rfl

theorem skeleton_nowhere (s : Skeleton) : nowhere.skeleton s = s.unplaced := by
  have hfull : s.namespaces.map nowhere.full = s.namespaces := List.map_id'' (fun _ => rfl) _
  have husings : s.usings.map nowhere.directive = s.usings.map UsingDirective.unplaced :=
    List.map_congr_left fun u _ => directive_nowhere u
  have htypes : s.types.map nowhere.decl = s.types.map TypeDecl.unplaced :=
    List.map_congr_left fun d _ => decl_nowhere d
  rw [skeleton, hfull, husings, htypes]
  rfl

end Placement

def Setting.nowhere : Setting where
  toPlacement := .nowhere
  token t := ⟨t.kind, .origin, 0⟩
  token_kind _ := rfl
  token_start _ := rfl
  token_stop _ := rfl
  before := []
  before_isModifier := rfl

namespace Skeleton

theorem ofTokens_nowhere (ts : List Token) :
    ofTokens (ts.map Setting.nowhere.token) = (ofTokens ts).unplaced := by
  have hrun := Setting.nowhere.run_state (Parser.nested_start ts) (by rintro ⟨⟩)
  have hstart : Setting.nowhere.state { cursor := ⟨[], ts⟩ } =
      { cursor := ⟨[], ts.map Setting.nowhere.token⟩ } := rfl
  rw [hstart] at hrun
  rw [ofTokens, hrun]
  exact Placement.skeleton_nowhere _

/-- Tokens of the same kinds are read alike, but for the spans. -/
theorem unplaced_ofTokens {ts us : List Token} (h : ts.map Token.kind = us.map Token.kind) :
    (ofTokens ts).unplaced = (ofTokens us).unplaced := by
  have htoken : Setting.nowhere.token = (fun k : Token.Kind => ⟨k, .origin, 0⟩) ∘ Token.kind := rfl
  rw [← ofTokens_nowhere, ← ofTokens_nowhere, htoken, ← List.map_map, ← List.map_map, h]

end Skeleton

end GeneratorBench
