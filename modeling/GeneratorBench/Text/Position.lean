/-!
Places in a text. Lines and columns count from zero, columns count characters, and only a line
feed ends a line.
-/

namespace GeneratorBench

structure Position where
  line : Nat
  column : Nat
  deriving Repr, DecidableEq, Inhabited

structure Span where
  start : Position
  stop : Position
  deriving Repr, DecidableEq, Inhabited

namespace Position

def origin : Position := ⟨0, 0⟩

def after (p : Position) (c : Char) : Position :=
  if c = '\n' then ⟨p.line + 1, 0⟩ else ⟨p.line, p.column + 1⟩

def advance (p : Position) (text : List Char) : Position :=
  text.foldl after p

@[simp] theorem advance_nil (p : Position) : p.advance [] = p := rfl

@[simp] theorem advance_cons (p : Position) (c : Char) (text : List Char) :
    p.advance (c :: text) = (p.after c).advance text := rfl

theorem advance_append (p : Position) (s t : List Char) :
    p.advance (s ++ t) = (p.advance s).advance t :=
  List.foldl_append

def render (p : Position) : String :=
  "(" ++ toString p.line ++ "," ++ toString p.column ++ ")"

end Position

namespace Span

def point (p : Position) : Span := ⟨p, p⟩

def onLine (line column length : Nat) : Span :=
  ⟨⟨line, column⟩, ⟨line, column + length⟩⟩

def render (s : Span) : String :=
  s.start.render ++ "-" ++ s.stop.render

end Span

end GeneratorBench
