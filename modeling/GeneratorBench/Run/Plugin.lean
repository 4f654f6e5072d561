import GeneratorBench.Run.Context

/-!
Plugins look on while a run goes through its phases. A hook may speak up, cancel the request or end
the run with an error, but it cannot change the run.
-/

namespace GeneratorBench

structure HookReply where
  note : Option String := none
  events : List Event := []
  failure : Option Error := none

structure Plugin (σ : Type) where
  name : String
  hook : Moment → Phase → RunContext σ → Callback σ HookReply

namespace Plugin

variable {σ : Type}

def call (p : Plugin σ) (moment : Moment) (phase : Phase) (ctx : RunContext σ) (s : Session σ) :
    Option Error × Session σ :=
  let (reply, s) := s.call (.hook p.name moment phase) (p.hook moment phase ctx)
  let s := reply.note.elim s fun text => s.write (.note text)
  (reply.failure, s.emitAll reply.events)

/-- Calls the hooks of plugins in order, up to the first that fails. -/
def callAll (moment : Moment) (phase : Phase) (ctx : RunContext σ) :
    List (Plugin σ) → Session σ → Option Error × Session σ
  | [], s => (none, s)
  | p :: ps, s =>
    match p.call moment phase ctx s with
    | (some e, s) => (some e, s)
    | (none, s) => callAll moment phase ctx ps s

def silent : Plugin σ where
  name := "silent"
  hook _ _ _ _ memory := ⟨{}, false, memory⟩

end Plugin

end GeneratorBench
