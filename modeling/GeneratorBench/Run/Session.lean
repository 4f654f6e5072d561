import GeneratorBench.Run.Phase
import GeneratorBench.Run.Event

/-!
Sessions: what one request carries along while it runs. The code under test is only ever entered
through `Session.call`, which writes the call into the journal and remembers a cancellation for
good.
-/

namespace GeneratorBench

inductive Failure
  /-- It gave up over `root`; each context says what was being done, the innermost first. -/
  | raised (root : String) (contexts : List String)
  /-- It broke down, with a message or with nothing that is a text. -/
  | panicked (message : Option String)
  deriving Repr, DecidableEq, Inhabited

namespace Failure

def panicText (message : Option String) : String :=
  message.getD "panicked with a non-string payload"

def headline : Failure → String
  | raised root contexts => contexts.getLastD root
  | panicked message => panicText message

def chain : Failure → String
  | raised root contexts => ": ".intercalate (root :: contexts).reverse
  | panicked message => panicText message

def isPanic : Failure → Bool
  | raised .. => false
  | panicked _ => true

end Failure

inductive Moment
  | before
  | after
  deriving Repr, DecidableEq, Inhabited

inductive Call
  | analyze (analyzer : String)
  | execute (generator : String)
  | visit (generator path : String)
  | finalize (generator : String)
  | hook (plugin : String) (moment : Moment) (phase : Phase)
  | note (text : String)
  deriving Repr, DecidableEq, Inhabited

namespace Call

/-- The line of a call in a trace. A hook is silent; its notes speak for it. -/
def line? : Call → Option String
  | analyze id => some ("analyze " ++ id)
  | execute id => some ("execute " ++ id)
  | visit id path => some ("tree " ++ id ++ " " ++ path)
  | finalize id => some ("finalize " ++ id)
  | hook .. => none
  | note text => some text

end Call

structure JournalEntry where
  call : Call
  /-- The request was cancelled before the call. -/
  cancelled : Bool
  deriving Repr, DecidableEq, Inhabited

/-- What one call into the code under test comes to: its value, whether it cancelled the request,
and what it remembers for the next call. -/
structure Reply (σ α : Type) where
  value : α
  cancels : Bool
  memory : σ

/-- Code under test. It sees whether the request is cancelled, and what was remembered. -/
abbrev Callback (σ α : Type) := Bool → σ → Reply σ α

structure Session (σ : Type) where
  memory : σ
  cancelled : Bool := false
  journal : List JournalEntry := []
  /-- The least severe level that is recorded; none if nothing listens. -/
  log : Option Level := none
  events : List Event := []

namespace Session

variable {σ α : Type} (s : Session σ)

def cancel : Session σ := { s with cancelled := true }

def write (call : Call) : Session σ :=
  { s with journal := s.journal ++ [⟨call, s.cancelled⟩] }

def call (call : Call) (f : Callback σ α) : α × Session σ :=
  let reply := f s.cancelled s.memory
  (reply.value,
    { s.write call with cancelled := s.cancelled || reply.cancels, memory := reply.memory })

def emit (e : Event) : Session σ :=
  if s.log.any e.level.isWithin then { s with events := s.events ++ [e] } else s

def emitAll (es : List Event) : Session σ := es.foldl emit s

def trace : List String := s.journal.filterMap fun entry => entry.call.line?

section

variable (c : Call) (f : Callback σ α)

theorem call_journal : (s.call c f).2.journal = s.journal ++ [⟨c, s.cancelled⟩] := rfl

/-- A cancellation is never taken back. -/
theorem call_cancelled_of (h : s.cancelled = true) : (s.call c f).2.cancelled = true := by
  simp [call, h]

end

@[simp] theorem emit_cancelled (e : Event) : (s.emit e).cancelled = s.cancelled := by
  unfold emit; split <;> rfl

@[simp] theorem emit_memory (e : Event) : (s.emit e).memory = s.memory := by
  unfold emit; split <;> rfl

@[simp] theorem emit_journal (e : Event) : (s.emit e).journal = s.journal := by
  unfold emit; split <;> rfl

@[simp] theorem emit_log (e : Event) : (s.emit e).log = s.log := by
  unfold emit; split <;> rfl

@[simp] theorem emitAll_cancelled (es : List Event) : (s.emitAll es).cancelled = s.cancelled := by
  induction es generalizing s with
  | nil => rfl
  | cons e es ih => exact (ih _).trans (s.emit_cancelled e)

@[simp] theorem emitAll_memory (es : List Event) : (s.emitAll es).memory = s.memory := by
  induction es generalizing s with
  | nil => rfl
  | cons e es ih => exact (ih _).trans (s.emit_memory e)

@[simp] theorem emitAll_journal (es : List Event) : (s.emitAll es).journal = s.journal := by
  induction es generalizing s with
  | nil => rfl
  | cons e es ih => exact (ih _).trans (s.emit_journal e)

@[simp] theorem emitAll_log (es : List Event) : (s.emitAll es).log = s.log := by
  induction es generalizing s with
  | nil => rfl
  | cons e es ih => exact (ih _).trans (s.emit_log e)

end Session

end GeneratorBench
