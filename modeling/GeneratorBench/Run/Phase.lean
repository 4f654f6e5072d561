/-!
The phases of a run, in order.
-/

namespace GeneratorBench

inductive Phase
  | decorate
  | assemble
  | analyze
  | generate
  | aggregate
  deriving Repr, DecidableEq, Inhabited

namespace Phase

def all : List Phase := [decorate, assemble, analyze, generate, aggregate]

def name : Phase → String
  | decorate => "decorate"
  | assemble => "assemble"
  | analyze => "analyze"
  | generate => "generate"
  | aggregate => "aggregate"

def description : Phase → String
  | decorate => "Decorate and parse source fragments"
  | assemble => "Assemble the compilation"
  | analyze => "Run analyzers against the compilation"
  | generate => "Run generators and fold their output into the compilation"
  | aggregate => "Collect final diagnostics and build the result"

end Phase

end GeneratorBench
