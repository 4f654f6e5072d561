/-!
The ways in which work on the bench itself can fail. What is wrong with tested code is never an
error: it is a diagnostic. An error has a text, a code and, for some, a hint on what to do.
-/

namespace GeneratorBench

inductive ReadFailure
  | notFound
  | isDirectory
  | notADirectory
  | invalidData
  deriving Repr, DecidableEq, Inhabited

inductive ReferenceError
  | unreadable (path : String) (reason : ReadFailure)
  | malformed
  deriving Repr, DecidableEq, Inhabited

inductive Error
  | duplicateGenerator (id : String)
  | noResults
  | multipleResults (count : Nat)
  | cancelled
  | unknownGenerator (id : String)
  | missingPhaseOutput (phase : String)
  | unreadableProfile (path : String) (reason : ReadFailure)
  | malformedProfile
  | reference (e : ReferenceError)
  deriving Repr, DecidableEq, Inhabited

namespace ReferenceError

def message : ReferenceError → String
  | unreadable path _ => "failed to read reference '" ++ path ++ "'"
  | malformed => "failed to parse reference file"

def code : ReferenceError → String
  | unreadable .. => "gentest::reference::io"
  | malformed => "gentest::reference::parse"

def help? : ReferenceError → Option String
  | unreadable .. => none
  | malformed => some "a reference file needs a `name` and a list of `[[namespaces]]` tables"

end ReferenceError

namespace Error

def message : Error → String
  | duplicateGenerator id => "generator '" ++ id ++ "' is already registered"
  | noResults => "the test case has not been run yet"
  | multipleResults count =>
    "the test case has " ++ toString count ++ " results, expected exactly one"
  | cancelled => "the run was cancelled"
  | unknownGenerator id => "generator '" ++ id ++ "' is not part of this result"
  | missingPhaseOutput phase => "phase '" ++ phase ++ "' ran before its input was produced"
  | unreadableProfile path _ => "failed to read profile '" ++ path ++ "'"
  | malformedProfile => "failed to parse profile"
  | reference e => e.message

def code : Error → String
  | duplicateGenerator _ => "gentest::duplicate_generator"
  | noResults => "gentest::no_results"
  | multipleResults _ => "gentest::multiple_results"
  | cancelled => "gentest::cancelled"
  | unknownGenerator _ => "gentest::unknown_generator"
  | missingPhaseOutput _ => "gentest::missing_phase_output"
  | unreadableProfile .. => "gentest::profile::io"
  | malformedProfile => "gentest::profile::parse"
  | reference e => e.code

def help? : Error → Option String
  | duplicateGenerator _ => some "each generator in a configuration needs a distinct id"
  | multipleResults _ =>
    some "use `results()` or `latest_result()` for test cases that run more than once"
  | malformedProfile =>
    some "known keys are assembly_name, output_kind, warnings_as_errors and references"
  | reference e => e.help?
  | _ => none

end Error

end GeneratorBench
