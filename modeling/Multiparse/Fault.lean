/-!
# Faults

A fault is a mistake in how a grammar is wired together, or a grammar that recurses without end.
It is not a parse failure: the run stops without an outcome.
-/

namespace Multiparse

/-- Why a run ends without an outcome. -/
inductive Fault where
  /-- The rule was run before it had a pattern. -/
  | undefined (rule : String)
  /-- The rule was run after the last handle to it was gone. -/
  | dropped (rule : String)
  /-- The rule was given a second pattern. -/
  | redefined (rule : String)
  /-- No rule or parser is known by this name. -/
  | unknown (name : String)
  /-- The grammar recurses without consuming anything. -/
  | runaway
  deriving DecidableEq

namespace Fault

/-- What the user is told when the run stops. -/
def message : Fault → String
  | undefined rule => "rule `" ++ rule ++ "` has not been defined; define it before parsing"
  | dropped rule => "rule `" ++ rule ++ "` was dropped while a parser still refers to it"
  | redefined rule => "rule `" ++ rule ++ "` has already been defined"
  | unknown name => "nothing is known by the name `" ++ name ++ "`"
  | runaway => "the grammar recurses without end"

/-- What is written to the log when the fault is met. -/
def record : Fault → String
  | undefined rule => "rule `" ++ rule ++ "` used before it was defined"
  | dropped rule => "rule `" ++ rule ++ "` parsed after its grammar was dropped"
  | redefined rule => "rule `" ++ rule ++ "` defined twice"
  | fault => fault.message

end Fault

/-- A monad in which a run can stop with a fault. -/
class Aborts (m : Type → Type) where
  abort : {α : Type} → Fault → m α

instance : Aborts (Except Fault) where
  abort fault := .error fault

end Multiparse
