/-!
# Log lines

A log line is written when its level is not below the active one. Lines name their scope, and
warnings and errors their level too.
-/

namespace CodeAtlas
namespace Log

/-- The levels of log lines, and the level at which none is written. -/
inductive Level where
  | debug
  | info
  | warn
  | error
  | silent
  deriving DecidableEq, Repr

namespace Level

/-- The word for a level. -/
def name : Level → String
  | debug => "debug"
  | info => "info"
  | warn => "warn"
  | error => "error"
  | silent => "silent"

/-- Reads the word for a level. -/
def ofName? (word : String) : Option Level :=
  [debug, info, warn, error, silent].find? (·.name = word)

/-- The rank of a level. -/
def rank : Level → Nat
  | debug => 10
  | info => 20
  | warn => 30
  | error => 40
  | silent => 100

end Level

/-- The line written for a message, if its level is high enough. -/
def line? (active : Level) (scope : String) (level : Level) (message : String) : Option String :=
  if level.rank < active.rank then
    none
  else
    let mark := match level with
      | .warn | .error => s!"[{scope}] " ++ level.name ++ ":"
      | _ => s!"[{scope}]"
    some s!"{mark} {message}"

end Log
end CodeAtlas
