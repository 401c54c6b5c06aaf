/-!
# Log levels
-/

set_option autoImplicit false

namespace InkCompositor

/-- From the most talkative to the gravest. -/
inductive Level where
  | trace
  | debug
  | info
  | warn
  | error
  deriving DecidableEq, Repr, Inhabited

namespace Level

def all : List Level := [trace, debug, info, warn, error]

def rank : Level → Nat
  | trace => 0
  | debug => 1
  | info => 2
  | warn => 3
  | error => 4

def name : Level → String
  | trace => "trace"
  | debug => "debug"
  | info => "info"
  | warn => "warn"
  | error => "error"

def ofName? (s : String) : Option Level := all.find? (·.name == s)

def label (l : Level) : String := l.name.map Char.toUpper

end Level

end InkCompositor
