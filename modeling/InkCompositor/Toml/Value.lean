/-!
# TOML values

Tables keep their entries in the order in which they were written, and
remember how they came about, because that decides whether they may still be
added to.
-/

set_option autoImplicit false

namespace InkCompositor.Toml

inductive Origin where
  /-- Written out with braces; it is complete. -/
  | braces
  /-- By a header of its own. -/
  | header
  /-- On the way to the table of a longer header. -/
  | headerPath
  /-- On the way to the value of a dotted key. -/
  | dottedKey
  deriving DecidableEq, Repr

inductive Value where
  | string (text : String)
  | integer (value : Int)
  /-- A number with a fraction or an exponent, as it was written. -/
  | float (text : String)
  | boolean (value : Bool)
  /-- A date, a time or both, as it was written. -/
  | dateTime (text : String)
  | array (elements : List Value)
  | table (origin : Origin) (entries : List (String × Value))
  /-- The tables of an array that is written as one header for each. -/
  | tables (elements : List (List (String × Value)))
  deriving Inhabited

abbrev Entries := List (String × Value)

end InkCompositor.Toml
