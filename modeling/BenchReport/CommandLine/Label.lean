/-!
# Labels of messages

The words at the beginning of messages, bright, bold and in a colour of their
own where colours are wanted.
-/

namespace BenchReport

/-- A word that says what kind of message follows. -/
inductive Label where
  /-- Something was left out. -/
  | warning
  /-- Something failed. -/
  | error
  /-- Something was drawn. -/
  | rendered
deriving DecidableEq, Repr

namespace Label

/-- The word. -/
def word : Label → String
  | warning => "Warning:"
  | error => "Error:"
  | rendered => "Rendered"

/-- The number of the colour on a terminal. -/
def colour : Label → String
  | warning => "93"
  | error => "91"
  | rendered => "92"

/-- The label as it is written. -/
def text (coloured : Bool) (label : Label) : String :=
  if coloured then "\x1b[1;" ++ label.colour ++ "m" ++ label.word ++ "\x1b[0m"
  else label.word

/-- Whether the value of an environment variable says yes; only a zero
says no. -/
def saysYes (value : String) : Bool :=
  value ≠ "0"

/-- Whether labels are coloured. Colours that are forced win over colours that
are refused, and otherwise only a terminal gets them, unless it wants none. -/
def areColoured (forced refused wanted : Option String) (terminal : Bool) :
    Bool :=
  if forced.any saysYes then true
  else if refused.isSome then false
  else wanted.all saysYes && terminal

end Label

end BenchReport
