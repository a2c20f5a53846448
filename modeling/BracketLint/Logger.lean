import BracketLint.Journal
import BracketLint.Text.PlainText

/-! Writing events down, one after the other. What stands before a message and how values are
named is up to the logger, as is what a reader is shown of it all: times and colours differ from
one place to the next. -/

namespace BracketLint

/-- A text with the lines after the first one indented. -/
def indent (s : String) : String :=
  String.ofList (s.toList.flatMap fun c => if c = '\n' then "\n    ".toList else [c])

structure Logger where
  /-- What stands before the message of the event numbered `i`, of some level and from some part
  of the program. -/
  heading : Nat → Level → String → String
  /-- The named values, which stand after the message. -/
  values : List (String × String) → String
  values_nil : values [] = ""
  /-- What a reader is shown of a text. -/
  shown : String → String

namespace Logger

/-- The event numbered `i` as it is shown. Values are not indented. -/
def line (g : Logger) (i : Nat) (e : Event) : String :=
  g.shown (g.heading i e.level e.target ++ indent e.message ++ g.values e.fields ++ "\n")

def levelText (level : Level) : String :=
  level.name ++ String.ofList (List.replicate (5 - level.name.length) ' ')

/-- Writes for a reader that is no terminal, without the time. -/
def plain : Logger where
  heading _ level target := "[" ++ levelText level ++ " " ++ target ++ "] "
  values := Event.valuesText
  values_nil := rfl
  shown := PlainText.strip

end Logger

end BracketLint
