import Letterhead.Text.Basic
/-
# Themes

How parts of a printed text are set apart: in colours, or not at all.
-/
namespace Letterhead

/-- What a part of a text is for. -/
inductive Tone
  | primary | warn | error | success | muted | label | value
deriving DecidableEq, Repr

namespace Tone

def names : List (Text × Tone) :=
  [("primary".toList, primary), ("warn".toList, warn), ("error".toList, error),
   ("success".toList, success), ("muted".toList, muted), ("label".toList, label),
   ("value".toList, value)]

def ofName? (name : Text) : Option Tone := names.lookup name

/-- The terminal attributes of a tone. -/
def attributes : Tone → List Nat
  | primary => [36, 1]
  | warn => [33, 1]
  | error => [31, 1]
  | success => [32, 1]
  | muted => [37, 2]
  | label => [36]
  | value => [32]

end Tone

inductive Theme
  | classic
  | mono
deriving DecidableEq, Repr

namespace Theme

def name : Theme → Text
  | classic => "classic".toList
  | mono => "mono".toList

/-- The theme of this name (`set_theme`); every other name stands for the classic one. -/
def ofName (name : Text) : Theme := if name = mono.name then mono else classic

/-- The theme behind a look at the environment (`setup_theme`): any wish for no colour is
met. -/
def respecting (noColor : Option Text) (t : Theme) : Theme :=
  match noColor with
  | some (_ :: _) => mono
  | _ => t

/-- The text that turns a terminal attribute on. -/
def escape (code : Nat) : Text := '\x1b' :: '[' :: (Text.ofNat code ++ ['m'])

/-- A text in a tone (`Theme.apply`). -/
def paint (t : Theme) (tone : Tone) (s : Text) : Text :=
  match t with
  | classic => tone.attributes.flatMap escape ++ s ++ escape 0
  | mono => s

/-- A text in the tone of this name, or as it is. -/
def paintNamed (t : Theme) (tone s : Text) : Text :=
  match Tone.ofName? tone with
  | some tone => t.paint tone s
  | none => s

end Theme
end Letterhead
