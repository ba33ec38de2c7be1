import Letterhead.Text.Basic
/-
# Patterns

The shapes that a comment at the top of a text may have. A pattern can be met
in several ways; `rests` lists what each way leaves, the preferred one first,
and a repetition prefers to go on. A later part of a pattern may need an
earlier one to give characters back, which is to take a later entry.
-/
namespace Letterhead

/-- A pattern over texts. -/
inductive Pattern
  /-- These characters. -/
  | text (t : Text)
  /-- One character of a class. -/
  | oneOf (p : Char → Bool)
  /-- Nothing, where these characters do not come next. -/
  | unlessNext (t : Text)
  /-- One pattern after the other. -/
  | seq (p q : Pattern)
  /-- The pattern any number of times, as often as possible first. -/
  | many (p : Pattern)

namespace Pattern

/-- What is left after more rounds of a step, followed by `after`. There are no more
rounds than the first text has characters. -/
def rounds (step : Text → List Text) : Text → Text → List Text → List Text
  | [], s, after => s :: after
  | _ :: more, s, after => (step s).foldr (fun r acc => rounds step more r acc) (s :: after)

/-- What each way to meet the pattern leaves, in order of preference. A round
of a repetition takes a character at least, so the text itself counts the rounds. -/
def rests : Pattern → Text → List Text
  | text t, s => if t.isPrefixOf s then [s.drop t.length] else []
  | oneOf p, c :: s => if p c then [s] else []
  | oneOf _, [] => []
  | unlessNext t, s => if t.isPrefixOf s then [] else [s]
  | seq p q, s => (rests p s).flatMap (rests q)
  | many p, s => rounds (rests p) s s []

def oneOrMore (p : Pattern) : Pattern := seq p (many p)

def all : List Pattern → Pattern
  | [] => text []
  | [p] => p
  | p :: q :: ps => seq p (all (q :: ps))

def blanks : Pattern := many (oneOf Text.isBlank)

end Pattern

/-- A cut of a text: the characters from `start` up to `stop`. -/
structure Span where
  start : Nat
  stop : Nat
deriving DecidableEq, Repr

/-- The characters of a cut. -/
def Span.of (x : Span) (s : Text) : Text := (s.take x.stop).drop x.start

namespace Pattern

/-- Where the pattern is met at the top of a text, past blanks. As many blanks
as possible are passed over, and fewer only where the pattern needs them. -/
def leading? (p : Pattern) (s : Text) : Option Span :=
  let ways := (rests blanks s).flatMap fun r => (rests p r).map fun e => (r, e)
  ways.head?.map fun w => ⟨s.length - w.1.length, s.length - w.2.length⟩

end Pattern
end Letterhead
