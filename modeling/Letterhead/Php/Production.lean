import Letterhead.Php.Terminal
/-
# Productions

The right sides of a grammar: regular expressions over terminals and rules.

Part of the stand-in parser (`Php.Tree`), on which no result rests.
-/
namespace Letterhead.Php

/-- A regular expression over terminals and the rules of a grammar. -/
inductive Production (Rule : Type)
  | token (t : Terminal)
  | rule (r : Rule)
  /-- Nothing at all. -/
  | empty
  /-- What no code is. -/
  | never
  | seq (p q : Production Rule)
  | choice (p q : Production Rule)
  | many (p : Production Rule)

namespace Production

variable {Rule : Type}

def all : List (Production Rule) → Production Rule
  | [] => .empty
  | [p] => p
  | p :: q :: ps => .seq p (all (q :: ps))

def oneOf : List (Production Rule) → Production Rule
  | [] => .never
  | [p] => p
  | p :: q :: ps => .choice p (oneOf (q :: ps))

def optional (p : Production Rule) : Production Rule := .choice p .empty

/-- The production once or more. -/
def oneOrMore (p : Production Rule) : Production Rule := .seq p (.many p)

/-- The production once or more, with a separator between. -/
def separated (separator p : Production Rule) : Production Rule :=
  .seq p (.many (.seq separator p))

def kw (w : String) : Production Rule := .token (.keyword w.toList)

def kws (ws : List String) : Production Rule := oneOf (ws.map kw)

/-- One of several words that have one case only. -/
def words (ws : List String) : Production Rule :=
  oneOf (ws.map fun w => .token (.word w.toList))

def op (m : String) : Production Rule := .token (.mark m.toList)

def ops (ms : List String) : Production Rule := oneOf (ms.map op)

def commaList (p : Production Rule) : Production Rule := separated (op ",") p

/-- The production any number of times with commas between, and perhaps one more
comma, which may also stand alone. -/
def commaListOpen (p : Production Rule) : Production Rule :=
  .seq (optional (commaList p)) (optional (op ","))

def terminals : Production Rule → List Terminal
  | token t => [t]
  | rule _ => []
  | empty => []
  | never => []
  | seq p q => p.terminals ++ q.terminals
  | choice p q => p.terminals ++ q.terminals
  | many p => p.terminals

end Production
end Letterhead.Php
