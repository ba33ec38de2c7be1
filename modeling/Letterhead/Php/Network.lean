import Letterhead.Php.Production
/-
# Networks

The productions of a grammar laid out as positions. Each place where a production
asks for a symbol is a position, and it knows the positions that can come next in
its production. A production is then read by walking along its positions.

Part of the stand-in parser (`Php.Tree`), on which no result rests.
-/
namespace Letterhead.Php

/-- What a position asks for, by number. -/
inductive Symbol
  | terminal (i : Nat)
  | rule (i : Nat)
deriving DecidableEq, Repr

/-- A place in the production of a rule. -/
structure Position where
  symbol : Symbol
  /-- The positions that can come next. -/
  next : List Nat
  /-- Whether the production can end behind this one. -/
  isLast : Bool
  rule : Nat
deriving Repr

/-- The productions of a grammar as positions. -/
structure Network where
  terminals : Array Terminal
  positions : Array Position
  /-- The positions that each rule begins with. -/
  firsts : Array (List Nat)

namespace Network

/-- Where a stretch of a production can begin and end. -/
structure Ends where
  isNullable : Bool
  firsts : List Nat
  lasts : List Nat

def link (lasts firsts : List Nat) (positions : Array Position) : Array Position :=
  lasts.foldl (fun positions i =>
    positions.modify i fun n => { n with next := n.next ++ firsts }) positions

def place (rule : Nat) (s : Symbol) (positions : Array Position) : Ends × Array Position :=
  (⟨false, [positions.size], [positions.size]⟩, positions.push ⟨s, [], false, rule⟩)

/-- Adds the positions of a production. -/
def lay {Rule : Type} (terminal : Terminal → Nat) (index : Rule → Nat) (rule : Nat) :
    Production Rule → Array Position → Ends × Array Position
  | .token t, positions => place rule (.terminal (terminal t)) positions
  | .rule r, positions => place rule (.rule (index r)) positions
  | .empty, positions => (⟨true, [], []⟩, positions)
  | .never, positions => (⟨false, [], []⟩, positions)
  | .seq p q, positions =>
    let (a, positions) := lay terminal index rule p positions
    let (b, positions) := lay terminal index rule q positions
    (⟨a.isNullable && b.isNullable,
      if a.isNullable then a.firsts ++ b.firsts else a.firsts,
      if b.isNullable then a.lasts ++ b.lasts else b.lasts⟩, link a.lasts b.firsts positions)
  | .choice p q, positions =>
    let (a, positions) := lay terminal index rule p positions
    let (b, positions) := lay terminal index rule q positions
    (⟨a.isNullable || b.isNullable, a.firsts ++ b.firsts, a.lasts ++ b.lasts⟩, positions)
  | .many p, positions =>
    let (a, positions) := lay terminal index rule p positions
    (⟨true, a.firsts, a.lasts⟩, link a.lasts a.firsts positions)

/-- Marks the positions that a production can end with. -/
def close (lasts : List Nat) (positions : Array Position) : Array Position :=
  lasts.foldl (fun positions i => positions.modify i fun n => { n with isLast := true }) positions

/-- The network of a grammar with these rules. -/
def ofRules {Rule : Type} [DecidableEq Rule] (rules : List Rule)
    (definition : Rule → Production Rule) : Network :=
  let terminals := (rules.flatMap fun r => (definition r).terminals).eraseDups
  rules.foldl (fun net r =>
    let (ends, positions) :=
      lay terminals.idxOf rules.idxOf (rules.idxOf r) (definition r) net.positions
    { net with positions := close ends.lasts positions, firsts := net.firsts.push ends.firsts })
    ⟨terminals.toArray, #[], #[]⟩

end Network
end Letterhead.Php
