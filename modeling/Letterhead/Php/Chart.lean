import Letterhead.Php.Network
import Std.Data.HashSet
/-
# Charts

Code is read along a network from left to right. Each place of the code has a
column that says where in the network reading can stand: all ways of reading
are followed at once, and a rule that begins at a place is read there once,
however many positions ask for it. No rule of the network may stand for nothing, so
that a rule that ends at a place has begun at one with an earlier column.

Part of the stand-in parser (`Php.Tree`), on which no result rests.
-/
namespace Letterhead.Php

/-- A position with the place of the code where its rule began. -/
structure Item where
  position : Nat
  origin : Nat
deriving DecidableEq, Hashable, Repr

/-- What is read at a place of the code: the items in front of each rule and of
each terminal. -/
structure Column where
  rules : Array (List Item)
  terminals : Array (List Item)

namespace Chart

/-- What remains to be done for a column: an item in front of its position, or
one behind it. -/
inductive Task
  | before (i : Item)
  | behind (i : Item)
deriving DecidableEq, Hashable

/-- A column in the making, with the tasks that remain and all there ever were. -/
structure Progress where
  rules : Array (List Item)
  terminals : Array (List Item)
  tasks : List Task
  seen : Std.HashSet Task

def Progress.add (p : Progress) (t : Task) : Progress :=
  if p.seen.contains t then p else { p with tasks := t :: p.tasks, seen := p.seen.insert t }

/-- The items that wait for a rule at a place. -/
def waiting (chart : Array Column) (place rule : Nat) : List Item :=
  match chart[place]? with
  | some c => (c.rules[rule]?).getD []
  | none => []

/-- An item in front of its position: it waits for a terminal, or for a rule, which
begins here if nothing has waited for it before. -/
def before (net : Network) (here : Nat) (i : Item) (p : Progress) : Progress :=
  match (net.positions[i.position]?).map Position.symbol with
  | some (.terminal t) => { p with terminals := p.terminals.modify t (i :: ·) }
  | some (.rule r) =>
    let isFirst := ((p.rules[r]?).map List.isEmpty).getD false
    let p := { p with rules := p.rules.modify r (i :: ·) }
    if isFirst then
      ((net.firsts[r]?).getD []).foldl (fun p n => p.add (.before ⟨n, here⟩)) p
    else p
  | none => p

/-- An item behind its position: it goes on to the next ones, and where its rule can
end, so do the items that waited for the rule. -/
def behind (net : Network) (chart : Array Column) (i : Item) (p : Progress) : Progress :=
  match net.positions[i.position]? with
  | some n =>
    let p := n.next.foldl (fun p m => p.add (.before ⟨m, i.origin⟩)) p
    if n.isLast then
      (waiting chart i.origin n.rule).foldl (fun p w => p.add (.behind w)) p
    else p
  | none => p

/-- Does the tasks, at most `n` of them. -/
def work (net : Network) (chart : Array Column) : Nat → Progress → Progress
  | 0, p => p
  | n + 1, p =>
    match p.tasks with
    | [] => p
    | .before i :: ts => work net chart n (before net chart.size i { p with tasks := ts })
    | .behind i :: ts => work net chart n (behind net chart i { p with tasks := ts })

/-- The column that follows a chart and begins with these tasks. Each position
has two tasks for each place of the code up to here. -/
def column (net : Network) (chart : Array Column) (tasks : List Task) : Column :=
  let empty : Progress :=
    ⟨Array.replicate net.firsts.size [], Array.replicate net.terminals.size [], [], ∅⟩
  let p := work net chart (2 * net.positions.size * (chart.size + 1)) (tasks.foldl .add empty)
  ⟨p.rules, p.terminals⟩

/-- The column in which the first rule of a network begins. -/
def start (net : Network) : Column :=
  column net #[] (((net.firsts[0]?).getD []).map fun n => .before ⟨n, 0⟩)

/-- The column behind a terminal that the last column of a chart is in front of. -/
def advance (net : Network) (chart : Array Column) (t : Terminal) : Column :=
  match chart.back? with
  | some c => column net chart (((c.terminals[net.terminals.idxOf t]?).getD []).map .behind)
  | none => start net

def expected (net : Network) (c : Column) : List Terminal :=
  (net.terminals.toList.zip c.terminals.toList).filterMap fun x =>
    if x.2.isEmpty then none else some x.1

end Chart
end Letterhead.Php
