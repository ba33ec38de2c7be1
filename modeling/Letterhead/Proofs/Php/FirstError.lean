import Letterhead.Php.Node
/-
# The line of the first error

The line of an error is found by going down from the root, from each node to the first child that
is flagged. Where the flags are true this leads to the first error of the tree in document order:
it passes no error over, and it ends at no node that is none (`first_error_is_reported`).
-/
namespace Letterhead.Php

namespace Node

/-- A node that is an error itself, or was supplied for lack of a token. -/
def isFault (n : Node) : Bool := n.kind = .error || n.isMissing

mutual

/-- The nodes of a tree in document order: a node comes in front of all that is below it. -/
def preorder : Node → List Node
  | mk kind startByte endByte row hasError isMissing children =>
    mk kind startByte endByte row hasError isMissing children :: preorderOf children

/-- The nodes of trees that stand side by side. -/
def preorderOf : List Node → List Node
  | [] => []
  | n :: ns => preorder n ++ preorderOf ns

end

/-- The flags of nodes are true: a node is flagged if it is an error itself, was supplied, or has
a child that is flagged, and only then. -/
def TrulyFlagged (nodes : List Node) : Prop :=
  ∀ n ∈ nodes, n.hasError = (n.isFault || n.children.any hasError)

instance (nodes : List Node) : Decidable (TrulyFlagged nodes) :=
  inferInstanceAs (Decidable (∀ n ∈ nodes, n.hasError = (n.isFault || n.children.any hasError)))

theorem isSome_firstFlaggedLine? (ns : List Node) :
    (firstFlaggedLine? ns).isSome = ns.any hasError := by
  induction ns with
  | nil => rfl
  | cons n ns ih =>
    rw [firstFlaggedLine?, List.any_cons]
    cases n.hasError with
    | true => rfl
    | false => simpa using ih

theorem firstErrorLine_of_fault {n : Node} (h : n.isFault = true) :
    n.firstErrorLine = n.row + 1 := by
  cases n
  exact if_pos h

theorem firstErrorLine_of_not_fault {n : Node} (h : n.isFault = false) :
    n.firstErrorLine = (firstFlaggedLine? n.children).getD (n.row + 1) := by
  cases n
  exact if_neg (Bool.eq_false_iff.1 h)

/-! ## Down the flags -/

/-- One step down: a node that is no fault passes the search on to its children. -/
theorem find?_cons_preorderOf {n : Node}
    (hflag : n.hasError = (n.isFault || n.children.any hasError))
    (hchildren : ((preorderOf n.children).find? isFault).map (fun m => m.row + 1) =
      firstFlaggedLine? n.children) :
    ((n :: preorderOf n.children).find? isFault).map (fun m => m.row + 1) =
      if n.hasError then some n.firstErrorLine else none := by
  cases hfault : n.isFault with
  | true =>
    rw [hflag, hfault, Bool.true_or, if_pos rfl, List.find?_cons_of_pos hfault,
      firstErrorLine_of_fault hfault, Option.map_some]
  | false =>
    rw [hflag, hfault, Bool.false_or, List.find?_cons_of_neg (by simp [hfault]), hchildren,
      firstErrorLine_of_not_fault hfault, ← isSome_firstFlaggedLine?]
    cases firstFlaggedLine? n.children <;> rfl

mutual

/-- In a tree that is flagged the way down ends at the first error, and in one that is not there
is none. -/
theorem find?_preorder : ∀ n : Node, TrulyFlagged n.preorder →
    (n.preorder.find? isFault).map (fun m => m.row + 1) =
      if n.hasError then some n.firstErrorLine else none
  | mk _ _ _ _ _ _ children, h => by
    obtain ⟨hflag, hbelow⟩ := List.forall_mem_cons.1 h
    exact find?_cons_preorderOf hflag (find?_preorderOf children hbelow)

/-- Of trees side by side the first that is flagged has the first error. -/
theorem find?_preorderOf : ∀ ns : List Node, TrulyFlagged (preorderOf ns) →
    ((preorderOf ns).find? isFault).map (fun m => m.row + 1) = firstFlaggedLine? ns
  | [], _ => rfl
  | n :: ns, h => by
    obtain ⟨hfirst, hrest⟩ := List.forall_mem_append.1 h
    rw [preorderOf, List.find?_append, Option.map_or, find?_preorder n hfirst,
      find?_preorderOf ns hrest, firstFlaggedLine?]
    cases n.hasError <;> rfl

end

end Node

open Node

/-- In a tree with true flags that is flagged there is an error, and the line that is reported is
that of the first one in document order: the line, counted from one, on which the first node starts
that is an error or was supplied for lack of a token. It is the line of the fault that stands for
the leading comments of the file. -/
theorem first_error_is_reported {root : Node} (hflags : TrulyFlagged root.preorder)
    (hroot : root.hasError = true) :
    ∃ before n after, root.preorder = before ++ n :: after ∧ n.isFault = true ∧
      (∀ m ∈ before, m.isFault = false) ∧ root.firstErrorLine = n.row + 1 ∧
      ∀ content, leadingComments content root = .error (.syntaxError (n.row + 1)) := by
  have hfind := find?_preorder root hflags
  rw [if_pos hroot, Option.map_eq_some_iff] at hfind
  obtain ⟨n, hn, hline⟩ := hfind
  obtain ⟨hfault, before, after, hcut, hbefore⟩ := List.find?_eq_some_iff_append.1 hn
  refine ⟨before, n, after, hcut, hfault, fun m hm => by simpa using hbefore m hm, hline.symm, ?_⟩
  intro content
  rw [leadingComments, if_pos hroot, hline]

/-- A tree with two errors, the first of them a token that is missing two levels down, behind
nodes without errors and below nodes that are none themselves. -/
def brokenTree : Node :=
  .mk .other 0 40 0 true false
    [.mk .openTag 0 5 0 false false [],
      .mk .other 6 20 1 true false
        [.mk .other 6 10 1 false false [], .mk .other 11 20 2 true false
          [.mk .other 11 12 2 false false [], .mk .other 12 12 3 true true []]],
      .mk .error 21 40 4 true false []]

theorem first_error_is_reported_brokenTree :
    TrulyFlagged brokenTree.preorder ∧ brokenTree.hasError = true ∧
    (∃ before n after, brokenTree.preorder = before ++ n :: after ∧ n.isFault = true ∧
      (∀ m ∈ before, m.isFault = false) ∧ 4 = n.row + 1) ∧
    leadingComments [] brokenTree = .error (.syntaxError 4) := by
  have hflags : TrulyFlagged brokenTree.preorder := by decide +kernel
  have hroot : brokenTree.hasError = true := rfl
  have hline : brokenTree.firstErrorLine = 4 := by decide +kernel
  obtain ⟨before, n, after, hcut, hfault, hbefore, hfirst, hread⟩ :=
    first_error_is_reported hflags hroot
  rw [hline] at hfirst
  refine ⟨hflags, hroot, ⟨before, n, after, hcut, hfault, hbefore, hfirst⟩, ?_⟩
  rw [hread [], ← hfirst]

end Letterhead.Php
