import Letterhead.Text.Utf8
import Letterhead.Comment.Pattern
/-
# Syntax trees and leading comments

A PHP file is read as a syntax tree whose nodes are placed by bytes. The
comments that lead the first statement are the first children of the root,
behind the open tag; they are reported by characters.
-/
namespace Letterhead.Php

/-- What the library tells apart among the nodes of a tree. -/
inductive NodeKind
  | openTag | comment | error | other
deriving DecidableEq, Repr

/-- A node: its bytes, the line it starts on counted from zero, whether an error
lies in it, whether it was supplied for lack of a token, and its children. -/
inductive Node
  | mk (kind : NodeKind) (startByte endByte row : Nat) (hasError isMissing : Bool)
      (children : List Node)

namespace Node

def kind : Node → NodeKind | mk k _ _ _ _ _ _ => k
def startByte : Node → Nat | mk _ b _ _ _ _ _ => b
def endByte : Node → Nat | mk _ _ b _ _ _ _ => b
def row : Node → Nat | mk _ _ _ r _ _ _ => r
def hasError : Node → Bool | mk _ _ _ _ e _ _ => e
def isMissing : Node → Bool | mk _ _ _ _ _ m _ => m
def children : Node → List Node | mk _ _ _ _ _ _ cs => cs

mutual

/-- The line of the first error (`_first_error_line`), counted from one: the node itself
where it is one, or else the first child that is flagged. -/
def firstErrorLine : Node → Nat
  | mk kind _ _ row _ missing children =>
    if kind = NodeKind.error || missing then row + 1
    else (firstFlaggedLine? children).getD (row + 1)

/-- The line of the first error in the first flagged node of a list. -/
def firstFlaggedLine? : List Node → Option Nat
  | [] => none
  | n :: ns => if n.hasError then some (firstErrorLine n) else firstFlaggedLine? ns

end

end Node

/-- Why the leading comments of a file cannot be told. -/
inductive Fault
  /-- The tree has an error, the first one near this line. -/
  | syntaxError (line : Nat)
  /-- A node begins or ends inside a character. -/
  | splitCharacter (fault : Text.Utf8.Fault)
deriving DecidableEq, Repr

/-- A comment and where it stands, by characters (`LeadingComment`). -/
structure Comment where
  text : Text
  span : Span
deriving DecidableEq, Repr

/-- What tells the leading comments of a file. -/
abbrev Reader := Text → Except Fault (List Comment)

/-- The number of characters in the first bytes (`_char_offset`). -/
def charOffset (bytes : Text.Utf8.Bytes) (offset : Nat) : Except Fault Nat :=
  match Text.Utf8.decode (bytes.take offset) with
  | .ok s => .ok s.length
  | .error f => .error (.splitCharacter f)

/-- A comment node by characters. -/
def commentOf (content : Text) (bytes : Text.Utf8.Bytes) (n : Node) : Except Fault Comment := do
  let start ← charOffset bytes n.startByte
  let stop ← charOffset bytes n.endByte
  return ⟨(Span.mk start stop).of content, ⟨start, stop⟩⟩

/-- The comment nodes a list of siblings begins with, past an open tag. -/
def leadingNodes (siblings : List Node) : List Node :=
  let behindTag := match siblings with
    | n :: ns => if n.kind = NodeKind.openTag then ns else n :: ns
    | [] => []
  behindTag.takeWhile fun n => n.kind = NodeKind.comment

/-- The comments that lead the first statement of a file with this tree
(`PhpParser.leading_comments`). -/
def leadingComments (content : Text) (root : Node) : Except Fault (List Comment) :=
  if root.hasError then .error (.syntaxError root.firstErrorLine)
  else (leadingNodes root.children).mapM (commentOf content (Text.Utf8.encode content))

end Letterhead.Php
