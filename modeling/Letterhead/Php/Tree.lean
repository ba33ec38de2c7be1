import Letterhead.Php.Node
import Letterhead.Php.Lexer
import Letterhead.Php.Grammar
import Letterhead.Php.Chart
/-
# The tree of a file

A parser for the program to run with (`Main`). It stands in for the grammar library that the
program relies on, which is not part of it; what is proved of the program is proved for any
`Reader`, and rests on nothing below. The same holds of the modules `Terminal`, `Production`,
`Network`, `Lexer`, `Chart` and `Grammar`.

Only the top of the tree is told apart: the open tag, the comments behind it
and one node for the rest. The tree is flagged when the grammar does not take
all of the code.
-/
namespace Letterhead.Php

def network : Network := .ofRules Rule.rules Rule.definition

/-- Whether reading can end behind a place, in at most `n` terminals, where no more
than `n` characters are left. The chart has a column for each terminal up to the
place, the last one for what comes next. -/
def endsBehind : Nat → Place → Array Column → Bool
  | 0, _, _ => false
  | n + 1, p, chart =>
    match Lexer.cut? n ((chart.back?.map (Chart.expected network)).getD []) p with
    | none => false
    | some (.endOfText, _) => true
    | some (t, q) => endsBehind n q (chart.push (Chart.advance network chart t))

/-- Whether statements make up all of the code. Of two terminals in a row one takes
a character at least. -/
def accepts (code : Text) : Bool :=
  endsBehind (2 * code.length + 2) ⟨code, []⟩ #[Chart.start network]

/-- The comments that code begins with, by the characters left before and behind
each, where at most `n` blanks and comments are passed over. -/
def leadingCuts : Nat → Text → List (Nat × Nat)
  | 0, _ => []
  | _ + 1, [] => []
  | n + 1, c :: s =>
    if Lexer.isSpace c then leadingCuts n s
    else if "#[".toList.isPrefixOf (c :: s) then []
    else match Lexer.commentSize? (c :: s) with
      | some size =>
        let left := s.length + 1
        (left, left - size) :: leadingCuts n ((c :: s).drop size)
      | none => []

/-- A node without children that lies between two numbers of characters left. -/
def leafOf (content : Text) (kind : NodeKind) (cut : Nat × Nat) : Node :=
  let bytesBefore (left : Nat) : Nat := Text.Utf8.size (content.take (content.length - left))
  .mk kind (bytesBefore cut.1) (bytesBefore cut.2) 0 false false []

/-- What is left of a text in front of its first open tag or other text: a byte
order mark at the start is passed over, and blanks. -/
def topOf (content : Text) : Text :=
  (match content with
    | '\uFEFF' :: s => s
    | s => s).dropWhile Lexer.isPlainBlank

/-- The tree of a file. Text in front of the first open tag is a node of its own. -/
def parse (content : Text) : Node :=
  let size := Text.Utf8.size content
  let top := topOf content
  let startsInCode := (Lexer.openTagSize? top).isSome
  let code := top.drop (Lexer.outsideSize top)
  let cuts := leadingCuts (code.length + 1) code
  let comments := cuts.map (leafOf content .comment)
  let behind := (cuts.getLast?.map (·.2)).getD code.length
  let rest := if behind = 0 then [] else [leafOf content .other (behind, 0)]
  let outside := if startsInCode || top.isEmpty then []
    else [leafOf content .other (top.length, code.length)]
  let tag := if startsInCode then [leafOf content .openTag (top.length, code.length)] else []
  .mk .other 0 size 0 (!accepts code) false (outside ++ tag ++ comments ++ rest)

/-- The leading comments of a file, told by its tree. -/
def read : Reader := fun content => leadingComments content (parse content)

end Letterhead.Php
