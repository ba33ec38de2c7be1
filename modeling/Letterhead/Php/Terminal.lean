import Letterhead.Text.Basic
/-
# Terminals

What a grammar of PHP can ask for at a place of the code. Which of them a text
begins with depends on the place: a word is a keyword only where that keyword
can stand, and a name everywhere else.

Part of the stand-in parser (`Php.Tree`), on which no result rests.
-/
namespace Letterhead.Php

/-- The quotes that can hold parts of code. -/
inductive Quote
  | double
  | backtick
  /-- A document, which ends with a line that leads with its label. -/
  | document
deriving DecidableEq, Repr

/-- What a place of the grammar asks for. -/
inductive Terminal
  /-- A word, in any case. -/
  | keyword (w : Text)
  /-- A word, as it stands. -/
  | word (w : Text)
  | name
  /-- An operator, a bracket or a quote. -/
  | mark (m : Text)
  | integer
  | float
  /-- A text in single quotes. -/
  | plainText
  /-- A document whose label stands in single quotes. -/
  | plainDocument
  /-- A double quote that opens. -/
  | openQuote
  /-- The label of a document that can hold parts of code. -/
  | openDocument
  /-- A line of its own with the label of the open document. -/
  | closeDocument
  /-- Nothing, at the end of a line. -/
  | lineEnd
  /-- Text between quotes, up to the next part of code. -/
  | stretch (q : Quote)
  /-- The bracket right behind a variable between quotes. -/
  | index
  /-- The arrow right behind a variable between quotes, with a name behind it. -/
  | member
  /-- Nothing, where the code ends next and a statement with it. -/
  | stopAhead
  /-- Nothing, at the end of the text. -/
  | endOfText
deriving DecidableEq, Repr

end Letterhead.Php
