import Letterhead.Text.Basic
import Letterhead.Text.HiddenTable
/-
# Quoted texts

How a text is shown inside a message: in single quotes, or in double quotes
when it holds a single quote and no double one, with everything that has no
visible form written as an escape.
-/
namespace Letterhead.Text

/-- Whether a character has a visible form of its own. -/
def isVisible (c : Char) : Bool :=
  let n := c.toNat
  if n < 0x7F then 0x20 ≤ n
  else
    let ranges := if n < HiddenTable.middle then HiddenTable.lower else HiddenTable.upper
    !ranges.any fun r => r.1 ≤ n && n ≤ r.2

def quoteChar (quote c : Char) : Text :=
  let n := c.toNat
  if c = '\\' || c = quote then ['\\', c]
  else if c = '\n' then ['\\', 'n']
  else if c = '\r' then ['\\', 'r']
  else if c = '\t' then ['\\', 't']
  else if isVisible c then [c]
  else if n < 0x100 then '\\' :: 'x' :: ofNatPadded 16 2 n
  else if n < 0x10000 then '\\' :: 'u' :: ofNatPadded 16 4 n
  else '\\' :: 'U' :: ofNatPadded 16 8 n

/-- The quote that a text is shown in. -/
def quoteMark (s : Text) : Char :=
  if s.contains '\'' && !s.contains '"' then '"' else '\''

/-- The text in quotes. -/
def quoted (s : Text) : Text :=
  let quote := quoteMark s
  quote :: (s.flatMap (quoteChar quote) ++ [quote])

end Letterhead.Text
