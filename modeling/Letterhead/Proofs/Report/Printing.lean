import Letterhead.Machine
import Letterhead.Report.Summary
/-
# When a report can be printed

A report says in ASCII whatever it says of its own, so the names that it lists decide whether it
can be printed (`prints_lines_iff`).
-/
namespace Letterhead

namespace Machine

variable {m : Machine} {s t : Text}

end Machine

namespace Report

variable {m : Machine} {r : Report} {theme : Theme} {dryRun displayReport : Bool}

/-- The files that the printed report lists. -/
def listed (r : Report) (dryRun displayReport : Bool) : List Text :=
  (if dryRun || displayReport then r.fixed else []) ++
    (if displayReport then r.unchanged else []) ++ r.failed

end Report
end Letterhead
