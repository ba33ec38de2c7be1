import Letterhead.Report.Basic
import Letterhead.Report.Theme
/-
# The printed report

The last thing a run prints: the lists that were asked for or that matter, and
one line of counts.
-/
namespace Letterhead.Report

def line (s : Text) : Text := s ++ ['\n']

/-- A titled list of files (`_print_files`), or nothing where there are none. -/
def titled (theme : Theme) (tone : Tone) (title : String) (files : List Text) : List Text :=
  if files.isEmpty then []
  else theme.paint tone (' ' :: title.toList) :: files.map fun id => ' ' :: '*' :: ' ' :: id

/-- The line of counts. -/
def counts (r : Report) (theme : Theme) (dryRun : Bool) : Text :=
  let verb := if dryRun then " to fix".toList else " fixed".toList
  theme.paint .primary " Summary: ".toList ++
    theme.paint .value (Text.ofNat (r.count .fixed) ++ verb) ++ ", ".toList ++
    Text.ofNat (r.count .unchanged) ++ " unchanged, ".toList ++
    theme.paint (if r.failed.isEmpty then .value else .warn)
      (Text.ofNat (r.count .failed) ++ " failed".toList)

/-- The lines of the printed report (`render_report`). -/
def lines (r : Report) (theme : Theme) (dryRun displayReport : Bool) : List Text :=
  let headers :=
    if dryRun then
      if r.fixed.isEmpty then [theme.paint .success " All license headers are up to date.".toList]
      else titled theme .error "Files with bad license headers:" r.fixed
    else if displayReport then titled theme .label "Fixed files:" r.fixed
    else []
  let valid :=
    if displayReport then titled theme .muted "Files with a valid license header:" r.unchanged
    else []
  let failed := titled theme .warn "Files that could not be processed:" r.failed
  [] :: headers ++ valid ++ failed ++ [r.counts theme dryRun]

def summary (r : Report) (theme : Theme) (dryRun displayReport : Bool) : Text :=
  (r.lines theme dryRun displayReport).flatMap line

end Letterhead.Report
