import Letterhead.Config.Load
import Letterhead.Licence.Basic
import Letterhead.Finder.Basic
/-
# The job

What an update is to do. A job is made of a configuration only if its target
and its licence are there, so that nothing is touched when they are not.
-/
namespace Letterhead

/-- An update to be done (`UpdateContext`). -/
structure Job where
  target : Path
  licence : Licence
  extensions : List Text
  excludes : List Text
  notNames : List Text
  marker : Text
  dryRun : Bool
  silent : Bool

namespace Job

def finder (j : Job) : Finder := .ofTexts j.target j.excludes j.notNames

/-- Why the home folder in front of a path is not known. -/
def homeCrash (p : Path) : Crash :=
  if (p.names.headD []).contains '\x00' then .nullInName else .unknownHome

/-- The folder of the target, without links and dots, if it can be read. -/
def targetOf (m : Machine) (target : Text) : Except Halt Path :=
  match m.expandHome (.ofText target) with
  | none => .error (.crash (homeCrash (.ofText target)))
  | some p => match m.disk.isFolder p with
    | .error e => .error (.crash (.path e))
    | .ok isFolder =>
      if isFolder && m.disk.mayRead p then .ok (m.disk.resolve p)
      else .error (.failure (.targetNotFound target))

/-- The job of a configuration (`UpdateContext.from_global_config`), with its licence
loaded. -/
def ofConfig (m : Machine) (c : Config) : Except Halt Job × Log :=
  match targetOf m c.target with
  | .error h => (.error h, [])
  | .ok target =>
    let a := (Licence.ofFile m.assets (.ofText c.licence)).load m.disk m.year
    (a.result.map fun _ =>
      ⟨target, a.licence, c.extensions, c.exclude, c.notName, c.marker, c.dryRun, c.silent⟩,
     a.log)

end Job
end Letterhead
