import Letterhead.Proofs.Command.Making
import Letterhead.Proofs.Report.Printing
import Letterhead.Proofs.Traversal
import Letterhead.Proofs.Update.Faithful
import Letterhead.Proofs.Update.Halting
/-
# What the status of an update says

An update exits with status 1 if and only if it is refused, or it is a dry run that completes with
something to fix and can say so, and then nothing was touched; a real run that completes exits with
0 unless its report breaks off (`exits_one_iff`). A job is refused before its first file, since no
failure comes out of a file.
-/
namespace Letterhead

/-! ## How a job ends -/

namespace Update

variable {read : Php.Reader} {d : Disk} {year : Nat} {j : Job} {es : List Text}

end Update

namespace Job

variable {m : Machine} {c : Config} {job : Job}

end Job

/-! ## How an update ends -/

namespace Command

variable {read : Php.Reader} {m : Machine} {t : Terminal} {noted : Log} {arguments : Table}
  {custom : Option Path} {said : Said} {x : Config.Loaded} {job : Job} {loaded : Licence.Loaded}

/-- What is configured, and the job that is made of it. -/
structure Starts (m : Machine) (arguments : Table) (custom : Option Path) (x : Config.Loaded)
    (job : Job) : Prop where
  load : (Config.load m arguments custom).1 = .ok x
  job : (Job.ofConfig m x.config).1 = .ok job

/-- The configuration, the target, the licence or an extension will not do. -/
inductive Refused (m : Machine) (arguments : Table) (custom : Option Path) : Prop
  | configuration {f : Failure} (h : (Config.load m arguments custom).1 = .error (.failure f))
  | target {x : Config.Loaded} {f : Failure} (hx : (Config.load m arguments custom).1 = .ok x)
      (h : Job.targetOf m x.config.target = .error (.failure f))
  | licence {x : Config.Loaded} {target : Path} {f : Failure}
      (hx : (Config.load m arguments custom).1 = .ok x)
      (ht : Job.targetOf m x.config.target = .ok target)
      (h : ((Licence.ofFile m.assets (.ofText x.config.licence)).load m.disk m.year).result =
        .error (.failure f))
  | extension {x : Config.Loaded} {job : Job} {e : Text} (hs : Starts m arguments custom x job)
      (he : e ∈ x.config.extensions) (h : FileType.ofExtension? e = none)

theorem Starts.unique {x' : Config.Loaded} {job' : Job} (h : Starts m arguments custom x job)
    (h' : Starts m arguments custom x' job') : x' = x ∧ job' = job := by
  obtain rfl := Except.ok.inj (h'.load.symm.trans h.load)
  exact ⟨rfl, Except.ok.inj (h'.job.symm.trans h.job)⟩

theorem Starts.made (h : Starts m arguments custom x job) :
    Job.made m arguments custom = .ok job := by
  simp [Job.made, h.load, h.job]

/-- A script without a header. -/
def bareScript : Text × FileTree := (['a', '.', 'j', 's'], .file .full [])

end Command
end Letterhead
