import Letterhead.Failure
/-
# Messages

What a run says on the way. Every message has a level, and the console shows
those that matter enough.
-/
namespace Letterhead

/-- How much a message matters. -/
inductive Level
  | debug | info | warning | error
deriving DecidableEq, Repr

structure Message where
  level : Level
  text : Text
deriving DecidableEq, Repr

abbrev Log := List Message

def Message.debug (text : Text) : Message := ⟨.debug, text⟩

def Message.warning (text : Text) : Message := ⟨.warning, text⟩

/-- How much the console shows. -/
inductive Console
  | nothing
  | normal
  | everything
deriving DecidableEq, Repr

namespace Console

/-- The console of a configuration (`setup_logger`). -/
def ofFlags (verbose silent : Bool) : Console :=
  if silent then nothing else if verbose then everything else normal

def shows (c : Console) (level : Level) : Bool :=
  match c with
  | nothing => false
  | normal => level != .debug
  | everything => true

/-- The texts that the console shows; a line end at the end of a text is left out. -/
def lines (c : Console) (log : Log) : List Text :=
  (log.filter fun m => c.shows m.level).map fun m =>
    (m.text.reverse.dropWhile (· == '\n')).reverse

end Console

/-- What is said of a failure: its message, and its details to those who look for them. -/
def Failure.announcement (f : Failure) : Log :=
  ⟨.error, "Error: ".toList ++ f.message⟩ ::
    match f.details with
    | some details => if details.isEmpty then [] else [.debug ("Details: ".toList ++ details)]
    | none => []

/-- How a run that halted ends. -/
inductive Ending
  | exit (status : Nat)
  | raised (h : Halt)
deriving DecidableEq, Repr

/-- Ends a run that halted (`handle_headerstamp_exception`): a failure is announced, and may
be answered by the exit status; a crash is passed on. -/
def Halt.settle (exitOnFail : Bool) : Halt → Log × Ending
  | .failure f =>
    (f.announcement, if exitOnFail then .exit 1 else .raised (.failure f))
  | .crash c => ([], .raised (.crash c))

end Letterhead
