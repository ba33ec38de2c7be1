import Letterhead.Update.Job
import Letterhead.Manifest
import Letterhead.Report.Basic
/-
# Processing one file

A session is an update under way. A file that cannot be processed is recorded
as failed and the update goes on; what no one has provided for halts it.
-/
namespace Letterhead

/-- One extension in the display of progress. -/
structure Task where
  title : Text
  total : Nat
  advanced : Nat
deriving DecidableEq, Repr

/-- An update under way. -/
structure Session where
  disk : Disk
  licence : Licence
  report : Report
  /-- The files that were come upon, for whatever extension. -/
  handled : List RelPath
  log : Log
  progress : List Task

namespace Session

def start (d : Disk) (l : Licence) : Session := ⟨d, l, .empty, [], [], []⟩

/-- A session, and why it does not go on if it does not. -/
abbrev Step := Session × Option Halt

/-- Goes on unless the session has halted. -/
def Step.andThen (x : Step) (f : Session → Step) : Step :=
  match x with
  | (s, none) => f s
  | (s, some h) => (s, some h)

def say (s : Session) (log : Log) : Session := { s with log := s.log ++ log }

/-- Records what became of a file. -/
def record (s : Session) (o : Outcome) (file : RelPath) : Session :=
  { s with report := s.report.record o file.id }.say [.debug (Report.note o file.id)]

def fail (s : Session) (file : RelPath) (warning : Text) : Session :=
  (s.say [.warning warning]).record .failed file

/-- What is done to the files of a type. -/
inductive Treatment
  | stamp (stamp : Stamp)
  | patch

/-- The notes that detection gives rise to. -/
def detectionNotes (marker : Text) : Except Php.Fault Detection → Log
  | .ok (.foreign _ .behindOpenTag) =>
    [.debug ("Leading PHP comment does not contain ".toList ++ Text.quoted marker ++
      ", keeping it".toList)]
  | .error (.syntaxError line) =>
    [.debug ("PHP syntax error near line ".toList ++ Text.ofNat line)]
  | _ => []

/-- What a fault of a syntax tree is to a run. -/
def treeHalt : Php.Fault → Halt
  | .syntaxError line => .failure (.brokenSource line)
  | .splitCharacter f => .crash (.undecodable f)

/-- The new text of a file. For a manifest (`UpdatePipeline._patch_manifest`) the licence is
loaded if it is not yet. -/
def treat (s : Session) (year : Nat) (t : Treatment) (old : Text) :
    Session × Except Halt Points :=
  match t with
  | .stamp stamp =>
    let detection := stamp.detect old
    (s.say (detectionNotes stamp.marker detection),
      match detection with
      | .ok d => .ok (Text.toPoints (stamp.applyTo old d))
      | .error e => .error (treeHalt e))
  | .patch =>
    let a := s.licence.load s.disk year
    ({ s with licence := a.licence }.say a.log,
      match a.result with
      | .error h => .error h
      | .ok loaded => (Manifest.patch loaded.source.text (Text.toPoints old)).mapError
          Manifest.Fault.halt)

/-- The warning for a halt that concerns no more than one file, if it is one. -/
def warningOf? (file : RelPath) (h : Halt) : Option Text :=
  let notProcessed (reason : Text) : Text :=
    "Could not process ".toList ++ file.id ++ ": ".toList ++ reason ++ ". Continue ...".toList
  match h with
  | .failure f => match f.kind with
    | .brokenSource => some ("Syntax error on file ".toList ++ file.id ++ ". Continue ...".toList)
    | .encoding => some (notProcessed f.message)
    | _ => none
  | .crash (.undecodable f) => some (notProcessed f.message)
  | .crash (.path f) => some (notProcessed f.message)
  | .crash _ => none

/-- Goes on after a halt that concerns one file, and halts at any other. -/
def recover (s : Session) (file : RelPath) (h : Halt) : Step :=
  match warningOf? file h with
  | some warning => (s.fail file warning, none)
  | none => (s, some h)

def readText (d : Disk) (p : Path) : Except Halt Text :=
  match d.read p with
  | .error e => .error (.crash (.path e))
  | .ok bytes => (Text.Utf8.decode bytes).mapError fun f => .crash (.undecodable f)

/-- Writes the new text of a file. The file is opened before the text is encoded,
so that a text without encoding leaves the file empty. -/
def writeText (s : Session) (file : RelPath) (p : Path) (new : Points) : Step :=
  let encoding := (Text.ofPoints? new).map Text.Utf8.encode
  match s.disk.write p (encoding.getD []) with
  | .error e =>
    (s.fail file ("Could not write ".toList ++ file.id ++ ": ".toList ++ e.message ++
      ". Continue ...".toList), none)
  | .ok d =>
    let s := { s with disk := d }
    match encoding with
    | some _ => (s.record .fixed file, none)
    | none => (s, some (.crash .unencodable))

/-- Processes a file (`UpdatePipeline._process_file`). -/
def processFile (j : Job) (year : Nat) (t : Treatment) (s : Session) (file : RelPath) : Step :=
  let p := j.target.join ⟨.here, file⟩
  match readText s.disk p with
  | .error h => s.recover file h
  | .ok old =>
    let (s, result) := s.treat year t old
    match result with
    | .error h => s.recover file h
    | .ok new =>
      if new = Text.toPoints old then (s.record .unchanged file, none)
      else if j.dryRun then (s.record .fixed file, none)
      else s.writeText file p new

end Session
end Letterhead
