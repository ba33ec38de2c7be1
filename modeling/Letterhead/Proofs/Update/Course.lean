import Letterhead.Proofs.Disk.Outline
import Letterhead.Update.Run
/-
# The course of a run

A run without what it says and shows: files are visited one after the other, and a visit
reads one file, and writes it or halts. `Deed` lists what a visit can come to, and every
invariant of a run is read off that list.
-/
namespace Letterhead

open Text (toPoints ofPoints?)
open Text.Utf8 (Bytes encode decode)

namespace Update

/-- What a run goes by once its licence is loaded. -/
structure Setup where
  read : Php.Reader
  marker : Text
  licence : Licence.Loaded
  target : Path
  dryRun : Bool

/-- A file that is processed as one of a type. -/
structure Visit where
  fileType : FileType
  file : RelPath
deriving DecidableEq

/-- A stretch of a run: the disk that it leaves, what became of files, and why the run
does not go on if it does not. -/
structure Course where
  disk : Disk
  ledger : List (RelPath × Outcome)
  halt : Option Halt

/-- Goes on from the disk that is left, unless the run has halted. -/
def Course.andThen (c : Course) (f : Disk → Course) : Course :=
  match c.halt with
  | none => ⟨(f c.disk).disk, c.ledger ++ (f c.disk).ledger, (f c.disk).halt⟩
  | some _ => c

namespace Setup

/-- The path of a file that is visited. -/
def path (x : Setup) (v : Visit) : Path := x.target.join ⟨.here, v.file⟩

/-- The new text of a file of a type. -/
def newText (x : Setup) (t : FileType) (old : Text) : Except Halt Points :=
  if t = .json then
    (Manifest.patch x.licence.source.text (toPoints old)).mapError Manifest.Fault.halt
  else match (Stamp.ofLicence x.read x.marker x.licence.text t).apply old with
    | .ok new => .ok (toPoints new)
    | .error e => .error (Session.treeHalt e)

/-- A file that is not processed, or a halt where it is no matter of one file. -/
def settle (d : Disk) (file : RelPath) (h : Halt) : Course :=
  match Session.warningOf? file h with
  | some _ => ⟨d, [(file, .failed)], none⟩
  | none => ⟨d, [], some h⟩

/-- Writes the new text of a file. -/
def write (x : Setup) (v : Visit) (new : Points) (d : Disk) : Course :=
  let encoding := (ofPoints? new).map encode
  match d.write (x.path v) (encoding.getD []) with
  | .error _ => ⟨d, [(v.file, .failed)], none⟩
  | .ok d' => match encoding with
    | some _ => ⟨d', [(v.file, .fixed)], none⟩
    | none => ⟨d', [], some (.crash .unencodable)⟩

/-- Processes a file. -/
def visit (x : Setup) (v : Visit) (d : Disk) : Course :=
  match Session.readText d (x.path v) with
  | .error h => settle d v.file h
  | .ok old => match x.newText v.fileType old with
    | .error h => settle d v.file h
    | .ok new =>
      if new = toPoints old then ⟨d, [(v.file, .unchanged)], none⟩
      else if x.dryRun then ⟨d, [(v.file, .fixed)], none⟩
      else x.write v new d

/-- Processes files one after the other. -/
def perform (x : Setup) : List Visit → Disk → Course
  | [], d => ⟨d, [], none⟩
  | v :: vs, d => (x.visit v d).andThen (x.perform vs)

end Setup

/-- The files that are found for an extension and were not found before. -/
def newFiles (j : Job) (d : Disk) (k : Kind) (handled : List RelPath) : List RelPath :=
  (j.finder.find d k.extension).filter fun f => !handled.contains f

/-- The visits to files of a type: of the JSON files, to manifests only. -/
def visits (t : FileType) (files : List RelPath) : List Visit :=
  (files.filter (isCandidate t)).map (⟨t, ·⟩)

/-- The visits of a run, one search after the other. -/
def agenda (j : Job) (d : Disk) : List Kind → List RelPath → List Visit
  | [], _ => []
  | k :: ks, handled =>
    visits k.fileType (newFiles j d k handled) ++ agenda j d ks (handled ++ newFiles j d k handled)

end Update

/-! ## Errors with other words -/

section
variable {α ε ε' : Type}

@[simp] theorem mapError_ok (f : ε → ε') (a : α) :
    (Except.ok a : Except ε α).mapError f = .ok a := rfl

@[simp] theorem mapError_error (f : ε → ε') (e : ε) :
    (Except.error e : Except ε α).mapError f = .error (f e) := rfl

end

/-! ## Texts with and without an encoding -/

theorem Text.ofPoints?_toPoints (s : Text) : ofPoints? (toPoints s) = some s := by
  induction s with
  | nil => rfl
  | cons c s ih =>
    have : ofPoints? (toPoints s) = some s := ih
    simp only [ofPoints?, toPoints, List.map_cons, List.mapM_cons] at this ⊢
    rw [this]
    rfl

theorem Text.toPoints_injective : Function.Injective toPoints := fun s s' h => by
  have := congrArg Text.ofPoints? h
  rwa [Text.ofPoints?_toPoints, Text.ofPoints?_toPoints, Option.some.injEq] at this

theorem Text.eq_toPoints_of_ofPoints? {ps : Points} {s : Text} (h : ofPoints? ps = some s) :
    ps = toPoints s := by
  induction ps generalizing s with
  | nil =>
    obtain rfl : s = [] := by simpa [ofPoints?] using h.symm
    rfl
  | cons p ps ih =>
    simp only [ofPoints?, List.mapM_cons, Option.bind_eq_bind, Option.bind_eq_some_iff,
      Option.pure_def, Option.some.injEq] at h
    obtain ⟨c, hc, r, hr, rfl⟩ := h
    cases p with
    | surrogate n => cases hc
    | char e =>
      obtain rfl : e = c := Option.some.inj hc
      rw [ih hr]
      rfl

namespace Update

/-! ## Visits -/

namespace Setup

variable {x : Setup} {v : Visit} {d : Disk} {t : FileType} {old : Text} {file : RelPath} {h : Halt}

/-- A file that cannot be read is a matter of one file. -/
theorem settle_of_readText {p : Path} (hr : Session.readText d p = .error h) :
    settle d file h = ⟨d, [(file, .failed)], none⟩ := by
  unfold Session.readText at hr
  cases hp : d.read p with
  | error e =>
    simp only [hp, Except.error.injEq] at hr
    subst hr
    rfl
  | ok bytes =>
    rw [hp] at hr
    cases hd : decode bytes with
    | error f =>
      simp only [hd, mapError_error, Except.error.injEq] at hr
      subst hr
      rfl
    | ok s => simp [hd] at hr

/-- A text that has no new text is a matter of one file, unless an integer is too long. -/
theorem settle_of_newText (d : Disk) (file : RelPath) (hn : x.newText t old = .error h) :
    settle d file h = ⟨d, [(file, .failed)], none⟩ ∨
      t = .json ∧ h = .crash .hugeInteger ∧
        Manifest.patch x.licence.source.text (toPoints old) = .error .hugeInteger := by
  unfold newText at hn
  split at hn
  · next ht =>
    cases hp : Manifest.patch x.licence.source.text (toPoints old) with
    | ok new => simp [hp] at hn
    | error f =>
      simp only [hp, mapError_error, Except.error.injEq] at hn
      subst hn
      cases f with
      | hugeInteger => exact .inr ⟨ht, rfl, rfl⟩
      | invalid cause offset line column => exact .inl rfl
      | notObject kind => exact .inl rfl
  · cases hs : (Stamp.ofLicence x.read x.marker x.licence.text t).apply old with
    | ok new => simp [hs] at hn
    | error e =>
      simp only [hs, Except.error.injEq] at hn
      subst hn
      cases e <;> exact .inl rfl

/-- A new text is that of a patched manifest or of a stamped file. -/
theorem newText_cases {new : Points} (hn : x.newText t old = .ok new) :
    t = .json ∧ Manifest.patch x.licence.source.text (toPoints old) = .ok new ∨
      ∃ s, (Stamp.ofLicence x.read x.marker x.licence.text t).apply old = .ok s ∧
        new = toPoints s := by
  unfold newText at hn
  split at hn
  · next ht =>
    cases hp : Manifest.patch x.licence.source.text (toPoints old) with
    | ok patched => exact .inl ⟨ht, by simpa [hp] using hn⟩
    | error f => simp [hp] at hn
  · cases hs : (Stamp.ofLicence x.read x.marker x.licence.text t).apply old with
    | ok s => exact .inr ⟨s, rfl, by simpa [hs] using hn.symm⟩
    | error e => simp [hs] at hn

/-- Only of a manifest the new text may have no encoding. -/
theorem json_of_newText {new : Points} (hn : x.newText t old = .ok new)
    (he : ofPoints? new = none) :
    t = .json ∧ Manifest.patch x.licence.source.text (toPoints old) = .ok new := by
  refine (newText_cases hn).resolve_right ?_
  rintro ⟨s, -, rfl⟩
  simp [Text.ofPoints?_toPoints] at he

/-- What a visit can come to. -/
inductive Deed (x : Setup) (v : Visit) (d : Disk) : Course → Prop
  | unread {h : Halt} (hr : Session.readText d (x.path v) = .error h) :
      Deed x v d ⟨d, [(v.file, .failed)], none⟩
  | untreated {old : Text} {h : Halt} (hr : Session.readText d (x.path v) = .ok old)
      (hn : x.newText v.fileType old = .error h) (hh : h ≠ .crash .hugeInteger) :
      Deed x v d ⟨d, [(v.file, .failed)], none⟩
  | huge {old : Text} (hr : Session.readText d (x.path v) = .ok old) (ht : v.fileType = .json)
      (hn : Manifest.patch x.licence.source.text (toPoints old) = .error .hugeInteger) :
      Deed x v d ⟨d, [], some (.crash .hugeInteger)⟩
  | unchanged {old : Text} (hr : Session.readText d (x.path v) = .ok old)
      (hn : x.newText v.fileType old = .ok (toPoints old)) :
      Deed x v d ⟨d, [(v.file, .unchanged)], none⟩
  | dry {old : Text} {new : Points} (hr : Session.readText d (x.path v) = .ok old)
      (hn : x.newText v.fileType old = .ok new) (hne : new ≠ toPoints old)
      (hdry : x.dryRun = true) : Deed x v d ⟨d, [(v.file, .fixed)], none⟩
  | unwritten {old : Text} {new : Points} {bytes : Bytes} {e : PathFault}
      (hr : Session.readText d (x.path v) = .ok old)
      (hn : x.newText v.fileType old = .ok new) (hne : new ≠ toPoints old)
      (hdry : x.dryRun = false) (hw : d.write (x.path v) bytes = .error e) :
      Deed x v d ⟨d, [(v.file, .failed)], none⟩
  | written {old s : Text} {d' : Disk} (hr : Session.readText d (x.path v) = .ok old)
      (hn : x.newText v.fileType old = .ok (toPoints s)) (hne : toPoints s ≠ toPoints old)
      (hdry : x.dryRun = false) (hw : d.write (x.path v) (encode s) = .ok d') :
      Deed x v d ⟨d', [(v.file, .fixed)], none⟩
  | cut {old : Text} {new : Points} {d' : Disk}
      (hr : Session.readText d (x.path v) = .ok old) (ht : v.fileType = .json)
      (hn : Manifest.patch x.licence.source.text (toPoints old) = .ok new)
      (he : ofPoints? new = none) (hdry : x.dryRun = false)
      (hw : d.write (x.path v) [] = .ok d') :
      Deed x v d ⟨d', [], some (.crash .unencodable)⟩

theorem deed_visit (x : Setup) (v : Visit) (d : Disk) : Deed x v d (x.visit v d) := by
  unfold visit
  cases hr : Session.readText d (x.path v) with
  | error h =>
    simp only [settle_of_readText hr]
    exact .unread hr
  | ok old =>
    cases hn : x.newText v.fileType old with
    | error h =>
      rcases settle_of_newText d v.file hn with hs | ⟨ht, rfl, hp⟩
      · simp only [hn, hs]
        refine .untreated hr hn ?_
        rintro rfl
        simp [settle, Session.warningOf?] at hs
      · simp only [hn]
        exact .huge hr ht hp
    | ok new =>
      simp only [hn]
      by_cases hsame : new = toPoints old
      · subst hsame
        rw [if_pos rfl]
        exact .unchanged hr hn
      · rw [if_neg hsame]
        cases hdry : x.dryRun with
        | true => exact .dry hr hn hsame hdry
        | false =>
          simp only [Bool.false_eq_true, if_false, write]
          cases he : ofPoints? new with
          | none =>
            obtain ⟨ht, hp⟩ := json_of_newText hn he
            simp only [Option.map_none, Option.getD_none]
            cases hw : d.write (x.path v) [] with
            | error e => exact .unwritten hr hn hsame hdry hw
            | ok d' => exact .cut hr ht hp he hdry hw
          | some s =>
            obtain rfl := Text.eq_toPoints_of_ofPoints? he
            simp only [Option.map_some, Option.getD_some]
            cases hw : d.write (x.path v) (encode s) with
            | error e => exact .unwritten hr hn hsame hdry hw
            | ok d' => exact .written hr hn hsame hdry hw

/-- What holds whatever a visit comes to holds of the visit. -/
theorem visit_rec {P : Course → Prop} (hP : ∀ c, Deed x v d c → P c) : P (x.visit v d) :=
  hP _ (deed_visit x v d)

theorem outline_visit (x : Setup) (v : Visit) (d : Disk) :
    (x.visit v d).disk.outline = d.outline := by
  refine visit_rec (P := fun c => c.disk.outline = d.outline) fun c hc => ?_
  cases hc with
  | written hr hn hne hdry hw => exact Disk.outline_of_write hw
  | cut hr ht hn he hdry hw => exact Disk.outline_of_write hw
  | _ => rfl

end Setup

/-! ## Runs -/

namespace Course

variable {c : Course} {f g : Disk → Course} {h : Halt}

theorem andThen_of_none (hc : c.halt = none) :
    c.andThen f = ⟨(f c.disk).disk, c.ledger ++ (f c.disk).ledger, (f c.disk).halt⟩ := by
  rw [andThen, hc]

theorem halt_andThen_of_none (hc : c.halt = none) : (c.andThen f).halt = (f c.disk).halt := by
  rw [andThen_of_none hc]

theorem andThen_of_some (hc : c.halt = some h) : c.andThen f = c := by
  rw [andThen, hc]

theorem andThen_assoc (c : Course) (f g : Disk → Course) :
    (c.andThen f).andThen g = c.andThen fun d => (f d).andThen g := by
  cases hc : c.halt with
  | some h => rw [andThen_of_some hc, andThen_of_some hc, andThen_of_some hc]
  | none =>
    rw [andThen_of_none hc, andThen_of_none hc]
    cases hf : (f c.disk).halt with
    | some h => rw [andThen_of_some (h := h) rfl, andThen_of_some hf, hf]
    | none =>
      rw [andThen_of_none rfl, andThen_of_none hf]
      simp

end Course

namespace Setup

theorem perform_append (x : Setup) (vs ws : List Visit) (d : Disk) :
    x.perform (vs ++ ws) d = (x.perform vs d).andThen (x.perform ws) := by
  induction vs generalizing d with
  | nil => rfl
  | cons v vs ih =>
    simp only [List.cons_append, perform, Course.andThen_assoc]
    congr 1
    funext d
    exact ih d

theorem outline_perform (x : Setup) (vs : List Visit) (d : Disk) :
    (x.perform vs d).disk.outline = d.outline := by
  induction vs generalizing d with
  | nil => rfl
  | cons v vs ih =>
    rw [perform]
    cases hv : (x.visit v d).halt with
    | some h => rw [Course.andThen_of_some hv, outline_visit]
    | none => rw [Course.andThen_of_none hv, ih, outline_visit]

end Setup

end Update
end Letterhead
