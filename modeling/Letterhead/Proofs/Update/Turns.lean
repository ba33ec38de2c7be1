import Letterhead.Proofs.Update.Course
/-
# A run as its turns

What processing a file can do to the disk and to the report (`Turn`), and that a run, whatever
it says and shows, processes the files of its agenda one after the other (`hand_run`), whether
its licence loads or not.
-/
namespace Letterhead

namespace Session

/-- What a session has in hand, apart from what it says and shows and has come upon. -/
def hand (s : Session) : Disk × Licence × Report := (s.disk, s.licence, s.report)

/-- What is in hand after a step, and why it does not go on if it does not. -/
def Step.hand (x : Step) : (Disk × Licence × Report) × Option Halt := (x.1.hand, x.2)

variable {j : Job} {year : Nat} {s s' : Session} {file : RelPath} {tr : Treatment}

/-- What processing a file can do to the disk and to the report: to record the file, or to halt
the run, and to write the file before. -/
inductive Turn (j : Job) (s : Session) (file : RelPath) : Step → Prop
  | recorded {s' : Session} {o : Outcome} (hdisk : s'.disk = s.disk)
      (hreport : s'.report = s.report.record o file.id) : Turn j s file (s', none)
  | written {s' : Session} {bytes : Text.Utf8.Bytes} (hdry : j.dryRun = false)
      (hw : s.disk.write (j.target.join ⟨.here, file⟩) bytes = .ok s'.disk)
      (hreport : s'.report = s.report.record .fixed file.id) : Turn j s file (s', none)
  | halted {s' : Session} {h : Halt} (hdisk : s'.disk = s.disk)
      (hreport : s'.report = s.report) : Turn j s file (s', some h)
  | cut {s' : Session} {h : Halt} {bytes : Text.Utf8.Bytes} (hdry : j.dryRun = false)
      (hw : s.disk.write (j.target.join ⟨.here, file⟩) bytes = .ok s'.disk)
      (hreport : s'.report = s.report) : Turn j s file (s', some h)

theorem treat_kept (s : Session) (year : Nat) (tr : Treatment) (old : Text) :
    (s.treat year tr old).1.disk = s.disk ∧ (s.treat year tr old).1.report = s.report ∧
      (s.treat year tr old).1.handled = s.handled := by
  cases tr <;> exact ⟨rfl, rfl, rfl⟩

theorem turn_recover {s' : Session} (hdisk : s'.disk = s.disk) (hreport : s'.report = s.report)
    (h : Halt) : Turn j s file (s'.recover file h) := by
  unfold recover
  split
  · exact .recorded hdisk (congrArg (·.record .failed file.id) hreport)
  · exact .halted hdisk hreport

theorem turn_processFile (j : Job) (year : Nat) (tr : Treatment) (s : Session)
    (file : RelPath) : Turn j s file (s.processFile j year tr file) := by
  unfold processFile
  dsimp only
  split
  · exact turn_recover rfl rfl _
  · next old _ =>
    obtain ⟨hdisk, hreport, -⟩ := treat_kept s year tr old
    have hrecord : ∀ o, (s.treat year tr old).1.report.record o file.id =
        s.report.record o file.id := fun o => by rw [hreport]
    split
    · exact turn_recover hdisk hreport _
    · split
      · exact .recorded hdisk (hrecord .unchanged)
      · split
        · exact .recorded hdisk (hrecord .fixed)
        · next hdry =>
          have hdry : j.dryRun = false := by simpa using hdry
          unfold writeText
          rw [hdisk]
          dsimp only
          split
          · exact .recorded hdisk (hrecord .failed)
          · next d hw =>
            split
            · exact .written hdry hw (hrecord .fixed)
            · exact .cut hdry hw hreport

/-- Processing a file keeps the outline of the disk. -/
theorem Turn.outline {step : Step} (h : Turn j s file step) :
    step.1.disk.outline = s.disk.outline := by
  cases h with
  | recorded hdisk hreport => rw [hdisk]
  | written hdry hw hreport => exact Disk.outline_of_write hw
  | halted hdisk hreport => rw [hdisk]
  | cut hdry hw hreport => exact Disk.outline_of_write hw

/-- A dry run does not write. -/
theorem Turn.disk_of_dry {step : Step} (h : Turn j s file step) (hdry : j.dryRun = true) :
    step.1.disk = s.disk := by
  cases h with
  | recorded hdisk hreport => exact hdisk
  | written hdry' hw hreport => simp [hdry] at hdry'
  | halted hdisk hreport => exact hdisk
  | cut hdry' hw hreport => simp [hdry] at hdry'

/-! ## What is in hand -/

theorem hand_eq_iff :
    s.hand = s'.hand ↔ s.disk = s'.disk ∧ s.licence = s'.licence ∧ s.report = s'.report := by
  simp [hand]

theorem hand_record (h : s.hand = s'.hand) (o : Outcome) (file : RelPath) :
    (s.record o file).hand = (s'.record o file).hand := by
  obtain ⟨hdisk, hlicence, hreport⟩ := hand_eq_iff.1 h
  exact hand_eq_iff.2 ⟨hdisk, hlicence, congrArg (·.record o file.id) hreport⟩

theorem hand_recover (h : s.hand = s'.hand) (file : RelPath) (e : Halt) :
    (s.recover file e).hand = (s'.recover file e).hand := by
  unfold recover
  cases warningOf? file e with
  | some warning => exact congrArg (·, none) (hand_record h .failed file)
  | none => exact congrArg (·, some e) h

theorem hand_treat (h : s.hand = s'.hand) (year : Nat) (tr : Treatment) (old : Text) :
    (s.treat year tr old).1.hand = (s'.treat year tr old).1.hand ∧
      (s.treat year tr old).2 = (s'.treat year tr old).2 := by
  obtain ⟨hdisk, hlicence, hreport⟩ := hand_eq_iff.1 h
  cases tr with
  | stamp stamp => exact ⟨h, rfl⟩
  | patch =>
    simp only [treat, hand_eq_iff, hdisk, hlicence]
    exact ⟨⟨rfl, rfl, hreport⟩, trivial⟩

theorem hand_writeText (h : s.hand = s'.hand) (file : RelPath) (p : Path) (new : Points) :
    (s.writeText file p new).hand = (s'.writeText file p new).hand := by
  obtain ⟨hdisk, hlicence, hreport⟩ := hand_eq_iff.1 h
  unfold writeText
  rw [hdisk]
  dsimp only
  split
  · exact congrArg (·, none) (hand_record h .failed file)
  · next d _ =>
    have hwritten :
        ({ s with disk := d } : Session).hand = ({ s' with disk := d } : Session).hand :=
      hand_eq_iff.2 ⟨rfl, hlicence, hreport⟩
    split
    · exact congrArg (·, none) (hand_record hwritten .fixed file)
    · exact congrArg (·, _) hwritten

/-- What processing a file leaves in hand is a matter of what was in hand. -/
theorem hand_processFile (h : s.hand = s'.hand) (j : Job) (year : Nat) (tr : Treatment)
    (file : RelPath) :
    (s.processFile j year tr file).hand = (s'.processFile j year tr file).hand := by
  unfold processFile
  rw [(hand_eq_iff.1 h).1]
  dsimp only
  split
  · exact hand_recover h file _
  · next old _ =>
    obtain ⟨htreat, hresult⟩ := hand_treat h year tr old
    rw [hresult]
    split
    · exact hand_recover htreat file _
    · split
      · exact congrArg (·, none) (hand_record htreat .unchanged file)
      · split
        · exact congrArg (·, none) (hand_record htreat .fixed file)
        · exact hand_writeText htreat file _ _

theorem Step.hand_andThen {x y : Step} {f g : Session → Step} (h : x.hand = y.hand)
    (hf : ∀ s s', s.hand = s'.hand → (f s).hand = (g s').hand) :
    (x.andThen f).hand = (y.andThen g).hand := by
  obtain ⟨s, halt⟩ := x
  obtain ⟨s', halt'⟩ := y
  obtain ⟨hs, rfl⟩ : s.hand = s'.hand ∧ halt = halt' := Prod.mk.inj h
  cases halt with
  | none => exact hf s s' hs
  | some e => exact h

/-! ## What is come upon -/

theorem processFile_handled (j : Job) (year : Nat) (tr : Treatment) (s : Session)
    (file : RelPath) : (s.processFile j year tr file).1.handled = s.handled := by
  have hrecover : ∀ (s : Session) (h : Halt), (s.recover file h).1.handled = s.handled := by
    intro s h
    unfold recover
    split <;> rfl
  unfold processFile
  dsimp only
  split
  · exact hrecover s _
  · next old _ =>
    obtain ⟨-, -, htreat⟩ := treat_kept s year tr old
    split
    · rw [hrecover, htreat]
    · split
      · exact htreat
      · split
        · exact htreat
        · unfold writeText
          dsimp only
          split
          · exact htreat
          · split <;> exact htreat

end Session

namespace Update

open Session (Step Treatment)

variable {j : Job} {year : Nat} {s s' : Session} {stamps : List Stamp} {t : FileType}
  {ks : List Kind} {d : Disk} {read : Php.Reader}

theorem advance_eq (s : Session) : ∃ progress, advance s = { s with progress := progress } := by
  unfold advance
  split
  · exact ⟨_, rfl⟩
  · exact ⟨s.progress, rfl⟩

theorem hand_advance (s : Session) : (advance s).hand = s.hand := by
  obtain ⟨progress, hp⟩ := advance_eq s
  rw [hp]
  rfl

/-- Processes files one after the other, each as one of its type. -/
def takeTurns (j : Job) (year : Nat) (stamps : List Stamp) : List Visit → Session → Step
  | [], s => (s, none)
  | v :: vs, s =>
    Step.andThen (s.processFile j year (treatmentOf stamps v.fileType) v.file)
      (takeTurns j year stamps vs)

theorem takeTurns_append (vs ws : List Visit) (s : Session) :
    takeTurns j year stamps (vs ++ ws) s =
      Step.andThen (takeTurns j year stamps vs s) (takeTurns j year stamps ws) := by
  induction vs generalizing s with
  | nil => rfl
  | cons v vs ih =>
    rw [List.cons_append, takeTurns, takeTurns]
    generalize s.processFile j year (treatmentOf stamps v.fileType) v.file = step
    obtain ⟨s', _ | h⟩ := step
    · exact ih s'
    · rfl

theorem outline_takeTurns (j : Job) (year : Nat) (stamps : List Stamp) (vs : List Visit)
    (s : Session) :
    (takeTurns j year stamps vs s).1.disk.outline = s.disk.outline := by
  induction vs generalizing s with
  | nil => rfl
  | cons v vs ih =>
    have hturn := (Session.turn_processFile j year (treatmentOf stamps v.fileType) s v.file).outline
    rw [takeTurns]
    generalize s.processFile j year (treatmentOf stamps v.fileType) v.file = step at hturn ⊢
    obtain ⟨s', _ | h⟩ := step
    · exact (ih s').trans hturn
    · exact hturn

/-- The files of one search, those that are processed, take their turns. -/
theorem hand_processAll (files : List RelPath) (h : s.hand = s'.hand) :
    (processAll j year (treatmentOf stamps t) t files s).hand =
      (takeTurns j year stamps (visits t files) s').hand := by
  induction files generalizing s s' with
  | nil => exact congrArg (·, none) h
  | cons file files ih =>
    unfold processAll
    by_cases hc : isCandidate t file
    · rw [visits, List.filter_cons_of_pos hc, List.map_cons, takeTurns]
      simp only [hc, if_true]
      exact Step.hand_andThen (Session.hand_processFile h j year _ file) fun s s' h =>
        ih ((hand_advance s).trans h)
    · rw [visits, List.filter_cons_of_neg hc]
      simp only [hc]
      exact ih ((hand_advance s).trans h)

theorem processAll_handled (j : Job) (year : Nat) (tr : Treatment) (t : FileType)
    (files : List RelPath) (s : Session) :
    (processAll j year tr t files s).1.handled = s.handled := by
  induction files generalizing s with
  | nil => rfl
  | cons file files ih =>
    have hadvance : ∀ s, (processAll j year tr t files (advance s)).1.handled = s.handled := by
      intro s
      obtain ⟨progress, hp⟩ := advance_eq s
      rw [ih, hp]
    unfold processAll
    dsimp only
    split
    · have hfile := Session.processFile_handled j year tr s file
      generalize s.processFile j year tr file = step at hfile
      obtain ⟨s', _ | h⟩ := step
      · exact (hadvance s').trans hfile
      · exact hfile
    · exact hadvance s

/-- Taking up the files of an extension notes them, and shows how many they are. -/
theorem updateKind_eq (j : Job) (year : Nat) (stamps : List Stamp) (k : Kind) (s : Session) :
    ∃ log progress, updateKind j year stamps k s =
      processAll j year (treatmentOf stamps k.fileType) k.fileType (newFiles j s.disk k s.handled)
        { s with
          handled := s.handled ++ newFiles j s.disk k s.handled
          log := log
          progress := progress } := by
  unfold updateKind enlist
  dsimp only
  split
  · exact ⟨_, s.progress, rfl⟩
  · exact ⟨_, _, rfl⟩

/-- The new files of one extension take their turns, and are handled then. -/
theorem hand_updateKind (j : Job) (year : Nat) (stamps : List Stamp) (k : Kind) (part : Text)
    (h : s.hand = s'.hand) :
    (noted part (updateKind j year stamps k) s).hand =
        (takeTurns j year stamps (visits k.fileType (newFiles j s.disk k s.handled)) s').hand ∧
      (noted part (updateKind j year stamps k) s).1.handled =
        s.handled ++ newFiles j s.disk k s.handled := by
  obtain ⟨log, progress, he⟩ := updateKind_eq j year stamps k (s.say [starting part])
  rw [noted, he]
  exact ⟨hand_processAll (newFiles j s.disk k s.handled) h,
    processAll_handled j year (treatmentOf stamps k.fileType) k.fileType _ _⟩

/-- The files of all extensions take their turns as on the agenda of the first disk. -/
theorem hand_updateKinds (h : s.hand = s'.hand) (ho : s.disk.outline = d.outline) :
    (updateKinds j year stamps ks s).hand =
      (takeTurns j year stamps (agenda j d ks s.handled) s').hand := by
  induction ks generalizing s s' with
  | nil => exact congrArg (·, none) h
  | cons k ks ih =>
    -- a search finds the same on the disk as it is by now
    have hfiles : newFiles j s.disk k s.handled = newFiles j d k s.handled := by
      rw [newFiles, newFiles, Finder.find_of_outline ho]
    obtain ⟨hfirst, hhandled⟩ :=
      hand_updateKind j year stamps k ("update ".toList ++ k.extension) h
    have hkept := outline_takeTurns j year stamps
      (visits k.fileType (newFiles j d k s.handled)) s'
    rw [hfiles] at hfirst hhandled
    rw [agenda, takeTurns_append, updateKinds, ← hhandled]
    rw [← (Session.hand_eq_iff.1 h).1, ho] at hkept
    generalize noted ("update ".toList ++ k.extension) (updateKind j year stamps k) s = x
      at hfirst ⊢
    generalize takeTurns j year stamps (visits k.fileType (newFiles j d k s.handled)) s' = y
      at hfirst hkept ⊢
    obtain ⟨s, halt⟩ := x
    obtain ⟨s', halt'⟩ := y
    obtain ⟨hs, rfl⟩ : s.hand = s'.hand ∧ halt = halt' := Prod.mk.inj hfirst
    cases halt with
    | some e => exact hfirst
    | none => exact ih hs ((congrArg Disk.outline (Session.hand_eq_iff.1 hs).1).trans hkept)

/-- A run, whatever it says and shows, processes the files of its agenda one after the other. -/
theorem hand_run (hk : kinds j.extensions = .ok ks)
    (hst : (j.licence.stamps read j.marker d year ((stampedTypes ks).map FileType.name)).result =
      .ok stamps) :
    (run read d year j).hand = (takeTurns j year stamps (agenda j d ks [])
      { Session.start d j.licence with
        licence := (j.licence.stamps read j.marker d year
          ((stampedTypes ks).map FileType.name)).licence }).hand := by
  unfold run
  simp only [hk, hst]
  exact hand_updateKinds rfl rfl

/-- A run goes on to its files, or it halts with nothing done. -/
theorem run_starts (read : Php.Reader) (d : Disk) (year : Nat) (j : Job) :
    (∃ ks stamps, kinds j.extensions = .ok ks ∧
      (j.licence.stamps read j.marker d year ((stampedTypes ks).map FileType.name)).result =
        .ok stamps) ∨
    (run read d year j).2 ≠ none ∧ (run read d year j).1.disk = d := by
  unfold run
  cases hk : kinds j.extensions with
  | error h => exact .inr ⟨by simp, rfl⟩
  | ok ks =>
    cases hst : (j.licence.stamps read j.marker d year
        ((stampedTypes ks).map FileType.name)).result with
    | error h => exact .inr ⟨by simp [hst], by simp only [hst]; rfl⟩
    | ok stamps => exact .inl ⟨ks, stamps, rfl, hst⟩

end Update
end Letterhead
