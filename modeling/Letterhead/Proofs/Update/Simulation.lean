import Letterhead.Proofs.Licence.Loading
import Letterhead.Proofs.Update.Turns
/-
# Runs follow their course

A run whose extensions are supported and whose licence loads leaves the disk, the report
and the halt of its course (`run_follows`): its files take their turns, each turn is a visit, and
the licence stays the one that was loaded.
-/
namespace Letterhead

open Text (toPoints ofPoints?)
open Text.Utf8 (Bytes encode decode)

/-- The report with every entry of a ledger. -/
def Report.recordAll (r : Report) (ledger : List (RelPath × Outcome)) : Report :=
  ledger.foldl (fun r e => r.record e.2 e.1.id) r

theorem Report.recordAll_append (r : Report) (l l' : List (RelPath × Outcome)) :
    r.recordAll (l ++ l') = (r.recordAll l).recordAll l' := List.foldl_append

theorem Report.files_record (r : Report) (o o' : Outcome) (id : Text) :
    (r.record o' id).files o = r.files o ++ if o' = o then [id] else [] := by
  cases o <;> cases o' <;> simp [Report.record, Report.files]

theorem Report.files_recordAll (r : Report) (ledger : List (RelPath × Outcome)) (o : Outcome) :
    (r.recordAll ledger).files o =
      r.files o ++ (ledger.filter (·.2 = o)).map fun e => RelPath.id e.1 := by
  induction ledger generalizing r with
  | nil => simp [Report.recordAll]
  | cons e ledger ih =>
    have hcons : r.recordAll (e :: ledger) = (r.record e.2 e.1.id).recordAll ledger := rfl
    rw [hcons, ih, Report.files_record, List.filter_cons]
    by_cases h : e.2 = o <;> simp [h]

namespace Job

variable {m : Machine} {c : Config} {j : Job}

end Job

namespace Update

open Session (Step Treatment)

/-- What the run of a job goes by. -/
def Setup.ofJob (read : Php.Reader) (j : Job) (x : Licence.Loaded) : Setup :=
  ⟨read, j.marker, x, j.target, j.dryRun⟩

variable {x : Setup} {j : Job} {year : Nat} {stamps : List Stamp} {s : Session} {t : FileType}

/-- A session whose licence answers with the text of the setup, and is loaded already if
files are stamped: a stamped file may be the licence file. -/
structure Ready (x : Setup) (stamps : List Stamp) (year : Nat) (s : Session) : Prop where
  load : (s.licence.load s.disk year).result = .ok x.licence
  kept : stamps ≠ [] → s.licence.loaded = some x.licence

theorem Ready.of_loaded (h : s.licence.loaded = some x.licence) : Ready x stamps year s :=
  ⟨congrArg Licence.Answer.result (Licence.load_of_loaded h s.disk year), fun _ => h⟩

/-- A step ends as a stretch of the course does, from a report. -/
structure Follows (ready : Session → Prop) (r : Report) (c : Course) (step : Step) : Prop where
  disk : step.1.disk = c.disk
  report : step.1.report = r.recordAll c.ledger
  halt : step.2 = c.halt
  ready : c.halt = none → ready step.1

theorem Follows.andThen {ready : Session → Prop} {r : Report} {c : Course} {step : Step}
    {f : Disk → Course} {g : Session → Step} (h : Follows ready r c step)
    (hf : c.halt = none → Follows ready step.1.report (f c.disk) (g step.1)) :
    Follows ready r (c.andThen f) (step.andThen g) := by
  obtain ⟨s, halt⟩ := step
  obtain rfl : halt = c.halt := h.halt
  cases hc : c.halt with
  | some e =>
    rw [Course.andThen_of_some hc]
    exact ⟨h.disk, h.report, hc.symm, by simp [hc]⟩
  | none =>
    obtain ⟨hdisk, hreport, hhalt, hready⟩ := hf hc
    rw [Course.andThen_of_none hc]
    refine ⟨hdisk, ?_, hhalt, hready⟩
    rw [Report.recordAll_append, ← h.report]
    exact hreport

/-! ## One file -/

theorem treatmentOf_of_mem {f : FileType → Stamp} (hf : ∀ t, (f t).fileType = t)
    {ts : List FileType} (ht : t ∈ ts) : treatmentOf (ts.map f) t = .stamp (f t) := by
  have hfind : (ts.map f).find? (fun s => s.fileType == t) = some (f t) := by
    induction ts with
    | nil => simp at ht
    | cons u us ih =>
      rw [List.map_cons, List.find?_cons, hf]
      by_cases hu : u = t
      · simp [hu]
      · have hb : (u == t) = false := by simpa using hu
        simp only [hb]
        exact ih ((List.mem_cons.1 ht).resolve_left (Ne.symm hu))
  rw [treatmentOf, hfind]

/-- The stamps treat files of a type as the setup does. -/
def Serves (x : Setup) (stamps : List Stamp) (t : FileType) : Prop :=
  treatmentOf stamps t =
    if t = .json then .patch else .stamp (Stamp.ofLicence x.read x.marker x.licence.text t)

/-- Treating a file makes its new text, and from then on the licence is loaded. -/
theorem treat_eq (hserves : Serves x stamps t) (hs : Ready x stamps year s) (old : Text) :
    (s.treat year (treatmentOf stamps t) old).2 = x.newText t old ∧
      (s.treat year (treatmentOf stamps t) old).1.disk = s.disk ∧
      (s.treat year (treatmentOf stamps t) old).1.report = s.report ∧
      (s.treat year (treatmentOf stamps t) old).1.licence.loaded = some x.licence := by
  by_cases ht : t = .json
  · rw [hserves, if_pos ht, Setup.newText, if_pos ht]
    simp only [Session.treat, hs.load]
    exact ⟨trivial, rfl, rfl, Licence.loaded_of_load hs.load⟩
  · have hne : stamps ≠ [] := by
      rintro rfl
      simp [Serves, treatmentOf, ht] at hserves
    rw [hserves, if_neg ht, Setup.newText, if_neg ht]
    refine ⟨?_, rfl, rfl, hs.kept hne⟩
    simp only [Session.treat, Stamp.apply]
    cases (Stamp.ofLicence x.read x.marker x.licence.text t).detect old <;> rfl

theorem recover_follows (hs : Ready x stamps year s) (file : RelPath) (h : Halt) :
    Follows (Ready x stamps year) s.report (Setup.settle s.disk file h) (s.recover file h) := by
  unfold Setup.settle Session.recover
  cases Session.warningOf? file h with
  | some warning => exact ⟨rfl, rfl, rfl, fun _ => ⟨hs.load, hs.kept⟩⟩
  | none => exact ⟨rfl, rfl, rfl, by simp⟩

theorem writeText_follows (hs : s.licence.loaded = some x.licence) (v : Visit) (new : Points) :
    Follows (Ready x stamps year) s.report (x.write v new s.disk)
      (s.writeText v.file (x.path v) new) := by
  unfold Setup.write Session.writeText
  dsimp only
  cases s.disk.write (x.path v) (((ofPoints? new).map encode).getD []) with
  | error e => exact ⟨rfl, rfl, rfl, fun _ => .of_loaded hs⟩
  | ok d =>
    cases ofPoints? new with
    | none => exact ⟨rfl, rfl, rfl, by simp⟩
    | some text => exact ⟨rfl, rfl, rfl, fun _ => .of_loaded hs⟩

/-- Processing a file is a visit of the course. -/
theorem processFile_follows {v : Visit} (htarget : x.target = j.target)
    (hdry : x.dryRun = j.dryRun) (hserves : Serves x stamps v.fileType)
    (hs : Ready x stamps year s) :
    Follows (Ready x stamps year) s.report (x.visit v s.disk)
      (s.processFile j year (treatmentOf stamps v.fileType) v.file) := by
  have hpath : j.target.join ⟨.here, v.file⟩ = x.path v := by rw [Setup.path, htarget]
  unfold Setup.visit Session.processFile
  simp only [hpath]
  cases Session.readText s.disk (x.path v) with
  | error h => exact recover_follows hs v.file h
  | ok old =>
    obtain ⟨hnew, hdisk, hreport, hloaded⟩ := treat_eq hserves hs old
    simp only [hnew]
    generalize (s.treat year (treatmentOf stamps v.fileType) old).1 = s' at hdisk hreport hloaded
    rw [← hdisk, ← hreport, hdry]
    cases x.newText v.fileType old with
    | error h => exact recover_follows (.of_loaded hloaded) v.file h
    | ok new =>
      by_cases hsame : new = toPoints old
      · simp only [hsame, if_true]
        exact ⟨rfl, rfl, rfl, fun _ => .of_loaded hloaded⟩
      · simp only [hsame, if_false]
        split
        · exact ⟨rfl, rfl, rfl, fun _ => .of_loaded hloaded⟩
        · exact writeText_follows hloaded v new

/-! ## A run -/

/-- Files that take their turns are visited in their order. -/
theorem takeTurns_follows (htarget : x.target = j.target) (hdry : x.dryRun = j.dryRun)
    {vs : List Visit} (hserves : ∀ v ∈ vs, Serves x stamps v.fileType)
    (hs : Ready x stamps year s) :
    Follows (Ready x stamps year) s.report (x.perform vs s.disk)
      (takeTurns j year stamps vs s) := by
  induction vs generalizing s with
  | nil => exact ⟨rfl, rfl, rfl, fun _ => hs⟩
  | cons v vs ih =>
    obtain ⟨hv, hvs⟩ := List.forall_mem_cons.1 hserves
    have hfile := processFile_follows htarget hdry hv hs
    rw [Setup.perform, takeTurns]
    refine hfile.andThen fun hnone => ?_
    rw [← hfile.disk]
    exact ih hvs (hfile.ready hnone)

/-- Every visit is for a file that one of the kinds finds, as of its type. -/
theorem exists_kind_of_mem_agenda {d : Disk} {ks : List Kind} {handled : List RelPath}
    {v : Visit} (h : v ∈ agenda j d ks handled) : ∃ k ∈ ks, k.fileType = v.fileType := by
  induction ks generalizing handled with
  | nil => simp [agenda] at h
  | cons k ks ih =>
    rw [agenda, List.mem_append] at h
    rcases h with h | h
    · obtain ⟨file, -, rfl⟩ := List.mem_map.1 h
      exact ⟨k, List.mem_cons_self, rfl⟩
    · exact (ih h).imp fun k' hk' => ⟨List.mem_cons_of_mem k hk'.1, hk'.2⟩

theorem mem_stampedTypes {ks : List Kind} :
    t ∈ stampedTypes ks ↔ t ≠ .json ∧ ∃ k ∈ ks, k.fileType = t := by
  simp [stampedTypes, List.mem_eraseDups, and_comm]

theorem serves_stampedTypes (x : Setup) {ks : List Kind} {k : Kind} (hk : k ∈ ks) :
    Serves x ((stampedTypes ks).map (Stamp.ofLicence x.read x.marker x.licence.text))
      k.fileType := by
  unfold Serves
  split
  · next ht =>
    have hnone : ((stampedTypes ks).map (Stamp.ofLicence x.read x.marker x.licence.text)).find?
        (fun s => s.fileType == k.fileType) = none := by
      rw [List.find?_eq_none]
      intro s hs heq
      obtain ⟨t, hmem, rfl⟩ := List.mem_map.1 hs
      have : t = k.fileType := by simpa [Stamp.ofLicence] using heq
      exact (mem_stampedTypes.1 hmem).1 (this.trans ht)
    rw [treatmentOf, hnone]
  · next ht =>
    exact treatmentOf_of_mem (fun _ => rfl) (mem_stampedTypes.2 ⟨ht, k, hk, rfl⟩)

/-- A run ends with the disk, the report and the halt of its course. -/
theorem run_follows (read : Php.Reader) {d : Disk} {ks : List Kind} {loaded : Licence.Loaded}
    (hk : kinds j.extensions = .ok ks) (hc : j.licence.Consistent)
    (hl : (j.licence.load d year).result = .ok loaded) :
    (run read d year j).1.disk = ((Setup.ofJob read j loaded).perform (agenda j d ks []) d).disk ∧
    (run read d year j).1.report = Report.empty.recordAll
      ((Setup.ofJob read j loaded).perform (agenda j d ks []) d).ledger ∧
    (run read d year j).2 = ((Setup.ofJob read j loaded).perform (agenda j d ks []) d).halt := by
  obtain ⟨hstamps, hload, hkept⟩ := Licence.stamps_eq read j.marker (stampedTypes ks) hc hl
  let s := { Session.start d j.licence with
    licence := (j.licence.stamps read j.marker d year ((stampedTypes ks).map FileType.name)).licence }
  have hready : Ready (Setup.ofJob read j loaded)
      ((stampedTypes ks).map (Stamp.ofLicence read j.marker loaded.text)) year s := by
    refine ⟨hload, fun hne => hkept ?_⟩
    rintro hnil
    simp [hnil] at hne
  have hserves : ∀ v ∈ agenda j d ks [], Serves (Setup.ofJob read j loaded)
      ((stampedTypes ks).map (Stamp.ofLicence read j.marker loaded.text)) v.fileType := by
    intro v hv
    obtain ⟨k, hk, htype⟩ := exists_kind_of_mem_agenda hv
    exact htype ▸ serves_stampedTypes (Setup.ofJob read j loaded) hk
  have h := takeTurns_follows (j := j) rfl rfl hserves hready
  obtain ⟨hhand, hhalt⟩ := Prod.mk.inj (hand_run hk hstamps)
  obtain ⟨hdisk, -, hreport⟩ := Session.hand_eq_iff.1 hhand
  exact ⟨hdisk.trans h.disk, hreport.trans h.report, hhalt.trans h.halt⟩

end Update
end Letterhead
