import Letterhead.Config.Basic
import Letterhead.Proofs.Update.Simulation
import Letterhead.Text.Utf8.Lemmas
/-
# Which files end a run

A file that cannot be read, processed or written is recorded as failed and the run goes on
to the next. Two files end a run: a manifest with an integer of too many digits, and one
whose new text has no encoding and would be written. A run returns if and only if it comes
upon neither (`run_returns_iff`).
-/
namespace Letterhead.Update

open Text (toPoints ofPoints?)

namespace Setup

/-- The visit ends the run. -/
def Fatal (x : Setup) (v : Visit) (d : Disk) : Prop :=
  v.fileType = .json ∧ ∃ old, Session.readText d (x.path v) = .ok old ∧
    (Manifest.patch x.licence.source.text (toPoints old) = .error .hugeInteger ∨
      x.dryRun = false ∧ ∃ new d', Manifest.patch x.licence.source.text (toPoints old) = .ok new ∧
        ofPoints? new = none ∧ d.write (x.path v) [] = .ok d')

/-- The file cannot be read, or not processed, or it has a new text that cannot be written. -/
def Fails (x : Setup) (v : Visit) (d : Disk) : Prop :=
  (∃ h, Session.readText d (x.path v) = .error h) ∨
  ∃ old, Session.readText d (x.path v) = .ok old ∧
    ((∃ h, x.newText v.fileType old = .error h) ∨
      ∃ new e, x.newText v.fileType old = .ok new ∧ new ≠ toPoints old ∧ x.dryRun = false ∧
        d.write (x.path v) [] = .error e)

variable {x : Setup} {v : Visit} {d : Disk} {old : Text}

theorem newText_json (x : Setup) (old : Text) :
    x.newText .json old =
      (Manifest.patch x.licence.source.text (toPoints old)).mapError Manifest.Fault.halt :=
  if_pos rfl

/-! ## One visit -/

theorem halt_visit_iff : (x.visit v d).halt ≠ none ↔ x.Fatal v d := by
  constructor
  · refine visit_rec (P := fun c => c.halt ≠ none → x.Fatal v d) fun c hc hne => ?_
    cases hc with
    | huge hr ht hn => exact ⟨ht, _, hr, .inl hn⟩
    | cut hr ht hn he hdry hw => exact ⟨ht, _, hr, .inr ⟨hdry, _, _, hn, he, hw⟩⟩
    | _ => exact absurd rfl hne
  · rintro ⟨ht, old, hr, hfatal⟩
    have hjson : x.newText v.fileType old =
        (Manifest.patch x.licence.source.text (toPoints old)).mapError Manifest.Fault.halt := by
      rw [ht, newText_json]
    unfold visit
    rcases hfatal with hn | ⟨hdry, new, d', hn, he, hw⟩
    · simp [hr, hjson, hn, settle, Session.warningOf?, Manifest.Fault.halt]
    · have hne : new ≠ toPoints old := by
        rintro rfl
        simp [Text.ofPoints?_toPoints] at he
      simp [hr, hjson, hn, hne, hdry, write, he, hw]

theorem halt_visit_eq_none_iff : (x.visit v d).halt = none ↔ ¬ x.Fatal v d := by
  rw [← halt_visit_iff, ne_eq, Classical.not_not]

theorem halt_visit_cases {h : Halt} (hh : (x.visit v d).halt = some h) :
    h = .crash .hugeInteger ∨ h = .crash .unencodable ∧ x.dryRun = false := by
  revert hh
  refine visit_rec (P := fun c => c.halt = some h → _) fun c hc hh => ?_
  cases hc with
  | huge hr ht hn => exact .inl (Option.some.inj hh).symm
  | cut hr ht hn he hdry hw => exact .inr ⟨(Option.some.inj hh).symm, hdry⟩
  | _ => simp at hh

/-- A visit that does not end the run says what became of the file. -/
theorem ledger_visit (hv : ¬ x.Fatal v d) : ∃ o, (x.visit v d).ledger = [(v.file, o)] := by
  rw [← halt_visit_eq_none_iff] at hv
  revert hv
  refine visit_rec (P := fun c => c.halt = none → ∃ o, c.ledger = [(v.file, o)]) fun c hc hh => ?_
  cases hc with
  | huge hr ht hn => simp at hh
  | cut hr ht hn he hdry hw => simp at hh
  | _ => exact ⟨_, rfl⟩

/-- A file that fails is recorded as failed, unless it ends the run. -/
theorem ledger_visit_of_fails (hf : x.Fails v d) (hv : ¬ x.Fatal v d) :
    (x.visit v d).ledger = [(v.file, .failed)] := by
  rw [← halt_visit_eq_none_iff] at hv
  revert hv
  refine visit_rec (P := fun c => c.halt = none → c.ledger = [(v.file, .failed)])
    fun c hc hh => ?_
  -- what the visit found out about the file is at odds with its failing
  have hread : ∀ {old}, Session.readText d (x.path v) = .ok old →
      (∃ h, x.newText v.fileType old = .error h) ∨
        ∃ new e, x.newText v.fileType old = .ok new ∧ new ≠ toPoints old ∧ x.dryRun = false ∧
          d.write (x.path v) [] = .error e := by
    intro old hr
    rcases hf with ⟨h, hr'⟩ | ⟨old', hr', hrest⟩
    · simp [hr] at hr'
    · obtain rfl := Except.ok.inj (hr.symm.trans hr')
      exact hrest
  cases hc with
  | unread hr => rfl
  | untreated hr hn hne => rfl
  | unwritten hr hn hne hdry hw => rfl
  | huge hr ht hn => simp at hh
  | cut hr ht hn he hdry hw => simp at hh
  | unchanged hr hn =>
    rcases hread hr with ⟨h, hn'⟩ | ⟨new, e, hn', hne, -⟩
    · simp [hn] at hn'
    · exact absurd (Except.ok.inj (hn'.symm.trans hn)) hne
  | dry hr hn hne hdry =>
    rcases hread hr with ⟨h, hn'⟩ | ⟨new, e, -, -, hdry', -⟩
    · simp [hn] at hn'
    · simp [hdry] at hdry'
  | written hr hn hne hdry hw =>
    rcases hread hr with ⟨h, hn'⟩ | ⟨new, e, -, -, -, hw'⟩
    · simp [hn] at hn'
    · simp [Disk.write_error hw' _] at hw

/-! ## A whole run -/

/-- The first visit that ends a run is fatal on the disk that those before it left. -/
theorem halt_perform_iff {vs : List Visit} :
    (x.perform vs d).halt ≠ none ↔
      ∃ before v behind, vs = before ++ v :: behind ∧ (x.perform before d).halt = none ∧
        x.Fatal v (x.perform before d).disk := by
  induction vs generalizing d with
  | nil => simp [perform]
  | cons u vs ih =>
    rw [perform]
    cases hu : (x.visit u d).halt with
    | some h =>
      rw [Course.andThen_of_some hu, hu]
      have hfatal : x.Fatal u d := halt_visit_iff.1 (by simp [hu])
      exact ⟨fun _ => ⟨[], u, vs, rfl, rfl, hfatal⟩, fun _ => by simp⟩
    | none =>
      rw [Course.andThen_of_none hu, ih]
      have hstep : ∀ before, x.perform (u :: before) d =
          ⟨(x.perform before (x.visit u d).disk).disk,
            (x.visit u d).ledger ++ (x.perform before (x.visit u d).disk).ledger,
            (x.perform before (x.visit u d).disk).halt⟩ := fun before => by
        rw [perform, Course.andThen_of_none hu]
      constructor
      · rintro ⟨before, v, behind, rfl, hb, hv⟩
        exact ⟨u :: before, v, behind, rfl, by rw [hstep]; exact hb, by rw [hstep]; exact hv⟩
      · rintro ⟨before, v, behind, hvs, hb, hv⟩
        cases before with
        | nil =>
          obtain ⟨rfl, rfl⟩ := List.cons.inj hvs
          exact absurd hu (halt_visit_iff.2 hv)
        | cons w before =>
          obtain ⟨rfl, rfl⟩ := List.cons.inj hvs
          rw [hstep] at hb hv
          exact ⟨before, v, behind, rfl, hb, hv⟩

/-- Only a manifest ends a run. -/
theorem halt_perform_of_not_json {vs : List Visit} (h : ∀ v ∈ vs, v.fileType ≠ .json) :
    (x.perform vs d).halt = none := by
  refine Classical.byContradiction fun hne => ?_
  obtain ⟨before, v, behind, rfl, -, hjson, -⟩ := halt_perform_iff.1 hne
  exact h v List.mem_append_cons_self hjson

theorem halt_perform_cases {vs : List Visit} {h : Halt} (hh : (x.perform vs d).halt = some h) :
    h = .crash .hugeInteger ∨ h = .crash .unencodable ∧ x.dryRun = false := by
  induction vs generalizing d with
  | nil => simp [perform] at hh
  | cons u vs ih =>
    rw [perform] at hh
    cases hu : (x.visit u d).halt with
    | some e =>
      rw [Course.andThen_of_some hu] at hh
      exact halt_visit_cases hh
    | none =>
      rw [Course.andThen_of_none hu] at hh
      exact ih hh

/-- A run that returns says what became of every file. -/
theorem ledger_perform {vs : List Visit} (hh : (x.perform vs d).halt = none) :
    (x.perform vs d).ledger.map Prod.fst = vs.map Visit.file := by
  induction vs generalizing d with
  | nil => rfl
  | cons u vs ih =>
    rw [perform] at hh ⊢
    cases hu : (x.visit u d).halt with
    | some e => simp [Course.andThen_of_some hu, hu] at hh
    | none =>
      rw [Course.andThen_of_none hu] at hh ⊢
      obtain ⟨o, ho⟩ := ledger_visit (x := x) (v := u) (d := d) (halt_visit_eq_none_iff.1 hu)
      simp [ho, ih hh]

/-- A file that fails stands in the ledger as failed, whatever comes after it. -/
theorem failed_mem_ledger {before behind : List Visit}
    (hb : (x.perform before d).halt = none) (hf : x.Fails v (x.perform before d).disk)
    (hv : ¬ x.Fatal v (x.perform before d).disk) :
    (v.file, .failed) ∈ (x.perform (before ++ v :: behind) d).ledger := by
  rw [perform_append, Course.andThen_of_none hb, perform,
    Course.andThen_of_none (halt_visit_eq_none_iff.2 hv), ledger_visit_of_fails hf hv]
  simp

end Setup

theorem mem_recordAll {ledger : List (RelPath × Outcome)} {file : RelPath} {o : Outcome}
    (h : (file, o) ∈ ledger) (r : Report) : file.id ∈ (r.recordAll ledger).files o := by
  rw [Report.files_recordAll]
  exact List.mem_append_right _
    (List.mem_map.2 ⟨(file, o), List.mem_filter.2 ⟨h, by simp⟩, rfl⟩)

/-- A run returns if and only if no file that it visits is fatal on the disk that the visits
before left, and else it ends in one of two crashes. A run that returns has recorded every
file that it visited; a file that fails and is not fatal is recorded as failed. -/
theorem run_returns_iff (read : Php.Reader) {d : Disk} {year : Nat} {j : Job} {ks : List Kind}
    {loaded : Licence.Loaded} (hk : kinds j.extensions = .ok ks) (hc : j.licence.Consistent)
    (hl : (j.licence.load d year).result = .ok loaded) :
    ((run read d year j).2 = none ↔
      ∀ before v behind, agenda j d ks [] = before ++ v :: behind →
        ¬ (Setup.ofJob read j loaded).Fatal v
          ((Setup.ofJob read j loaded).perform before d).disk) ∧
    (∀ h, (run read d year j).2 = some h →
      h = .crash .hugeInteger ∨ h = .crash .unencodable ∧ j.dryRun = false) ∧
    ((run read d year j).2 = none →
      ∀ v ∈ agenda j d ks [], ∃ o, v.file.id ∈ (run read d year j).1.report.files o) ∧
    ∀ before v behind, agenda j d ks [] = before ++ v :: behind →
      ((Setup.ofJob read j loaded).perform before d).halt = none →
      (Setup.ofJob read j loaded).Fails v ((Setup.ofJob read j loaded).perform before d).disk →
      ¬ (Setup.ofJob read j loaded).Fatal v
        ((Setup.ofJob read j loaded).perform before d).disk →
      v.file.id ∈ (run read d year j).1.report.failed := by
  obtain ⟨-, hreport, hhalt⟩ := run_follows read hk hc hl
  rw [hreport, hhalt]
  refine ⟨⟨fun hnone before v behind hvs hfatal => ?_, fun hfree => ?_⟩,
    fun h hh => Setup.halt_perform_cases hh, fun hnone v hv => ?_, ?_⟩
  · cases hb : ((Setup.ofJob read j loaded).perform before d).halt with
    | none => exact Setup.halt_perform_iff.2 ⟨before, v, behind, hvs, hb, hfatal⟩ hnone
    | some h =>
      rw [hvs, Setup.perform_append, Course.andThen_of_some hb, hb] at hnone
      cases hnone
  · refine Classical.byContradiction fun hne => ?_
    obtain ⟨before, v, behind, hvs, -, hfatal⟩ := Setup.halt_perform_iff.1 hne
    exact hfree before v behind hvs hfatal
  · have hmem : v.file ∈
        ((Setup.ofJob read j loaded).perform (agenda j d ks []) d).ledger.map Prod.fst := by
      rw [Setup.ledger_perform hnone]
      exact List.mem_map_of_mem hv
    obtain ⟨⟨file, o⟩, he, hfile⟩ := List.mem_map.1 hmem
    subst hfile
    exact ⟨o, mem_recordAll he _⟩
  · intro before v behind hvs hb hf hv
    rw [hvs]
    exact mem_recordAll (o := .failed) (Setup.failed_mem_ledger hb hf hv) _

/-! ## Manifests that end a run -/

/-- The file name of a manifest. -/
def manifestName : Text := ['p', 'a', 'c', 'k', 'a', 'g', 'e', '.', 'j', 's', 'o', 'n']

/-- A disk with a manifest and a licence text. -/
def manifestDisk (bytes : Text.Utf8.Bytes) : Disk :=
  ⟨.folder .full [(['l'], .file .full []), (manifestName, .file .full bytes)], []⟩

/-- The job to bring manifests up to date. -/
def manifestJob (dryRun : Bool) : Job :=
  ⟨.ofRoot [], .ofFile (.ofRoot []) (.ofRoot [['l']]), [['j', 's', 'o', 'n']], [], [],
    Config.defaultMarker, dryRun, true⟩

theorem manifestJob_kinds (dryRun : Bool) :
    kinds (manifestJob dryRun).extensions = .ok [⟨['j', 's', 'o', 'n'], .json⟩] := rfl

theorem manifestJob_load (dryRun : Bool) (bytes : Text.Utf8.Bytes) :
    ((manifestJob dryRun).licence.load (manifestDisk bytes) 2024).result =
      .ok ⟨[], .ofRoot [['l']]⟩ := rfl

/-- A manifest with half of a surrogate pair. -/
def halfPair : Text := "\x7b\"a\": \"\\ud800\"\x7d".toList

theorem run_returns_iff_halfPair :
    kinds (manifestJob false).extensions = .ok [⟨['j', 's', 'o', 'n'], .json⟩] ∧
    (manifestJob false).licence.Consistent ∧
    ((manifestJob false).licence.load (manifestDisk (Text.Utf8.encode halfPair)) 2024).result =
      .ok ⟨[], .ofRoot [['l']]⟩ ∧
    (run (fun _ => .ok []) (manifestDisk (Text.Utf8.encode halfPair)) 2024
      (manifestJob false)).2 = some (.crash .unencodable) ∧
    ¬ ∀ before v behind, agenda (manifestJob false) (manifestDisk (Text.Utf8.encode halfPair))
        [⟨['j', 's', 'o', 'n'], .json⟩] [] = before ++ v :: behind →
      ¬ (Setup.ofJob (fun _ => .ok []) (manifestJob false) ⟨[], .ofRoot [['l']]⟩).Fatal v
        ((Setup.ofJob (fun _ => .ok []) (manifestJob false) ⟨[], .ofRoot [['l']]⟩).perform before
          (manifestDisk (Text.Utf8.encode halfPair))).disk := by
  have hends : (run (fun _ => .ok []) (manifestDisk (Text.Utf8.encode halfPair)) 2024
      (manifestJob false)).2 = some (.crash .unencodable) := by decide +kernel
  have hload := manifestJob_load false (Text.Utf8.encode halfPair)
  have h := run_returns_iff (fun _ => .ok []) (manifestJob_kinds false)
    (Licence.consistent_ofFile _ _) hload
  refine ⟨rfl, Licence.consistent_ofFile _ _, hload, hends, fun hfree => ?_⟩
  simp [h.1.2 hfree] at hends

/-- An integer of too many digits. -/
def hugeInteger (n : Nat) : Text := List.replicate (Json.mostDigits + n + 1) '1'

theorem patch_hugeInteger (licencePath : Text) (n : Nat) :
    Manifest.patch licencePath (toPoints (hugeInteger n)) = .error .hugeInteger := by
  have hpoints : toPoints (hugeInteger n) =
      .char '1' :: List.replicate (Json.mostDigits + n) (.char '1') := by
    rw [toPoints, hugeInteger, List.map_replicate, List.replicate_succ]
  have hscalar : Json.scalar (.char '1' :: List.replicate (Json.mostDigits + n) (.char '1')) =
      .error .hugeInteger := by
    have hword : Json.words.find? (fun w => w.1.isPrefixOf
        (.char '1' :: List.replicate (Json.mostDigits + n) (.char '1'))) = none := rfl
    have hdigit : Json.isDigit (.char '1') = true := by decide
    have hlen : Json.mostDigits < Json.mostDigits + n + 1 := by omega
    unfold Json.scalar
    rw [hword]
    simp [Json.magnitude?, hdigit, Json.numberFrom, Json.fraction?, Json.exponent?, hlen]
  have hread : Json.read (.char '1' :: List.replicate (Json.mostDigits + n) (.char '1')) =
      .error .hugeInteger := by
    have hvalue : ∀ m, Json.value (m + 1)
        (.char '1' :: List.replicate (Json.mostDigits + n) (.char '1')) =
          Json.scalar (.char '1' :: List.replicate (Json.mostDigits + n) (.char '1')) :=
      fun m => rfl
    have hskip : Json.skip (.char '1' :: List.replicate (Json.mostDigits + n) (.char '1')) =
        .char '1' :: List.replicate (Json.mostDigits + n) (.char '1') := rfl
    unfold Json.read
    rw [if_neg (by simp), hskip, hvalue, hscalar]
    rfl
  rw [Manifest.patch, hpoints, hread]

/-- A manifest that is such an integer ends the run that comes upon it, and a dry run too. -/
theorem Setup.visit_hugeInteger {x : Setup} {v : Visit} {d : Disk} {n : Nat}
    (hv : v.fileType = .json) (hread : Session.readText d (x.path v) = .ok (hugeInteger n)) :
    x.visit v d = ⟨d, [], some (.crash .hugeInteger)⟩ := by
  unfold Setup.visit
  rw [hread, hv]
  simp only [Setup.newText_json, patch_hugeInteger]
  rfl

theorem run_hugeInteger (n : Nat) (dryRun : Bool) :
    (run (fun _ => .ok []) (manifestDisk (Text.Utf8.encode (hugeInteger n))) 2024
      (manifestJob dryRun)).2 = some (.crash .hugeInteger) := by
  let x := Setup.ofJob (fun _ => .ok []) (manifestJob dryRun) ⟨[], .ofRoot [['l']]⟩
  have hrun := run_follows (fun _ => .ok []) (manifestJob_kinds dryRun)
    (Licence.consistent_ofFile _ _)
    (manifestJob_load dryRun (Text.Utf8.encode (hugeInteger n)))
  have hagenda : agenda (manifestJob dryRun) (manifestDisk (Text.Utf8.encode (hugeInteger n)))
      [⟨['j', 's', 'o', 'n'], .json⟩] [] = [⟨.json, [manifestName]⟩] := rfl
  have hread : Session.readText (manifestDisk (Text.Utf8.encode (hugeInteger n)))
      (x.path ⟨.json, [manifestName]⟩) = .ok (hugeInteger n) := by
    have hbytes : (manifestDisk (Text.Utf8.encode (hugeInteger n))).read
        (x.path ⟨.json, [manifestName]⟩) = .ok (Text.Utf8.encode (hugeInteger n)) := rfl
    rw [Session.readText, hbytes]
    simp only [Text.Utf8.decode_encode]
    rfl
  rw [hrun.2.2, hagenda, Setup.perform, Setup.visit_hugeInteger rfl hread]
  rfl

/-- A per-file failure that ends a run: its extension is supported and its licence loads. -/
theorem run_ends_at_hugeInteger :
    kinds (manifestJob true).extensions = .ok [⟨['j', 's', 'o', 'n'], .json⟩] ∧
    ((manifestJob true).licence.load (manifestDisk (Text.Utf8.encode (hugeInteger 0)))
      2024).result = .ok ⟨[], .ofRoot [['l']]⟩ ∧
    (run (fun _ => .ok []) (manifestDisk (Text.Utf8.encode (hugeInteger 0))) 2024
      (manifestJob true)).2 ≠ none :=
  ⟨rfl, rfl, by simp [run_hugeInteger]⟩

end Letterhead.Update
