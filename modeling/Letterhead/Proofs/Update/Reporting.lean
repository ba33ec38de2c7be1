import Letterhead.Proofs.Update.Agenda
import Letterhead.Proofs.Update.Simulation
import Letterhead.Proofs.Update.Standing
/-
# The report is exact

The ledger of a run that returns names the files that it visited, each once. With what a run
visits this says what its report holds (`report_exact`): every candidate under one of the three
outcomes, and nothing else, in the order in which files are processed.
-/
namespace Letterhead

namespace Report

theorem files_ofLedger (ledger : List (RelPath × Outcome)) (o : Outcome) :
    (empty.recordAll ledger).files o =
      (ledger.filter (·.2 = o)).map fun e => RelPath.id e.1 := by
  rw [files_recordAll]
  cases o <;> rfl

/-- Every entry of a ledger has one of the three outcomes. -/
theorem perm_outcomes (ledger : List (RelPath × Outcome)) :
    (ledger.filter (·.2 = .fixed) ++ ledger.filter (·.2 = .unchanged) ++
      ledger.filter (·.2 = .failed)).Perm ledger := by
  induction ledger with
  | nil => exact .refl _
  | cons e ledger ih =>
    obtain ⟨r, o⟩ := e
    cases o with
    | fixed => simpa using ih.cons (r, .fixed)
    | unchanged =>
      simp only [List.append_assoc] at ih ⊢
      simpa using List.perm_middle.trans (ih.cons (r, .unchanged))
    | failed => simpa using List.perm_middle.trans (ih.cons (r, .failed))

end Report

namespace Update

variable {j : Job} {d : Disk} {year : Nat} {ks : List Kind}

/-- The report is that of a ledger of the visits that are done. -/
def Reported : Standing := fun done _ _ r =>
  ∃ ledger : List (RelPath × Outcome),
    ledger.map Prod.fst = done.map Visit.file ∧ r = Report.empty.recordAll ledger

theorem reported_carried (j : Job) (year : Nat) (stamps : List Stamp) :
    CarriedByFiles Reported j year stamps := by
  rintro done v s ⟨ledger, hfiles, hreport⟩
  have hturn := Session.turn_processFile j year (treatmentOf stamps v.fileType) s v.file
  generalize s.processFile j year (treatmentOf stamps v.fileType) v.file = step at hturn ⊢
  have hrecorded : ∀ {s' : Session} {o : Outcome}, s'.report = s.report.record o v.file.id →
      Carries Reported done [v] (s', none) := fun {s' o} h => by
    refine ⟨[v], List.prefix_rfl, fun _ => rfl, ledger ++ [(v.file, o)], by simp [hfiles], ?_⟩
    rw [h, hreport, Report.recordAll_append]
    rfl
  have hhalted : ∀ {s' : Session} {h : Halt}, s'.report = s.report →
      Carries Reported done [v] (s', some h) := fun {s' h} hsame =>
    ⟨[], List.nil_prefix, by simp, ledger, by simpa using hfiles, hsame.trans hreport⟩
  cases hturn with
  | recorded hdisk h => exact hrecorded h
  | written hdry hw h => exact hrecorded h
  | halted hdisk h => exact hhalted h
  | cut hdry hw h => exact hhalted h

/-- A run that returns has recorded each of its visits. -/
theorem exists_ledger (read : Php.Reader) (hrun : (run read d year j).2 = none) :
    ∃ ks, kinds j.extensions = .ok ks ∧ ∃ ledger : List (RelPath × Outcome),
      ledger.map Prod.fst = (agenda j d ks []).map Visit.file ∧
      (run read d year j).1.report = Report.empty.recordAll ledger := by
  rcases run_starts read d year j with ⟨ks, stamps, hk, hst⟩ | ⟨hhalt, -⟩
  · have hcarried := run_carries hk hst (reported_carried j year stamps) ⟨[], rfl, rfl⟩
    exact ⟨ks, hk, hcarried.standing hrun⟩
  · exact absurd hrun hhalt

/-- When a run returns, its report holds every candidate under one outcome and nothing else, and
under each outcome the files stand in the order in which they were processed. No two candidates
share an entry, since their texts differ. -/
theorem report_exact (read : Php.Reader) (hd : d.root.IsProper)
    (hrun : (run read d year j).2 = none) :
    ∃ files : List RelPath,
      (∀ r, r ∈ files ↔ j.Candidate d r) ∧ files.Pairwise (j.Precedes d) ∧
      (files.map RelPath.id).Nodup ∧
      ((run read d year j).1.report.fixed ++ (run read d year j).1.report.unchanged ++
        (run read d year j).1.report.failed).Perm (files.map RelPath.id) ∧
      ∀ o, ((run read d year j).1.report.files o).Sublist (files.map RelPath.id) := by
  obtain ⟨ks, hk, ledger, hfiles, hreport⟩ := exists_ledger read hrun
  obtain ⟨-, hmem, hpairwise⟩ := agenda_exact hd hk
  have hids : ledger.map (fun e => RelPath.id e.1) =
      ((agenda j d ks []).map Visit.file).map RelPath.id := by
    rw [← hfiles, List.map_map]
    rfl
  refine ⟨(agenda j d ks []).map Visit.file, hmem, hpairwise, agenda_ids_nodup hd hk, ?_,
    fun o => ?_⟩
  · have hperm := (Report.perm_outcomes ledger).map fun e => RelPath.id e.1
    rw [hids, List.map_append, List.map_append, ← Report.files_ofLedger,
      ← Report.files_ofLedger, ← Report.files_ofLedger, ← hreport] at hperm
    exact hperm
  · rw [hreport, Report.files_ofLedger, ← hids]
    exact List.filter_sublist.map _

/-- A page that two extensions find, one that cannot be written, a manifest and another JSON
file. -/
def pagesDisk : Disk :=
  ⟨.folder .full
    [("l".toList, .file .full []),
     ("t".toList, .folder .full
       [("package.json".toList, .file .full (Text.Utf8.encode "{}".toList)),
        ("other.json".toList, .file .full []),
        ("z.html.twig".toList, .file .full []),
        ("sub".toList, .folder .full [("a.twig".toList, .file ⟨true, false, false⟩ [])])])], []⟩

/-- The job to stamp the pages, with extensions that overlap and repeat. -/
def pagesJob : Job :=
  ⟨.ofRoot ["t".toList], .ofFile (.ofRoot []) (.ofRoot ["l".toList]),
    ["html.twig".toList, ".twig".toList, "json".toList, "twig".toList, "json".toList], [], [],
    Config.defaultMarker, false, true⟩

theorem pagesDisk_isProper : pagesDisk.root.IsProper := by
  simp only [pagesDisk, FileTree.IsProper, FileTree.Every, FileTree.EveryOf,
    FileTree.HasProperNames, IsName]
  decide +kernel

theorem pagesJob_returns : (run (fun _ => .ok []) pagesDisk 2024 pagesJob).2 = none := by
  decide +kernel

theorem pagesJob_report : (run (fun _ => .ok []) pagesDisk 2024 pagesJob).1.report =
    ⟨["z.html.twig".toList, "package.json".toList], [], ["sub/a.twig".toList]⟩ := by
  decide +kernel

theorem report_exact_pages :
    pagesDisk.root.IsProper ∧ (run (fun _ => .ok []) pagesDisk 2024 pagesJob).2 = none ∧
    ∃ files : List RelPath,
      (∀ r, r ∈ files ↔ pagesJob.Candidate pagesDisk r) ∧
      files.Pairwise (pagesJob.Precedes pagesDisk) ∧
      ["z.html.twig".toList, "package.json".toList, "sub/a.twig".toList].Perm
        (files.map RelPath.id) := by
  obtain ⟨files, hmem, hpairwise, -, hperm, -⟩ :=
    report_exact (fun _ => .ok []) pagesDisk_isProper pagesJob_returns
  rw [pagesJob_report] at hperm
  exact ⟨pagesDisk_isProper, pagesJob_returns, files, hmem, hpairwise, hperm⟩

end Update
end Letterhead
