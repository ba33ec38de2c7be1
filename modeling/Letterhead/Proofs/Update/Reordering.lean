import Letterhead.Proofs.Disk.Files
import Letterhead.Proofs.Update.Parity
/-
# The order of the extensions does not matter

A file has one type, whichever of its extensions comes first, so runs whose extensions are the
same in another order or number make the same visits in another order (`agenda_perm`). A visit
writes no file but its own, and what it makes of it is a matter of what the file held before the
run. So visits leave one disk and one ledger in whatever order they are made (`perform_perm`),
and so do the runs (`order_of_extensions`).
-/
namespace Letterhead

open Text (toPoints)

/-- The job with other extensions. -/
def Job.withExtensions (j : Job) (extensions : List Text) : Job :=
  { j with extensions := extensions }

namespace Update

/-! ## The same visits -/

section
variable {j : Job} {d : Disk} {es : List Text} {ks ks' : List Kind} {v : Visit}

/-- What a run visits is found by one of its extensions, and is a candidate of the type of it. -/
theorem mem_agenda_iff (hk : kinds j.extensions = .ok ks) : v ∈ agenda j d ks [] ↔
    ∃ e ∈ j.extensions, FileType.ofExtension? e = some v.fileType ∧
      v.file ∈ j.finder.find d e ∧ isCandidate v.fileType v.file := by
  obtain ⟨all, rfl, hext, htyped⟩ := exists_of_kinds hk
  rw [agenda_eraseDups, mem_agenda htyped, ← hext]
  constructor
  · rintro ⟨-, k, hk, htype, hfound, hc⟩
    exact ⟨k.extension, List.mem_map_of_mem hk, htype ▸ htyped k hk, hfound, htype ▸ hc⟩
  · rintro ⟨e, he, htype, hfound, hc⟩
    obtain ⟨k, hk, rfl⟩ := List.mem_map.1 he
    obtain heq := Option.some.inj ((htyped k hk).symm.trans htype)
    exact ⟨by simp, k, hk, heq.symm, hfound, heq ▸ hc⟩

/-- Runs with the same extensions make the same visits. -/
theorem agenda_perm (hd : d.root.IsProper) (hsame : ∀ e, e ∈ es ↔ e ∈ j.extensions)
    (hk : kinds j.extensions = .ok ks) (hk' : kinds es = .ok ks') :
    (agenda (j.withExtensions es) d ks' []).Perm (agenda j d ks []) := by
  have hnodup : ∀ {j : Job} {ks}, kinds j.extensions = .ok ks → (agenda j d ks []).Nodup :=
    fun hk => .of_map Visit.file (.of_map RelPath.id (agenda_ids_nodup hd hk))
  have hk' : kinds (j.withExtensions es).extensions = .ok ks' := hk'
  refine (List.perm_ext_iff_of_nodup (hnodup hk') (hnodup hk)).2 fun v => ?_
  rw [mem_agenda_iff hk', mem_agenda_iff hk]
  exact exists_congr fun e => and_congr_left fun _ => hsame e

end

/-! ## Visits in another order -/

namespace Setup

variable {x : Setup} {vs vs' : List Visit} {d d₁ d₂ : Disk} {base place : List Text} {t : FileType}

/-- What a file is rewritten to is a matter of what it held. -/
theorem Rewrites.unique (h₁ : x.Rewrites t place d d₁) (h₂ : x.Rewrites t place d d₂) :
    d₁.root.at? place = d₂.root.at? place := by
  obtain ⟨a, b, old, new, hat, hdecode, hnew, -, hnow⟩ := h₁
  obtain ⟨a', b', old', new', hat', hdecode', hnew', -, hnow'⟩ := h₂
  obtain ⟨rfl, rfl⟩ := FileTree.file.inj (Option.some.inj (hat.symm.trans hat'))
  obtain rfl := Except.ok.inj (hdecode.symm.trans hdecode')
  obtain rfl := Text.toPoints_injective (Except.ok.inj (hnew.symm.trans hnew'))
  rw [hnow, hnow']

/-- Visits to different files leave the same disk and the same records in whatever order they are
made. -/
theorem perform_perm (hdry : x.dryRun = false) (hd : d.root.IsProper) (hperm : vs'.Perm vs)
    (hplace : ∀ v ∈ vs, ∀ q, d.locate (x.path v) = .ok q → q = base ++ v.file)
    (hnodup : (vs.map Visit.file).Nodup) (hh : (x.perform vs d).halt = none)
    (hh' : (x.perform vs' d).halt = none) :
    (x.perform vs' d).disk = (x.perform vs d).disk ∧
      (x.perform vs' d).ledger.Perm (x.perform vs d).ledger := by
  have hplace' : ∀ v ∈ vs', ∀ q, d.locate (x.path v) = .ok q → q = base ++ v.file :=
    fun v hv => hplace v (hperm.mem_iff.1 hv)
  have hnodup' : (vs'.map Visit.file).Nodup := (hperm.map Visit.file).nodup_iff.2 hnodup
  have hledger : (x.perform vs' d).ledger.Perm (x.perform vs d).ledger := by
    obtain ⟨-, hrecords⟩ := perform_realises hdry rfl hplace (fun _ _ _ _ hat => hat) hnodup hh
    obtain ⟨-, hrecords'⟩ :=
      perform_realises hdry rfl hplace' (fun _ _ _ _ hat => hat) hnodup' hh'
    rw [hrecords, hrecords']
    exact (hperm.flatMap_right _).map _
  obtain ⟨hkept, hwritten⟩ := perform_rewrites hdry hplace hnodup hh
  obtain ⟨hkept', hwritten'⟩ := perform_rewrites hdry hplace' hnodup' hh'
  have ho := x.outline_perform vs d
  have ho' := x.outline_perform vs' d
  refine ⟨Disk.eq_of_outline (Disk.isProper_of_outline ho hd) (ho'.trans ho.symm)
    fun q a b b' hat hat' => ?_, hledger⟩
  by_cases hq : ∃ r, (r, .fixed) ∈ (x.perform vs d).ledger ∧ q = base ++ r
  · -- both have rewritten the file, as one of the same type
    obtain ⟨r, hr, rfl⟩ := hq
    obtain ⟨v, hv, hfile, hrewrites⟩ := hwritten r hr
    obtain ⟨v', hv', hfile', hrewrites'⟩ := hwritten' r (hledger.mem_iff.2 hr)
    obtain rfl := List.inj_on_of_nodup_map hnodup hv (hperm.mem_iff.1 hv')
      (hfile.trans hfile'.symm)
    have hsame := hrewrites.unique hrewrites'
    rw [hat, hat'] at hsame
    exact (FileTree.file.inj (Option.some.inj hsame)).2.symm
  · obtain ⟨b₀, hold⟩ := Disk.exists_file_of_outline ho hat
    have hnow := hkept q a b₀ (fun r hr heq => hq ⟨r, hr, heq⟩) hold
    have hnow' := hkept' q a b₀ (fun r hr heq => hq ⟨r, hledger.mem_iff.1 hr, heq⟩) hold
    obtain ⟨-, rfl⟩ := FileTree.file.inj (Option.some.inj (hat.symm.trans hnow))
    exact (FileTree.file.inj (Option.some.inj (hat'.symm.trans hnow'))).2

end Setup

/-! ## Runs whose licence does not load -/

section
variable {j : Job} {d : Disk} {year : Nat} {h : Halt}

/-- Nothing is written, the licence is as it was, and every file that was visited has failed. -/
def AllFailed (j : Job) (d : Disk) : Standing := fun done d' l r =>
  d' = d ∧ l = j.licence ∧ r = Report.empty.recordAll (done.map fun v => (v.file, .failed))

theorem allFailed_carried (hl : (j.licence.load d year).result = .error h) :
    CarriedByFiles (AllFailed j d) j year [] := by
  rintro done v s ⟨hdisk, hlicence, hreport⟩
  obtain ⟨s', h', hd, hli, hr, heq⟩ :=
    processFile_of_not_loading hl hdisk hlicence v.fileType v.file
  rw [heq]
  unfold Session.recover
  split
  · refine ⟨[v], List.prefix_rfl, fun _ => rfl, hd, hli, ?_⟩
    rw [List.map_append, Report.recordAll_append, ← hreport, ← hr]
    rfl
  · exact ⟨[], List.nil_prefix, by simp, hd, hli, by simpa using hr.trans hreport⟩

/-- Such a run, if it returns, writes nothing and reports all that it visits as failed. -/
theorem allFailed_of_not_loading (read : Php.Reader) {ks : List Kind}
    (hk : kinds j.extensions = .ok ks) (hc : j.licence.Consistent)
    (hl : (j.licence.load d year).result = .error h) (hrun : (run read d year j).2 = none) :
    (run read d year j).1.disk = d ∧ (run read d year j).1.report =
      Report.empty.recordAll ((agenda j d ks []).map fun v => (v.file, .failed)) := by
  obtain ⟨ks', hk', hdisk, -, hreport⟩ :=
    standing_of_not_loading read hc hl (allFailed_carried hl) ⟨rfl, rfl, rfl⟩ hrun
  obtain rfl := Except.ok.inj (hk.symm.trans hk')
  exact ⟨hdisk, hreport⟩

end

/-! ## The two runs -/

/-- Ledgers with the same entries make the same report, but for the order in its lists. -/
theorem files_perm {ledger ledger' : List (RelPath × Outcome)} (h : ledger'.Perm ledger)
    (o : Outcome) : ((Report.empty.recordAll ledger').files o).Perm
      ((Report.empty.recordAll ledger).files o) := by
  rw [Report.files_ofLedger, Report.files_ofLedger]
  exact (h.filter _).map _

/-- The order of the extensions does not matter, nor how often one is listed. Through a tree
without links, two real runs with the same extensions, if they return, leave the same disk, and
their reports hold the same files under each outcome. -/
theorem order_of_extensions (read : Php.Reader) {d : Disk} {year : Nat} {j : Job}
    {extensions : List Text} (ht : LinkFree j d) (hc : j.licence.Consistent)
    (hdry : j.dryRun = false) (hsame : ∀ e, e ∈ extensions ↔ e ∈ j.extensions)
    (hrun : (run read d year j).2 = none)
    (hrun' : (run read d year (j.withExtensions extensions)).2 = none) :
    let first := (run read d year j).1
    let second := (run read d year (j.withExtensions extensions)).1
    second.disk = first.disk ∧ ∀ o, (second.report.files o).Perm (first.report.files o) := by
  intro first second
  obtain ⟨ks, base, hk, -, hplace, hnodup⟩ := ht.exists_agenda hrun
  obtain ⟨ks', hk', -⟩ := exists_ledger read hrun'
  have hperm := agenda_perm ht.proper hsame hk hk'
  cases hl : (j.licence.load d year).result with
  | error h =>
    obtain ⟨hdisk, hreport⟩ := allFailed_of_not_loading read hk hc hl hrun
    obtain ⟨hdisk', hreport'⟩ :=
      allFailed_of_not_loading (j := j.withExtensions extensions) read hk' hc hl hrun'
    refine ⟨hdisk'.trans hdisk.symm, fun o => ?_⟩
    rw [show first.report = _ from hreport, show second.report = _ from hreport']
    exact files_perm (hperm.map _) o
  | ok loaded =>
    obtain ⟨hdisk, hreport, hhalt⟩ := run_follows read hk hc hl
    obtain ⟨hdisk', hreport', hhalt'⟩ :=
      run_follows (j := j.withExtensions extensions) read hk' hc hl
    obtain ⟨hdisks, hledger⟩ := Setup.perform_perm (x := Setup.ofJob read j loaded) hdry ht.proper
      hperm hplace hnodup (hhalt.symm.trans hrun) (hhalt'.symm.trans hrun')
    refine ⟨hdisk'.trans (hdisks.trans hdisk.symm), fun o => ?_⟩
    rw [show first.report = _ from hreport, show second.report = _ from hreport']
    exact files_perm hledger o

/-- The extensions of the pages the other way about, each as often as one likes. -/
def turnedExtensions : List Text :=
  ["json".toList, "twig".toList, ".twig".toList, "twig".toList, "html.twig".toList]

theorem order_of_extensions_pages :
    (∀ e, e ∈ turnedExtensions ↔ e ∈ pagesJob.extensions) ∧
    turnedExtensions ≠ pagesJob.extensions ∧
    (run (fun _ => .ok []) pagesDisk 2024 (pagesJob.withExtensions turnedExtensions)).2 = none ∧
    (run (fun _ => .ok []) pagesDisk 2024 (pagesJob.withExtensions turnedExtensions)).1.disk =
      (run (fun _ => .ok []) pagesDisk 2024 pagesJob).1.disk ∧
    ((run (fun _ => .ok []) pagesDisk 2024
      (pagesJob.withExtensions turnedExtensions)).1.report.files .fixed).Perm
        ["z.html.twig".toList, "package.json".toList] := by
  have hreturns : (run (fun _ => .ok []) pagesDisk 2024
      (pagesJob.withExtensions turnedExtensions)).2 = none := by
    decide +kernel
  have hsub : turnedExtensions ⊆ pagesJob.extensions := by decide +kernel
  have hsub' : pagesJob.extensions ⊆ turnedExtensions := by decide +kernel
  have hsame : ∀ e, e ∈ turnedExtensions ↔ e ∈ pagesJob.extensions :=
    fun e => ⟨fun he => hsub he, fun he => hsub' he⟩
  obtain ⟨hdisk, hfiles⟩ := order_of_extensions (fun _ => .ok []) pagesJob_linkFree
    (Licence.consistent_ofFile _ _) rfl hsame pagesJob_returns hreturns
  refine ⟨hsame, by decide +kernel, hreturns, hdisk, ?_⟩
  have hfixed := hfiles .fixed
  rw [pagesJob_report] at hfixed
  exact hfixed

end Update
end Letterhead
