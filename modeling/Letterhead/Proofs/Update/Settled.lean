import Letterhead.Proofs.Header.Restamping
import Letterhead.Proofs.Licence.Reloading
import Letterhead.Proofs.Manifest.Patching
import Letterhead.Proofs.Update.Parity
/-
# A second run changes nothing

What a setup makes of a text it leaves as it is (`Setup.Settles`). So a visit to a file that a run
has left records it as unchanged if the run has fixed it, and else as the run has
(`visit_again`). No visit of a run touches the file of another, so a run over what a run has left
records the same ledger, with `unchanged` for `fixed` (`second_run_changes_nothing`).
-/
namespace Letterhead

open Text (toPoints)
open Text.Utf8 (encode)

/-- What becomes of a file by a second run, by what became of it by the first. -/
def Outcome.settled : Outcome → Outcome
  | .fixed => .unchanged
  | o => o

namespace Update

namespace Setup

/-- The setup leaves the texts as they are that it has made. -/
def Settles (x : Setup) : Prop :=
  ∀ t old s, x.newText t old = .ok (toPoints s) → x.newText t s = .ok (toPoints s)

variable {x : Setup} {v : Visit} {vs : List Visit} {d d' : Disk} {base : List Text}

/-- A setup settles if every header that it puts in is found again. -/
theorem settles_of_stampable
    (h : ∀ t ≠ .php, Stampable x.read x.marker x.licence.text t)
    (hphp : Php.KeepsHeaders x.read x.marker x.licence.text) : x.Settles := by
  intro t old s hn
  unfold newText at hn ⊢
  split at hn
  · next ht =>
    cases hp : Manifest.patch x.licence.source.text (toPoints old) with
    | error f => simp [hp] at hn
    | ok patched =>
      obtain rfl : patched = toPoints s := by simpa [hp] using hn
      rw [if_pos ht, Manifest.patch_again hp]
      rfl
  · next ht =>
    rw [if_neg ht]
    cases hs : (Stamp.ofLicence x.read x.marker x.licence.text t).apply old with
    | error e => simp [hs] at hn
    | ok s' =>
      obtain rfl : s' = s := Text.toPoints_injective (by simpa [hs] using hn)
      have hagain : (Stamp.ofLicence x.read x.marker x.licence.text t).apply s' = .ok s' := by
        by_cases hphp' : t = .php
        · subst hphp'
          exact hphp.apply_again (h .js (by simp)).paired hs
        · exact (h t hphp').apply_again hphp' hs
      rw [hagain]

/-! ## One file -/

/-- A file that was written is read as the text that was written. -/
theorem readText_of_write {p : Path} {old s : Text} (hr : Session.readText d p = .ok old)
    (hw : d.write p (encode s) = .ok d') : Session.readText d' p = .ok s := by
  obtain ⟨b, hb⟩ : ∃ b, d.read p = .ok b := by
    cases hb : d.read p with
    | error e => simp [Session.readText, hb] at hr
    | ok b => exact ⟨b, rfl⟩
  obtain ⟨place, a, hp, hat, hread⟩ := Disk.read_eq_ok.1 hb
  have hlocate := Disk.locate_of_outline (Disk.outline_of_write hw) p
  obtain ⟨place', -, -, hp', -, -, rfl⟩ := Disk.write_eq_ok.1 hw
  obtain rfl : place = place' := Except.ok.inj (hp.symm.trans hp')
  have hnow := Disk.read_eq_ok.2 ⟨place, a, hlocate.trans hp,
    (FileTree.at?_writeAt hat).2 (.inl ⟨rfl, rfl, rfl⟩), hread⟩
  simp only [Session.readText, hnow, Text.Utf8.decode_encode, mapError_ok]

/-- On what a visit leaves of its file, a visit makes the record of a second run, and leaves the
disk as it is. -/
theorem visit_again (hx : x.Settles) (hdry : x.dryRun = false) (ho : d'.outline = d.outline)
    (hread : Session.readText d' (x.path v) = Session.readText (x.visit v d).disk (x.path v))
    (hh : (x.visit v d).halt = none) :
    ∃ o, (x.visit v d).ledger = [(v.file, o)] ∧
      x.visit v d' = ⟨d', [(v.file, o.settled)], none⟩ := by
  revert hread hh
  refine visit_rec (P := fun c => Session.readText d' (x.path v) =
      Session.readText c.disk (x.path v) → c.halt = none →
    ∃ o, c.ledger = [(v.file, o)] ∧ x.visit v d' = ⟨d', [(v.file, o.settled)], none⟩)
    fun c hc hread hh => ?_
  cases hc with
  | unread hr =>
    rw [hr] at hread
    refine ⟨.failed, rfl, ?_⟩
    simp only [visit, hread, settle_of_readText hread, Outcome.settled]
  | untreated hr hn hne =>
    rw [hr] at hread
    refine ⟨.failed, rfl, ?_⟩
    have hsettle := (settle_of_newText d' v.file hn).resolve_right fun h => hne h.2.1
    simp only [visit, hread, hn, hsettle, Outcome.settled]
  | huge hr ht hn => simp at hh
  | unchanged hr hn =>
    rw [hr] at hread
    exact ⟨.unchanged, rfl, by simp only [visit, hread, hn, if_true, Outcome.settled]⟩
  | dry hr hn hne hdry' => simp [hdry] at hdry'
  | @unwritten old new bytes e hr hn hne hdry' hw =>
    rw [hr] at hread
    refine ⟨.failed, rfl, ?_⟩
    have hrefused : ∀ bytes, d'.write (x.path v) bytes = .error e := fun bytes =>
      (Disk.write_error_of_outline ho).2 (Disk.write_error hw bytes)
    simp only [visit, hread, hn, if_neg hne, hdry, write, hrefused, Outcome.settled]
    rfl
  | written hr hn hne hdry' hw =>
    rw [readText_of_write hr hw] at hread
    exact ⟨.fixed, rfl, by simp only [visit, hread, hx _ _ _ hn, if_true, Outcome.settled]⟩
  | cut hr ht hn he hdry' hw => simp at hh

/-! ## All files -/

/-- Visits to what they have left make the records of a second run, each by itself. -/
theorem perform_again (hx : x.Settles) (hdry : x.dryRun = false) (ho : d'.outline = d.outline)
    (hplace : ∀ v ∈ vs, ∀ q, d.locate (x.path v) = .ok q → q = base ++ v.file)
    (hkept : ∀ v ∈ vs, ∀ a b, (x.perform vs d).disk.root.at? (base ++ v.file) = some (.file a b) →
      d'.root.at? (base ++ v.file) = some (.file a b))
    (hnodup : (vs.map Visit.file).Nodup) (hh : (x.perform vs d).halt = none) :
    (∀ v ∈ vs, ∃ o, x.visit v d' = ⟨d', [(v.file, o)], none⟩) ∧
    (vs.flatMap fun v => (x.visit v d').ledger) =
      (x.perform vs d).ledger.map fun e => (e.1, e.2.settled) := by
  induction vs generalizing d with
  | nil => simp [perform]
  | cons v vs ih =>
    rw [perform] at hh hkept ⊢
    cases hv : (x.visit v d).halt with
    | some h => simp [Course.andThen_of_some hv, hv] at hh
    | none =>
      rw [Course.andThen_of_none hv] at hh hkept ⊢
      obtain ⟨hplace0, hplaces⟩ := List.forall_mem_cons.1 hplace
      obtain ⟨hkept0, hkepts⟩ := List.forall_mem_cons.1 hkept
      obtain ⟨hfirst, hrest⟩ := List.nodup_cons.1 (List.map_cons ▸ hnodup)
      have ho1 : (x.visit v d).disk.outline = d.outline := outline_visit x v d
      have hplaces1 : ∀ u ∈ vs, ∀ q, (x.visit v d).disk.locate (x.path u) = .ok q →
          q = base ++ u.file := fun u hu q hq =>
        hplaces u hu q (Disk.locate_of_outline ho1 _ ▸ hq)
      -- no later visit is to the file of the first
      have hstays := (perform_rewrites hdry hplaces1 hrest hh).1
      have hother : ∀ r, (r, .fixed) ∈ (x.perform vs (x.visit v d).disk).ledger →
          base ++ v.file ≠ base ++ r := fun r hr heq => by
        obtain rfl := List.append_cancel_left heq
        exact hfirst (ledger_perform hh ▸ List.mem_map_of_mem hr)
      have hread : Session.readText d' (x.path v) =
          Session.readText (x.visit v d).disk (x.path v) :=
        readText_of_outline (ho.trans ho1.symm) fun q a b hq hat => by
          obtain rfl := hplace0 q (Disk.locate_of_outline ho1 _ ▸ hq)
          exact hkept0 a b (hstays _ a b hother hat)
      obtain ⟨o, hledger, hagain⟩ := visit_again hx hdry ho hread hv
      obtain ⟨hvisits, hrecords⟩ := ih (ho.trans ho1.symm) hplaces1 hkepts hrest hh
      refine ⟨List.forall_mem_cons.2 ⟨⟨_, hagain⟩, hvisits⟩, ?_⟩
      rw [List.flatMap_cons, hrecords, hagain, hledger]
      rfl

end Setup

/-! ## Two runs -/

section

variable {ledger : List (RelPath × Outcome)} {o : Outcome}

theorem files_settled :
    (Report.empty.recordAll (ledger.map fun e => (e.1, e.2.settled))).files o =
      (ledger.filter fun e => e.2.settled = o).map fun e => RelPath.id e.1 := by
  rw [Report.files_ofLedger, List.filter_map, List.map_map]
  rfl

theorem fixed_settled :
    (Report.empty.recordAll (ledger.map fun e => (e.1, e.2.settled))).files .fixed = [] := by
  rw [files_settled, List.filter_eq_nil_iff.2 fun e _ => ?_, List.map_nil]
  obtain ⟨r, o⟩ := e
  cases o <;> simp [Outcome.settled]

theorem failed_settled :
    (Report.empty.recordAll (ledger.map fun e => (e.1, e.2.settled))).files .failed =
      (Report.empty.recordAll ledger).files .failed := by
  rw [files_settled, Report.files_ofLedger]
  congr 2
  funext e
  obtain ⟨r, o⟩ := e
  cases o <;> rfl

theorem unchanged_settled :
    ((Report.empty.recordAll (ledger.map fun e => (e.1, e.2.settled))).files .unchanged).Perm
      ((Report.empty.recordAll ledger).files .fixed ++
        (Report.empty.recordAll ledger).files .unchanged) := by
  rw [files_settled, Report.files_ofLedger, Report.files_ofLedger, ← List.map_append]
  refine .map _ ?_
  induction ledger with
  | nil => exact .refl _
  | cons e ledger ih =>
    obtain ⟨r, o⟩ := e
    cases o with
    | fixed => simpa [Outcome.settled] using ih
    | unchanged => simpa [Outcome.settled] using (ih.cons _).trans List.perm_middle.symm
    | failed => simpa [Outcome.settled] using ih

end

variable {j : Job} {d d' : Disk}

theorem agenda_of_outline (h : d'.outline = d.outline) (ks : List Kind) (handled : List RelPath) :
    agenda j d' ks handled = agenda j d ks handled := by
  induction ks generalizing handled with
  | nil => rfl
  | cons k ks ih => simp only [agenda, newFiles, Finder.find_of_outline h, ih]

/-- No supported extension ends the name of a licence file that comes along. -/
theorem bundled_not_supported : ∀ p ∈ FileType.extensions, ∀ f ∈ Licence.Bundled.files,
    ¬ ('.' :: p.1) <:+ f.1.map Text.lowerChar := by
  decide +kernel

/-- No file that is processed is the file of a licence that comes along. -/
theorem names_ne_of_candidate {r : RelPath} (hr : j.Candidate d r) {p : Path} {licence : Text}
    (hp : (p.name, licence) ∈ Licence.Bundled.files) (base : List Text) : p.names ≠ base ++ r := by
  obtain ⟨e, -, t, het, hfound, -⟩ := hr
  obtain ⟨-, u, -, -, hs⟩ := Finder.seen_of_mem_find hfound
  obtain ⟨extension, hmem, -, hlower⟩ := Finder.exists_lowered_suffix het
  intro heq
  have hname : p.name = r.getLast?.getD [] := by
    rw [Path.name, heq, List.getLast?_append_of_ne_nil _ hs.ne_nil]
  refine bundled_not_supported extension hmem _ hp ?_
  rw [← hlower, hname]
  exact hs.suffix_getLast.map _

/-- The licence of a run, if it is one of those that come along, loads from what the run leaves. -/
theorem load_after_run {x : Setup} {base : List Text} {vs : List Visit} {loaded : Licence.Loaded}
    (hb : j.licence.IsBundled d loaded) (hcandidate : ∀ v ∈ vs, j.Candidate d v.file)
    (hkept : ∀ q a b, (∀ r, (r, .fixed) ∈ (x.perform vs d).ledger → q ≠ base ++ r) →
      d.root.at? q = some (.file a b) → (x.perform vs d).disk.root.at? q = some (.file a b))
    (hh : (x.perform vs d).halt = none) (year : Nat) :
    (j.licence.load (x.perform vs d).disk year).result = .ok loaded := by
  have hother : ∀ r, (r, .fixed) ∈ (x.perform vs d).ledger → loaded.source.names ≠ base ++ r := by
    intro r hr
    have hfile : r ∈ vs.map Visit.file := Setup.ledger_perform hh ▸ List.mem_map_of_mem hr
    obtain ⟨v, hv, rfl⟩ := List.mem_map.1 hfile
    exact names_ne_of_candidate (hcandidate v hv) hb.bundled base
  exact Licence.load_of_outline (x.outline_perform vs d) (hb.loads year) fun a b =>
    hkept _ a b hother

theorem stampable_of_bundled (read : Php.Reader) {f : Text × Text}
    (hf : f ∈ Licence.Bundled.files) {t : FileType} (ht : t ≠ .php) :
    Stampable read Config.defaultMarker f.2 t :=
  stampable_of_scansFind read plain_defaultMarker (scansFind_of_mem (List.mem_map_of_mem hf)) ht

/-- When a run with a licence that comes along and the default marker has returned, through a
tree without links, a second run with the same settings returns too, in whatever year. It fixes
no file and leaves the disk as it is. It reports as unchanged what the first run has fixed or
found unchanged, and as failed what has failed in the first run. The parser of PHP is relied on
to tell a header where it was put. -/
theorem second_run_changes_nothing (read : Php.Reader) {year : Nat} {loaded : Licence.Loaded}
    (ht : LinkFree j d) (hc : j.licence.Consistent) (hb : j.licence.IsBundled d loaded)
    (hm : j.marker = Config.defaultMarker) (hphp : Php.KeepsHeaders read j.marker loaded.text)
    (hdry : j.dryRun = false) (hrun : (run read d year j).2 = none) (year' : Nat) :
    let first := (run read d year j).1
    let second := (run read first.disk year' j).1
    (run read first.disk year' j).2 = none ∧ second.report.fixed = [] ∧
    second.disk = first.disk ∧
    second.report.unchanged.Perm (first.report.fixed ++ first.report.unchanged) ∧
    second.report.failed = first.report.failed := by
  intro first second
  obtain ⟨ks, base, hk, hcandidate, hplace, hnodup⟩ := ht.exists_agenda hrun
  let x := Setup.ofJob read j loaded
  let ledger := (x.perform (agenda j d ks []) d).ledger
  obtain ⟨hdisk, hreport, hhalt⟩ := run_follows read hk hc (hb.loads year)
  have hnone : (x.perform (agenda j d ks []) d).halt = none := hhalt.symm.trans hrun
  have houtline : first.disk.outline = d.outline := by
    rw [show first.disk = _ from hdisk, Setup.outline_perform]
  -- the second run has the licence and the files of the first
  have hload : (j.licence.load first.disk year').result = .ok loaded := by
    rw [show first.disk = _ from hdisk]
    have hkept := (Setup.perform_rewrites (x := x) hdry hplace hnodup hnone).1
    exact load_after_run hb hcandidate hkept hnone _
  have hsettles : x.Settles := by
    refine Setup.settles_of_stampable (fun t ht => ?_) hphp
    rw [show x.marker = _ from hm]
    exact stampable_of_bundled read hb.bundled ht
  obtain ⟨hvisits, hrecords⟩ := Setup.perform_again hsettles hdry houtline hplace
    (fun v hv a b hat => hdisk ▸ hat) hnodup hnone
  have hperform : x.perform (agenda j first.disk ks []) first.disk =
      ⟨first.disk, ledger.map fun e => (e.1, e.2.settled), none⟩ := by
    rw [agenda_of_outline houtline, Setup.perform_of_visits hvisits, hrecords]
  obtain ⟨hdisk', hreport', hhalt'⟩ := run_follows read hk hc hload
  rw [show Setup.ofJob read j loaded = x from rfl, hperform] at hdisk' hreport' hhalt'
  have hfirst : first.report = Report.empty.recordAll ledger := hreport
  have hsecond : second.report = _ := hreport'
  rw [hfirst, hsecond]
  exact ⟨hhalt', fixed_settled, hdisk', unchanged_settled, failed_settled⟩

/-! ## A script, a manifest and a style sheet -/

section

open Licence.Bundled (openSoftware)

/-- A script without a header. -/
def bareScript : Text := "<?php\n$x;".toList

/-- The header of the script. -/
def scriptHeader : Text := Php.headerFor openSoftware bareScript

/-- The script with its header. -/
def headedScript : Text :=
  Placement.insertBehindTag (Text.lineEnding bareScript) bareScript scriptHeader

/-- A reader of the script, with and without its header, and of no other text. -/
def readScript : Php.Reader := fun s =>
  if s = headedScript then .ok [⟨scriptHeader, ⟨6, 6 + scriptHeader.length⟩⟩]
  else if s = bareScript then .ok [] else .error (.syntaxError 1)

theorem readScript_cases {b : Text} {comments : List Php.Comment}
    (h : readScript b = .ok comments) :
    b = headedScript ∧ comments = [⟨scriptHeader, ⟨6, 6 + scriptHeader.length⟩⟩] ∨
      b = bareScript ∧ comments = [] := by
  unfold readScript at h
  split_ifs at h with hheaded hbare
  · exact .inl ⟨hheaded, (Except.ok.inj h).symm⟩
  · exact .inr ⟨hbare, (Except.ok.inj h).symm⟩

theorem scansFind_openSoftware : scansFind Config.defaultMarker openSoftware :=
  scansFind_of_mem List.mem_cons_self

theorem keepsHeaders_readScript :
    Php.KeepsHeaders readScript Config.defaultMarker openSoftware := by
  have hb : bareScript = Placement.openTag ++ "\n$x;".toList := by decide +kernel
  have hlength : (Placement.openTag ++ Text.lineEnding bareScript).length = 6 := by decide +kernel
  obtain ⟨gap, -, hcut⟩ := Placement.insertBehindTag_append (Text.lineEnding bareScript)
    "\n$x;".toList scriptHeader
  rw [← hb, ← headedScript] at hcut
  have hsame : Php.headerFor openSoftware headedScript = scriptHeader := by
    refine withLineEnding_of_placed (Text.pairedReturns_of_notMem scansFind_openSoftware.1) .php ?_
    rw [hcut]
    exact placed_inserted _ gap hb
  have hscan := scansFind_openSoftware.2.2 Text.lf (by simp) .js (by simp)
  have hmarked : Text.includesIgnoringCase scriptHeader Config.defaultMarker :=
    Text.includesIgnoringCase_of_includes plain_defaultMarker hscan.2
  have hfirst : ∀ span, Php.firstMarked? Config.defaultMarker [⟨scriptHeader, span⟩] =
      some ⟨scriptHeader, span⟩ := fun span => by simp [Php.firstMarked?, hmarked]
  have htold : Php.Tells readScript Config.defaultMarker scriptHeader headedScript 6 :=
    ⟨_, if_pos rfl, hfirst _⟩
  refine ⟨fun b comments c hr hc => ?_, fun b comments hr hc hopen => ?_⟩
  · rcases readScript_cases hr with ⟨rfl, rfl⟩ | ⟨rfl, rfl⟩
    · -- the header is replaced by itself
      obtain rfl := Option.some.inj ((hfirst _).symm.trans hc)
      rw [← List.append_assoc] at hcut
      have hreplaced : Placement.replace headedScript scriptHeader
          ⟨6, 6 + scriptHeader.length⟩ = headedScript := by
        rw [hcut, ← hlength, Placement.replace_append]
      have htake : (headedScript.take 6).length = 6 := by
        rw [hcut, ← hlength, List.take_left]
      rw [hsame, hreplaced, htake]
      exact htold
    · cases hc
  · rcases readScript_cases hr with ⟨rfl, rfl⟩ | ⟨rfl, rfl⟩
    · cases (hfirst _).symm.trans hc
    · rw [hlength]
      exact htold

/-- A disk with a licence that comes along, and with a manifest, the script, and a style sheet
that cannot be written. -/
def scriptDisk : Disk :=
  ⟨.folder .full
    [("osl.txt".toList, .file .full (encode openSoftware)),
     ("t".toList, .folder .full
       [("a.php".toList, .file .full (encode bareScript)),
        ("b.css".toList, .file ⟨true, false, false⟩ []),
        ("package.json".toList, .file .full (encode "\x7b\x7d".toList))])], []⟩

/-- The job to bring them up to date. -/
def scriptJob : Job :=
  ⟨.ofRoot ["t".toList], .ofFile (.ofRoot []) (.ofRoot ["osl.txt".toList]),
    ["json".toList, "php".toList, "css".toList], [], [], Config.defaultMarker, false, true⟩

theorem scriptJob_isBundled :
    scriptJob.licence.IsBundled scriptDisk ⟨openSoftware, .ofRoot ["osl.txt".toList]⟩ :=
  Licence.isBundled_of_read (d := scriptDisk) (p := .ofRoot ["osl.txt".toList])
    (f := ("osl.txt".toList, openSoftware)) List.mem_cons_self rfl rfl rfl rfl

theorem scriptJob_consistent : scriptJob.licence.Consistent := by
  rintro t header ⟨⟩

theorem scriptJob_linkFree : LinkFree scriptJob scriptDisk := by
  have htarget : scriptDisk.locate scriptJob.target = .ok ["t".toList] := by decide +kernel
  refine ⟨?_, fun base t hbase hat => ?_⟩
  · simp only [scriptDisk, FileTree.IsProper, FileTree.Every, FileTree.EveryOf,
      FileTree.HasProperNames, IsName]
    decide +kernel
  · obtain rfl := Except.ok.inj (htarget.symm.trans hbase)
    obtain rfl := Option.some.inj hat
    simp only [FileTree.IsLinkFree, FileTree.Every, FileTree.EveryOf, FileTree.IsNoLink]
    decide

/-- What the first run makes of the files. -/
theorem scriptJob_run : (run readScript scriptDisk 2024 scriptJob).2 = none ∧
    (run readScript scriptDisk 2024 scriptJob).1.report =
      ⟨["package.json".toList, "a.php".toList], [], ["b.css".toList]⟩ := by
  let x := Setup.ofJob readScript scriptJob ⟨openSoftware, .ofRoot ["osl.txt".toList]⟩
  let stamped : List Visit := [⟨.php, ["a.php".toList]⟩, ⟨.css, ["b.css".toList]⟩]
  let vs : List Visit := ⟨.json, ["package.json".toList]⟩ :: stamped
  have hk : kinds scriptJob.extensions = .ok
      [⟨"json".toList, .json⟩, ⟨"php".toList, .php⟩, ⟨"css".toList, .css⟩] := by decide +kernel
  have hagenda : agenda scriptJob scriptDisk
      [⟨"json".toList, .json⟩, ⟨"php".toList, .php⟩, ⟨"css".toList, .css⟩] [] = vs := by
    decide +kernel
  obtain ⟨-, hreport, hhalt⟩ :=
    run_follows readScript hk scriptJob_consistent (scriptJob_isBundled.loads 2024)
  rw [hagenda] at hreport hhalt
  have hmanifest : (x.visit ⟨.json, ["package.json".toList]⟩ scriptDisk).halt = none := by
    decide +kernel
  have hnone : (x.perform vs scriptDisk).halt = none := by
    rw [Setup.perform, Course.halt_andThen_of_none hmanifest]
    exact Setup.halt_perform_of_not_json (by decide)
  have hreturns : (run readScript scriptDisk 2024 scriptJob).2 = none := hhalt.trans hnone
  -- the records are those of a dry run, but for the style sheet that cannot be written
  obtain ⟨ks, base, hk', -, hplace, hnodup⟩ := scriptJob_linkFree.exists_agenda hreturns
  obtain rfl := Except.ok.inj (hk.symm.trans hk')
  rw [hagenda] at hplace hnodup
  obtain ⟨-, hledger⟩ :=
    Setup.perform_realises (x := x) rfl rfl hplace (fun v _ a b hat => hat) hnodup hnone
  have hrecords : (vs.flatMap fun v => (x.dry.visit v scriptDisk).ledger).map
      (x.realised scriptDisk) = [(["package.json".toList], .fixed), (["a.php".toList], .fixed),
        (["b.css".toList], .failed)] := by decide +kernel
  refine ⟨hreturns, hreport.trans ?_⟩
  rw [hledger, hrecords]
  decide

/-- The first run fixes the manifest and the script, and fails for the style sheet. The second, in
the year after, has nothing to do. -/
theorem second_run_changes_nothing_script :
    let first := run readScript scriptDisk 2024 scriptJob
    let second := run readScript first.1.disk 2025 scriptJob
    LinkFree scriptJob scriptDisk ∧ scriptJob.licence.Consistent ∧
    scriptJob.licence.IsBundled scriptDisk ⟨openSoftware, .ofRoot ["osl.txt".toList]⟩ ∧
    scriptJob.marker = Config.defaultMarker ∧
    Php.KeepsHeaders readScript scriptJob.marker openSoftware ∧ scriptJob.dryRun = false ∧
    first.2 = none ∧
    first.1.report = ⟨["package.json".toList, "a.php".toList], [], ["b.css".toList]⟩ ∧
    second.2 = none ∧ second.1.report.fixed = [] ∧ second.1.disk = first.1.disk ∧
    second.1.report.unchanged.Perm ["package.json".toList, "a.php".toList] ∧
    second.1.report.failed = ["b.css".toList] := by
  obtain ⟨hreturned, hreport⟩ := scriptJob_run
  obtain ⟨hreturns, hfixed, hdisk, hunchanged, hfailed⟩ :=
    second_run_changes_nothing readScript scriptJob_linkFree scriptJob_consistent
      scriptJob_isBundled rfl keepsHeaders_readScript rfl hreturned 2025
  rw [hreport] at hunchanged hfailed
  exact ⟨scriptJob_linkFree, scriptJob_consistent, scriptJob_isBundled, rfl,
    keepsHeaders_readScript, rfl, hreturned, hreport, hreturns, hfixed, hdisk, hunchanged, hfailed⟩

end

end Update
end Letterhead
