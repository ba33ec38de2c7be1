import Letterhead.Proofs.Disk.Following
import Letterhead.Proofs.Update.Reporting
import Letterhead.Proofs.Update.WholeFiles
/-
# The tree changes as reported

A dry run changes nothing. A run that returns, through a tree without links, has written the
files that it reports as fixed and no other: each of them holds the encoding of the new text of
what it held before (`tree_changes_as_reported`).
-/
namespace Letterhead.Update

open Text (toPoints ofPoints?)
open Text.Utf8 (encode decode)

/-! ## Dry runs -/

/-- The disk is the first one. -/
def DiskKept (d : Disk) : Standing := fun _ d' _ _ => d' = d

theorem diskKept_carried {j : Job} (hdry : j.dryRun = true) (d : Disk) (year : Nat)
    (stamps : List Stamp) : CarriedByFiles (DiskKept d) j year stamps := fun _ v s hs =>
  ⟨[v], List.prefix_rfl, fun _ => rfl,
    ((Session.turn_processFile j year (treatmentOf stamps v.fileType) s v.file).disk_of_dry
      hdry).trans hs⟩

/-- A dry run leaves the disk as it is, however it ends. -/
theorem disk_of_dryRun (read : Php.Reader) (d : Disk) (year : Nat) {j : Job}
    (hdry : j.dryRun = true) : (run read d year j).1.disk = d := by
  rcases run_starts read d year j with ⟨ks, stamps, hk, hst⟩ | ⟨-, hdisk⟩
  · obtain ⟨more, -, -, hkept⟩ := run_carries hk hst (diskKept_carried hdry d year stamps) rfl
    exact hkept
  · exact hdisk

/-! ## Runs whose licence does not load -/

section
variable {j : Job} {d : Disk} {year : Nat} {h : Halt}

/-- Without a licence every file comes to a halt, before anything is written. -/
theorem processFile_of_not_loading (hl : (j.licence.load d year).result = .error h) {s : Session}
    (hdisk : s.disk = d) (hlicence : s.licence = j.licence) (t : FileType) (file : RelPath) :
    ∃ s' h', s'.disk = d ∧ s'.licence = j.licence ∧ s'.report = s.report ∧
      s.processFile j year (treatmentOf [] t) file = Session.recover s' file h' := by
  unfold Session.processFile
  dsimp only
  split
  · exact ⟨s, _, hdisk, hlicence, rfl, rfl⟩
  · -- the file is a manifest, since there is no stamp, and it has no new text
    simp only [treatmentOf, List.find?_nil, Session.treat, hdisk, hlicence,
      Licence.load_of_error hl]
    refine ⟨_, h, ?_, ?_, ?_, rfl⟩ <;> rfl

/-- What every file carries on without a stamp holds at the end of such a run, if it returns. -/
theorem standing_of_not_loading (read : Php.Reader) {P : Standing} (hc : j.licence.Consistent)
    (hl : (j.licence.load d year).result = .error h) (hfile : CarriedByFiles P j year [])
    (hs : P [] d j.licence .empty) (hrun : (run read d year j).2 = none) :
    ∃ ks, kinds j.extensions = .ok ks ∧ P.Of (agenda j d ks []) (run read d year j).1 := by
  rcases run_starts read d year j with ⟨ks, stamps, hk, hst⟩ | ⟨hhalt, -⟩
  · have hnil := Licence.nil_of_stamps hc hl hst
    rw [hnil] at hst
    obtain rfl : stamps = [] := (Except.ok.inj hst).symm
    have hstart : P [] d (j.licence.stamps read j.marker d year
        ((stampedTypes ks).map FileType.name)).licence .empty := by
      rw [hnil]
      exact hs
    exact ⟨ks, hk, (run_carries hk (hnil ▸ hst) hfile hstart).standing hrun⟩
  · exact absurd hrun hhalt

/-- Nothing is written, and the licence is as it was. -/
def Untouched (j : Job) (d : Disk) : Standing :=
  fun _ d' l r => d' = d ∧ l = j.licence ∧ r.fixed = []

theorem untouched_carried (hl : (j.licence.load d year).result = .error h) :
    CarriedByFiles (Untouched j d) j year [] := by
  rintro done v s ⟨hdisk, hlicence, hfixed⟩
  obtain ⟨s', h', hd, hli, hr, heq⟩ :=
    processFile_of_not_loading hl hdisk hlicence v.fileType v.file
  rw [heq]
  refine ⟨[v], List.prefix_rfl, fun _ => rfl, ?_⟩
  unfold Session.recover
  split <;> exact ⟨hd, hli, (congrArg Report.fixed hr).trans hfixed⟩

/-- Such a run writes nothing and reports no file as fixed. -/
theorem untouched_of_not_loading (read : Php.Reader) (hc : j.licence.Consistent)
    (hl : (j.licence.load d year).result = .error h) (hrun : (run read d year j).2 = none) :
    (run read d year j).1.disk = d ∧ (run read d year j).1.report.fixed = [] := by
  obtain ⟨-, -, hdisk, -, hfixed⟩ :=
    standing_of_not_loading read hc hl (untouched_carried hl) ⟨rfl, rfl, rfl⟩ hrun
  exact ⟨hdisk, hfixed⟩

end

/-! ## What visits write -/

namespace Setup

/-- The file at a place held the encoding of a text, and holds that of its new text, which is
another. -/
def Rewrites (x : Setup) (t : FileType) (place : List Text) (d d' : Disk) : Prop :=
  ∃ a b old new, d.root.at? place = some (.file a b) ∧ decode b = .ok old ∧
    x.newText t old = .ok (toPoints new) ∧ new ≠ old ∧
    d'.root.at? place = some (.file a (encode new))

variable {x : Setup} {v : Visit} {vs : List Visit} {d : Disk} {base : List Text}

/-- A visit that does not end the run rewrites its file and no other, and records it as fixed,
or it leaves the disk and records another outcome. -/
theorem visit_rewrites (hdry : x.dryRun = false)
    (hplace : ∀ q, d.locate (x.path v) = .ok q → q = base ++ v.file)
    (hh : (x.visit v d).halt = none) :
    (∃ o, o ≠ .fixed ∧ x.visit v d = ⟨d, [(v.file, o)], none⟩) ∨
    (x.visit v d).ledger = [(v.file, .fixed)] ∧
      x.Rewrites v.fileType (base ++ v.file) d (x.visit v d).disk ∧
      ∀ q a b, q ≠ base ++ v.file →
        ((x.visit v d).disk.root.at? q = some (.file a b) ↔ d.root.at? q = some (.file a b)) := by
  revert hh
  refine visit_rec (P := fun c => c.halt = none → (∃ o, o ≠ .fixed ∧ c = ⟨d, [(v.file, o)], none⟩) ∨
    c.ledger = [(v.file, .fixed)] ∧ x.Rewrites v.fileType (base ++ v.file) d c.disk ∧
      ∀ q a b, q ≠ base ++ v.file →
        (c.disk.root.at? q = some (.file a b) ↔ d.root.at? q = some (.file a b))) fun c hc hh => ?_
  cases hc with
  | written hr hn hne hdry' hw =>
    obtain ⟨place, a, b, hp, hat, hd, hfiles⟩ := at?_of_read_write hr hw
    obtain rfl := hplace place hp
    refine .inr ⟨rfl, ⟨a, b, _, _, hat, hd, hn, fun heq => hne (heq ▸ rfl), ?_⟩, ?_⟩
    · exact (hfiles _ _ _).2 (.inl ⟨rfl, rfl, rfl⟩)
    · intro q a' b' hq
      rw [hfiles]
      simp [hq]
  | dry hr hn hne hdry' => simp [hdry] at hdry'
  | huge hr ht hn => simp at hh
  | cut hr ht hn he hdry' hw => simp at hh
  | unread hr => exact .inl ⟨.failed, by simp, rfl⟩
  | untreated hr hn hne => exact .inl ⟨.failed, by simp, rfl⟩
  | unwritten hr hn hne hdry' hw => exact .inl ⟨.failed, by simp, rfl⟩
  | unchanged hr hn => exact .inl ⟨.unchanged, by simp, rfl⟩

/-- Visits to different files rewrite those that they record as fixed and no other. -/
theorem perform_rewrites (hdry : x.dryRun = false)
    (hplace : ∀ v ∈ vs, ∀ q, d.locate (x.path v) = .ok q → q = base ++ v.file)
    (hnodup : (vs.map Visit.file).Nodup) (hh : (x.perform vs d).halt = none) :
    (∀ q a b, (∀ r, (r, .fixed) ∈ (x.perform vs d).ledger → q ≠ base ++ r) →
      d.root.at? q = some (.file a b) →
      (x.perform vs d).disk.root.at? q = some (.file a b)) ∧
    ∀ r, (r, .fixed) ∈ (x.perform vs d).ledger →
      ∃ v ∈ vs, v.file = r ∧ x.Rewrites v.fileType (base ++ r) d (x.perform vs d).disk := by
  induction vs generalizing d with
  | nil => simp [perform]
  | cons v vs ih =>
    rw [perform] at hh ⊢
    cases hv : (x.visit v d).halt with
    | some h => simp [Course.andThen_of_some hv, hv] at hh
    | none =>
      rw [Course.andThen_of_none hv] at hh ⊢
      obtain ⟨hv0, hvs⟩ := List.forall_mem_cons.1 hplace
      obtain ⟨hfirst, hrest⟩ := List.nodup_cons.1 (List.map_cons ▸ hnodup)
      have hlocate : ∀ p, (x.visit v d).disk.locate p = d.locate p := fun p => by
        rw [← Disk.locate_outline (x.visit v d).disk, outline_visit, Disk.locate_outline]
      obtain ⟨hkept, hwritten⟩ := ih (d := (x.visit v d).disk)
        (fun u hu q hq => hvs u hu q (hlocate _ ▸ hq)) hrest hh
      have hfiles := ledger_perform hh
      rcases visit_rewrites hdry hv0 hv with ⟨o, ho, hvisit⟩ | ⟨hledger, hrewrites, hothers⟩
      · rw [hvisit] at hkept hwritten ⊢
        refine ⟨fun q a b hq hat => hkept q a b (fun r hr => hq r (by simp [hr])) hat, ?_⟩
        intro r hr
        have hr : (r, .fixed) ∈ (x.perform vs d).ledger := by
          simpa [Ne.symm ho] using hr
        obtain ⟨u, hu, hfile, h⟩ := hwritten r hr
        exact ⟨u, List.mem_cons_of_mem v hu, hfile, h⟩
      · have hother : ∀ {r o}, (r, o) ∈ (x.perform vs (x.visit v d).disk).ledger →
            base ++ r ≠ base ++ v.file := fun {r o} hr heq => by
          obtain rfl := List.append_cancel_left heq
          exact hfirst (hfiles ▸ List.mem_map_of_mem hr)
        rw [hledger]
        refine ⟨fun q a b hq hat => ?_, fun r hr => ?_⟩
        · exact hkept q a b (fun r hr => hq r (by simp [hr]))
            ((hothers q a b (hq v.file (by simp))).2 hat)
        · rcases List.mem_cons.1 hr with heq | hr
          · -- what the visit wrote is written by no visit behind it
            obtain ⟨rfl, -⟩ := Prod.mk.inj heq
            obtain ⟨a, b, old, new, hat, hd, hn, hne, hnow⟩ := hrewrites
            exact ⟨v, List.mem_cons_self, rfl, a, b, old, new, hat, hd, hn, hne,
              hkept _ a _ (fun r hr heq => hother hr heq.symm) hnow⟩
          · obtain ⟨u, hu, hfile, a, b, old, new, hat, h⟩ := hwritten r hr
            exact ⟨u, List.mem_cons_of_mem v hu, hfile, a, b, old, new,
              (hothers _ a b (hother hr)).1 hat, h⟩

end Setup

/-! ## The tree after a run -/

/-- The target of the job is a tree without links, at a place of a proper disk. -/
structure HasTree (j : Job) (d : Disk) (base : List Text) (t : FileTree) : Prop where
  target : d.locate j.target = .ok base
  tree : d.root.at? base = some t
  proper : d.root.IsProper
  linkFree : t.IsLinkFree

namespace HasTree

variable {j : Job} {d : Disk} {base : List Text} {t : FileTree} {ks : List Kind} {v : Visit}
  {r : RelPath}

theorem isProper (h : HasTree j d base t) : t.IsProper := h.proper.at? h.tree

theorem seen_of_candidate (h : HasTree j d base t) (hr : j.Candidate d r) :
    ∃ suffix, Finder.Seen suffix t r := by
  obtain ⟨e, -, type, -, hfound, -⟩ := hr
  obtain ⟨place, t', hp, ht, hs⟩ := Finder.seen_of_mem_find hfound
  obtain rfl := Except.ok.inj (hp.symm.trans h.target)
  obtain rfl := Option.some.inj (ht.symm.trans h.tree)
  exact ⟨_, hs⟩

/-- The path of a candidate leads, if anywhere, to where it was found. -/
theorem locate_candidate (h : HasTree j d base t) (hr : j.Candidate d r) {q : List Text}
    (hq : d.locate (j.target.join ⟨.here, r⟩) = .ok q) : q = base ++ r := by
  obtain ⟨suffix, hs⟩ := h.seen_of_candidate hr
  refine Disk.locate_join h.target h.tree h.linkFree (fun n hn => ?_) hq
  have hhidden := hs.not_hidden n hn
  refine ⟨(hs.names h.isProper n hn).1, ?_, ?_⟩
  · rintro rfl
    exact absurd hhidden (by decide)
  · rintro rfl
    exact absurd hhidden (by decide)

/-- A file of the tree is the candidate whose text it has. -/
theorem eq_of_id (h : HasTree j d base t) {r' : RelPath} (hr : j.Candidate d r') {a : Access}
    {b : Text.Utf8.Bytes} (hat : d.root.at? (base ++ r) = some (.file a b))
    (hid : RelPath.id r' = RelPath.id r) : r' = r := by
  obtain ⟨suffix, hs⟩ := h.seen_of_candidate hr
  have hat : t.at? r = some (.file a b) := by
    rw [FileTree.at?_append, h.tree] at hat
    exact hat
  have hne : r ≠ [] := by
    rintro rfl
    obtain rfl : t = .file a b := by simpa [FileTree.at?] using hat
    cases hs
  exact RelPath.id_inj hs.ne_nil hne (hs.names h.isProper) (FileTree.names_of_at? h.isProper hat)
    hid

end HasTree

/-- The files that a run reports as fixed are those that its visits record so. -/
theorem mem_fixed_iff {read : Php.Reader} {d : Disk} {year : Nat} {j : Job} {id : Text}
    {ledger : List (RelPath × Outcome)}
    (hreport : (run read d year j).1.report = Report.empty.recordAll ledger) :
    id ∈ (run read d year j).1.report.fixed ↔ ∃ r, (r, .fixed) ∈ ledger ∧ RelPath.id r = id := by
  have hfiles := Report.files_ofLedger ledger .fixed
  rw [← hreport] at hfiles
  rw [show (run read d year j).1.report.fixed = (run read d year j).1.report.files .fixed from rfl,
    hfiles]
  simp

/-- A dry run changes no file. A run that returns, on a tree without links, adds and removes no
file. It keeps every file that it does not report as fixed, those outside the tree too, and it
reports as fixed only files of the tree: each of them had a text, and holds the encoding of
what this text becomes as one of the type of its extension, which is another text. -/
theorem tree_changes_as_reported (read : Php.Reader) (d : Disk) (year : Nat) (j : Job) :
    (j.dryRun = true → (run read d year j).1.disk = d) ∧
    ∀ base t, HasTree j d base t → j.licence.Consistent → j.dryRun = false →
      (run read d year j).2 = none →
      (run read d year j).1.disk.outline = d.outline ∧
      (∀ q a b, (∀ r, q = base ++ r → RelPath.id r ∉ (run read d year j).1.report.fixed) →
        d.root.at? q = some (.file a b) →
        (run read d year j).1.disk.root.at? q = some (.file a b)) ∧
      (∀ id ∈ (run read d year j).1.report.fixed, ∃ r a b, RelPath.id r = id ∧
        d.root.at? (base ++ r) = some (.file a b)) ∧
      ∀ r a b, d.root.at? (base ++ r) = some (.file a b) →
        RelPath.id r ∈ (run read d year j).1.report.fixed →
        ∃ type loaded, j.Candidate d r ∧ isCandidate type r ∧
          (∀ e ∈ j.extensions, r ∈ j.finder.find d e → FileType.ofExtension? e = some type) ∧
          (j.licence.load d year).result = .ok loaded ∧
          (Setup.ofJob read j loaded).Rewrites type (base ++ r) d (run read d year j).1.disk := by
  refine ⟨disk_of_dryRun read d year, fun base t ht hc hdry hrun => ?_⟩
  cases hl : (j.licence.load d year).result with
  | error h =>
    obtain ⟨hdisk, hfixed⟩ := untouched_of_not_loading read hc hl hrun
    rw [hdisk, hfixed]
    exact ⟨rfl, fun q a b _ hat => hat, by simp, by simp⟩
  | ok loaded =>
    obtain ⟨ks, hk, -⟩ := exists_ledger read hrun
    obtain ⟨hdisk, hreport, hhalt⟩ := run_follows read hk hc hl
    obtain ⟨htypes, hmem, -⟩ := agenda_exact ht.proper hk
    have hcandidate : ∀ v ∈ agenda j d ks [], j.Candidate d v.file := fun v hv =>
      (hmem v.file).1 (List.mem_map_of_mem hv)
    obtain ⟨hkept, hwritten⟩ := Setup.perform_rewrites (x := Setup.ofJob read j loaded) hdry
      (fun v hv q hq => ht.locate_candidate (hcandidate v hv) hq)
      (List.Nodup.of_map RelPath.id (agenda_ids_nodup ht.proper hk)) (hhalt.symm.trans hrun)
    rw [hdisk]
    refine ⟨Setup.outline_perform _ _ _, fun q a b hq hat => ?_, fun id hid => ?_,
      fun r a b hat hid => ?_⟩
    · exact hkept q a b (fun r hr heq => hq r heq ((mem_fixed_iff hreport).2 ⟨r, hr, rfl⟩)) hat
    · obtain ⟨r, hr, rfl⟩ := (mem_fixed_iff hreport).1 hid
      obtain ⟨v, -, -, a, b, -, -, hat, -⟩ := hwritten r hr
      exact ⟨r, a, b, rfl, hat⟩
    · obtain ⟨r', hr, hids⟩ := (mem_fixed_iff hreport).1 hid
      obtain ⟨v, hv, rfl, hrewrites⟩ := hwritten r' hr
      obtain rfl := ht.eq_of_id (hcandidate v hv) hat hids
      obtain ⟨hc', htype⟩ := htypes v hv
      exact ⟨v.fileType, loaded, hcandidate v hv, hc', htype, rfl, hrewrites⟩

theorem pagesJob_hasTree : ∃ t, HasTree pagesJob pagesDisk ["t".toList] t := by
  refine ⟨_, by decide +kernel, rfl, pagesDisk_isProper, ?_⟩
  simp only [FileTree.IsLinkFree, FileTree.Every, FileTree.EveryOf, FileTree.IsNoLink]
  decide

theorem tree_changes_as_reported_pages :
    (∃ t, HasTree pagesJob pagesDisk ["t".toList] t) ∧ pagesJob.licence.Consistent ∧
    pagesJob.dryRun = false ∧ (run (fun _ => .ok []) pagesDisk 2024 pagesJob).2 = none ∧
    (Setup.ofJob (fun _ => .ok []) pagesJob ⟨[], .ofRoot ["l".toList]⟩).Rewrites .twig
      ["t".toList, "z.html.twig".toList] pagesDisk
      (run (fun _ => .ok []) pagesDisk 2024 pagesJob).1.disk := by
  have hc : pagesJob.licence.Consistent := Licence.consistent_ofFile _ _
  obtain ⟨t, ht⟩ := pagesJob_hasTree
  obtain ⟨-, -, -, hfixed⟩ := (tree_changes_as_reported (fun _ => .ok []) pagesDisk 2024
    pagesJob).2 _ t ht hc rfl pagesJob_returns
  obtain ⟨type, loaded, -, -, htype, hload, hrewrites⟩ :=
    hfixed ["z.html.twig".toList] .full [] rfl (by rw [pagesJob_report]; decide +kernel)
  have htwig : some FileType.twig = some type := by
    rw [← htype "twig".toList (by decide +kernel) (by decide +kernel)]
    decide +kernel
  obtain rfl := Option.some.inj htwig
  obtain rfl : ⟨[], .ofRoot ["l".toList]⟩ = loaded := Except.ok.inj hload
  exact ⟨⟨t, ht⟩, hc, rfl, pagesJob_returns, hrewrites⟩

end Letterhead.Update
