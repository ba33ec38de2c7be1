import Letterhead.Proofs.Update.Faithful
/-
# A dry run foretells a real run

A real run goes over a disk that it has changed in part, a dry run over the disk as it was. They
stay in step, since a visit writes no file but its own and no file is visited twice. So the dry
run records what the real run records, but for a file that has a new text and cannot be opened
for writing (`dry_run_foretells`).
-/
namespace Letterhead

open Text (toPoints)

/-- Whether the file that a path leads to cannot be opened for writing. -/
def Disk.refuses (d : Disk) (p : Path) : Bool :=
  match d.write p [] with
  | .ok _ => false
  | .error _ => true

theorem Disk.refuses_iff {d : Disk} {p : Path} : d.refuses p ↔ ∃ e, d.write p [] = .error e := by
  unfold refuses
  cases d.write p [] <;> simp

/-- The job, without writing. -/
def Job.dry (j : Job) : Job := { j with dryRun := true }

namespace Update

namespace Setup

/-- The same run without writing. -/
def dry (x : Setup) : Setup := { x with dryRun := true }

/-- The file has a new text. -/
def Changes (x : Setup) (v : Visit) (d : Disk) : Prop :=
  ∃ old new, Session.readText d (x.path v) = .ok old ∧ x.newText v.fileType old = .ok new ∧
    new ≠ toPoints old

/-- What a real run records where a dry run makes this record. -/
def realised (x : Setup) (d : Disk) (e : RelPath × Outcome) : RelPath × Outcome :=
  if e.2 = .fixed ∧ d.refuses (x.target.join ⟨.here, e.1⟩) then (e.1, .failed) else e

variable {x : Setup} {v : Visit} {vs : List Visit} {d d' : Disk} {base : List Text} {r : RelPath}

/-! ## One file -/

theorem readText_of_outline (h : d'.outline = d.outline) {p : Path}
    (hkept : ∀ q a b, d.locate p = .ok q → d.root.at? q = some (.file a b) →
      d'.root.at? q = some (.file a b)) : Session.readText d' p = Session.readText d p := by
  rw [Session.readText, Session.readText, Disk.read_of_outline h hkept]

/-- On a file that reads alike, the dry visit makes the record that the real visit realises. -/
theorem dry_visit (hdry : x.dryRun = false) (ho : d'.outline = d.outline)
    (hread : Session.readText d' (x.path v) = Session.readText d (x.path v))
    (hh : (x.visit v d').halt = none) :
    ∃ o, x.dry.visit v d = ⟨d, [(v.file, o)], none⟩ ∧
      (x.visit v d').ledger = [x.realised d (v.file, o)] := by
  have hpath : x.dry.path v = x.path v := rfl
  have hnew : x.dry.newText = x.newText := rfl
  have hon : x.dry.dryRun = true := rfl
  have hrefuses : d.refuses (x.path v) ↔ ∃ e, d'.write (x.path v) [] = .error e := by
    simp only [Disk.refuses_iff, Disk.write_error_of_outline ho]
  revert hh
  refine visit_rec (P := fun c => c.halt = none → ∃ o,
    x.dry.visit v d = ⟨d, [(v.file, o)], none⟩ ∧ c.ledger = [x.realised d (v.file, o)])
    fun c hc hh => ?_
  cases hc with
  | unread hr =>
    rw [hread] at hr
    refine ⟨.failed, ?_, by simp [realised]⟩
    simp only [visit, hpath, hr, settle_of_readText hr]
  | untreated hr hn hne =>
    rw [hread] at hr
    refine ⟨.failed, ?_, by simp [realised]⟩
    have hsettle := (settle_of_newText d v.file hn).resolve_right fun h => hne h.2.1
    simp only [visit, hpath, hnew, hr, hn, hsettle]
  | huge hr ht hn => simp at hh
  | unchanged hr hn =>
    rw [hread] at hr
    refine ⟨.unchanged, ?_, by simp [realised]⟩
    simp only [visit, hpath, hnew, hr, hn, if_true]
  | dry hr hn hne hdry' => simp [hdry] at hdry'
  | unwritten hr hn hne hdry' hw =>
    rw [hread] at hr
    have hrefused : d.refuses (x.path v) := hrefuses.2 ⟨_, Disk.write_error hw []⟩
    refine ⟨.fixed, ?_, ?_⟩
    · simp only [visit, hpath, hnew, hr, hn]
      rw [if_neg hne, if_pos hon]
    · rw [realised, if_pos ⟨rfl, hrefused⟩]
  | written hr hn hne hdry' hw =>
    rw [hread] at hr
    have hopen : ¬ d.refuses (x.path v) := by
      rw [hrefuses]
      rintro ⟨e, he⟩
      simp [Disk.write_error he _] at hw
    refine ⟨.fixed, ?_, ?_⟩
    · simp only [visit, hpath, hnew, hr, hn]
      rw [if_neg hne, if_pos hon]
    · rw [realised, if_neg fun h => hopen h.2]
  | cut hr ht hn he hdry' hw => simp at hh

/-- A dry visit that goes on records a file as fixed if and only if it has a new text. -/
theorem fixed_mem_dry_visit (hh : (x.dry.visit v d).halt = none) :
    (r, .fixed) ∈ (x.dry.visit v d).ledger ↔ v.file = r ∧ x.Changes v d := by
  revert hh
  refine visit_rec (P := fun c => c.halt = none →
    ((r, .fixed) ∈ c.ledger ↔ v.file = r ∧ x.Changes v d)) fun c hc hh => ?_
  -- no record but one is at odds with the new text that a visit makes
  have hnot : ∀ {o : Outcome}, o ≠ .fixed → ¬ x.Changes v d →
      ((r, .fixed) ∈ [(v.file, o)] ↔ v.file = r ∧ x.Changes v d) := fun ho hc => by
    simp [hc, Ne.symm ho]
  cases hc with
  | unread hr =>
    refine hnot (by simp) ?_
    rintro ⟨old, new, hr', -⟩
    cases hr.symm.trans hr'
  | untreated hr hn hne =>
    refine hnot (by simp) ?_
    rintro ⟨old, new, hr', hn', -⟩
    obtain rfl := Except.ok.inj (hr.symm.trans hr')
    cases hn.symm.trans hn'
  | huge hr ht hn => simp at hh
  | unchanged hr hn =>
    refine hnot (by simp) ?_
    rintro ⟨old, new, hr', hn', hne⟩
    obtain rfl := Except.ok.inj (hr.symm.trans hr')
    exact hne (Except.ok.inj (hn'.symm.trans hn))
  | dry hr hn hne hdry => simpa [eq_comm] using fun _ => ⟨_, _, hr, hn, hne⟩
  | unwritten hr hn hne hdry hw => simp [dry] at hdry
  | written hr hn hne hdry hw => simp [dry] at hdry
  | cut hr ht hn he hdry hw => simp [dry] at hdry

/-! ## All files -/

/-- Where every visit leaves the disk as it is, each makes its record by itself. -/
theorem perform_of_visits (h : ∀ v ∈ vs, ∃ o, x.visit v d = ⟨d, [(v.file, o)], none⟩) :
    x.perform vs d = ⟨d, vs.flatMap fun v => (x.visit v d).ledger, none⟩ := by
  induction vs with
  | nil => rfl
  | cons v vs ih =>
    obtain ⟨⟨o, hv⟩, hvs⟩ := List.forall_mem_cons.1 h
    rw [perform, hv, Course.andThen_of_none rfl, ih hvs, List.flatMap_cons, hv]

/-- A real run that goes on makes the records that it realises of the dry visits. -/
theorem perform_realises (hdry : x.dryRun = false) (ho : d'.outline = d.outline)
    (hplace : ∀ v ∈ vs, ∀ q, d.locate (x.path v) = .ok q → q = base ++ v.file)
    (hkept : ∀ v ∈ vs, ∀ a b, d.root.at? (base ++ v.file) = some (.file a b) →
      d'.root.at? (base ++ v.file) = some (.file a b))
    (hnodup : (vs.map Visit.file).Nodup) (hh : (x.perform vs d').halt = none) :
    (∀ v ∈ vs, ∃ o, x.dry.visit v d = ⟨d, [(v.file, o)], none⟩) ∧
    (x.perform vs d').ledger =
      (vs.flatMap fun v => (x.dry.visit v d).ledger).map (x.realised d) := by
  induction vs generalizing d' with
  | nil => simp [perform]
  | cons v vs ih =>
    rw [perform] at hh ⊢
    cases hv : (x.visit v d').halt with
    | some e => simp [Course.andThen_of_some hv, hv] at hh
    | none =>
      rw [Course.andThen_of_none hv] at hh ⊢
      obtain ⟨hplace0, hplaces⟩ := List.forall_mem_cons.1 hplace
      obtain ⟨hkept0, hkepts⟩ := List.forall_mem_cons.1 hkept
      obtain ⟨hfirst, hrest⟩ := List.nodup_cons.1 (List.map_cons ▸ hnodup)
      have hread : Session.readText d' (x.path v) = Session.readText d (x.path v) :=
        readText_of_outline ho fun q a b hq hat => by
          obtain rfl := hplace0 q hq
          exact hkept0 a b hat
      obtain ⟨o, hdryv, hledger⟩ := dry_visit hdry ho hread hv
      -- the files still to be visited have their bytes from before
      have hothers : ∀ u ∈ vs, ∀ a b, d.root.at? (base ++ u.file) = some (.file a b) →
          (x.visit v d').disk.root.at? (base ++ u.file) = some (.file a b) := by
        intro u hu a b hat
        have hne : base ++ u.file ≠ base ++ v.file := fun heq => by
          rw [List.append_cancel_left_eq] at heq
          exact hfirst (heq ▸ List.mem_map_of_mem hu)
        have hplace1 : ∀ q, d'.locate (x.path v) = .ok q → q = base ++ v.file := fun q hq =>
          hplace0 q (Disk.locate_of_outline ho _ ▸ hq)
        rcases visit_rewrites hdry hplace1 hv with ⟨o, -, hvisit⟩ | ⟨-, -, hfiles⟩
        · rw [hvisit]
          exact hkepts u hu a b hat
        · exact (hfiles _ a b hne).2 (hkepts u hu a b hat)
      obtain ⟨hvisits, hrecords⟩ :=
        ih ((outline_visit x v d').trans ho) hplaces hothers hrest hh
      refine ⟨List.forall_mem_cons.2 ⟨⟨o, hdryv⟩, hvisits⟩, ?_⟩
      rw [List.flatMap_cons, List.map_append, hledger, hrecords, hdryv]
      rfl

end Setup

/-! ## Reports -/

section

variable {x : Setup} {d : Disk} {ledger : List (RelPath × Outcome)} {e : RelPath × Outcome}
  {o : Outcome} {id : Text}

theorem fst_realised : (x.realised d e).1 = e.1 := by
  unfold Setup.realised
  split <;> rfl

theorem realised_eq_unchanged : (x.realised d e).2 = .unchanged ↔ e.2 = .unchanged := by
  unfold Setup.realised
  split <;> simp [*]

theorem realised_eq_fixed : (x.realised d e).2 = .fixed ↔
    e.2 = .fixed ∧ ¬ d.refuses (x.target.join ⟨.here, e.1⟩) := by
  unfold Setup.realised
  split <;> simp_all

theorem realised_eq_failed : (x.realised d e).2 = .failed ↔
    e.2 = .failed ∨ e.2 = .fixed ∧ d.refuses (x.target.join ⟨.here, e.1⟩) := by
  unfold Setup.realised
  split <;> simp_all

theorem files_realised : (Report.empty.recordAll (ledger.map (x.realised d))).files o =
    (ledger.filter fun e => (x.realised d e).2 = o).map fun e => RelPath.id e.1 := by
  rw [Report.files_ofLedger, List.filter_map, List.map_map]
  simp only [Function.comp_def, fst_realised]

theorem mem_files_realised :
    id ∈ (Report.empty.recordAll (ledger.map (x.realised d))).files o ↔
      ∃ e ∈ ledger, (x.realised d e).2 = o ∧ RelPath.id e.1 = id := by
  simp only [files_realised, List.mem_map, List.mem_filter, decide_eq_true_iff, and_assoc]

theorem mem_files_ofLedger : id ∈ (Report.empty.recordAll ledger).files o ↔
    ∃ e ∈ ledger, e.2 = o ∧ RelPath.id e.1 = id := by
  simp only [Report.files_ofLedger, List.mem_map, List.mem_filter, decide_eq_true_iff, and_assoc]

theorem unchanged_realised :
    (Report.empty.recordAll (ledger.map (x.realised d))).files .unchanged =
      (Report.empty.recordAll ledger).files .unchanged := by
  rw [files_realised, Report.files_ofLedger]
  simp only [realised_eq_unchanged]

theorem fixed_realised_sublist :
    ((Report.empty.recordAll (ledger.map (x.realised d))).files .fixed).Sublist
      ((Report.empty.recordAll ledger).files .fixed) := by
  rw [files_realised, Report.files_ofLedger]
  refine (List.monotone_filter_right ledger fun e he => ?_).map _
  simp only [realised_eq_fixed, decide_eq_true_iff] at he ⊢
  exact he.1

theorem failed_sublist_realised :
    ((Report.empty.recordAll ledger).files .failed).Sublist
      ((Report.empty.recordAll (ledger.map (x.realised d))).files .failed) := by
  rw [files_realised, Report.files_ofLedger]
  refine (List.monotone_filter_right ledger fun e he => ?_).map _
  simp only [realised_eq_failed, decide_eq_true_iff] at he ⊢
  exact .inl he

/-- The report loses the files that are refused from those that are fixed. -/
theorem lost_of_realised (hids : (ledger.map fun e => RelPath.id e.1).Nodup) :
    id ∈ (Report.empty.recordAll ledger).files .fixed ∧
        id ∉ (Report.empty.recordAll (ledger.map (x.realised d))).files .fixed ↔
      ∃ r, RelPath.id r = id ∧ (r, .fixed) ∈ ledger ∧
        d.refuses (x.target.join ⟨.here, r⟩) := by
  rw [mem_files_ofLedger, mem_files_realised]
  simp only [realised_eq_fixed]
  constructor
  · rintro ⟨⟨⟨r, o⟩, he, rfl, hid⟩, hnot⟩
    refine ⟨r, hid, he, Classical.byContradiction fun hopen => ?_⟩
    exact hnot ⟨_, he, ⟨rfl, hopen⟩, hid⟩
  · rintro ⟨r, hid, he, hrefused⟩
    refine ⟨⟨_, he, rfl, hid⟩, ?_⟩
    rintro ⟨e, he', ⟨-, hopen⟩, hid'⟩
    obtain rfl := List.inj_on_of_nodup_map hids he he' (hid.trans hid'.symm)
    exact hopen hrefused

/-- The report gains the files that are refused among those that failed. -/
theorem gained_of_realised (hids : (ledger.map fun e => RelPath.id e.1).Nodup) :
    id ∈ (Report.empty.recordAll (ledger.map (x.realised d))).files .failed ∧
        id ∉ (Report.empty.recordAll ledger).files .failed ↔
      ∃ r, RelPath.id r = id ∧ (r, .fixed) ∈ ledger ∧
        d.refuses (x.target.join ⟨.here, r⟩) := by
  rw [mem_files_realised, mem_files_ofLedger]
  simp only [realised_eq_failed]
  constructor
  · rintro ⟨⟨⟨r, o⟩, he, hfailed | ⟨rfl, hrefused⟩, hid⟩, hnot⟩
    · exact absurd ⟨_, he, hfailed, hid⟩ hnot
    · exact ⟨r, hid, he, hrefused⟩
  · rintro ⟨r, hid, he, hrefused⟩
    refine ⟨⟨_, he, .inr ⟨rfl, hrefused⟩, hid⟩, ?_⟩
    rintro ⟨e, he', hfailed, hid'⟩
    obtain rfl := List.inj_on_of_nodup_map hids he he' (hid.trans hid'.symm)
    cases hfailed

/-- How the report of a real run stands to that of a dry run, if files with some property are
those that are to be fixed and are refused. -/
theorem compare_realised {P : RelPath → Prop} (hids : (ledger.map fun e => RelPath.id e.1).Nodup)
    (hP : ∀ r, (r, .fixed) ∈ ledger ∧ d.refuses (x.target.join ⟨.here, r⟩) ↔ P r) :
    let real := Report.empty.recordAll (ledger.map (x.realised d))
    let dry := Report.empty.recordAll ledger
    dry.unchanged = real.unchanged ∧ real.fixed.Sublist dry.fixed ∧
    dry.failed.Sublist real.failed ∧
    (∀ id, id ∈ dry.fixed ∧ id ∉ real.fixed ↔ ∃ r, RelPath.id r = id ∧ P r) ∧
    (∀ id, id ∈ real.failed ∧ id ∉ dry.failed ↔ ∃ r, RelPath.id r = id ∧ P r) ∧
    ((∀ r, ¬ P r) → dry = real) := by
  have hrefused : ∀ id, (∃ r, RelPath.id r = id ∧ (r, .fixed) ∈ ledger ∧
      d.refuses (x.target.join ⟨.here, r⟩)) ↔ ∃ r, RelPath.id r = id ∧ P r := fun id =>
    exists_congr fun r => and_congr_right fun _ => hP r
  refine ⟨unchanged_realised.symm, fixed_realised_sublist, failed_sublist_realised,
    fun id => (lost_of_realised hids).trans (hrefused id),
    fun id => (gained_of_realised hids).trans (hrefused id), fun hnone => ?_⟩
  have hsame : ∀ e ∈ ledger, x.realised d e = e := by
    rintro ⟨r, o⟩ he
    refine if_neg ?_
    rintro ⟨rfl, hr⟩
    exact hnone r ((hP r).1 ⟨he, hr⟩)
  rw [List.map_congr_left hsame, List.map_id']

end

/-! ## Runs whose licence does not load -/

/-- A file is processed alike whether it would be written or not, since it has no new text. -/
theorem processFile_dry {j : Job} {d : Disk} {year : Nat} {h : Halt} {s : Session}
    (hl : (j.licence.load d year).result = .error h) (hdisk : s.disk = d)
    (hlicence : s.licence = j.licence) (t : FileType) (file : RelPath) :
    s.processFile j.dry year (treatmentOf [] t) file =
      s.processFile j year (treatmentOf [] t) file := by
  unfold Session.processFile
  simp only [treatmentOf, List.find?_nil, Session.treat, hdisk, hlicence, Licence.load_of_error hl]
  rfl

theorem takeTurns_dry {j : Job} {d : Disk} {year : Nat} {h : Halt}
    (hl : (j.licence.load d year).result = .error h) (vs : List Visit) {done : List Visit}
    {s : Session} (hs : (Untouched j d).Of done s) :
    takeTurns j.dry year [] vs s = takeTurns j year [] vs s := by
  induction vs generalizing done s with
  | nil => rfl
  | cons v vs ih =>
    have hcarried := untouched_carried hl done v s hs
    rw [takeTurns, takeTurns, processFile_dry hl hs.1 hs.2.1]
    generalize s.processFile j year (treatmentOf [] v.fileType) v.file = step at hcarried ⊢
    obtain ⟨s', _ | halt⟩ := step
    · exact ih (hcarried.standing rfl)
    · rfl

theorem agenda_dry (j : Job) (d : Disk) (ks : List Kind) (handled : List RelPath) :
    agenda j.dry d ks handled = agenda j d ks handled := by
  induction ks generalizing handled with
  | nil => rfl
  | cons k ks ih =>
    rw [agenda, agenda, ih]
    rfl

/-- Without a licence, a dry run ends as the real run does. -/
theorem hand_run_dry (read : Php.Reader) {j : Job} {d : Disk} {year : Nat} {h : Halt}
    (hc : j.licence.Consistent) (hl : (j.licence.load d year).result = .error h)
    (hrun : (run read d year j).2 = none) :
    (run read d year j.dry).hand = (run read d year j).hand := by
  rcases run_starts read d year j with ⟨ks, stamps, hk, hst⟩ | ⟨hhalt, -⟩
  · have hnil := Licence.nil_of_stamps hc hl hst
    obtain rfl : stamps = [] := by
      rw [hnil] at hst
      exact (Except.ok.inj hst).symm
    have hstart : (Untouched j d).Of [] { Session.start d j.licence with
        licence := (j.licence.stamps read j.marker d year
          ((stampedTypes ks).map FileType.name)).licence } := by
      rw [hnil]
      exact ⟨rfl, rfl, rfl⟩
    have hturns := hand_run (j := j.dry) (d := d) hk hst
    rw [agenda_dry] at hturns
    rw [hand_run hk hst, ← takeTurns_dry hl _ hstart]
    exact hturns
  · exact absurd hrun hhalt

/-! ## The two runs -/

/-- The disk is proper, and there is no link in the target of the job. -/
structure LinkFree (j : Job) (d : Disk) : Prop where
  proper : d.root.IsProper
  linkFree : ∀ base t, d.locate j.target = .ok base → d.root.at? base = some t → t.IsLinkFree

/-- There is a folder in which the paths of all candidates lead to where they were found. -/
theorem LinkFree.exists_base {j : Job} {d : Disk} (h : LinkFree j d) :
    ∃ base, ∀ r, j.Candidate d r → ∀ q, d.locate (j.target.join ⟨.here, r⟩) = .ok q →
      q = base ++ r := by
  by_cases ht : ∃ base t, HasTree j d base t
  · obtain ⟨base, t, ht⟩ := ht
    exact ⟨base, fun r hr q hq => ht.locate_candidate hr hq⟩
  · -- nothing is found where there is no tree
    refine ⟨[], fun r hr => ?_⟩
    obtain ⟨e, -, type, -, hfound, -⟩ := hr
    obtain ⟨base, t, hbase, hat, -⟩ := Finder.seen_of_mem_find hfound
    exact absurd ⟨base, t, hbase, hat, h.proper, h.linkFree base t hbase hat⟩ ht

/-- What a run that returns visits: candidates, each once, and the path of each leads to where it
was found. -/
theorem LinkFree.exists_agenda {j : Job} {d : Disk} (h : LinkFree j d) {read : Php.Reader}
    {year : Nat} (hrun : (run read d year j).2 = none) :
    ∃ ks base, kinds j.extensions = .ok ks ∧ (∀ v ∈ agenda j d ks [], j.Candidate d v.file) ∧
      (∀ v ∈ agenda j d ks [], ∀ q, d.locate (j.target.join ⟨.here, v.file⟩) = .ok q →
        q = base ++ v.file) ∧ ((agenda j d ks []).map Visit.file).Nodup := by
  obtain ⟨ks, hk, -⟩ := exists_ledger read hrun
  obtain ⟨-, hmem, -⟩ := agenda_exact h.proper hk
  obtain ⟨base, hbase⟩ := h.exists_base
  have hcandidate : ∀ v ∈ agenda j d ks [], j.Candidate d v.file := fun v hv =>
    (hmem v.file).1 (List.mem_map_of_mem hv)
  exact ⟨ks, base, hk, hcandidate, fun v hv => hbase v.file (hcandidate v hv),
    .of_map RelPath.id (agenda_ids_nodup h.proper hk)⟩

/-- A candidate that has a new text, as a file of the type of its extension, and that cannot be
opened for writing. -/
def Refused (read : Php.Reader) (j : Job) (d : Disk) (year : Nat) (r : RelPath) : Prop :=
  ∃ type loaded, j.Candidate d r ∧
    (∀ e ∈ j.extensions, r ∈ j.finder.find d e → FileType.ofExtension? e = some type) ∧
    (j.licence.load d year).result = .ok loaded ∧
    (Setup.ofJob read j loaded).Changes ⟨type, r⟩ d ∧ d.refuses (j.target.join ⟨.here, r⟩)

/-- The files that a dry run has in its ledger as fixed are the candidates with a new text. -/
theorem mem_dry_ledger {read : Php.Reader} {j : Job} {d : Disk} {year : Nat}
    {loaded : Licence.Loaded} {ks : List Kind} (hd : d.root.IsProper)
    (hk : kinds j.extensions = .ok ks) (hl : (j.licence.load d year).result = .ok loaded)
    (hvisits : ∀ v ∈ agenda j d ks [],
      ((Setup.ofJob read j loaded).dry.visit v d).halt = none) (r : RelPath) :
    (r, .fixed) ∈ ((agenda j d ks []).flatMap fun v =>
        ((Setup.ofJob read j loaded).dry.visit v d).ledger) ∧
      d.refuses ((Setup.ofJob read j loaded).target.join ⟨.here, r⟩) ↔
    Refused read j d year r := by
  obtain ⟨htypes, hmem, -⟩ := agenda_exact hd hk
  rw [List.mem_flatMap]
  constructor
  · rintro ⟨⟨v, hv, hr⟩, hrefused⟩
    obtain ⟨rfl, hchanges⟩ := (Setup.fixed_mem_dry_visit (hvisits v hv)).1 hr
    exact ⟨v.fileType, loaded, (hmem v.file).1 (List.mem_map_of_mem hv), (htypes v hv).2, hl,
      hchanges, hrefused⟩
  · rintro ⟨type, loaded', hc, htype, hl', hchanges, hrefused⟩
    obtain rfl := Except.ok.inj (hl.symm.trans hl')
    obtain ⟨v, hv, rfl⟩ := List.mem_map.1 ((hmem r).2 hc)
    obtain ⟨e, he, _, -, hfound, -⟩ := hc
    have hsame : v.fileType = type := Option.some.inj
      (((htypes v hv).2 e he hfound).symm.trans (htype e he hfound))
    subst hsame
    exact ⟨⟨v, hv, (Setup.fixed_mem_dry_visit (hvisits v hv)).2 ⟨rfl, hchanges⟩⟩, hrefused⟩

/-- When a real run returns, through a tree without links, the dry run returns too. They report
the same files as unchanged. The dry run reports as fixed what the real run does, and those files
besides that have a new text and cannot be opened for writing, and it reports as failed what the
real run does without those files. If every candidate can be opened for writing, the two
reports are one. -/
theorem dry_run_foretells (read : Php.Reader) {d : Disk} {year : Nat} {j : Job}
    (ht : LinkFree j d) (hc : j.licence.Consistent) (hdry : j.dryRun = false)
    (hrun : (run read d year j).2 = none) :
    let real := (run read d year j).1.report
    let dry := (run read d year j.dry).1.report
    (run read d year j.dry).2 = none ∧ dry.unchanged = real.unchanged ∧
    real.fixed.Sublist dry.fixed ∧ dry.failed.Sublist real.failed ∧
    (∀ id, id ∈ dry.fixed ∧ id ∉ real.fixed ↔
      ∃ r, RelPath.id r = id ∧ Refused read j d year r) ∧
    (∀ id, id ∈ real.failed ∧ id ∉ dry.failed ↔
      ∃ r, RelPath.id r = id ∧ Refused read j d year r) ∧
    ((∀ r, j.Candidate d r → ¬ d.refuses (j.target.join ⟨.here, r⟩)) → dry = real) := by
  intro real dry
  cases hl : (j.licence.load d year).result with
  | error h =>
    obtain ⟨hhand, hhalt⟩ := Prod.mk.inj (hand_run_dry read hc hl hrun)
    have hsame : dry = real := (Session.hand_eq_iff.1 hhand).2.2
    have hnone : ∀ id, ¬ ∃ r, RelPath.id r = id ∧ Refused read j d year r := by
      rintro id ⟨r, -, type, loaded, -, -, hl', -⟩
      cases hl.symm.trans hl'
    rw [hsame]
    exact ⟨hhalt.trans hrun, rfl, .refl _, .refl _, fun id => by simp [hnone],
      fun id => by simp [hnone], fun _ => rfl⟩
  | ok loaded =>
    obtain ⟨ks, base, hk, -, hplace, hnodup⟩ := ht.exists_agenda hrun
    let x := Setup.ofJob read j loaded
    let ledger := (agenda j d ks []).flatMap fun v => (x.dry.visit v d).ledger
    obtain ⟨-, hreal, hhalt⟩ := run_follows read hk hc hl
    obtain ⟨-, hdryrun, hdryhalt⟩ := run_follows (j := j.dry) read hk hc hl
    obtain ⟨hvisits, hledger⟩ := Setup.perform_realises (x := x) hdry rfl hplace
      (fun _ _ _ _ hat => hat) hnodup (hhalt.symm.trans hrun)
    have hperform : x.dry.perform (agenda j.dry d ks []) d = ⟨d, ledger, none⟩ := by
      rw [agenda_dry, Setup.perform_of_visits hvisits]
    have hreal : real = Report.empty.recordAll (ledger.map (x.realised d)) :=
      hledger ▸ hreal
    have hdryreport : dry = Report.empty.recordAll ledger :=
      hdryrun.trans (congrArg (fun c : Course => Report.empty.recordAll c.ledger) hperform)
    have hledgerids : (ledger.map fun e => RelPath.id e.1).Nodup := by
      have hids := agenda_ids_nodup ht.proper hk
      have hfiles := Setup.ledger_perform (congrArg Course.halt hperform)
      rw [hperform, agenda_dry] at hfiles
      rwa [← hfiles, List.map_map] at hids
    have hrefused := mem_dry_ledger ht.proper hk hl fun v hv => by
      obtain ⟨o, ho⟩ := hvisits v hv
      exact congrArg Course.halt ho
    obtain ⟨hunchanged, hfixed, hfailed, hlost, hgained, hsame⟩ :=
      compare_realised hledgerids hrefused
    rw [hreal, hdryreport]
    refine ⟨hdryhalt.trans (congrArg Course.halt hperform), hunchanged, hfixed, hfailed, hlost,
      hgained, fun hopen => hsame ?_⟩
    rintro r ⟨-, -, hcandidate, -, -, -, hr⟩
    exact hopen r hcandidate hr

theorem pagesJob_linkFree : LinkFree pagesJob pagesDisk := by
  obtain ⟨t, ht⟩ := pagesJob_hasTree
  refine ⟨ht.proper, fun base u hbase hat => ?_⟩
  obtain rfl := Except.ok.inj (ht.target.symm.trans hbase)
  obtain rfl := Option.some.inj (ht.tree.symm.trans hat)
  exact ht.linkFree

/-- The dry run has the page that cannot be written under the files that are fixed. -/
theorem dry_run_foretells_pages :
    LinkFree pagesJob pagesDisk ∧ pagesJob.licence.Consistent ∧ pagesJob.dryRun = false ∧
    (run (fun _ => .ok []) pagesDisk 2024 pagesJob).2 = none ∧
    (run (fun _ => .ok []) pagesDisk 2024 pagesJob.dry).2 = none ∧
    ∃ r, RelPath.id r = "sub/a.twig".toList ∧
      Refused (fun _ => .ok []) pagesJob pagesDisk 2024 r := by
  have hc : pagesJob.licence.Consistent := Licence.consistent_ofFile _ _
  obtain ⟨hreturns, -, -, -, -, hgained, -⟩ := dry_run_foretells (fun _ => .ok [])
    pagesJob_linkFree hc rfl pagesJob_returns
  refine ⟨pagesJob_linkFree, hc, rfl, pagesJob_returns, hreturns, (hgained _).1 ⟨?_, ?_⟩⟩
  · rw [pagesJob_report]
    simp
  · decide +kernel

end Update
end Letterhead
