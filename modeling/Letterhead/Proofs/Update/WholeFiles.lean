import Letterhead.Proofs.Header.Idempotence
import Letterhead.Proofs.Update.Halting
/-
# Files are written whole, but for one

At the end of a run every file holds its bytes from before or the whole encoding of a new
text that a visit made of such bytes. The one exception is the file at which a run ends
because its new text has no encoding: the file was opened by then, and is left empty
(`run_leaves_whole_files`).
-/
namespace Letterhead.Update

open Text (toPoints ofPoints?)
open Text.Utf8 (Bytes encode decode)

namespace Setup

/-- The bytes that a file of a disk may come to hold by visits to it: those it has, and the
encoding of a new text made of such bytes. -/
inductive Whole (x : Setup) (vs : List Visit) (d : Disk) (place : List Text) : Bytes → Prop
  | kept {a : Access} {b : Bytes} (h : d.root.at? place = some (.file a b)) : Whole x vs d place b
  | rewritten {b : Bytes} {old s : Text} {v : Visit} (hb : Whole x vs d place b) (hv : v ∈ vs)
      (hp : d.locate (x.path v) = .ok place) (hd : decode b = .ok old)
      (hn : x.newText v.fileType old = .ok (toPoints s)) : Whole x vs d place (encode s)

/-- Every file of the second disk is whole. -/
def AllWhole (x : Setup) (vs : List Visit) (d d' : Disk) : Prop :=
  ∀ place a b, d'.root.at? place = some (.file a b) → x.Whole vs d place b

/-- One file was whole and not empty and is empty now, since its new text has no encoding;
every other file is whole. -/
def OneCut (x : Setup) (vs : List Visit) (d d' : Disk) : Prop :=
  ∃ cut v a b old new, v ∈ vs ∧ v.fileType = .json ∧ d.locate (x.path v) = .ok cut ∧
    x.Whole vs d cut b ∧ b ≠ [] ∧ decode b = .ok old ∧
    Manifest.patch x.licence.source.text (toPoints old) = .ok new ∧ ofPoints? new = none ∧
    d'.root.at? cut = some (.file a []) ∧
    ∀ place a' b', place ≠ cut → d'.root.at? place = some (.file a' b') → x.Whole vs d place b'

variable {x : Setup} {v : Visit} {vs : List Visit} {d d' : Disk} {old : Text}

theorem readText_eq_ok {p : Path} (h : Session.readText d p = .ok old) :
    ∃ place a b, d.locate p = .ok place ∧ d.root.at? place = some (.file a b) ∧
      decode b = .ok old := by
  unfold Session.readText at h
  cases hr : d.read p with
  | error e => simp [hr] at h
  | ok b =>
    obtain ⟨place, a, hp, hat, -⟩ := Disk.read_eq_ok.1 hr
    refine ⟨place, a, b, hp, hat, ?_⟩
    cases hd : decode b with
    | error f => simp [hr, hd] at h
    | ok s => simpa [hr, hd] using h

/-- A file that was read is the one that is written. -/
theorem at?_of_read_write {p : Path} {bytes : Bytes} (hr : Session.readText d p = .ok old)
    (hw : d.write p bytes = .ok d') :
    ∃ place a b, d.locate p = .ok place ∧ d.root.at? place = some (.file a b) ∧
      decode b = .ok old ∧
      ∀ q a' b', d'.root.at? q = some (.file a' b') ↔
        q = place ∧ a' = a ∧ b' = bytes ∨ q ≠ place ∧ d.root.at? q = some (.file a' b') := by
  obtain ⟨place, a, b, hp, hat, hd⟩ := readText_eq_ok hr
  obtain ⟨place', -, -, hp', -, -, rfl⟩ := Disk.write_eq_ok.1 hw
  obtain rfl : place = place' := Except.ok.inj (hp.symm.trans hp')
  exact ⟨place, a, b, hp, hat, hd, fun q a' b' => FileTree.at?_writeAt hat⟩

/-! ## What is empty -/

/-- Bytes that are read as nothing are none: a sequence under way ends in a character. -/
theorem decodeFrom_ne_nil {k : Nat} {p : Option Text.Utf8.Pending} {b : Bytes}
    (h : Text.Utf8.decodeFrom k p b = .ok []) : p = none ∧ b = [] := by
  induction b generalizing k p with
  | nil =>
    cases p with
    | none => exact ⟨rfl, rfl⟩
    | some p => simp [Text.Utf8.decodeFrom] at h
  | cons c b ih =>
    exfalso
    cases p with
    | none =>
      unfold Text.Utf8.decodeFrom at h
      split at h
      · split at h <;> simp at h
      · split at h
        · exact absurd (ih h).1 (by simp)
        · simp at h
    | some p =>
      unfold Text.Utf8.decodeFrom at h
      split at h
      · simp at h
      · split at h
        · dsimp only at h
          split at h
          · split at h <;> simp at h
          · exact absurd (ih h).1 (by simp)
        · simp at h

/-- A manifest that is patched is not empty. -/
theorem ne_nil_of_patch {licencePath : Text} {b : Bytes} {new : Points} (hd : decode b = .ok old)
    (hn : Manifest.patch licencePath (toPoints old) = .ok new) : b ≠ [] := by
  rintro rfl
  obtain rfl : old = [] := (Except.ok.inj hd).symm
  have hread : Json.read (toPoints []) = .error (.malformed .value 0 1 1) := rfl
  simp [Manifest.patch, hread] at hn

theorem patch_ne_nil {licencePath : Text} {content new : Points}
    (h : Manifest.patch licencePath content = .ok new) : new ≠ [] := by
  have hprint : ∀ fields, Json.print (.object fields) ≠ [] := fun fields => by
    cases fields <;> simp [Json.print, Json.write]
  unfold Manifest.patch at h
  split at h
  · cases h
  · cases h
  · obtain rfl := Except.ok.inj h
    split
    · simp
    · exact hprint _
  · cases h

theorem place_ne_nil {content : Text} (h : content ≠ []) (found : Detection) (licence : Text)
    (t : FileType) : place content found (render licence t.profile) ≠ [] := by
  obtain ⟨c, s, hs, -, -, hconv⟩ := exists_render licence t
  have hbehind : ∀ nl r, Placement.insertBehindTag nl content r ≠ [] := fun nl r => by
    unfold Placement.insertBehindTag
    split
    · simp [Placement.openTag]
    · exact h
  unfold place
  simp only [hs, hconv]
  split
  · simp [Placement.replace]
  · exact hbehind _ _
  · exact hbehind _ _
  · simp [Placement.prepend]
  · simp [Placement.prepend]

/-- A stamp leaves no text empty that was not. -/
theorem apply_ne_nil {read : Php.Reader} {marker licence s : Text} {t : FileType} (h : old ≠ [])
    (hs : (Stamp.ofLicence read marker licence t).apply old = .ok s) : s ≠ [] := by
  rw [Stamp.apply] at hs
  cases hd : (Stamp.ofLicence read marker licence t).detect old with
  | error e => simp [hd, Except.map] at hs
  | ok found =>
    simp only [hd, Except.map, Except.ok.injEq] at hs
    subst hs
    unfold Stamp.applyTo Stamp.mark Stamp.body
    by_cases hmark : old.head? = some Stamp.byteOrderMark
    · simp [hmark]
    · have hplace := place_ne_nil h found licence t
      simpa [hmark, Stamp.ofLicence] using hplace

/-- No new text is empty, but that of an empty text. -/
theorem newText_ne_nil {t : FileType} {s : Text} (h : old ≠ [])
    (hn : x.newText t old = .ok (toPoints s)) : s ≠ [] := by
  rintro rfl
  rcases newText_cases hn with ⟨-, hp⟩ | ⟨s, hs, hnil⟩
  · exact patch_ne_nil hp rfl
  · obtain rfl : s = [] := by simpa [toPoints] using hnil.symm
    exact apply_ne_nil h hs rfl

/-- Only a file that was empty may come to hold nothing as a whole. -/
theorem exists_file_of_whole_nil {place : List Text} (h : x.Whole vs d place []) :
    ∃ a, d.root.at? place = some (.file a []) := by
  generalize hb : ([] : Bytes) = b at h
  induction h with
  | kept h => exact ⟨_, h⟩
  | @rewritten b old s v hb' hv hp hd hn ih =>
    have hs : s = [] := Text.Utf8.encode_inj hb.symm
    have hold : old = [] := Classical.byContradiction fun hne => newText_ne_nil hne hn hs
    subst hold
    obtain rfl := (decodeFrom_ne_nil hd).2
    rw [← hb]
    exact ih rfl

/-! ## Visits and runs -/

/-- A visit leaves every file whole, or it ends the run and one file is cut. -/
theorem whole_visit (hv : v ∈ vs) (ho : d'.outline = d.outline) (hw : x.AllWhole vs d d') :
    ((x.visit v d').halt ≠ some (.crash .unencodable) → x.AllWhole vs d (x.visit v d').disk) ∧
    ((x.visit v d').halt = some (.crash .unencodable) → x.OneCut vs d (x.visit v d').disk) := by
  have hplace : ∀ p, d'.locate p = d.locate p := fun p => by
    rw [← Disk.locate_outline d', ho, Disk.locate_outline]
  refine visit_rec (P := fun c => (c.halt ≠ some (.crash .unencodable) → x.AllWhole vs d c.disk) ∧
    (c.halt = some (.crash .unencodable) → x.OneCut vs d c.disk)) fun c hc => ?_
  cases hc with
  | written hr hn hne hdry hwrite =>
    obtain ⟨place, a, b, hp, hat, hd, hfiles⟩ := at?_of_read_write hr hwrite
    refine ⟨fun _ q a' b' hq => ?_, by simp⟩
    rcases (hfiles q a' b').1 hq with ⟨rfl, rfl, rfl⟩ | ⟨-, hq⟩
    · exact .rewritten (hw q a' b hat) hv (hplace _ ▸ hp) hd hn
    · exact hw q a' b' hq
  | cut hr ht hn he hdry hwrite =>
    obtain ⟨place, a, b, hp, hat, hd, hfiles⟩ := at?_of_read_write hr hwrite
    refine ⟨fun h => absurd rfl h, fun _ => ?_⟩
    refine ⟨place, v, a, b, _, _, hv, ht, hplace _ ▸ hp, hw place a b hat, ne_nil_of_patch hd hn,
      hd, hn, he, (hfiles place a []).2 (.inl ⟨rfl, rfl, rfl⟩), fun q a' b' hne hq => ?_⟩
    exact hw q a' b' (((hfiles q a' b').1 hq).resolve_left fun h => hne h.1).2
  | huge hr ht hn => exact ⟨fun _ => hw, by simp⟩
  | _ => exact ⟨fun _ => hw, by simp⟩

/-- Visits leave every file whole, or the last of them cuts one file. -/
theorem whole_perform {ws : List Visit} (hsub : ∀ v ∈ ws, v ∈ vs) (ho : d'.outline = d.outline)
    (hw : x.AllWhole vs d d') :
    ((x.perform ws d').halt ≠ some (.crash .unencodable) →
      x.AllWhole vs d (x.perform ws d').disk) ∧
    ((x.perform ws d').halt = some (.crash .unencodable) →
      x.OneCut vs d (x.perform ws d').disk) := by
  induction ws generalizing d' with
  | nil => exact ⟨fun _ => hw, by simp [perform]⟩
  | cons v ws ih =>
    obtain ⟨hwhole, hcut⟩ := whole_visit (hsub v List.mem_cons_self) ho hw
    rw [perform]
    cases hv : (x.visit v d').halt with
    | some h =>
      rw [Course.andThen_of_some hv]
      exact ⟨hwhole, hcut⟩
    | none =>
      rw [Course.andThen_of_none hv]
      exact ih (fun v hv => hsub v (List.mem_cons_of_mem _ hv)) (by rw [outline_visit, ho])
        (hwhole (by simp [hv]))

/-- A file that may not be written keeps its bytes. -/
theorem kept_visit {place : List Text} {a : Access} {b : Bytes}
    (h : d.root.at? place = some (.file a b)) (ha : a.write = false) :
    (x.visit v d).disk.root.at? place = some (.file a b) := by
  have hwrite : ∀ {p : Path} {bytes : Bytes} {d' : Disk}, d.write p bytes = .ok d' →
      d'.root.at? place = some (.file a b) := by
    intro p bytes d' hw
    obtain ⟨place', a', b', -, hat, ha', rfl⟩ := Disk.write_eq_ok.1 hw
    refine (FileTree.at?_writeAt hat).2 (.inr ⟨?_, h⟩)
    rintro rfl
    obtain ⟨rfl, rfl⟩ := FileTree.file.inj (Option.some.inj (h.symm.trans hat))
    simp [ha] at ha'
  refine visit_rec (P := fun c => c.disk.root.at? place = some (.file a b)) fun c hc => ?_
  cases hc with
  | written hr hn hne hdry hw => exact hwrite hw
  | cut hr ht hn he hdry hw => exact hwrite hw
  | _ => exact h

theorem kept_perform {ws : List Visit} {place : List Text} {a : Access} {b : Bytes}
    (h : d.root.at? place = some (.file a b)) (ha : a.write = false) :
    (x.perform ws d).disk.root.at? place = some (.file a b) := by
  induction ws generalizing d with
  | nil => exact h
  | cons v ws ih =>
    rw [perform]
    cases hv : (x.visit v d).halt with
    | some e =>
      rw [Course.andThen_of_some hv]
      exact kept_visit h ha
    | none =>
      rw [Course.andThen_of_none hv]
      exact ih (kept_visit h ha)

end Setup

/-- At the end of a run no file was added, taken away or given other permissions, and files
that may not be written have their bytes from before. Every file is whole, unless the run
ended at a new text without encoding: then the file that it was for is cut and every other
file is whole. If no file was empty, a cut file is not whole. -/
theorem run_leaves_whole_files (read : Php.Reader) {d : Disk} {year : Nat} {j : Job}
    {ks : List Kind} {loaded : Licence.Loaded} (hk : kinds j.extensions = .ok ks)
    (hc : j.licence.Consistent) (hl : (j.licence.load d year).result = .ok loaded) :
    (run read d year j).1.disk.outline = d.outline ∧
    (∀ place a b, d.root.at? place = some (.file a b) → a.write = false →
      (run read d year j).1.disk.root.at? place = some (.file a b)) ∧
    ((run read d year j).2 ≠ some (.crash .unencodable) →
      (Setup.ofJob read j loaded).AllWhole (agenda j d ks []) d (run read d year j).1.disk) ∧
    ((run read d year j).2 = some (.crash .unencodable) →
      (Setup.ofJob read j loaded).OneCut (agenda j d ks []) d (run read d year j).1.disk) ∧
    ((∀ place a, d.root.at? place ≠ some (.file a [])) →
      ((Setup.ofJob read j loaded).AllWhole (agenda j d ks []) d (run read d year j).1.disk ↔
        (run read d year j).2 ≠ some (.crash .unencodable))) := by
  obtain ⟨hdisk, -, hhalt⟩ := run_follows read hk hc hl
  rw [hdisk, hhalt]
  have hfirst : (Setup.ofJob read j loaded).AllWhole (agenda j d ks []) d d :=
    fun place a b h => .kept h
  obtain ⟨hwhole, hcut⟩ := Setup.whole_perform (fun _ hv => hv) rfl hfirst
  refine ⟨Setup.outline_perform _ _ _, fun _ _ _ h ha => Setup.kept_perform h ha, hwhole, hcut,
    fun hfull => ⟨fun hall hh => ?_, hwhole⟩⟩
  obtain ⟨cut, -, a, -, -, -, -, -, -, -, -, -, -, -, hempty, -⟩ := hcut hh
  obtain ⟨a', hbefore⟩ := Setup.exists_file_of_whole_nil (hall cut a [] hempty)
  exact hfull cut a' hbefore

theorem run_leaves_whole_files_halfPair :
    kinds (manifestJob false).extensions = .ok [⟨['j', 's', 'o', 'n'], .json⟩] ∧
    (manifestJob false).licence.Consistent ∧
    ((manifestJob false).licence.load (manifestDisk (encode halfPair)) 2024).result =
      .ok ⟨[], .ofRoot [['l']]⟩ ∧
    (Setup.ofJob (fun _ => .ok []) (manifestJob false) ⟨[], .ofRoot [['l']]⟩).OneCut
      [⟨.json, [manifestName]⟩] (manifestDisk (encode halfPair))
      (run (fun _ => .ok []) (manifestDisk (encode halfPair)) 2024 (manifestJob false)).1.disk := by
  have hends : (run (fun _ => .ok []) (manifestDisk (encode halfPair)) 2024
      (manifestJob false)).2 = some (.crash .unencodable) := by decide +kernel
  have hload := manifestJob_load false (encode halfPair)
  have h := run_leaves_whole_files (fun _ => .ok []) (manifestJob_kinds false)
    (Licence.consistent_ofFile _ _) hload
  exact ⟨rfl, Licence.consistent_ofFile _ _, hload, h.2.2.2.1 hends⟩

/-- The manifest holds nothing at the end of the run: neither what it held before nor the
encoding of a new text. -/
theorem halfPair_is_cut :
    (run (fun _ => .ok []) (manifestDisk (encode halfPair)) 2024 (manifestJob false)).1.disk.read
      (.ofRoot [manifestName]) = .ok [] ∧
    ¬ (Setup.ofJob (fun _ => .ok []) (manifestJob false) ⟨[], .ofRoot [['l']]⟩).AllWhole
      [⟨.json, [manifestName]⟩] (manifestDisk (encode halfPair))
      (run (fun _ => .ok []) (manifestDisk (encode halfPair)) 2024 (manifestJob false)).1.disk := by
  have hempty : (run (fun _ => .ok []) (manifestDisk (encode halfPair)) 2024
      (manifestJob false)).1.disk.read (.ofRoot [manifestName]) = .ok [] := by decide +kernel
  refine ⟨hempty, fun hall => ?_⟩
  obtain ⟨place, a, hp, hat, -⟩ := Disk.read_eq_ok.1 hempty
  obtain ⟨a', hbefore⟩ := Setup.exists_file_of_whole_nil (hall place a [] hat)
  have hplace : (run (fun _ => .ok []) (manifestDisk (encode halfPair)) 2024
      (manifestJob false)).1.disk.locate (.ofRoot [manifestName]) = .ok [manifestName] := by
    decide +kernel
  obtain rfl := Except.ok.inj (hplace.symm.trans hp)
  obtain ⟨-, hnil⟩ := FileTree.file.inj (Option.some.inj hbefore)
  exact absurd hnil (by decide +kernel)

end Letterhead.Update
