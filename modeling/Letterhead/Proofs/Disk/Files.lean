import Letterhead.Proofs.Disk.Outline
import Letterhead.Proofs.Disk.Proper
/-
# A tree is its outline and its files

The outline of a proper tree tells all of it but the bytes of its files. So trees of one outline
that have the same bytes wherever both have a file are one (`eq_of_outline`).
-/
namespace Letterhead

open Text.Utf8 (Bytes)

namespace FileTree

variable {t t' : FileTree} {es : List (Text × FileTree)} {access : Access}

theorem map_fst_outlines (es : List (Text × FileTree)) :
    (outlines es).map Prod.fst = es.map Prod.fst := by
  rw [outlines_eq_map, List.map_map]
  rfl

/-- An entry is found under its name. -/
theorem at?_cons_of_mem (hnames : (es.map Prod.fst).Nodup) {e : Text × FileTree} (he : e ∈ es)
    (q : List Text) : (folder access es).at? (e.1 :: q) = e.2.at? q := by
  rw [at?, lookup_of_mem hnames he]
  rfl

/-- Trees of one outline are one if every file has the same bytes in both. -/
theorem eq_of_outline (ht : t.IsProper) (ho : t'.outline = t.outline)
    (hfiles : ∀ q a b b', t.at? q = some (.file a b) → t'.at? q = some (.file a b') → b' = b) :
    t' = t := by
  induction t using entries_induction generalizing t' with
  | file a b =>
    rcases cases_of_outline ho with ⟨_, _, b', heq, rfl⟩ | ⟨_, _, _, heq, -⟩ | ⟨_, heq, -⟩
    · obtain ⟨rfl, rfl⟩ := file.inj heq
      rw [hfiles [] a b b' rfl rfl]
    · cases heq
    · cases heq
  | link target =>
    rcases cases_of_outline ho with ⟨_, _, _, heq, -⟩ | ⟨_, _, _, heq, -⟩ | ⟨_, heq, rfl⟩
    · cases heq
    · cases heq
    · exact heq.symm
  | folder a es ih =>
    rcases cases_of_outline ho with ⟨_, _, _, heq, -⟩ | ⟨_, _, es', heq, rfl⟩ | ⟨_, heq, -⟩
    · cases heq
    · obtain ⟨rfl, rfl⟩ := folder.inj heq
      have hsame : outlines es' = outlines es := (folder.inj ho).2
      obtain ⟨⟨hnames, -⟩, hbelow⟩ := every_folder.1 ht
      have hnames' : (es'.map Prod.fst).Nodup := by
        rwa [← map_fst_outlines, hsame, map_fst_outlines]
      have hmap : es'.map (fun e => (e.1, e.2.outline)) = es.map fun e => (e.1, e.2.outline) := by
        rwa [← outlines_eq_map, ← outlines_eq_map]
      have hlength : es'.length = es.length := by simpa using congrArg List.length hmap
      -- entry by entry, since entries at one place have one name
      refine congrArg (folder a) (List.ext_getElem hlength fun i hi' hi => ?_)
      have hentry : (es'[i].1, es'[i].2.outline) = (es[i].1, es[i].2.outline) := by
        simpa [List.getElem?_eq_getElem hi, List.getElem?_eq_getElem hi'] using
          congrArg (·[i]?) hmap
      obtain ⟨hname, houtline⟩ := Prod.mk.inj hentry
      refine Prod.ext hname (ih es[i] (List.getElem_mem hi) (hbelow _ (List.getElem_mem hi))
        houtline fun q a' b b' hat hat' => hfiles (es[i].1 :: q) a' b b' ?_ ?_)
      · rw [at?_cons_of_mem hnames (List.getElem_mem hi), hat]
      · rw [← hname, at?_cons_of_mem hnames' (List.getElem_mem hi'), hat']
    · cases heq

/-- Whether a tree is proper is no matter of the bytes. -/
theorem isProper_outline (t : FileTree) : t.outline.IsProper ↔ t.IsProper := by
  induction t using entries_induction with
  | file a b => exact Iff.rfl
  | link target => exact Iff.rfl
  | folder a es ih =>
    have hnames : ∀ P : Text → Prop, (∀ e ∈ outlines es, P e.1) ↔ ∀ e ∈ es, P e.1 := fun P => by
      simp only [outlines_eq_map, List.forall_mem_map]
    have hbelow : (∀ e ∈ outlines es, e.2.IsProper) ↔ ∀ e ∈ es, e.2.IsProper := by
      simp only [outlines_eq_map, List.forall_mem_map]
      exact forall₂_congr ih
    unfold IsProper at hbelow ⊢
    rw [outline, every_folder, every_folder, hbelow]
    simp only [HasProperNames, map_fst_outlines, hnames]

end FileTree

namespace Disk

variable {d d' : Disk}

theorem isProper_of_outline (h : d'.outline = d.outline) (hd : d.root.IsProper) :
    d'.root.IsProper := by
  have hroot : d'.root.outline = d.root.outline := congrArg root h
  rw [← FileTree.isProper_outline, hroot]
  exact (FileTree.isProper_outline _).2 hd

/-- Disks of one outline are one if every file has the same bytes on both. -/
theorem eq_of_outline (hd : d.root.IsProper) (ho : d'.outline = d.outline)
    (hfiles : ∀ q a b b', d.root.at? q = some (.file a b) → d'.root.at? q = some (.file a b') →
      b' = b) : d' = d := by
  have hroot : d'.root = d.root := FileTree.eq_of_outline hd (congrArg root ho) hfiles
  have hcwd : d'.outline.cwd = d.outline.cwd := congrArg cwd ho
  obtain ⟨root, cwd⟩ := d
  obtain ⟨root', cwd'⟩ := d'
  obtain rfl : root' = root := hroot
  obtain rfl : cwd' = cwd := hcwd
  rfl

/-- A file is a file, with the same access, on every disk of the outline. -/
theorem exists_file_of_outline (h : d'.outline = d.outline) {q : List Text} {a : Access}
    {b : Bytes} (hat : d'.root.at? q = some (.file a b)) :
    ∃ b', d.root.at? q = some (.file a b') := by
  rcases at?_of_outline h q with ⟨-, hnone⟩ | ⟨t, t', ht, ht', hsame⟩
  · cases hat.symm.trans hnone
  · obtain rfl := Option.some.inj (ht'.symm.trans hat)
    rcases FileTree.cases_of_outline hsame with
      ⟨_, b', _, rfl, heq⟩ | ⟨_, _, _, -, heq⟩ | ⟨_, -, heq⟩
    · obtain ⟨rfl, -⟩ := FileTree.file.inj heq
      exact ⟨b', ht⟩
    · cases heq
    · cases heq

end Disk
end Letterhead
