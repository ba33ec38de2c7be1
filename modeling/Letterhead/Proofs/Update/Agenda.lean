import Letterhead.Proofs.Finder.Extension
import Letterhead.Proofs.Finder.Walk
import Letterhead.Proofs.Traversal
import Letterhead.Proofs.Update.Course
/-
# What a run visits, and when

A run visits every candidate once: in the order of the extensions, a file with the first
extension that finds it, and among the files of one extension by their texts
(`agenda_exact`). Extensions that are listed twice, or find what was found before, change
nothing.
-/
namespace Letterhead

/-- A file that an update has to do with: a supported extension finds it, and if it is a JSON
file it is a manifest. -/
def Job.Candidate (j : Job) (d : Disk) (file : RelPath) : Prop :=
  ∃ e ∈ j.extensions, ∃ t, FileType.ofExtension? e = some t ∧ file ∈ j.finder.find d e ∧
    Update.isCandidate t file

/-- The place of the first extension that finds a file. -/
def Job.turn (j : Job) (d : Disk) (file : RelPath) : Nat :=
  j.extensions.findIdx fun e => (j.finder.find d e).contains file

/-- The order of the files of an update: by the first extension that finds them, then by their
texts. -/
def Job.Precedes (j : Job) (d : Disk) (r s : RelPath) : Prop :=
  j.turn d r < j.turn d s ∨ j.turn d r = j.turn d s ∧ RelPath.id r ≠ RelPath.id s ∧
    Text.le (RelPath.id r) (RelPath.id s)

namespace Update

variable {j : Job} {d : Disk} {k : Kind} {ks : List Kind} {handled files : List RelPath}
  {t : FileType} {v : Visit} {r s : RelPath}

/-! ## Kinds -/

/-- Every kind has the type of its extension. -/
def Typed (ks : List Kind) : Prop := ∀ k ∈ ks, FileType.ofExtension? k.extension = some k.fileType

theorem kindOf_eq_ok {e : Text} : kinds.kindOf e = .ok k ↔
    FileType.ofExtension? e = some k.fileType ∧ k.extension = e := by
  obtain ⟨extension, u⟩ := k
  unfold kinds.kindOf
  cases FileType.ofExtension? e <;> simp [and_comm, eq_comm]

theorem mapM_kindOf {es : List Text} (h : es.mapM kinds.kindOf = .ok ks) :
    ks.map Kind.extension = es ∧ Typed ks := by
  have hall := mapM_eq_ok_iff.1 h
  clear h
  induction hall with
  | nil => exact ⟨rfl, by simp [Typed]⟩
  | cons hk _ ih =>
    obtain ⟨htype, rfl⟩ := kindOf_eq_ok.1 hk
    exact ⟨by rw [List.map_cons, ih.1], List.forall_mem_cons.2 ⟨htype, ih.2⟩⟩

/-- The kinds of a run are those of all its extensions, each taken once. -/
theorem exists_of_kinds {es : List Text} (h : kinds es = .ok ks) :
    ∃ all : List Kind, ks = all.eraseDups ∧ all.map Kind.extension = es ∧ Typed all := by
  unfold kinds at h
  cases hm : es.mapM kinds.kindOf with
  | error e => simp [hm, Except.map] at h
  | ok all =>
    obtain ⟨hext, htyped⟩ := mapM_kindOf hm
    exact ⟨all, by simpa [hm, Except.map] using h.symm, hext, htyped⟩

/-- All that find a file are of one type. -/
theorem fileType_eq (hk : FileType.ofExtension? k.extension = some k.fileType) {e : Text}
    (he : FileType.ofExtension? e = some t) (hr : r ∈ j.finder.find d k.extension)
    (hr' : r ∈ j.finder.find d e) : k.fileType = t := by
  obtain ⟨-, u, -, -, hs⟩ := Finder.seen_of_mem_find hr
  obtain ⟨-, u', -, -, hs'⟩ := Finder.seen_of_mem_find hr'
  exact Finder.fileType_unique hk he hs.suffix_getLast hs'.suffix_getLast

/-! ## What is visited -/

theorem mem_newFiles :
    r ∈ newFiles j d k handled ↔ r ∈ j.finder.find d k.extension ∧ r ∉ handled := by
  simp [newFiles]

theorem mem_visits :
    v ∈ visits t files ↔ v.fileType = t ∧ v.file ∈ files ∧ isCandidate t v.file := by
  obtain ⟨u, r⟩ := v
  simp only [visits, List.mem_map, List.mem_filter, Visit.mk.injEq]
  constructor
  · rintro ⟨r, h, rfl, rfl⟩
    exact ⟨rfl, h⟩
  · rintro ⟨rfl, h⟩
    exact ⟨r, h, rfl, rfl⟩

theorem map_file_visits (t : FileType) (files : List RelPath) :
    (visits t files).map Visit.file = files.filter (isCandidate t) := by
  simp [visits, Function.comp_def]

/-- What is visited is found by a kind, was not handled before, and is a candidate of the type
of that kind. -/
theorem mem_agenda (ht : Typed ks) :
    v ∈ agenda j d ks handled ↔ v.file ∉ handled ∧ ∃ k ∈ ks, v.fileType = k.fileType ∧
      v.file ∈ j.finder.find d k.extension ∧ isCandidate k.fileType v.file := by
  induction ks generalizing handled with
  | nil => simp [agenda]
  | cons k ks ih =>
    obtain ⟨hk, hks⟩ := List.forall_mem_cons.1 ht
    rw [agenda, List.mem_append, mem_visits, mem_newFiles, ih hks, List.mem_append, mem_newFiles]
    constructor
    · rintro (⟨htype, ⟨hfound, hnew⟩, hc⟩ | ⟨hnew, k', hk', h⟩)
      · exact ⟨hnew, k, List.mem_cons_self, htype, hfound, hc⟩
      · exact ⟨fun h => hnew (.inl h), k', List.mem_cons_of_mem k hk', h⟩
    · rintro ⟨hnew, k', hk', htype, hfound', hc⟩
      by_cases hfound : v.file ∈ j.finder.find d k.extension
      · -- the first kind visits the file, and as a file of the same type
        have heq := fileType_eq hk (ht k' hk') hfound hfound'
        exact .inl ⟨htype.trans heq.symm, ⟨hfound, hnew⟩, heq ▸ hc⟩
      · rcases List.mem_cons.1 hk' with rfl | hk'
        · exact absurd hfound' hfound
        · exact .inr ⟨fun h => h.elim hnew fun h => hfound h.1, k', hk', htype, hfound', hc⟩

/-- A kind that finds nothing new changes nothing. -/
theorem agenda_cons_of_handled (h : ∀ r ∈ j.finder.find d k.extension, r ∈ handled)
    (ks : List Kind) : agenda j d (k :: ks) handled = agenda j d ks handled := by
  have hnone : newFiles j d k handled = [] := by
    rw [List.eq_nil_iff_forall_not_mem]
    exact fun r hr => (mem_newFiles.1 hr).2 (h r (mem_newFiles.1 hr).1)
  rw [agenda, hnone, List.append_nil]
  rfl

theorem agenda_filter (h : ∀ r ∈ j.finder.find d k.extension, r ∈ handled) (ks : List Kind) :
    agenda j d (ks.filter fun k' => !k' == k) handled = agenda j d ks handled := by
  induction ks generalizing handled with
  | nil => rfl
  | cons k' ks ih =>
    by_cases hk : k' = k
    · subst hk
      rw [List.filter_cons_of_neg (by simp), agenda_cons_of_handled h, ih h]
    · rw [List.filter_cons_of_pos (by simpa using hk), agenda, agenda,
        ih fun r hr => List.mem_append_left _ (h r hr)]

/-- Kinds that are listed twice are visited once. -/
theorem agenda_eraseDups (j : Job) (d : Disk) (ks : List Kind) (handled : List RelPath) :
    agenda j d ks.eraseDups handled = agenda j d ks handled := by
  match ks with
  | [] => rfl
  | k :: ks =>
    have hshort : (ks.filter fun k' => !k' == k).length ≤ ks.length := List.length_filter_le _ _
    have hfound : ∀ r ∈ j.finder.find d k.extension, r ∈ handled ++ newFiles j d k handled := by
      intro r hr
      by_cases hnew : r ∈ handled
      · exact List.mem_append_left _ hnew
      · exact List.mem_append_right _ (mem_newFiles.2 ⟨hr, hnew⟩)
    rw [List.eraseDups_cons, agenda, agenda, agenda_eraseDups j d (ks.filter fun k' => !k' == k),
      agenda_filter hfound]
termination_by ks.length

/-! ## When it is visited -/

/-- The place of the first kind that finds a file. -/
def rank (j : Job) (d : Disk) (ks : List Kind) (r : RelPath) : Nat :=
  ks.findIdx fun k => (j.finder.find d k.extension).contains r

theorem rank_cons_of_mem (h : r ∈ j.finder.find d k.extension) : rank j d (k :: ks) r = 0 := by
  simp [rank, List.findIdx_cons, h]

theorem rank_cons_of_not_mem (h : r ∉ j.finder.find d k.extension) :
    rank j d (k :: ks) r = rank j d ks r + 1 := by
  simp [rank, List.findIdx_cons, h]

/-- Visits go by the first kind that finds a file, then by the texts of the files. -/
theorem agenda_pairwise (hd : d.root.IsProper) (ht : Typed ks) :
    ((agenda j d ks handled).map Visit.file).Pairwise fun r s =>
      rank j d ks r < rank j d ks s ∨ rank j d ks r = rank j d ks s ∧
        RelPath.id r ≠ RelPath.id s ∧ Text.le (RelPath.id r) (RelPath.id s) := by
  induction ks generalizing handled with
  | nil => simp [agenda]
  | cons k ks ih =>
    have hks : Typed ks := (List.forall_mem_cons.1 ht).2
    have hlater : ∀ r ∈ (agenda j d ks (handled ++ newFiles j d k handled)).map Visit.file,
        rank j d (k :: ks) r = rank j d ks r + 1 := by
      intro r hr
      obtain ⟨v, hv, rfl⟩ := List.mem_map.1 hr
      have hnew := ((mem_agenda hks).1 hv).1
      simp only [List.mem_append, mem_newFiles, not_or, not_and, Classical.not_not] at hnew
      exact rank_cons_of_not_mem fun hfound => hnew.1 (hnew.2 hfound)
    have hnow : ∀ r ∈ (visits k.fileType (newFiles j d k handled)).map Visit.file,
        r ∈ j.finder.find d k.extension := by
      intro r hr
      obtain ⟨v, hv, rfl⟩ := List.mem_map.1 hr
      exact (mem_newFiles.1 (mem_visits.1 hv).2.1).1
    rw [agenda, List.map_append, List.pairwise_append]
    refine ⟨?_, ?_, ?_⟩
    · have hsub : ((visits k.fileType (newFiles j d k handled)).map Visit.file).Sublist
          (j.finder.find d k.extension) := by
        rw [map_file_visits]
        exact List.filter_sublist.trans List.filter_sublist
      have hsorted := ((Finder.find_pairwise k.extension).and
        (Finder.find_nodup hd k.extension)).sublist hsub
      refine hsorted.imp_of_mem fun {r s} hr hs h => .inr ⟨?_, ?_, h.1⟩
      · rw [rank_cons_of_mem (hnow r hr), rank_cons_of_mem (hnow s hs)]
      · exact fun heq => h.2 (Finder.id_inj_of_mem_find hd (hnow r hr) (hnow s hs) heq)
    · refine ih hks |>.imp_of_mem fun {r s} hr hs h => ?_
      rw [hlater r hr, hlater s hs]
      exact h.imp (fun h => by omega) fun h => ⟨by omega, h.2⟩
    · intro r hr s hs
      rw [rank_cons_of_mem (hnow r hr), hlater s hs]
      exact .inl (by omega)

/-- A run visits the candidates, each as a file of the type of every extension that finds it,
and in their order. -/
theorem agenda_exact (hd : d.root.IsProper) (hk : kinds j.extensions = .ok ks) :
    (∀ v ∈ agenda j d ks [], isCandidate v.fileType v.file ∧
      ∀ e ∈ j.extensions, v.file ∈ j.finder.find d e →
        FileType.ofExtension? e = some v.fileType) ∧
    (∀ r, r ∈ (agenda j d ks []).map Visit.file ↔ j.Candidate d r) ∧
    ((agenda j d ks []).map Visit.file).Pairwise (j.Precedes d) := by
  obtain ⟨all, rfl, hext, htyped⟩ := exists_of_kinds hk
  rw [agenda_eraseDups]
  refine ⟨fun v hv => ?_, fun r => ?_, ?_⟩
  · obtain ⟨-, k, hk, htype, hfound, hc⟩ := (mem_agenda htyped).1 hv
    refine ⟨htype ▸ hc, fun e he hfound' => ?_⟩
    rw [← hext] at he
    obtain ⟨k', hk', rfl⟩ := List.mem_map.1 he
    rw [htyped k' hk', htype, fileType_eq (htyped k hk) (htyped k' hk') hfound hfound']
  · constructor
    · intro hr
      obtain ⟨v, hv, rfl⟩ := List.mem_map.1 hr
      obtain ⟨-, k, hk, htype, hfound, hc⟩ := (mem_agenda htyped).1 hv
      exact ⟨k.extension, hext ▸ List.mem_map_of_mem hk, k.fileType, htyped k hk, hfound, hc⟩
    · rintro ⟨e, he, t, het, hfound, hc⟩
      rw [← hext] at he
      obtain ⟨k, hk, rfl⟩ := List.mem_map.1 he
      obtain rfl := Option.some.inj ((htyped k hk).symm.trans het)
      exact List.mem_map.2 ⟨⟨k.fileType, r⟩,
        (mem_agenda htyped).2 ⟨by simp, k, hk, rfl, hfound, hc⟩, rfl⟩
  · have hrank : ∀ r, rank j d all r = j.turn d r := fun r => by
      rw [rank, Job.turn, ← hext, List.findIdx_map]
      rfl
    refine (agenda_pairwise hd htyped).imp fun {r s} h => ?_
    simpa only [Job.Precedes, hrank] using h

/-- No two files of a run have one text. -/
theorem agenda_ids_nodup (hd : d.root.IsProper) (hk : kinds j.extensions = .ok ks) :
    (((agenda j d ks []).map Visit.file).map RelPath.id).Nodup := by
  obtain ⟨-, hmem, hpairwise⟩ := agenda_exact hd hk
  refine List.pairwise_map.2 (hpairwise.imp_of_mem fun {r s} hr hs h => ?_)
  rcases h with h | h
  · -- files of different extensions differ, and so do their texts
    rintro heq
    obtain ⟨e, -, t, -, hfound, -⟩ := (hmem r).1 hr
    obtain ⟨e', -, t', -, hfound', -⟩ := (hmem s).1 hs
    rw [Finder.id_inj_of_mem_find hd hfound hfound' heq] at h
    exact Nat.lt_irrefl _ h
  · exact h.2.1

end Update
end Letterhead
