import Mathlib.Data.List.Nodup
import Letterhead.Proofs.Disk.Proper
/-
# What a search finds

A search finds files and links that stand in the tree of its target under names that are not
hidden, the last of which ends as asked for (`Seen`, `seen_of_mem_find`). On a proper
disk it finds each of them once, and hands them out by their texts (`find_nodup`,
`find_pairwise`).
-/
namespace Letterhead.Finder

/-- The tree is no folder. -/
def IsLeaf : FileTree → Prop
  | .folder _ _ => False
  | _ => True

/-- A file or link of a tree, by the names that lead to it: none is hidden, and the last one
ends with the suffix. -/
inductive Seen (suffix : Text) : FileTree → RelPath → Prop
  | entry {access : Access} {entries : List (Text × FileTree)} {n : Text} {t : FileTree}
      (he : (n, t) ∈ entries) (ht : IsLeaf t) (hn : isHidden n = false) (hs : suffix <:+ n) :
      Seen suffix (.folder access entries) [n]
  | inside {access : Access} {entries : List (Text × FileTree)} {n : Text} {t : FileTree}
      {r : RelPath} (he : (n, t) ∈ entries) (hn : isHidden n = false) (hr : Seen suffix t r) :
      Seen suffix (.folder access entries) (n :: r)

namespace Seen

variable {suffix : Text} {t : FileTree} {r : RelPath}

theorem ne_nil (h : Seen suffix t r) : r ≠ [] := by
  cases h <;> simp

/-- The last name ends with the suffix. -/
theorem suffix_getLast (h : Seen suffix t r) : suffix <:+ r.getLast?.getD [] := by
  induction h with
  | entry he ht hn hs => exact hs
  | @inside _ _ _ _ r he hn hr ih =>
    obtain ⟨m, r, rfl⟩ := List.exists_cons_of_ne_nil hr.ne_nil
    rwa [List.getLast?_cons_cons]

theorem not_hidden (h : Seen suffix t r) : ∀ n ∈ r, isHidden n = false := by
  induction h with
  | entry he ht hn hs => simpa using hn
  | inside he hn hr ih => exact List.forall_mem_cons.2 ⟨hn, ih⟩

theorem names (h : Seen suffix t r) (ht : t.IsProper) : ∀ n ∈ r, IsName n := by
  induction h with
  | entry he hl hn hs => simpa using ht.self.2 _ he
  | inside he hn hr ih =>
    exact List.forall_mem_cons.2 ⟨ht.self.2 _ he, ih ((FileTree.every_folder.1 ht).2 _ he)⟩

/-- On a proper tree it is found at its names. -/
theorem at? (h : Seen suffix t r) (ht : t.IsProper) : ∃ u, t.at? r = some u ∧ IsLeaf u := by
  induction h with
  | @entry _ _ n u he hl hn hs =>
    exact ⟨u, by rw [FileTree.at?, FileTree.lookup_of_mem ht.self.1 he]; rfl, hl⟩
  | inside he hn hr ih =>
    obtain ⟨u, hu, hl⟩ := ih ((FileTree.every_folder.1 ht).2 _ he)
    exact ⟨u, by rw [FileTree.at?, FileTree.lookup_of_mem ht.self.1 he]; exact hu, hl⟩

end Seen

/-! ## The listing of a folder -/

/-- Whether an entry is listed as a file: it is one, or a link that leads to no folder. -/
def listsAsFile (leads : RelPath → Bool) (way : RelPath) (e : Text × FileTree) : Bool :=
  match e.2 with
  | .file _ _ => true
  | .link _ => !leads (way ++ [e.1])
  | .folder _ _ => false

/-- Whether an entry is a folder that is entered. -/
def entersFolder (f : Finder) (enter : Bool) (way : RelPath) (e : Text × FileTree) : Bool :=
  match e.2 with
  | .folder _ _ => enter && !f.isExcludedFolder e.1 (way ++ [e.1])
  | _ => false

section
variable {f : Finder} {suffix : Text} {leads : RelPath → Bool} {enter : Bool} {way : RelPath}
  {es : List (Text × FileTree)} {n : Text}

theorem files_list : (f.list suffix leads enter way es).files =
    (es.filter (listsAsFile leads way)).map Prod.fst := by
  induction es with
  | nil => rfl
  | cons e es ih =>
    obtain ⟨m, t⟩ := e
    cases t with
    | file access bytes => exact congrArg (m :: ·) ih
    | link target =>
      cases hm : leads (way ++ [m]) <;> simp [list, ih, listsAsFile, hm]
    | folder access entries =>
      simp only [list, List.filter_cons, listsAsFile]
      split
      · exact ih
      · split <;> exact ih

/-- The folders of a listing are those that are entered, each with a walk through it. -/
theorem folders_list : (f.list suffix leads enter way es).folders =
    (es.filter (f.entersFolder enter way)).map fun e =>
      (e.1, f.walk suffix leads (way ++ [e.1]) e.2) := by
  induction es with
  | nil => rfl
  | cons e es ih =>
    obtain ⟨m, t⟩ := e
    cases t with
    | file access bytes => exact ih
    | link target =>
      simp only [list, List.filter_cons, entersFolder]
      split <;> exact ih
    | folder access entries =>
      cases hx : f.isExcludedFolder m (way ++ [m]) <;> cases enter <;>
        simp [list, ih, entersFolder, hx]

theorem list_files_sublist :
    (f.list suffix leads enter way es).files.Sublist (es.map Prod.fst) := by
  rw [files_list]
  exact List.filter_sublist.map Prod.fst

theorem list_folders_sublist :
    ((f.list suffix leads enter way es).folders.map Prod.fst).Sublist (es.map Prod.fst) := by
  rw [folders_list, List.map_map]
  exact List.filter_sublist.map Prod.fst

theorem exists_of_mem_list_files (h : n ∈ (f.list suffix leads enter way es).files) :
    ∃ t, (n, t) ∈ es ∧ IsLeaf t := by
  rw [files_list] at h
  obtain ⟨⟨m, t⟩, he, rfl⟩ := List.mem_map.1 h
  obtain ⟨hmem, hlists⟩ := List.mem_filter.1 he
  refine ⟨t, hmem, ?_⟩
  cases t with
  | folder access entries => cases hlists
  | _ => trivial

theorem exists_of_mem_list_folders {sights : List Sight}
    (h : (n, sights) ∈ (f.list suffix leads enter way es).folders) :
    ∃ t, (n, t) ∈ es ∧ isHidden n = false ∧ sights = f.walk suffix leads (way ++ [n]) t := by
  rw [folders_list] at h
  obtain ⟨⟨m, t⟩, he, heq⟩ := List.mem_map.1 h
  obtain ⟨rfl, rfl⟩ := Prod.mk.inj heq
  obtain ⟨hmem, henters⟩ := List.mem_filter.1 he
  refine ⟨t, hmem, ?_, rfl⟩
  cases t with
  | folder access entries =>
    simp only [entersFolder, isExcludedFolder, Bool.and_eq_true, Bool.not_eq_true',
      Bool.or_eq_false_iff] at henters
    exact henters.2.1
  | _ => cases henters

end

/-! ## Walking -/

/-- The files among sights. -/
def filesOf (sights : List Sight) : List RelPath := sights.filterMap Sight.file?

variable {f : Finder} {suffix : Text} {leads : RelPath → Bool} {way : RelPath} {t : FileTree}
  {file : RelPath} {n : Text} {d : Disk}

theorem filesOf_append (s s' : List Sight) : filesOf (s ++ s') = filesOf s ++ filesOf s' :=
  List.filterMap_append

theorem filesOf_flatMap {α : Type} (xs : List α) (g : α → List Sight) :
    filesOf (xs.flatMap g) = xs.flatMap fun x => filesOf (g x) := by
  induction xs with
  | nil => rfl
  | cons x xs ih => rw [List.flatMap_cons, filesOf_append, ih, List.flatMap_cons]

@[simp] theorem filesOf_seeSkipped (f : Finder) (way : RelPath) (n : Text) :
    filesOf (f.seeSkipped way n) = [] := by
  unfold seeSkipped
  split <;> rfl

theorem filesOf_seeFile (f : Finder) (suffix : Text) (way : RelPath) (n : Text) :
    filesOf (f.seeFile suffix way n) =
      if !isHidden n && suffix.isSuffixOf n && !f.isExcludedName n then [way ++ [n]] else [] := by
  unfold seeFile
  cases isHidden n <;> cases suffix.isSuffixOf n <;> cases f.isExcludedName n <;> rfl

/-- The files of a listing: those in the folder, then those of each folder below. -/
theorem filesOf_sights (l : Listing) :
    filesOf (l.sights f suffix way) =
      ((Order.sort Text.le l.files).filter fun n =>
          !isHidden n && suffix.isSuffixOf n && !f.isExcludedName n).map (fun n => way ++ [n]) ++
        (byName l.folders).flatMap fun e => filesOf e.2 := by
  have hskipped : filesOf ((Order.sort Text.le l.skipped).flatMap (f.seeSkipped way)) = [] := by
    simp [filesOf_flatMap]
  have hfiles : ∀ names : List Text, filesOf (names.flatMap (f.seeFile suffix way)) =
      (names.filter fun n =>
        !isHidden n && suffix.isSuffixOf n && !f.isExcludedName n).map fun n => way ++ [n] := by
    intro names
    induction names with
    | nil => rfl
    | cons n names ih =>
      rw [List.flatMap_cons, filesOf_append, ih, filesOf_seeFile, List.filter_cons]
      split <;> rfl
  rw [Listing.sights, filesOf_append, filesOf_append, hskipped, hfiles, filesOf_flatMap,
    List.nil_append]

/-- A walk finds what is seen in the tree that it goes through. -/
theorem seen_of_mem_walk (h : file ∈ filesOf (f.walk suffix leads way t)) :
    ∃ r, file = way ++ r ∧ Seen suffix t r := by
  induction t using FileTree.entries_induction generalizing way with
  | file access bytes => simp [walk, filesOf] at h
  | link target => simp [walk, filesOf] at h
  | folder access entries ih =>
    rw [walk] at h
    split at h
    · rw [filesOf_sights] at h
      rcases List.mem_append.1 h with h | h
      · obtain ⟨n, hn, rfl⟩ := List.mem_map.1 h
        simp only [List.mem_filter, Order.mem_sort, Bool.and_eq_true, Bool.not_eq_true',
          List.isSuffixOf_iff_suffix] at hn
        obtain ⟨t, he, ht⟩ := exists_of_mem_list_files hn.1
        exact ⟨[n], rfl, .entry he ht hn.2.1.1 hn.2.1.2⟩
      · obtain ⟨⟨n, sights⟩, he, h⟩ := List.mem_flatMap.1 h
        obtain ⟨t, ht, hn, rfl⟩ := exists_of_mem_list_folders (Order.mem_sort.1 he)
        obtain ⟨r, rfl, hr⟩ := ih (n, t) ht h
        exact ⟨n :: r, by simp, .inside ht hn hr⟩
    · simp [filesOf] at h

/-- On a proper tree a walk finds each file once. -/
theorem nodup_walk (ht : t.IsProper) : (filesOf (f.walk suffix leads way t)).Nodup := by
  induction t using FileTree.entries_induction generalizing way with
  | file access bytes => simp [walk, filesOf]
  | link target => simp [walk, filesOf]
  | folder access entries ih =>
    rw [walk]
    split
    · have hnames := ht.self.1
      have hsorted : ((byName (f.list suffix leads access.enter way entries).folders).map
          Prod.fst).Nodup :=
        ((Order.sort_perm _ _).map _).nodup_iff.2 (hnames.sublist list_folders_sublist)
      rw [filesOf_sights]
      refine List.nodup_append.2 ⟨?_, ?_, ?_⟩
      · refine List.Nodup.map (fun n m h => by simpa using h) (List.Nodup.filter _ ?_)
        exact (Order.sort_perm _ _).nodup_iff.2 (hnames.sublist list_files_sublist)
      · -- each folder holds its files once, and no two hold one file: their names differ
        refine List.nodup_flatMap.2 ⟨?_, ?_⟩
        · rintro ⟨n, sights⟩ he
          obtain ⟨t, hmem, -, rfl⟩ := exists_of_mem_list_folders (Order.mem_sort.1 he)
          exact ih (n, t) hmem ((FileTree.every_folder.1 ht).2 _ hmem)
        · refine (List.pairwise_map.1 hsorted).imp_of_mem ?_
          rintro ⟨n, sights⟩ ⟨m, sights'⟩ he he' hne file h h'
          obtain ⟨t, -, -, rfl⟩ := exists_of_mem_list_folders (Order.mem_sort.1 he)
          obtain ⟨u, -, -, rfl⟩ := exists_of_mem_list_folders (Order.mem_sort.1 he')
          obtain ⟨r, rfl, -⟩ := seen_of_mem_walk h
          obtain ⟨s, hs, -⟩ := seen_of_mem_walk h'
          simp only [List.append_assoc, List.singleton_append, List.append_cancel_left_eq,
            List.cons.injEq] at hs
          exact hne hs.1
      · -- a file of the folder has one name behind the way, one from below has more
        intro file h file' h' heq
        subst heq
        obtain ⟨n, -, rfl⟩ := List.mem_map.1 h
        obtain ⟨⟨m, sights⟩, he, h'⟩ := List.mem_flatMap.1 h'
        obtain ⟨t, -, -, rfl⟩ := exists_of_mem_list_folders (Order.mem_sort.1 he)
        obtain ⟨r, hr, hseen⟩ := seen_of_mem_walk h'
        exact hseen.ne_nil (by simpa using congrArg List.length hr)
    · simp [filesOf]

/-! ## Searching -/

theorem mem_find {extension : Text} :
    file ∈ f.find d extension ↔ file ∈ filesOf (f.sights d (suffixOf extension)) :=
  Order.mem_sort

/-- What is found stands in the tree of the target. -/
theorem seen_of_mem_find {extension : Text} (h : file ∈ f.find d extension) :
    ∃ place t, d.locate f.target = .ok place ∧ d.root.at? place = some t ∧
      Seen (suffixOf extension) t file := by
  rw [mem_find, sights] at h
  cases hp : d.locate f.target with
  | error e => simp [hp, filesOf] at h
  | ok place =>
    simp only [hp] at h
    cases ht : d.root.at? place with
    | none => simp [ht, filesOf] at h
    | some t =>
      simp only [ht] at h
      obtain ⟨r, hr, hseen⟩ := seen_of_mem_walk h
      exact ⟨place, t, rfl, ht, by simpa using hr ▸ hseen⟩

theorem find_nodup (hd : d.root.IsProper) (extension : Text) : (f.find d extension).Nodup := by
  refine (Order.sort_perm _ _).nodup_iff.2 ?_
  show (filesOf (f.sights d (suffixOf extension))).Nodup
  unfold sights
  split
  · simp [filesOf]
  · split
    · simp [filesOf]
    · next t ht => exact nodup_walk (hd.at? ht)

theorem find_pairwise (extension : Text) :
    (f.find d extension).Pairwise fun r s => Text.le (RelPath.id r) (RelPath.id s) :=
  Order.sort_pairwise (fun r s => Text.le_total (RelPath.id r) (RelPath.id s))
    (fun _ _ _ => Text.le_trans) _

/-- On a proper disk the text of a file that is found says which file it is. -/
theorem id_inj_of_mem_find (hd : d.root.IsProper) {e e' : Text} {r s : RelPath}
    (hr : r ∈ f.find d e) (hs : s ∈ f.find d e') (h : RelPath.id r = RelPath.id s) : r = s := by
  obtain ⟨place, t, -, ht, hr⟩ := seen_of_mem_find hr
  obtain ⟨place', t', -, ht', hs⟩ := seen_of_mem_find hs
  exact RelPath.id_inj hr.ne_nil hs.ne_nil (hr.names (hd.at? ht)) (hs.names (hd.at? ht')) h

end Letterhead.Finder
