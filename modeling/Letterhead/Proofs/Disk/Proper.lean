import Letterhead.Finder.Basic
import Letterhead.Proofs.Text.Pieces
/-
# Trees as a disk keeps them

In a folder of a disk no two entries have one name, and a name is not empty and holds no
slash (`IsProper`). Then every entry is found under its name, and the names of a path can be
told from its text (`RelPath.id_inj`).
-/
namespace Letterhead

/-- A name that an entry of a folder can have. -/
def IsName (n : Text) : Prop := n ≠ [] ∧ '/' ∉ n

namespace FileTree

/-- What holds of every entry of a folder, if it holds of the folders, files and links below,
holds of every tree. -/
@[elab_as_elim]
theorem entries_induction {motive : FileTree → Prop}
    (file : ∀ access bytes, motive (file access bytes)) (link : ∀ target, motive (link target))
    (folder : ∀ access entries, (∀ e ∈ entries, motive e.2) → motive (folder access entries)) :
    ∀ t, motive t
  | .link target => link target
  | .file access bytes => file access bytes
  | .folder access entries => folder access entries fun e he =>
    have : sizeOf e.2 < 1 + sizeOf access + sizeOf entries := by
      have hpair : sizeOf e = 1 + sizeOf e.1 + sizeOf e.2 := rfl
      have := List.sizeOf_lt_of_mem he
      omega
    entries_induction file link folder e.2
termination_by t => sizeOf t

mutual

/-- A property of a tree and of every tree below it. -/
def Every (p : FileTree → Prop) : FileTree → Prop
  | folder access entries => p (folder access entries) ∧ EveryOf p entries
  | t => p t

def EveryOf (p : FileTree → Prop) : List (Text × FileTree) → Prop
  | [] => True
  | (_, t) :: es => Every p t ∧ EveryOf p es

end

/-- The names in a folder, where the tree is one. -/
def HasProperNames : FileTree → Prop
  | folder _ entries => (entries.map Prod.fst).Nodup ∧ ∀ e ∈ entries, IsName e.1
  | _ => True

/-- The names in every folder are distinct, not empty and without slash. -/
def IsProper (t : FileTree) : Prop := t.Every HasProperNames

/-- The tree is no link. -/
def IsNoLink : FileTree → Prop
  | link _ => False
  | _ => True

/-- There is no link in the tree. -/
def IsLinkFree (t : FileTree) : Prop := t.Every IsNoLink

variable {p : FileTree → Prop} {t u : FileTree} {access : Access}
  {es : List (Text × FileTree)} {n : Text} {q : List Text}

theorem everyOf_iff : EveryOf p es ↔ ∀ e ∈ es, e.2.Every p := by
  induction es with
  | nil => simp [EveryOf]
  | cons e es ih => simp [EveryOf, ih]

theorem every_folder :
    (folder access es).Every p ↔ p (folder access es) ∧ ∀ e ∈ es, e.2.Every p := by
  rw [Every, everyOf_iff]

theorem Every.self (h : t.Every p) : p t := by
  cases t with
  | folder access es => exact (every_folder.1 h).1
  | file access bytes => exact h
  | link target => exact h

theorem lookup_of_mem (hnames : (es.map Prod.fst).Nodup) (he : (n, t) ∈ es) :
    es.lookup n = some t := by
  obtain ⟨before, behind, rfl⟩ := List.append_of_mem he
  refine List.lookup_eq_some_iff.2 ⟨before, behind, rfl, fun e hb => ?_⟩
  rw [List.map_append, List.nodup_append] at hnames
  simpa using (hnames.2.2 e.1 (List.mem_map_of_mem hb) n (by simp)).symm

theorem mem_of_lookup (h : es.lookup n = some t) : (n, t) ∈ es := by
  obtain ⟨before, behind, rfl, -⟩ := List.lookup_eq_some_iff.1 h
  simp

theorem Every.at? (h : t.Every p) (ha : t.at? q = some u) : u.Every p := by
  induction q generalizing t with
  | nil => exact Option.some.inj ha ▸ h
  | cons n q ih =>
    cases t with
    | file access bytes => simp [FileTree.at?] at ha
    | link target => simp [FileTree.at?] at ha
    | folder access es =>
      obtain ⟨s, hs, hat⟩ := Option.bind_eq_some_iff.1 ha
      exact ih ((every_folder.1 h).2 _ (mem_of_lookup hs)) hat

/-- In a proper tree only names lead to an entry. -/
theorem names_of_at? (ht : t.IsProper) (hu : t.at? q = some u) : ∀ n ∈ q, IsName n := by
  induction q generalizing t with
  | nil => simp
  | cons n q ih =>
    cases t with
    | file access bytes => simp [FileTree.at?] at hu
    | link target => simp [FileTree.at?] at hu
    | folder access es =>
      obtain ⟨s, hs, hat⟩ := Option.bind_eq_some_iff.1 hu
      obtain ⟨⟨-, hnames⟩, hbelow⟩ := every_folder.1 ht
      exact List.forall_mem_cons.2
        ⟨hnames _ (mem_of_lookup hs), ih (hbelow _ (mem_of_lookup hs)) hat⟩

theorem at?_append (q r : List Text) (t : FileTree) :
    t.at? (q ++ r) = (t.at? q).bind (at? r) := by
  induction q generalizing t with
  | nil => rfl
  | cons n q ih =>
    cases t with
    | file access bytes => rfl
    | link target => rfl
    | folder access es =>
      simp only [List.cons_append, at?]
      cases es.lookup n with
      | none => rfl
      | some t => exact ih t

end FileTree

/-! ## The text of a path -/

/-- Paths with one text are one. -/
theorem RelPath.id_inj {r s : RelPath} (hr : r ≠ []) (hs : s ≠ []) (hrn : ∀ n ∈ r, IsName n)
    (hsn : ∀ n ∈ s, IsName n) (h : RelPath.id r = RelPath.id s) : r = s := by
  rw [id, id, if_neg (by simpa using hr), if_neg (by simpa using hs)] at h
  rw [← Text.splitOn_joinWith hr fun n hn => (hrn n hn).2, h,
    Text.splitOn_joinWith hs fun n hn => (hsn n hn).2]

end Letterhead
