import Letterhead.Finder.Basic
/-
# What writing leaves as it was

The outline of a tree is the tree with no bytes in its files. Writing keeps the outline
and every file but one (`outline_writeAt`, `at?_writeAt`), and where paths lead, what may
be read or written and what a search finds are matters of the outline alone.
-/
namespace Letterhead

open Text.Utf8 (Bytes)

namespace FileTree

mutual

/-- The tree without the bytes of its files. -/
def outline : FileTree → FileTree
  | file access _ => file access []
  | folder access entries => folder access (outlines entries)
  | link target => link target

def outlines : List (Text × FileTree) → List (Text × FileTree)
  | [] => []
  | (n, t) :: es => (n, outline t) :: outlines es

end

variable {t : FileTree} {place q : List Text} {bytes : Bytes}

theorem outlines_eq_map (es : List (Text × FileTree)) :
    outlines es = es.map fun e => (e.1, e.2.outline) := by
  induction es with
  | nil => rfl
  | cons e es ih => simp [outlines, ih]

theorem lookup_outlines (n : Text) (es : List (Text × FileTree)) :
    (outlines es).lookup n = (es.lookup n).map outline := by
  induction es with
  | nil => rfl
  | cons e es ih =>
    obtain ⟨m, t⟩ := e
    simp only [outlines, List.lookup_cons]
    cases n == m <;> simp [ih]

theorem at?_outline (q : List Text) (t : FileTree) : t.outline.at? q = (t.at? q).map outline := by
  induction q generalizing t with
  | nil => rfl
  | cons n ns ih =>
    cases t with
    | file access bytes => rfl
    | link target => rfl
    | folder access entries =>
      rw [outline, at?, at?, lookup_outlines]
      cases entries.lookup n with
      | none => rfl
      | some t => exact ih t

/-- Entries of one outline differ in bytes alone. -/
theorem cases_of_outline {t' : FileTree} (h : t'.outline = t.outline) :
    (∃ a b b', t = file a b ∧ t' = file a b') ∨
      (∃ a es es', t = folder a es ∧ t' = folder a es') ∨
      ∃ target, t = link target ∧ t' = link target := by
  cases t with
  | file a b =>
    cases t' with
    | file a' b' => exact .inl ⟨a, b, b', rfl, by rw [(file.inj h).1]⟩
    | _ => cases h
  | folder a es =>
    cases t' with
    | folder a' es' => exact .inr (.inl ⟨a, es, es', rfl, by rw [(folder.inj h).1]⟩)
    | _ => cases h
  | link target =>
    cases t' with
    | link target' => exact .inr (.inr ⟨target, rfl, h⟩)
    | _ => cases h

/-! ## Writing -/

theorem outline_withBytes (bytes : Bytes) (t : FileTree) :
    (withBytes bytes t).outline = t.outline := by
  cases t <;> rfl

theorem outline_writeAt (place : List Text) (bytes : Bytes) (t : FileTree) :
    (t.writeAt place bytes).outline = t.outline := by
  unfold writeAt
  fun_induction change (withBytes bytes) place t with
  | case1 t => exact outline_withBytes bytes t
  | case2 n ns access entries ih =>
    simp only [outline, outlines_eq_map, List.map_map]
    refine congrArg (folder access) (List.map_congr_left fun e he => ?_)
    by_cases hn : e.1 = n
    · simp [hn, ih e]
    · simp [hn]
  | case3 => rfl

theorem lookup_change (f : FileTree → FileTree) (n m : Text) (es : List (Text × FileTree)) :
    (es.map fun e => if e.1 = n then (e.1, f e.2) else e).lookup m =
      if m = n then (es.lookup m).map f else es.lookup m := by
  induction es with
  | nil => simp
  | cons e es ih =>
    obtain ⟨k, t⟩ := e
    by_cases hk : k = n
    · subst hk
      by_cases hm : m = k
      · simp [hm]
      · have hb : (m == k) = false := by simpa using hm
        simpa [List.lookup_cons, hb, hm] using ih
    · by_cases hm : m = k
      · have hmn : m ≠ n := by rwa [hm]
        simp [hm, hk]
      · have hb : (m == k) = false := by simpa using hm
        simpa [List.lookup_cons, hb, hk] using ih

/-- After a write the file has the new bytes, and every other file what it had. -/
theorem at?_writeAt {a a' : Access} {b b' : Bytes} (h : t.at? place = some (.file a b)) :
    (t.writeAt place bytes).at? q = some (.file a' b') ↔
      q = place ∧ a' = a ∧ b' = bytes ∨ q ≠ place ∧ t.at? q = some (.file a' b') := by
  unfold writeAt
  induction place generalizing t q with
  | nil =>
    obtain rfl : t = .file a b := by simpa [at?] using h
    cases q with
    | nil => simp [change, withBytes, at?, eq_comm]
    | cons m q => simp [change, withBytes, at?]
  | cons n ns ih =>
    cases t with
    | file access bytes => simp [at?] at h
    | link target => simp [at?] at h
    | folder access entries =>
      obtain ⟨x, hx, hat⟩ := Option.bind_eq_some_iff.1 h
      cases q with
      | nil => simp [change, at?]
      | cons m q =>
        simp only [change, at?, lookup_change]
        by_cases hm : m = n
        · subst hm
          simp [hx, ih hat]
        · simp [hm]

end FileTree

namespace Disk

open FileTree

/-- The disk without the bytes of its files. -/
def outline (d : Disk) : Disk := { d with root := d.root.outline }

variable {d d' : Disk} {p : Path} {bytes : Bytes}

theorem follow_outline (root : FileTree) (place todo : List Text) :
    follow root.outline place todo = follow root place todo := by
  induction todo generalizing place with
  | nil => rfl
  | cons n todo ih =>
    rw [follow, follow, at?_outline]
    cases root.at? place with
    | none => rfl
    | some t =>
      cases t with
      | file access bytes => rfl
      | link target => rfl
      | folder access entries =>
        simp only [Option.map_some, FileTree.outline, lookup_outlines, ih]
        cases entries.lookup n with
        | none => rfl
        | some t => cases t <;> rfl

theorem locateFrom_outline (root : FileTree) (links : Nat) (place todo : List Text) :
    locateFrom root.outline links place todo = locateFrom root links place todo := by
  induction links generalizing place todo with
  | zero =>
    rw [locateFrom, locateFrom, follow_outline]
  | succ n ih =>
    rw [locateFrom, locateFrom, follow_outline]
    simp only [ih]

theorem locate_outline (d : Disk) (p : Path) : d.outline.locate p = d.locate p :=
  locateFrom_outline d.root maxLinks _ _

theorem entry_outline (d : Disk) (p : Path) :
    d.outline.entry p = (d.entry p).map FileTree.outline := by
  rw [entry, entry, locate_outline]
  cases d.locate p with
  | error e => rfl
  | ok place =>
    simp only [Disk.outline, at?_outline]
    cases d.root.at? place <;> rfl

theorem isFolder_outline (d : Disk) (p : Path) : d.outline.isFolder p = d.isFolder p := by
  rw [isFolder, isFolder, ask, ask, entry_outline]
  cases d.entry p with
  | error e => cases e <;> rfl
  | ok t => cases t <;> rfl

theorem isFile_outline (d : Disk) (p : Path) : d.outline.isFile p = d.isFile p := by
  rw [isFile, isFile, ask, ask, entry_outline]
  cases d.entry p with
  | error e => cases e <;> rfl
  | ok t => cases t <;> rfl

/-! ## Reading and writing -/

theorem read_eq_ok :
    d.read p = .ok bytes ↔
      ∃ place a, d.locate p = .ok place ∧ d.root.at? place = some (.file a bytes) ∧ a.read := by
  rw [read, entry]
  cases hp : d.locate p with
  | error e => simp
  | ok place =>
    cases ht : d.root.at? place with
    | none => simp [ht]
    | some t =>
      cases t with
      | file access old =>
        simp only [ht]
        constructor
        · intro h
          split at h
          · next hr => exact ⟨place, access, rfl, Except.ok.inj h ▸ ht, hr⟩
          · cases h
        · rintro ⟨q, a, ⟨⟩, hat, hr⟩
          obtain ⟨rfl, rfl⟩ := FileTree.file.inj (Option.some.inj (ht.symm.trans hat))
          rw [if_pos hr]
      | folder access entries => simp [ht]
      | link target => simp [ht]

theorem write_eq_ok :
    d.write p bytes = .ok d' ↔
      ∃ place a b, d.locate p = .ok place ∧ d.root.at? place = some (.file a b) ∧ a.write ∧
        d' = { d with root := d.root.writeAt place bytes } := by
  rw [write]
  cases hp : d.locate p with
  | error e => simp
  | ok place =>
    cases ht : d.root.at? place with
    | none => simp [ht]
    | some t =>
      cases t with
      | file access old => cases hw : access.write <;> simp [ht, hw, eq_comm (b := d')]
      | folder access entries => simp [ht]
      | link target => simp [ht]

/-- Whether a file may be written is no matter of the bytes. -/
theorem write_error {e : PathFault} (h : d.write p bytes = .error e) (bytes' : Bytes) :
    d.write p bytes' = .error e := by
  unfold write at h ⊢
  cases hp : d.locate p with
  | error e => simpa [hp] using h
  | ok place =>
    simp only [hp] at h ⊢
    cases ht : d.root.at? place with
    | none => simpa [ht] using h
    | some t =>
      cases t with
      | file access old =>
        simp only [ht] at h ⊢
        split at h
        · cases h
        · next hw => rwa [if_neg hw]
      | folder access entries => simpa [ht] using h
      | link target => simpa [ht] using h

/-! ## Disks of one outline -/

/-- Where a path leads is no matter of the bytes. -/
theorem locate_of_outline (h : d'.outline = d.outline) (p : Path) : d'.locate p = d.locate p := by
  rw [← locate_outline d', h, locate_outline]

/-- At a place of disks of one outline there is nothing on either, or entries of one outline. -/
theorem at?_of_outline (h : d'.outline = d.outline) (q : List Text) :
    d.root.at? q = none ∧ d'.root.at? q = none ∨
      ∃ t t', d.root.at? q = some t ∧ d'.root.at? q = some t' ∧ t'.outline = t.outline := by
  have hat : (d'.root.at? q).map FileTree.outline = (d.root.at? q).map FileTree.outline := by
    rw [← at?_outline, ← at?_outline]
    exact congrArg (fun d : Disk => d.root.at? q) h
  cases ht : d.root.at? q with
  | none =>
    rw [ht, Option.map_none, Option.map_eq_none_iff] at hat
    exact .inl ⟨rfl, hat⟩
  | some t =>
    rw [ht, Option.map_some] at hat
    obtain ⟨t', ht', hsame⟩ := Option.map_eq_some_iff.1 hat
    exact .inr ⟨t, t', rfl, ht', hsame⟩

/-- A file that has the bytes it had is read as it was. -/
theorem read_of_outline (h : d'.outline = d.outline)
    (hkept : ∀ q a b, d.locate p = .ok q → d.root.at? q = some (.file a b) →
      d'.root.at? q = some (.file a b)) : d'.read p = d.read p := by
  rw [read, read, entry, entry, locate_of_outline h]
  cases hp : d.locate p with
  | error e => rfl
  | ok q =>
    dsimp only
    rcases at?_of_outline h q with ⟨ht, ht'⟩ | ⟨t, t', ht, ht', hsame⟩
    · rw [ht, ht']
    · rcases FileTree.cases_of_outline hsame with
        ⟨a, b, b', rfl, rfl⟩ | ⟨a, es, es', rfl, rfl⟩ | ⟨target, rfl, rfl⟩
      · rw [ht, hkept q a b hp ht]
      · rw [ht, ht']
      · rw [ht, ht']

/-- Whether a file may be written is a matter of the outline. -/
theorem write_error_of_outline {e : PathFault} (h : d'.outline = d.outline) :
    d'.write p bytes = .error e ↔ d.write p bytes = .error e := by
  rw [write, write, locate_of_outline h]
  cases d.locate p with
  | error e => rfl
  | ok q =>
    dsimp only
    rcases at?_of_outline h q with ⟨ht, ht'⟩ | ⟨t, t', ht, ht', hsame⟩
    · rw [ht, ht']
    · rw [ht, ht']
      rcases FileTree.cases_of_outline hsame with
        ⟨a, b, b', rfl, rfl⟩ | ⟨a, es, es', rfl, rfl⟩ | ⟨target, rfl, rfl⟩
      · dsimp only
        split <;> simp
      · rfl
      · rfl

/-- Writing keeps the outline, and so everything that is a matter of it. -/
theorem outline_of_write (h : d.write p bytes = .ok d') : d'.outline = d.outline := by
  obtain ⟨place, a, b, -, -, -, rfl⟩ := write_eq_ok.1 h
  simp [outline, outline_writeAt]

end Disk

namespace Finder

variable {d d' : Disk}

mutual

theorem walk_outline (f : Finder) (suffix : Text) (leads : RelPath → Bool) (way : RelPath) :
    ∀ t : FileTree, f.walk suffix leads way t.outline = f.walk suffix leads way t
  | .file _ _ => rfl
  | .link _ => rfl
  | .folder access entries => by
    simp only [FileTree.outline, walk, list_outline f suffix leads access.enter way entries]

theorem list_outline (f : Finder) (suffix : Text) (leads : RelPath → Bool) (enter : Bool)
    (way : RelPath) : ∀ es : List (Text × FileTree),
    f.list suffix leads enter way (FileTree.outlines es) = f.list suffix leads enter way es
  | [] => rfl
  | (name, .file _ _) :: es => by
    simp only [FileTree.outlines, FileTree.outline, list, list_outline f suffix leads enter way es]
  | (name, .link _) :: es => by
    simp only [FileTree.outlines, FileTree.outline, list, list_outline f suffix leads enter way es]
  | (name, .folder access entries) :: es => by
    have hw := walk_outline f suffix leads (way ++ [name]) (.folder access entries)
    rw [FileTree.outline] at hw
    simp only [FileTree.outlines, FileTree.outline, list, hw,
      list_outline f suffix leads enter way es]

end

theorem sights_outline (f : Finder) (d : Disk) (suffix : Text) :
    f.sights d.outline suffix = f.sights d suffix := by
  have hleads : ∀ p, leadsToFolder d.outline p = leadsToFolder d p := fun p => by
    rw [leadsToFolder, leadsToFolder, Disk.isFolder_outline]
  rw [sights, sights, Disk.locate_outline]
  cases d.locate f.target with
  | error e => rfl
  | ok place =>
    simp only [hleads]
    rw [Disk.outline, FileTree.at?_outline]
    cases d.root.at? place with
    | none => rfl
    | some t => exact walk_outline f _ _ _ t

/-- A search finds the same on disks of one outline. -/
theorem find_of_outline (h : d'.outline = d.outline) (f : Finder) (extension : Text) :
    f.find d' extension = f.find d extension := by
  rw [find, find, ← sights_outline f d', h, sights_outline]

end Finder
end Letterhead
