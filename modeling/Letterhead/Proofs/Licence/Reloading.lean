import Mathlib.Data.List.Basic
import Letterhead.Licence.Bundled
import Letterhead.Proofs.Disk.Outline
import Letterhead.Proofs.Licence.Loading
import Letterhead.Text.Utf8.Lemmas
/-
# Loading a licence once more

Where a licence is found is a matter of the outline of the disk. So it loads alike from two
disks of one outline that have the same bytes in its file (`load_of_outline`). The texts that come
along do not depend on the year either (`isBundled_of_read`).
-/
namespace Letterhead

theorem Text.replaceAll_of_notMem {c : Char} {s : Text} (h : c ∉ s) (needle new : Text) :
    replaceAll (c :: needle) new s = s := by
  rw [replaceAll]
  induction s with
  | nil => rfl
  | cons d s ih =>
    obtain ⟨hcd, hs⟩ := List.ne_and_not_mem_of_not_mem_cons h
    have hnot : ¬ (c :: needle).isPrefixOf (d :: s) := by simp [hcd]
    rw [replaceAll.go, if_neg hnot, ih hs]

theorem Disk.mayRead_of_read {d : Disk} {p : Path} {bytes : Text.Utf8.Bytes}
    (h : d.read p = .ok bytes) : d.mayRead p := by
  obtain ⟨place, a, hp, hat, hread⟩ := read_eq_ok.1 h
  simpa [mayRead, entry, hp, hat] using hread

namespace Licence

variable {l : Licence} {d d' : Disk} {year : Nat} {x : Loaded} {p : Path}

theorem firstFile?_outline (d : Disk) (ps : List Path) :
    firstFile? d.outline ps = firstFile? d ps := by
  induction ps with
  | nil => rfl
  | cons p ps ih => rw [firstFile?, firstFile?, Disk.isFile_outline, ih]

/-- A file is read if it encodes a text, and the year stands in it for the mark. -/
theorem readFile_eq_ok : readFile d year p = .ok x ↔ ∃ bytes s, d.read p = .ok bytes ∧
    Text.Utf8.decode bytes = .ok s ∧
    x = ⟨Text.replaceAll yearMark (Text.ofNat year) s, d.resolve p⟩ := by
  unfold readFile
  constructor
  · intro h
    split at h
    · cases h
    · cases hr : d.read p with
      | error e => simp [hr] at h
      | ok bytes =>
        cases hs : Text.Utf8.decode bytes with
        | error e => simp [hr, hs] at h
        | ok s => exact ⟨bytes, s, rfl, hs, by simpa [hr, hs, eq_comm] using h⟩
  · rintro ⟨bytes, s, hr, hs, rfl⟩
    simp [Disk.mayRead_of_read hr, hr, hs]

/-- The file that is read is where the licence has its source. -/
theorem locate_of_readFile (h : readFile d year p = .ok x) :
    d.locate p = .ok x.source.names := by
  obtain ⟨bytes, s, hr, -, rfl⟩ := readFile_eq_ok.1 h
  obtain ⟨place, -, hp, -⟩ := Disk.read_eq_ok.1 hr
  rw [Disk.resolve, hp]
  rfl

theorem readFile_of_outline (h : d'.outline = d.outline) (hr : readFile d year p = .ok x)
    (hkept : ∀ a b, d.root.at? x.source.names = some (.file a b) →
      d'.root.at? x.source.names = some (.file a b)) : readFile d' year p = .ok x := by
  have hplace := locate_of_readFile hr
  have hread : d'.read p = d.read p := Disk.read_of_outline h fun q a b hq hat => by
    obtain rfl := Except.ok.inj (hplace.symm.trans hq)
    exact hkept a b hat
  have hresolve : d'.resolve p = d.resolve p := by
    rw [Disk.resolve, Disk.resolve, Disk.locate_of_outline h, hplace]
  obtain ⟨bytes, s, hbytes, hs, hx⟩ := readFile_eq_ok.1 hr
  exact readFile_eq_ok.2 ⟨bytes, s, hread.trans hbytes, hs, hresolve ▸ hx⟩

/-- A licence loads if it is loaded already, or else from the first path that leads to a file. -/
theorem load_eq_ok : (l.load d year).result = .ok x ↔ l.loaded = some x ∨
    l.loaded = none ∧ ∃ p, firstFile? d (l.candidates d) = .ok (some p) ∧
      readFile d year p = .ok x := by
  unfold load
  cases l.loaded with
  | some y => simp
  | none =>
    unfold loadFile
    rcases firstFile? d (l.candidates d) with e | _ | p
    · simp
    · simp
    · cases hr : readFile d year p <;> simp [hr, Except.map]

/-- A licence loads as it did from a disk of the same outline, if its file has its bytes still. -/
theorem load_of_outline (h : d'.outline = d.outline) (hl : (l.load d year).result = .ok x)
    (hkept : ∀ a b, d.root.at? x.source.names = some (.file a b) →
      d'.root.at? x.source.names = some (.file a b)) : (l.load d' year).result = .ok x := by
  rw [load_eq_ok] at hl ⊢
  refine hl.imp_right fun ⟨hnew, p, hfirst, hread⟩ => ?_
  refine ⟨hnew, p, ?_, readFile_of_outline h hread hkept⟩
  have hcandidates : l.candidates d'.outline = l.candidates d.outline := congrArg l.candidates h
  rw [← firstFile?_outline] at hfirst ⊢
  rw [← hfirst, h]
  exact congrArg (firstFile? d.outline) hcandidates

/-! ## The texts that come along -/

/-- The licence is one of those that come along: it loads in every year, and its file has the
name and the text of one of them. -/
structure IsBundled (l : Licence) (d : Disk) (x : Loaded) : Prop where
  loads : ∀ year, (l.load d year).result = .ok x
  bundled : (x.source.name, x.text) ∈ Bundled.files

/-- A doc block has no characters but its own and those of its lines. -/
theorem notMem_docBlock {c : Char} {lines : List String} (hc : c ∉ ['/', '*', ' ', '\n'])
    (h : ∀ l ∈ lines, c ∉ l.toList) : c ∉ Bundled.docBlock lines := by
  have hopening : "/**\n".toList = ['/', '*', '*', '\n'] := rfl
  have hclosing : " */\n".toList = [' ', '*', '/', '\n'] := rfl
  simp only [List.mem_cons, List.not_mem_nil, or_false, not_or] at hc
  simp only [Bundled.docBlock, hopening, hclosing, List.mem_append, List.mem_flatMap, not_or,
    not_exists, not_and]
  refine ⟨⟨by simp [hc], fun l hl => ?_⟩, by simp [hc]⟩
  have := h l hl
  split <;> simp_all

/-- The texts that come along name no year. -/
theorem brace_notMem_bundled : ∀ f ∈ Bundled.files, '{' ∉ f.2 := by
  intro f hf
  rcases List.mem_pair.1 hf with rfl | rfl
  all_goals
    refine notMem_docBlock (by decide) ?_
    simp only [Bundled.notice, Bundled.disclaimer, Bundled.tags, List.cons_append,
      List.nil_append, List.forall_mem_cons]
    and_intros
    all_goals first
      | (rw [String.toList_ofList]; decide)
      | exact List.forall_mem_nil _

/-- A licence that is not loaded yet and finds the file of one that comes along is that one. -/
theorem isBundled_of_read {f : Text × Text} (hf : f ∈ Bundled.files) (hnew : l.loaded = none)
    (hfirst : firstFile? d (l.candidates d) = .ok (some p))
    (hread : d.read p = .ok (Text.Utf8.encode f.2)) (hname : (d.resolve p).name = f.1) :
    l.IsBundled d ⟨f.2, d.resolve p⟩ := by
  refine ⟨fun year => load_eq_ok.2 (.inr ⟨hnew, p, hfirst, ?_⟩), hname ▸ hf⟩
  have hyear : Text.replaceAll yearMark (Text.ofNat year) f.2 = f.2 := by
    have hmark : yearMark = '{' :: "currentYear\x7d".toList := by decide +kernel
    rw [hmark, Text.replaceAll_of_notMem (brace_notMem_bundled f hf)]
  exact readFile_eq_ok.2 ⟨_, f.2, hread, Text.Utf8.decode_encode f.2, by rw [hyear]⟩

end Licence
end Letterhead
