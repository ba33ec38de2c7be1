import Letterhead.Proofs.Licence.Reloading
/-
# A licence stays as it was loaded

A licence may be asked many things, and between two questions the disk, the current folder and
the year may change in any way. As long as its file is not found or cannot be read, the licence
is as new. From the first time that it is, every answer is one from the text and the path of
that time (`frozen_at_first_load`). What carries this from one question to the next is that the
licence is loaded and that the renderings it keeps are those of its text (`ask_of_load`).
-/
namespace Letterhead.Licence

/-- What a licence can be asked: for all that is loaded, for the text, for the file that it comes
from, or for the header for a type given by name. -/
inductive Question
  | whole
  | text
  | source
  | header (typeName : Text)
deriving DecidableEq, Repr

/-- What it replies. -/
inductive Reply
  | whole (x : Loaded)
  | text (s : Text)
  | source (p : Path)
  | header (s : Text)
deriving DecidableEq, Repr

/-- A question, with the disk and the year as they are when it is asked. -/
structure Inquiry where
  disk : Disk
  year : Nat
  question : Question

/-- An answer with its reply put otherwise. -/
def Answer.map {α β : Type} (f : α → β) (a : Answer α) : Answer β :=
  ⟨a.result.map f, a.licence, a.log⟩

/-- What the licence answers to a question. -/
def ask (l : Licence) (i : Inquiry) : Answer Reply :=
  match i.question with
  | .whole => (l.load i.disk i.year).map .whole
  | .text => (l.load i.disk i.year).map fun x => .text x.text
  | .source => (l.load i.disk i.year).map fun x => .source x.source
  | .header name => (l.renderingNamed i.disk i.year name).map .header

/-- The licence when it was asked these things, one after the other. -/
def after (l : Licence) (asked : List Inquiry) : Licence :=
  asked.foldl (fun l i => (l.ask i).licence) l

/-- What one text and its file have for a reply. There is no header for a type that is not
known. -/
def Loaded.reply (x : Loaded) : Question → Except Halt Reply
  | .whole => .ok (.whole x)
  | .text => .ok (.text x.text)
  | .source => .ok (.source x.source)
  | .header name => match FileType.ofName? name with
    | some t => .ok (.header (render x.text t.profile))
    | none => .error (.failure (.unsupportedType name))

/-- What is found of the file on a disk in a year. It is looked for as it is given, and if its
path is relative in the current folder and then in the folder of the texts that come along. The
first that is a file is read, and the year stands in its text for the mark. -/
def Finds (l : Licence) (d : Disk) (year : Nat) (x : Loaded) : Prop :=
  ∃ tried p others bytes s,
    (l.file :: if l.file.isAbsolute then []
      else [(Path.ofRoot d.cwd).join l.file, l.assets.join l.file]) = tried ++ p :: others ∧
    (∀ q ∈ tried, d.isFile q = .ok false) ∧ d.isFile p = .ok true ∧
    d.read p = .ok bytes ∧ Text.Utf8.decode bytes = .ok s ∧
    x = ⟨Text.replaceAll yearMark (Text.ofNat year) s, d.resolve p⟩

/-- This is found when these things are asked, and nothing was found before. -/
def FindsFirst (l : Licence) (asked : List Inquiry) (x : Loaded) : Prop :=
  ∃ failed i later, asked = failed ++ i :: later ∧
    (∀ j ∈ failed, ∀ y, ¬ l.Finds j.disk j.year y) ∧ l.Finds i.disk i.year x

variable {l : Licence} {d : Disk} {year : Nat} {x : Loaded} {i : Inquiry} {asked : List Inquiry}
  {p : Path}

/-! ## Finding the file -/

theorem firstFile?_eq_some {ps : List Path} : firstFile? d ps = .ok (some p) ↔
    ∃ tried others, ps = tried ++ p :: others ∧ (∀ q ∈ tried, d.isFile q = .ok false) ∧
      d.isFile p = .ok true := by
  induction ps with
  | nil => simp [firstFile?]
  | cons q ps ih =>
    unfold firstFile?
    constructor
    · intro h
      cases hq : d.isFile q with
      | error e => simp [hq] at h
      | ok isFile =>
        rw [hq] at h
        cases isFile with
        | true =>
          obtain rfl := Option.some.inj (Except.ok.inj h)
          exact ⟨[], ps, rfl, by simp, hq⟩
        | false =>
          obtain ⟨tried, others, rfl, htried, hp⟩ := ih.1 h
          exact ⟨q :: tried, others, rfl, List.forall_mem_cons.2 ⟨hq, htried⟩, hp⟩
    · rintro ⟨tried, others, hcut, htried, hp⟩
      cases tried with
      | nil =>
        obtain ⟨rfl, -⟩ := List.cons.inj hcut
        rw [hp]
      | cons r tried =>
        obtain ⟨rfl, rfl⟩ := List.cons.inj hcut
        obtain ⟨hq, htried⟩ := List.forall_mem_cons.1 htried
        rw [hq]
        exact ih.2 ⟨tried, others, rfl, htried, hp⟩

theorem candidates_eq (l : Licence) (d : Disk) :
    l.candidates d = l.file :: if l.file.isAbsolute then []
      else [(Path.ofRoot d.cwd).join l.file, l.assets.join l.file] := by
  unfold candidates
  split <;> rfl

/-- A licence that is not loaded loads what it finds. -/
theorem load_eq_ok_iff_finds (h : l.loaded = none) :
    (l.load d year).result = .ok x ↔ l.Finds d year x := by
  rw [load_eq_ok, h, candidates_eq]
  simp only [reduceCtorEq, false_or, true_and]
  constructor
  · rintro ⟨p, hfirst, hread⟩
    obtain ⟨tried, others, hcut, htried, hp⟩ := firstFile?_eq_some.1 hfirst
    obtain ⟨bytes, s, hread⟩ := readFile_eq_ok.1 hread
    exact ⟨tried, p, others, bytes, s, hcut, htried, hp, hread⟩
  · rintro ⟨tried, p, others, bytes, s, hcut, htried, hp, hread⟩
    exact ⟨p, firstFile?_eq_some.2 ⟨tried, others, hcut, htried, hp⟩,
      readFile_eq_ok.2 ⟨bytes, s, hread⟩⟩

/-! ## One question -/

/-- A licence that loads replies from what it loads, and is loaded with that. -/
theorem ask_of_load (hc : l.Consistent) (h : (l.load i.disk i.year).result = .ok x) :
    (l.ask i).result = x.reply i.question ∧ (l.ask i).licence.loaded = some x ∧
      (l.ask i).licence.Consistent := by
  have hloaded := loaded_of_load h
  have hconsistent := hc.load h
  obtain ⟨disk, year, question⟩ := i
  cases question with
  | whole | text | source =>
    exact ⟨by simp [ask, Answer.map, h, Except.map, Loaded.reply], hloaded, hconsistent⟩
  | header name =>
    cases hname : FileType.ofName? name with
    | some t =>
      obtain ⟨hresult, hloaded, hconsistent⟩ := rendering_eq hc h t
      simp only [ask, renderingNamed, hname, Answer.map, hresult, Except.map, Loaded.reply]
      exact ⟨trivial, hloaded, hconsistent⟩
    | none =>
      simp only [ask, renderingNamed, hname, Answer.map, h, Except.map, Loaded.reply]
      exact ⟨trivial, hloaded, hconsistent⟩

/-- A new licence that finds nothing stays new. -/
theorem ask_of_not_finds {assets file : Path}
    (h : ∀ x, ¬ (ofFile assets file).Finds i.disk i.year x) :
    ∃ e, (ofFile assets file).ask i = ⟨.error e, ofFile assets file, []⟩ := by
  obtain ⟨e, he⟩ : ∃ e, ((ofFile assets file).load i.disk i.year).result = .error e := by
    cases hr : ((ofFile assets file).load i.disk i.year).result with
    | error e => exact ⟨e, rfl⟩
    | ok x => exact absurd ((load_eq_ok_iff_finds rfl).1 hr) (h x)
  refine ⟨e, ?_⟩
  have hload := load_of_error he
  have hnone : ∀ t, (ofFile assets file).renderings.lookup t = none := fun _ => rfl
  unfold ask
  cases i.question with
  | whole | text | source => simp [Answer.map, hload, Except.map]
  | header name =>
    cases hname : FileType.ofName? name <;>
      simp [renderingNamed, rendering, hname, hnone, Answer.map, hload, Except.map]

/-! ## Many questions -/

/-- A loaded licence stays loaded with the same. -/
theorem after_of_loaded (hc : l.Consistent) (h : l.loaded = some x) (asked : List Inquiry) :
    (l.after asked).loaded = some x ∧ (l.after asked).Consistent := by
  induction asked generalizing l with
  | nil => exact ⟨h, hc⟩
  | cons i asked ih =>
    have hload := congrArg Answer.result (load_of_loaded h i.disk i.year)
    obtain ⟨-, hloaded, hconsistent⟩ := ask_of_load hc hload
    exact ih hconsistent hloaded

/-- As long as it finds nothing, a new licence stays new. -/
theorem after_of_not_finds {assets file : Path}
    (h : ∀ j ∈ asked, ∀ x, ¬ (ofFile assets file).Finds j.disk j.year x) :
    (ofFile assets file).after asked = ofFile assets file := by
  induction asked with
  | nil => rfl
  | cons i asked ih =>
    obtain ⟨hi, hasked⟩ := List.forall_mem_cons.1 h
    obtain ⟨e, he⟩ := ask_of_not_finds hi
    rw [after, List.foldl_cons, he]
    exact ih hasked

theorem after_append (l : Licence) (asked more : List Inquiry) :
    l.after (asked ++ more) = (l.after asked).after more :=
  List.foldl_append

/-- Once it has found its file, a licence is loaded with what it found. -/
theorem after_of_findsFirst {assets file : Path} (h : (ofFile assets file).FindsFirst asked x) :
    ((ofFile assets file).after asked).loaded = some x ∧
      ((ofFile assets file).after asked).Consistent := by
  obtain ⟨failed, i, later, rfl, hfailed, hfinds⟩ := h
  have hload := (load_eq_ok_iff_finds rfl).2 hfinds
  obtain ⟨-, hloaded, hconsistent⟩ := ask_of_load (consistent_ofFile assets file) hload
  rw [after_append, after_of_not_finds hfailed]
  exact after_of_loaded hconsistent hloaded later

/-- A licence is frozen when it first finds its file. Whatever it was asked, on whatever disk,
from whatever folder and in whatever year, an answer is one from the text and the path that were
found first, by this question or by one before it. As long as nothing was found the licence is as
new, and a question that finds nothing either fails and leaves it so. -/
theorem frozen_at_first_load (assets file : Path) (asked : List Inquiry) (i : Inquiry) :
    (∀ x, (ofFile assets file).FindsFirst (asked ++ [i]) x →
      (((ofFile assets file).after asked).ask i).result = x.reply i.question) ∧
    ((∀ j ∈ asked, ∀ x, ¬ (ofFile assets file).Finds j.disk j.year x) →
      (ofFile assets file).after asked = ofFile assets file ∧
      ((∀ x, ¬ (ofFile assets file).Finds i.disk i.year x) →
        ∃ e, (ofFile assets file).ask i = ⟨.error e, ofFile assets file, []⟩)) := by
  refine ⟨fun x ⟨failed, j, later, hcut, hfailed, hfinds⟩ => ?_, fun hnone =>
    ⟨after_of_not_finds hnone, ask_of_not_finds⟩⟩
  rcases List.eq_nil_or_concat later with rfl | ⟨later, k, rfl⟩
  · -- this question is the first to find the file
    obtain ⟨rfl, hij⟩ := List.append_inj' hcut rfl
    obtain rfl := List.singleton_inj.1 hij
    rw [after_of_not_finds hfailed]
    exact (ask_of_load (consistent_ofFile assets file) ((load_eq_ok_iff_finds rfl).2 hfinds)).1
  · rw [List.concat_eq_append, ← List.cons_append, ← List.append_assoc] at hcut
    obtain ⟨rfl, hik⟩ := List.append_inj' hcut rfl
    obtain ⟨hloaded, hconsistent⟩ := after_of_findsFirst ⟨failed, j, later, rfl, hfailed, hfinds⟩
    have hload := congrArg Answer.result (load_of_loaded hloaded i.disk i.year)
    exact (ask_of_load hconsistent hload).1

/-- A folder with a notice, one with another notice, and none of them where one looks at first. -/
def noticeDisk (cwd : List Text) : Disk :=
  ⟨.folder .full
    [("a".toList, .folder .full
      [("n.txt".toList, .file .full (Text.Utf8.encode "(c) \x7bcurrentYear\x7d".toList))]),
     ("b".toList, .folder .full [("n.txt".toList, .file .full [])])], cwd⟩

/-- A notice that is looked for by its name. -/
def noticeLicence : Licence := ofFile (.ofRoot ["assets".toList]) ⟨.here, ["n.txt".toList]⟩

/-- It is found in the first folder, by a question that fails for another reason. -/
def noticeInquiries : List Inquiry :=
  [⟨noticeDisk [], 2023, .header "js".toList⟩,
   ⟨noticeDisk ["a".toList], 2024, .header "cobol".toList⟩,
   ⟨noticeDisk ["b".toList], 2025, .header "js".toList⟩]

theorem frozen_at_first_load_notice :
    noticeLicence.FindsFirst (noticeInquiries ++ [⟨noticeDisk ["b".toList], 2026, .text⟩])
      ⟨"(c) 2024".toList, .ofRoot ["a".toList, "n.txt".toList]⟩ ∧
    ((noticeLicence.after noticeInquiries).ask ⟨noticeDisk ["b".toList], 2026, .text⟩).result =
      .ok (.text "(c) 2024".toList) := by
  have hnone : (noticeLicence.load (noticeDisk []) 2023).result =
      .error (.failure (.licenceNotFound "n.txt".toList)) := by
    decide +kernel
  have hfinds : (noticeLicence.load (noticeDisk ["a".toList]) 2024).result =
      .ok ⟨"(c) 2024".toList, .ofRoot ["a".toList, "n.txt".toList]⟩ := by
    decide +kernel
  have hfirst : noticeLicence.FindsFirst
      (noticeInquiries ++ [⟨noticeDisk ["b".toList], 2026, .text⟩])
      ⟨"(c) 2024".toList, .ofRoot ["a".toList, "n.txt".toList]⟩ := by
    refine ⟨[⟨noticeDisk [], 2023, .header "js".toList⟩], _, _, rfl, ?_,
      (load_eq_ok_iff_finds rfl).1 hfinds⟩
    intro j hj y hy
    rw [List.mem_singleton.1 hj] at hy
    cases hnone.symm.trans ((load_eq_ok_iff_finds rfl).2 hy)
  exact ⟨hfirst, (frozen_at_first_load _ _ noticeInquiries _).1 _ hfirst⟩

end Letterhead.Licence
