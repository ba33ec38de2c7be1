import Letterhead.Licence.Basic
/-
# What a licence answers

A licence that loads answers every question about headers from the one text that it has
loaded: `stamps_eq` says so of the stamps of a run. The invariant is `Consistent`.
-/
namespace Letterhead.Licence

/-- The renderings that are kept are those of the text that is loaded. -/
def Consistent (l : Licence) : Prop :=
  ∀ t header, l.renderings.lookup t = some header →
    ∃ x, l.loaded = some x ∧ header = render x.text t.profile

variable {l : Licence} {d : Disk} {year : Nat} {x : Loaded}

theorem consistent_ofFile (assets file : Path) : (ofFile assets file).Consistent := by
  rintro t header ⟨⟩

/-- A loaded licence does not look at the disk again. -/
theorem load_of_loaded (h : l.loaded = some x) (d : Disk) (year : Nat) :
    l.load d year = ⟨.ok x, l, []⟩ := by
  rw [load, h]

/-- A load that fails leaves the licence as it was. -/
theorem load_of_error {h : Halt} (hl : (l.load d year).result = .error h) :
    l.load d year = ⟨.error h, l, []⟩ := by
  unfold load at hl ⊢
  cases hloaded : l.loaded with
  | some y => simp [hloaded] at hl
  | none =>
    rw [hloaded] at hl
    cases hf : l.loadFile d year with
    | error e =>
      simp only [hf, Except.error.injEq] at hl
      rw [hl]
    | ok y => simp [hf] at hl

/-- A load that does not fail leaves the licence loaded. -/
theorem loaded_of_load (h : (l.load d year).result = .ok x) :
    (l.load d year).licence.loaded = some x := by
  unfold load at h ⊢
  cases hl : l.loaded with
  | some y =>
    simp only [hl, Except.ok.injEq] at h
    rw [← h]
    exact hl
  | none =>
    rw [hl] at h
    cases hf : l.loadFile d year with
    | error e => simp [hf] at h
    | ok y =>
      simp only [hf, Except.ok.injEq] at h
      rw [← h]

theorem Consistent.load (hc : l.Consistent) (h : (l.load d year).result = .ok x) :
    (l.load d year).licence.Consistent := by
  intro t header hr
  refine ⟨x, loaded_of_load h, ?_⟩
  have hkept : (l.load d year).licence.renderings = l.renderings := by
    unfold Licence.load
    split
    · rfl
    · split <;> rfl
  rw [hkept] at hr
  obtain ⟨y, hy, rfl⟩ := hc t header hr
  rw [load_of_loaded hy, Except.ok.injEq] at h
  rw [h]

theorem rendering_eq (hc : l.Consistent) (h : (l.load d year).result = .ok x) (t : FileType) :
    (l.rendering d year t).result = .ok (render x.text t.profile) ∧
      (l.rendering d year t).licence.loaded = some x ∧
      (l.rendering d year t).licence.Consistent := by
  unfold rendering
  cases hr : l.renderings.lookup t with
  | some header =>
    obtain ⟨y, hy, rfl⟩ := hc t header hr
    rw [load_of_loaded hy, Except.ok.injEq] at h
    subst h
    exact ⟨rfl, hy, hc⟩
  | none =>
    simp only [h]
    refine ⟨trivial, loaded_of_load h, fun t' header hr' => ⟨x, loaded_of_load h, ?_⟩⟩
    simp only [List.lookup_cons] at hr'
    split at hr'
    · next ht =>
      rw [eq_of_beq ht, ← Option.some.inj hr']
    · obtain ⟨y, hy, rfl⟩ := hc.load h t' header hr'
      rw [loaded_of_load h, Option.some.injEq] at hy
      rw [hy]

theorem ofName?_name (t : FileType) : FileType.ofName? t.name = some t := by
  cases t <;> decide +kernel

/-- The stamps of a run are those of the one text, and the licence is loaded by then if
there are any. -/
theorem stamps_eq (read : Php.Reader) (marker : Text) (ts : List FileType) (hc : l.Consistent)
    (h : (l.load d year).result = .ok x) :
    (l.stamps read marker d year (ts.map FileType.name)).result =
        .ok (ts.map (Stamp.ofLicence read marker x.text)) ∧
      ((l.stamps read marker d year (ts.map FileType.name)).licence.load d year).result = .ok x ∧
      (ts ≠ [] → (l.stamps read marker d year (ts.map FileType.name)).licence.loaded = some x) := by
  induction ts generalizing l with
  | nil => exact ⟨rfl, h, fun hne => absurd rfl hne⟩
  | cons t ts ih =>
    obtain ⟨hresult, hloaded, hconsistent⟩ := rendering_eq hc h t
    have hagain := congrArg Answer.result (load_of_loaded hloaded d year)
    obtain ⟨hrest, hload, hkept⟩ := ih hconsistent hagain
    simp only [List.map_cons, stamps, stamp, ofName?_name, hresult, Except.map]
    rw [hrest]
    refine ⟨rfl, hload, fun _ => ?_⟩
    cases ts with
    | nil => exact hloaded
    | cons u us => exact hkept (by simp)

/-- Without a text there are no stamps, unless none is asked for. -/
theorem nil_of_stamps {read : Php.Reader} {marker : Text} {ts : List FileType}
    {made : List Stamp} {h : Halt} (hc : l.Consistent) (hl : (l.load d year).result = .error h)
    (hst : (l.stamps read marker d year (ts.map FileType.name)).result = .ok made) : ts = [] := by
  cases ts with
  | nil => rfl
  | cons t ts =>
    have hnone : l.renderings.lookup t = none := by
      cases hr : l.renderings.lookup t with
      | none => rfl
      | some header =>
        obtain ⟨x, hx, -⟩ := hc t header hr
        simp [load_of_loaded hx] at hl
    simp [stamps, stamp, ofName?_name, rendering, hnone, hl, Except.map] at hst

end Letterhead.Licence
