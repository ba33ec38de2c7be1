import Mathlib.Data.List.Nodup
import Letterhead.Config.Sources
import Letterhead.Proofs.Traversal
/-
# What merged sources come to

The first source that has a key decides it (`first?_eq_some`). Merging is refused if and only if
one of the values that decide is refused (`exists_merge_error`), and else every field has what the
source that decides it says, or its default (`get?_of_merge`).
-/
namespace Letterhead

/-- A key that has one value has that value wherever it is looked up. -/
theorem Table.get?_of_mem {t : Table} {key : Text} {v : Setting} (hv : (key, v) ∈ t)
    (hone : ∀ w, (key, w) ∈ t → w = v) : t.get? key = some v := by
  induction t with
  | nil => cases hv
  | cons e t ih =>
    obtain ⟨k, u⟩ := e
    by_cases hk : key = k
    · subst hk
      rw [hone u List.mem_cons_self]
      simp [get?]
    · have hbeq : (key == k) = false := by simpa using hk
      have hrest : (key, v) ∈ t := by simpa [hk] using hv
      rw [get?, List.lookup_cons, hbeq]
      exact ih hrest fun w hw => hone w (List.mem_cons_of_mem _ hw)

namespace Merged

variable {fields : List Field} {ts ts' : List Table} {key : Text} {i : Nat} {v : Setting}
  {f : Field} {m : Merged}

/-! ## The source that decides -/

theorem first?_eq_some : first? key ts = some (i, v) ↔ ∃ before t behind,
    ts = before ++ t :: behind ∧ before.length = i ∧ (∀ u ∈ before, u.get? key = none) ∧
      t.get? key = some v := by
  induction ts generalizing i with
  | nil => simp [first?]
  | cons t ts ih =>
    rw [first?]
    cases ht : t.get? key with
    | some w =>
      constructor
      · intro h
        obtain ⟨rfl, rfl⟩ := Prod.mk.inj (Option.some.inj h)
        exact ⟨[], t, ts, rfl, rfl, by simp, ht⟩
      · rintro ⟨before, u, behind, hts, rfl, hbefore, hu⟩
        cases before with
        | nil =>
          obtain ⟨rfl, -⟩ := List.cons.inj hts
          rw [ht] at hu
          simpa using hu
        | cons s before =>
          obtain ⟨rfl, -⟩ := List.cons.inj hts
          simp [hbefore t List.mem_cons_self] at ht
    | none =>
      simp only [Option.map_eq_some_iff, Prod.mk.injEq, Prod.exists]
      constructor
      · rintro ⟨j, w, hfirst, rfl, rfl⟩
        obtain ⟨before, u, behind, rfl, rfl, hbefore, hu⟩ := ih.1 hfirst
        exact ⟨t :: before, u, behind, rfl, rfl, List.forall_mem_cons.2 ⟨ht, hbefore⟩, hu⟩
      · rintro ⟨before, u, behind, hts, rfl, hbefore, hu⟩
        cases before with
        | nil =>
          obtain ⟨rfl, -⟩ := List.cons.inj hts
          simp [hu] at ht
        | cons s before =>
          obtain ⟨-, rfl⟩ := List.cons.inj hts
          exact ⟨before.length, v, ih.2 ⟨before, u, behind, rfl, rfl,
            (List.forall_mem_cons.1 hbefore).2, hu⟩, rfl, rfl⟩

theorem first?_eq_none : first? key ts = none ↔ ∀ t ∈ ts, t.get? key = none := by
  induction ts with
  | nil => simp [first?]
  | cons t ts ih =>
    rw [first?]
    cases ht : t.get? key <;> simp [ht, ih]

theorem lt_of_first? (h : first? key ts = some (i, v)) : i < ts.length := by
  obtain ⟨before, t, behind, rfl, rfl, -⟩ := first?_eq_some.1 h
  simp

theorem mem_decidedBy :
    (f, v) ∈ decidedBy fields ts i ↔ f ∈ fields ∧ first? f.name ts = some (i, v) := by
  rw [decidedBy, List.mem_filterMap]
  constructor
  · rintro ⟨g, hg, h⟩
    rcases hfirst : first? g.name ts with _ | ⟨j, w⟩
    · simp [hfirst] at h
    · simp only [hfirst] at h
      obtain ⟨rfl, hpair⟩ := Option.ite_none_right_eq_some.1 h
      obtain ⟨rfl, rfl⟩ := Prod.mk.inj (Option.some.inj hpair)
      exact ⟨hg, hfirst⟩
  · rintro ⟨hf, hfirst⟩
    exact ⟨f, hf, by simp [hfirst]⟩

/-- The fields that some source decides, with what it says. -/
theorem mem_decided :
    (f, v) ∈ (List.range ts.length).flatMap (decidedBy fields ts) ↔
      f ∈ fields ∧ ∃ i, first? f.name ts = some (i, v) := by
  simp only [List.mem_flatMap, List.mem_range, mem_decidedBy]
  constructor
  · rintro ⟨i, -, hf, hfirst⟩
    exact ⟨hf, i, hfirst⟩
  · rintro ⟨hf, i, hfirst⟩
    exact ⟨i, lt_of_first? hfirst, hf, hfirst⟩

theorem mem_undecided : f ∈ undecided fields ts ↔ f ∈ fields ∧ first? f.name ts = none := by
  simp [undecided]

/-! ## Values and defaults -/

theorem coerced_eq_ok {w : Setting} :
    coerced (f, v) = .ok (key, w) ↔ f.name = key ∧ f.constraint.coerce v = .ok w := by
  unfold coerced
  cases f.constraint.coerce v <;> simp [Except.map]

theorem coerced_eq_error {e : SettingFault} :
    coerced (f, v) = .error e ↔ f.constraint.coerce v = .error e := by
  unfold coerced
  cases f.constraint.coerce v <;> simp [Except.map]

theorem defaulted_eq_ok {w : Setting} :
    defaulted f = .ok (key, w) ↔ f.name = key ∧ f.default? = some w := by
  unfold defaulted
  cases f.default? <;> simp

/-! ## Merging -/

/-- A merge puts the values that decide in front of the defaults. -/
theorem merge_eq_ok : merge fields ts = .ok m ↔ ∃ decided defaults,
    ((List.range ts.length).flatMap (decidedBy fields ts)).mapM coerced = .ok decided ∧
    (undecided fields ts).mapM defaulted = .ok defaults ∧
    m = ⟨decided ++ defaults,
      (List.range ts.length).filter fun i => !(decidedBy fields ts i).isEmpty,
      !(undecided fields ts).isEmpty⟩ := by
  unfold merge
  dsimp only
  cases ((List.range ts.length).flatMap (decidedBy fields ts)).mapM coerced with
  | error e => simp [bind, Except.bind]
  | ok decided =>
    cases (undecided fields ts).mapM defaulted <;>
      simp [bind, Except.bind, pure, Except.pure, eq_comm]

/-- Where every field has a default, the refusal is one of a value that decides a field. -/
theorem exists_of_merge_error {e : SettingFault} (hdefault : ∀ f ∈ fields, f.default? ≠ none)
    (h : merge fields ts = .error e) : ∃ f ∈ fields, ∃ i v,
      first? f.name ts = some (i, v) ∧ f.constraint.coerce v = .error e := by
  unfold merge at h
  dsimp only at h
  cases hd : ((List.range ts.length).flatMap (decidedBy fields ts)).mapM coerced with
  | error e' =>
    obtain rfl : e' = e := by simpa [hd, bind, Except.bind] using h
    obtain ⟨⟨f, v⟩, hmem, he⟩ := exists_of_mapM_error hd
    obtain ⟨hf, i, hfirst⟩ := mem_decided.1 hmem
    exact ⟨f, hf, i, v, hfirst, coerced_eq_error.1 he⟩
  | ok decided =>
    cases hm : (undecided fields ts).mapM defaulted with
    | ok defaults => simp [hd, hm, bind, Except.bind, pure, Except.pure] at h
    | error e' =>
      obtain ⟨f, hf, he⟩ := exists_of_mapM_error hm
      cases hv : f.default? with
      | none => exact absurd hv (hdefault f (mem_undecided.1 hf).1)
      | some w => simp [defaulted, hv] at he

/-- Where every field has a default, sources are refused for a value that decides a field. -/
theorem exists_merge_error (hdefault : ∀ f ∈ fields, f.default? ≠ none) :
    (∃ e, merge fields ts = .error e) ↔ ∃ f ∈ fields, ∃ i v e,
      first? f.name ts = some (i, v) ∧ f.constraint.coerce v = .error e := by
  constructor
  · rintro ⟨e, h⟩
    obtain ⟨f, hf, i, v, hfirst, he⟩ := exists_of_merge_error hdefault h
    exact ⟨f, hf, i, v, e, hfirst, he⟩
  · rintro ⟨f, hf, i, v, e, hfirst, hc⟩
    obtain ⟨e', he'⟩ := exists_mapM_error.2
      ⟨(f, v), mem_decided.2 ⟨hf, i, hfirst⟩, e, coerced_eq_error.2 hc⟩
    exact ⟨e', by simp [merge, he', bind, Except.bind]⟩

/-- What a field has: what the source that decides it says, as its constraint has it, or else its
default. -/
theorem get?_of_merge (hnames : (fields.map Field.name).Nodup) (h : merge fields ts = .ok m)
    (hf : f ∈ fields) :
    (∀ i v, first? f.name ts = some (i, v) →
      ∃ w, f.constraint.coerce v = .ok w ∧ m.values.get? f.name = some w) ∧
    (first? f.name ts = none → m.values.get? f.name = f.default?) := by
  obtain ⟨decided, defaults, hdecided, hdefaults, rfl⟩ := merge_eq_ok.1 h
  obtain ⟨hall, hmem⟩ := mem_of_mapM hdecided
  obtain ⟨hallDefaults, hmemDefaults⟩ := mem_of_mapM hdefaults
  have heq : ∀ {g}, g ∈ fields → g.name = f.name → g = f := fun hg hname =>
    List.inj_on_of_nodup_map hnames hg hf hname
  have hmapped : ∀ {w}, (f.name, w) ∈ decided →
      ∃ i v, first? f.name ts = some (i, v) ∧ f.constraint.coerce v = .ok w := by
    intro w hw
    obtain ⟨⟨g, v⟩, hg, hmade⟩ := (hmem _).1 hw
    obtain ⟨hg, i, hfirst⟩ := mem_decided.1 hg
    obtain ⟨hname, hc⟩ := coerced_eq_ok.1 hmade
    obtain rfl := heq hg hname
    exact ⟨i, v, hfirst, hc⟩
  have hdefaulted : ∀ {w}, (f.name, w) ∈ defaults →
      first? f.name ts = none ∧ f.default? = some w := by
    intro w hw
    obtain ⟨g, hg, hmade⟩ := (hmemDefaults _).1 hw
    obtain ⟨hg, hfirst⟩ := mem_undecided.1 hg
    obtain ⟨hname, hd⟩ := defaulted_eq_ok.1 hmade
    obtain rfl := heq hg hname
    exact ⟨hfirst, hd⟩
  constructor
  · intro i v hfirst
    have hdecides := mem_decided.2 ⟨hf, i, hfirst⟩
    obtain ⟨⟨name, w⟩, hw⟩ := hall (f, v) hdecides
    obtain ⟨rfl, hc⟩ := coerced_eq_ok.1 hw
    refine ⟨w, hc, Table.get?_of_mem (List.mem_append_left _ ((hmem _).2 ⟨_, hdecides, hw⟩)) ?_⟩
    intro u hu
    rcases List.mem_append.1 hu with hu | hu
    · obtain ⟨j, v', hfirst', hc'⟩ := hmapped hu
      obtain ⟨-, rfl⟩ := Prod.mk.inj (Option.some.inj (hfirst.symm.trans hfirst'))
      exact Except.ok.inj (hc'.symm.trans hc)
    · simp [(hdefaulted hu).1] at hfirst
  · intro hfirst
    have hmissing := mem_undecided.2 ⟨hf, hfirst⟩
    obtain ⟨⟨name, w⟩, hw⟩ := hallDefaults f hmissing
    obtain ⟨rfl, hd⟩ := defaulted_eq_ok.1 hw
    rw [hd]
    refine Table.get?_of_mem (List.mem_append_right _ ((hmemDefaults _).2 ⟨f, hmissing, hw⟩)) ?_
    intro u hu
    rcases List.mem_append.1 hu with hu | hu
    · obtain ⟨i, v, hfirst', -⟩ := hmapped hu
      simp [hfirst] at hfirst'
    · exact Option.some.inj ((hdefaulted hu).2.symm.trans hd)

/-- The sources that are used decide a field each, and stand in their order. -/
theorem used_of_merge (h : merge fields ts = .ok m) :
    m.used.Sublist (List.range ts.length) ∧
      ∀ i, i ∈ m.used ↔ ∃ f ∈ fields, ∃ v, first? f.name ts = some (i, v) := by
  obtain ⟨decided, defaults, -, -, rfl⟩ := merge_eq_ok.1 h
  refine ⟨List.filter_sublist, fun i => ?_⟩
  simp only [List.mem_filter, List.mem_range, Bool.not_eq_true',
    List.isEmpty_eq_false_iff_exists_mem, Prod.exists, mem_decidedBy]
  constructor
  · rintro ⟨-, f, v, hf, hfirst⟩
    exact ⟨f, hf, v, hfirst⟩
  · rintro ⟨f, hf, v, hfirst⟩
    exact ⟨lt_of_first? hfirst, f, v, hf, hfirst⟩

theorem defaults_of_merge (h : merge fields ts = .ok m) :
    m.defaults = true ↔ ∃ f ∈ fields, first? f.name ts = none := by
  obtain ⟨decided, defaults, -, -, rfl⟩ := merge_eq_ok.1 h
  simp only [Bool.not_eq_true', List.isEmpty_eq_false_iff_exists_mem, mem_undecided]

/-- Sources come to the same if the same of them decide the same of every field. -/
theorem merge_congr (hlength : ts'.length = ts.length)
    (h : ∀ f ∈ fields, first? f.name ts' = first? f.name ts) :
    merge fields ts' = merge fields ts := by
  have hdecided : ∀ i, decidedBy fields ts' i = decidedBy fields ts i := fun i =>
    List.filterMap_congr fun f hf => by rw [h f hf]
  have hundecided : undecided fields ts' = undecided fields ts :=
    List.filter_congr fun f hf => by rw [h f hf]
  simp only [merge, hlength, funext hdecided, hundecided]

end Merged
end Letterhead
