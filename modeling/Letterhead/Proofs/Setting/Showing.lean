import Letterhead.Setting.Constraint
/-
# What can be shown

Whoever can show a table can show what it has of a key (`isShowable_of_get?`). A refusal shows no
more than the value that is refused, so it can be worded wherever that value can be shown
(`Constraint.isShowable_of_coerce`).
-/
namespace Letterhead

namespace Setting

variable {v : Setting} {t : Table} {key : Text}

theorem isShowable_iff : v.isShowable = true ↔ ∀ n ∈ v.integers, n.natAbs < leastHidden := by
  simp only [isShowable, List.all_eq_true, decide_eq_true_eq]

/-- The integers in a field are integers in the table. -/
theorem integers_of_get? (h : t.get? key = some v) : v.integers ⊆ (table t).integers := by
  rw [integers]
  induction t with
  | nil => cases h
  | cons e t ih =>
    obtain ⟨k, w⟩ := e
    rw [Table.get?, List.lookup_cons] at h
    rw [integersOfFields]
    cases hk : key == k with
    | true =>
      obtain rfl : w = v := by simpa [hk] using h
      exact List.subset_append_left _ _
    | false => exact List.subset_append_of_subset_right _ (ih (by simpa [hk, Table.get?] using h))

theorem isShowable_of_get? (ht : (table t).isShowable = true) (h : t.get? key = some v) :
    v.isShowable = true :=
  isShowable_iff.2 fun n hn => isShowable_iff.1 ht n (integers_of_get? h hn)

variable {e : SettingFault} {allowEmpty : Bool}

theorem asText_eq_error (h : v.asText allowEmpty = .error e) : e = .emptyText ∨ e = .notText v := by
  cases v with
  | text s =>
    rw [asText] at h
    split at h
    · cases h
    · exact .inl (Except.error.inj h).symm
  | _ => exact .inr (Except.error.inj h).symm

theorem asFlag_eq_error (h : v.asFlag = .error e) : e = .notFlag v := by
  cases v with
  | bool b => cases h
  | text s =>
    simp only [asFlag] at h
    split at h
    · cases h
    · split at h
      · cases h
      · exact (Except.error.inj h).symm
  | _ => exact (Except.error.inj h).symm

theorem asList_eq_error (h : v.asList allowEmpty = .error e) : e = .notList v ∨ e = .emptyList := by
  unfold asList at h
  split at h
  · exact .inl (Except.error.inj h).symm
  · split at h
    · cases h
    · exact .inr (Except.error.inj h).symm

end Setting

section

variable {α β ε : Type} {x : Except ε α} {f : α → β}

theorem map_eq_error {e : ε} : x.map f = .error e ↔ x = .error e := by
  cases x <;> simp [Except.map]

theorem exists_of_map_eq_ok {b : β} (h : x.map f = .ok b) : ∃ a, b = f a := by
  cases x with
  | error e => cases h
  | ok a => exact ⟨a, (Except.ok.inj h).symm⟩

end

/-- A value that can be shown is refused in words that can be written. -/
theorem Constraint.isShowable_of_coerce {c : Constraint} {v : Setting} {e : SettingFault}
    (hv : v.isShowable = true) (h : c.coerce v = .error e) : e.isShowable = true := by
  cases c with
  | text allowEmpty =>
    rcases Setting.asText_eq_error (map_eq_error.1 h) with rfl | rfl
    · rfl
    · exact hv
  | flag =>
    obtain rfl := Setting.asFlag_eq_error (map_eq_error.1 h)
    exact hv
  | list allowEmpty =>
    rcases Setting.asList_eq_error (map_eq_error.1 h) with rfl | rfl
    · exact hv
    · rfl
  | plainText | plainInteger | plainFlag =>
    obtain rfl : e = .wrongKind := by
      simp only [coerce] at h
      split at h
      · cases h
      · exact (Except.error.inj h).symm
    rfl

end Letterhead
