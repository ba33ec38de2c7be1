import Letterhead.Config.Load
import Letterhead.Proofs.Config.Merging
import Letterhead.Proofs.Setting.Items
import Letterhead.Proofs.Setting.Showing
import Letterhead.Text.Utf8.Lemmas
/-
# Which source decides a field

The sources of a configuration stand in one order, with a file that is named behind the
arguments (`inOrder`). A configuration has of every field what the first source to have it says,
or the default, and it names the sources that were first for some field. Every source is noted
before that, and one that cannot be keeps all of them from being used, even by what it says of a
key of no field (`load_by_precedence`, `load_breaks_off_at_hexDocument`).
-/
namespace Letterhead

/-! ## Values of a kind -/

namespace Constraint

/-- A value of the kind that the constraint makes. -/
def Makes : Constraint → Setting → Prop
  | text _, w | plainText, w => ∃ s, w = .text s
  | flag, w | plainFlag, w => ∃ b, w = .bool b
  | list _, w => ∃ items : List Text, w = .list (items.map .text)
  | plainInteger, w => ∃ n, w = .int n

theorem makes_of_coerce {c : Constraint} {v w : Setting} (h : c.coerce v = .ok w) : c.Makes w := by
  cases c with
  | text allowEmpty => exact exists_of_map_eq_ok h
  | flag => exact exists_of_map_eq_ok h
  | list allowEmpty => exact exists_of_map_eq_ok h
  | plainText =>
    cases v with
    | text s => exact ⟨s, (Except.ok.inj h).symm⟩
    | _ => simp [coerce] at h
  | plainInteger =>
    simp only [coerce] at h
    split at h
    · exact ⟨_, (Except.ok.inj h).symm⟩
    · simp at h
  | plainFlag =>
    simp only [coerce] at h
    split at h
    · exact ⟨_, (Except.ok.inj h).symm⟩
    · simp at h

end Constraint

/-! ## The fields of a configuration -/

namespace Config

variable {c base : Config} {values : Table} {f : Field} {w : Setting} {i : Nat}

/-- The value that a configuration has of a field. -/
def value? (c : Config) (name : Text) : Option Setting :=
  (c.fields.find? fun f => f.name == name).bind Field.default?

theorem names_fields (c : Config) : c.fields.map Field.name =
    ["license", "target", "extensions", "exclude", "not_name", "header_discrimination_string",
      "dry_run", "display_report", "verbose", "silent"].map String.toList := rfl

theorem names_nodup (c : Config) : (c.fields.map Field.name).Nodup := by
  rw [names_fields]
  decide +kernel

theorem value?_of_mem (hf : f ∈ c.fields) : c.value? f.name = f.default? := by
  cases hg : c.fields.find? fun g => g.name == f.name with
  | none => exact absurd (List.find?_eq_none.1 hg f hf) (by simp)
  | some g =>
    obtain rfl : g = f := List.inj_on_of_nodup_map c.names_nodup (List.mem_of_find?_eq_some hg) hf
      (by simpa using List.find?_some hg)
    simp [value?, hg]

/-- Every field has a default, of the kind that its constraint makes. -/
theorem exists_default (hf : f ∈ c.fields) : ∃ w, f.default? = some w ∧ f.constraint.Makes w := by
  simp only [fields, List.mem_cons, List.not_mem_nil, or_false] at hf
  rcases hf with rfl | rfl | rfl | rfl | rfl | rfl | rfl | rfl | rfl | rfl <;>
    exact ⟨_, rfl, _, rfl⟩

section
variable {key : String}

theorem textOf_eq {s o : Text} (h : values.get? key.toList = some (.text s)) :
    textOf values key o = s := by simp [textOf, h]

theorem listOf_eq {items o : List Text}
    (h : values.get? key.toList = some (.list (items.map .text))) :
    listOf values key o = items := by
  simp [listOf, h, Setting.texts?_map_text]

theorem flagOf_eq {b o : Bool} (h : values.get? key.toList = some (.bool b)) :
    flagOf values key o = b := by simp [flagOf, h]

end

/-- A configuration takes the values of a table, where they are of the kinds of its fields. -/
theorem withValues_fields
    (h : ∀ f ∈ c.fields, ∃ w, values.get? f.name = some w ∧ f.constraint.Makes w) :
    (c.withValues values).fields =
      c.fields.map fun f => { f with default? := values.get? f.name } := by
  simp only [fields, List.forall_mem_cons, textField, listField, flagField] at h
  obtain ⟨⟨_, h₁, s₁, rfl⟩, ⟨_, h₂, s₂, rfl⟩, ⟨_, h₃, l₁, rfl⟩, ⟨_, h₄, l₂, rfl⟩,
    ⟨_, h₅, l₃, rfl⟩, ⟨_, h₆, s₃, rfl⟩, ⟨_, h₇, b₁, rfl⟩, ⟨_, h₈, b₂, rfl⟩, ⟨_, h₉, b₃, rfl⟩,
    ⟨_, h₁₀, b₄, rfl⟩, -⟩ := h
  simp only [fields, textField, listField, flagField, withValues, List.map_cons, List.map_nil,
    textOf_eq h₁, textOf_eq h₂, listOf_eq h₃, listOf_eq h₄, listOf_eq h₅, textOf_eq h₆,
    flagOf_eq h₇, flagOf_eq h₈, flagOf_eq h₉, flagOf_eq h₁₀, h₁, h₂, h₃, h₄, h₅, h₆, h₇, h₈, h₉,
    h₁₀]

theorem value?_withValues
    (h : ∀ f ∈ c.fields, ∃ w, values.get? f.name = some w ∧ f.constraint.Makes w)
    (hf : f ∈ c.fields) : (c.withValues values).value? f.name = values.get? f.name := by
  have hmem : { f with default? := values.get? f.name } ∈ (c.withValues values).fields := by
    rw [withValues_fields h]
    exact List.mem_map_of_mem hf
  exact value?_of_mem hmem

/-! ## Sources in their order -/

/-- A source decides a field: it has the field, and no source before it does. -/
def Decides (ss : List Source) (field name : Text) (v : Setting) : Prop :=
  ∃ before table behind, ss = before ++ ⟨name, table⟩ :: behind ∧
    (∀ s ∈ before, s.table.get? field = none) ∧ table.get? field = some v

/-- The sources of a configuration: a table that is named comes behind the arguments. -/
def inOrder (arguments : Table) (named : Option Table) (localTable env userTable : Table) :
    List Source :=
  ⟨"Input Args".toList, arguments⟩ ::
    (named.toList.map fun t => ⟨"Custom Config".toList, t⟩) ++
    [⟨"Local Config".toList, localTable⟩, ⟨"Environment Variables".toList, env⟩,
      ⟨"Global Config".toList, userTable⟩]

/-- The table of a file that is named, if one is. -/
def NamedTable (m : Machine) : Option Path → Option Table → Prop
  | none, none => True
  | some p, some t => m.disk.leads p = .ok true ∧ (ofFile m p).1 = .ok t
  | _, _ => False

/-- A source cannot be noted: it is nested too deep, or an integer in it has too many digits. -/
def Unnotable (m : Machine) (s : Source) : Prop :=
  m.deepTable s.table = true ∨
    ∃ n ∈ (Setting.table s.table).integers, Setting.leastHidden ≤ n.natAbs

/-- What a configuration has from its sources, and what is said of where it is from: the names of
the sources that decide something, in the order of the sources. -/
structure Settles (base : Config) (ss : List Source) (x : Loaded) : Prop where
  decided : ∀ f ∈ base.fields, ∀ name v, Decides ss f.name name v →
    ∃ w, f.constraint.coerce v = .ok w ∧ x.config.value? f.name = some w
  default : ∀ f ∈ base.fields, (∀ s ∈ ss, s.table.get? f.name = none) →
    x.config.value? f.name = f.default?
  inOrder : x.sources.Sublist (ss.map Source.name)
  mem_sources : ∀ name, name ∈ x.sources ↔ ∃ f ∈ base.fields, ∃ v, Decides ss f.name name v
  defaults : x.defaults = true ↔ ∃ f ∈ base.fields, ∀ s ∈ ss, s.table.get? f.name = none

variable {ss ss' : List Source} {field name : Text} {v : Setting}

theorem inOrder_nodup (arguments : Table) (named : Option Table)
    (localTable env userTable : Table) :
    ((inOrder arguments named localTable env userTable).map Source.name).Nodup := by
  cases named <;> simp only [inOrder, Option.toList, List.map_cons, List.map_nil, List.cons_append,
    List.nil_append] <;> decide +kernel

/-- The source that decides is the first one that has the field. -/
theorem decides_iff : Decides ss field name v ↔ ∃ i,
    Merged.first? field (ss.map Source.table) = some (i, v) ∧
      (ss[i]?).map Source.name = some name := by
  simp only [Merged.first?_eq_some, List.map_eq_append_iff, List.map_eq_cons_iff]
  constructor
  · rintro ⟨before, table, behind, rfl, hbefore, htable⟩
    refine ⟨before.length, ⟨before.map Source.table, table, behind.map Source.table,
      ⟨before, _, rfl, rfl, ⟨name, table⟩, behind, rfl, rfl, rfl⟩, by simp, ?_, htable⟩, by simp⟩
    simpa using hbefore
  · rintro ⟨-, ⟨-, t, -, ⟨before, -, rfl, rfl, ⟨called, table⟩, behind, rfl, rfl, rfl⟩, rfl,
      hbefore, htable⟩, hname⟩
    obtain rfl : called = name := by simpa using hname
    exact ⟨before, table, behind, rfl, by simpa using hbefore, htable⟩

theorem exists_decides (h : Merged.first? field (ss.map Source.table) = some (i, v)) :
    ∃ name, Decides ss field name v ∧ (ss[i]?).map Source.name = some name := by
  have hi : i < ss.length := by simpa using Merged.lt_of_first? h
  have hname : (ss[i]?).map Source.name = some ss[i].name := by simp [hi]
  exact ⟨_, decides_iff.2 ⟨i, h, hname⟩, hname⟩

theorem first?_eq_none_iff : Merged.first? field (ss.map Source.table) = none ↔
    ∀ s ∈ ss, s.table.get? field = none := by
  simp [Merged.first?_eq_none]

theorem filterMap_range_name (ss : List Source) :
    (List.range ss.length).filterMap (fun i => (ss[i]?).map Source.name) = ss.map Source.name := by
  induction ss with
  | nil => rfl
  | cons s ss ih =>
    simp [List.range_succ_eq_map, List.filterMap_map, ih]

/-! ## What sources come to -/

theorem ofSources_eq_ok {x : Loaded} : ofSources base ss = .ok x ↔ ∃ merged,
    Merged.merge base.fields (ss.map Source.table) = .ok merged ∧
      x = ⟨base.withValues merged.values,
        merged.used.filterMap fun i => (ss[i]?).map Source.name, merged.defaults⟩ := by
  unfold ofSources
  cases Merged.merge base.fields (ss.map Source.table) <;> simp [eq_comm]

theorem fields_have_defaults (base : Config) : ∀ f ∈ base.fields, f.default? ≠ none := by
  intro f hf
  obtain ⟨w, hw, -⟩ := exists_default hf
  simp [hw]

/-- A value that decides a field is in some source, so it can be shown with it. -/
theorem isShowable_of_decides (hshown : ∀ s ∈ ss, (Setting.table s.table).isShowable = true)
    (h : Decides ss field name v) : v.isShowable = true := by
  obtain ⟨before, table, behind, rfl, -, htable⟩ := h
  exact Setting.isShowable_of_get? (hshown ⟨name, table⟩ (by simp)) htable

/-- Sources that can be shown come to a configuration, or they are refused in words. -/
theorem exists_message (hshown : ∀ s ∈ ss, (Setting.table s.table).isShowable = true) {h : Halt}
    (hx : ofSources base ss = .error h) : ∃ message, h = .failure (.configuration message) := by
  unfold ofSources at hx
  cases hmerge : Merged.merge base.fields (ss.map Source.table) with
  | ok merged => simp [hmerge] at hx
  | error e =>
    obtain ⟨f, -, i, v, hfirst, he⟩ :=
      Merged.exists_of_merge_error (fields_have_defaults base) hmerge
    obtain ⟨name, hdecides, -⟩ := exists_decides hfirst
    have hwords := Constraint.isShowable_of_coerce (isShowable_of_decides hshown hdecides) he
    obtain rfl : refusal e = h := by simpa [hmerge] using hx
    exact ⟨_, if_pos hwords⟩

/-- Sources that can be shown are refused for a value that decides a field. -/
theorem ofSources_refused (hshown : ∀ s ∈ ss, (Setting.table s.table).isShowable = true) :
    (∃ message, ofSources base ss = .error (.failure (.configuration message))) ↔
      ∃ f ∈ base.fields, ∃ name v e,
        Decides ss f.name name v ∧ f.constraint.coerce v = .error e := by
  have hmerge : (∃ message, ofSources base ss = .error (.failure (.configuration message))) ↔
      ∃ e, Merged.merge base.fields (ss.map Source.table) = .error e := by
    constructor
    · rintro ⟨message, hx⟩
      unfold ofSources at hx
      cases hm : Merged.merge base.fields (ss.map Source.table) with
      | error e => exact ⟨e, rfl⟩
      | ok merged => simp [hm] at hx
    · rintro ⟨e, he⟩
      have hx : ofSources base ss = .error (refusal e) := by simp [ofSources, he]
      exact (exists_message hshown hx).imp fun message hmessage => hx.trans (congrArg _ hmessage)
  rw [hmerge, Merged.exists_merge_error (fields_have_defaults base)]
  constructor
  · rintro ⟨f, hf, i, v, e, hfirst, he⟩
    obtain ⟨name, hdecides, -⟩ := exists_decides hfirst
    exact ⟨f, hf, name, v, e, hdecides, he⟩
  · rintro ⟨f, hf, name, v, e, hdecides, he⟩
    obtain ⟨i, hfirst, -⟩ := decides_iff.1 hdecides
    exact ⟨f, hf, i, v, e, hfirst, he⟩

/-- Merged values are of the kinds of the fields. -/
theorem exists_merged {merged : Merged}
    (h : Merged.merge base.fields (ss.map Source.table) = .ok merged) (hf : f ∈ base.fields) :
    ∃ w, merged.values.get? f.name = some w ∧ f.constraint.Makes w := by
  obtain ⟨hdecided, hdefault⟩ := Merged.get?_of_merge base.names_nodup h hf
  cases hfirst : Merged.first? f.name (ss.map Source.table) with
  | none =>
    obtain ⟨w, hw, hmakes⟩ := exists_default hf
    exact ⟨w, (hdefault hfirst).trans hw, hmakes⟩
  | some x =>
    obtain ⟨w, hw, hget⟩ := hdecided _ _ hfirst
    exact ⟨w, hget, Constraint.makes_of_coerce hw⟩

theorem ofSources_settles {x : Loaded} (h : ofSources base ss = .ok x) : Settles base ss x := by
  obtain ⟨merged, hmerge, rfl⟩ := ofSources_eq_ok.1 h
  -- merged values are of the kinds of the fields, so the configuration takes each as it is
  have hvalue : ∀ f ∈ base.fields,
      (base.withValues merged.values).value? f.name = merged.values.get? f.name := fun f hf =>
    value?_withValues (fun g hg => exists_merged hmerge hg) hf
  obtain ⟨hsub, hused⟩ := Merged.used_of_merge hmerge
  constructor
  case decided =>
    intro f hf name v hdecides
    obtain ⟨i, hfirst, -⟩ := decides_iff.1 hdecides
    rw [hvalue f hf]
    exact (Merged.get?_of_merge base.names_nodup hmerge hf).1 i v hfirst
  case default =>
    intro f hf hnone
    rw [hvalue f hf]
    exact (Merged.get?_of_merge base.names_nodup hmerge hf).2 (first?_eq_none_iff.2 hnone)
  case inOrder =>
    rw [← filterMap_range_name]
    simpa using hsub.filterMap fun i => (ss[i]?).map Source.name
  case mem_sources =>
    intro name
    simp only [List.mem_filterMap, hused, decides_iff]
    constructor
    · rintro ⟨i, ⟨f, hf, v, hfirst⟩, hname⟩
      exact ⟨f, hf, v, i, hfirst, hname⟩
    · rintro ⟨f, hf, v, i, hfirst, hname⟩
      exact ⟨i, ⟨f, hf, v, hfirst⟩, hname⟩
  case defaults =>
    simp only [Merged.defaults_of_merge hmerge, first?_eq_none_iff]

/-- The same source is the first one to have a field, if the same decides it by its name. -/
theorem first?_congr (hnames : ss'.map Source.name = ss.map Source.name)
    (hnodup : (ss.map Source.name).Nodup)
    (h : ∀ name v, Decides ss' field name v ↔ Decides ss field name v) :
    Merged.first? field (ss'.map Source.table) = Merged.first? field (ss.map Source.table) := by
  cases hfirst : Merged.first? field (ss.map Source.table) with
  | none =>
    cases hfirst' : Merged.first? field (ss'.map Source.table) with
    | none => rfl
    | some x =>
      obtain ⟨name, hdecides, -⟩ := exists_decides hfirst'
      obtain ⟨i, hsome, -⟩ := decides_iff.1 ((h _ _).1 hdecides)
      simp [hfirst] at hsome
  | some x =>
    obtain ⟨name, hdecides, hname⟩ := exists_decides hfirst
    obtain ⟨i, hsome, hname'⟩ := decides_iff.1 ((h _ _).2 hdecides)
    -- a name stands at one place only, so the deciding sources stand at the same place
    have hat : (ss.map Source.name)[x.1]? = (ss.map Source.name)[i]? := by
      rw [List.getElem?_map, hname, ← hnames, List.getElem?_map, hname']
    have hlt : x.1 < (ss.map Source.name).length := by simpa using Merged.lt_of_first? hfirst
    rw [hsome, ← (List.getElem?_inj hlt hnodup).1 hat]

theorem ofSources_congr (hnames : ss'.map Source.name = ss.map Source.name)
    (hnodup : (ss.map Source.name).Nodup)
    (h : ∀ f ∈ base.fields, ∀ name v, Decides ss' f.name name v ↔ Decides ss f.name name v) :
    ofSources base ss' = ofSources base ss := by
  have hlength : ss'.length = ss.length := by simpa using congrArg List.length hnames
  have hplaces : ∀ i, (ss'[i]?).map Source.name = (ss[i]?).map Source.name := fun i => by
    rw [← List.getElem?_map, hnames, List.getElem?_map]
  unfold ofSources
  rw [Merged.merge_congr (by simpa using hlength) fun f hf => first?_congr hnames hnodup (h f hf)]
  simp only [hplaces]

/-! ## Loading -/

variable {m : Machine} {arguments localTable userTable : Table} {custom : Option Path}
  {named : Option Table}

theorem sources_eq_inOrder (hlocal : (ofFile m localFile).1 = .ok localTable)
    (huser : (ofFile m m.userConfig).1 = .ok userTable) (hnamed : NamedTable m custom named) :
    (sources m arguments custom).1 = .ok (inOrder arguments named localTable
      (ofEnvironment environmentMark m.environment) userTable) := by
  rcases hl : ofFile m localFile with ⟨_, log₁⟩
  rcases hu : ofFile m m.userConfig with ⟨_, log₂⟩
  obtain rfl : _ = Except.ok localTable := by simpa [hl] using hlocal
  obtain rfl : _ = Except.ok userTable := by simpa [hu] using huser
  cases custom with
  | none =>
    cases named with
    | none => simp [sources, hl, hu, inOrder]
    | some t => exact hnamed.elim
  | some p =>
    cases named with
    | none => exact hnamed.elim
    | some t =>
      obtain ⟨hleads, htable⟩ := hnamed
      rcases hp : ofFile m p with ⟨_, log₃⟩
      obtain rfl : _ = Except.ok t := by simpa [hp] using htable
      simp [sources, hl, hu, hleads, hp, inOrder]

theorem crash?_eq_none {s : Source} : s.crash? m = none ↔ ¬ Unnotable m s := by
  unfold Source.crash? Unnotable
  cases m.deepTable s.table with
  | true => simp
  | false =>
    have hshow := Setting.isShowable_iff (v := .table s.table)
    cases hs : (Setting.table s.table).isShowable with
    | true => simpa [hs] using hshow
    | false => simpa [hs] using hshow

/-- Sources that can all be noted come to what they come to. -/
theorem load_fst_of_sources (h : (sources m arguments custom).1 = .ok ss)
    (hnoted : ∀ s ∈ ss, ¬ Unnotable m s) :
    (load m arguments custom).1 = ofSources (standard (defaultLicence m)) ss := by
  rcases hs : sources m arguments custom with ⟨_, log⟩
  obtain rfl : _ = Except.ok ss := by simpa [hs] using h
  have hnone : ss.findSome? (Source.crash? m) = none :=
    List.findSome?_eq_none_iff.2 fun s hmem => crash?_eq_none.2 (hnoted s hmem)
  simp [load, hs, hnone]

/-- The first source that cannot be noted ends the loading. -/
theorem load_fst_of_crash (h : (sources m arguments custom).1 = .ok ss) {c : Crash}
    (hc : ss.findSome? (Source.crash? m) = some c) :
    (load m arguments custom).1 = .error (.crash c) := by
  rcases hs : sources m arguments custom with ⟨_, log⟩
  obtain rfl : _ = Except.ok ss := by simpa [hs] using h
  simp [load, hs, hc]

theorem isShowable_of_noted {s : Source} (h : ¬ Unnotable m s) :
    (Setting.table s.table).isShowable = true :=
  Setting.isShowable_iff.2 fun n hn => Nat.lt_of_not_le fun hle => h (.inr ⟨n, hn, hle⟩)

/-- Loading breaks off if and only if some source cannot be noted. -/
theorem load_crash_iff_of_sources (h : (sources m arguments custom).1 = .ok ss) :
    (∃ c, (load m arguments custom).1 = .error (.crash c)) ↔ ∃ s ∈ ss, Unnotable m s := by
  by_cases hnoted : ∀ s ∈ ss, ¬ Unnotable m s
  · refine iff_of_false ?_ (by simpa using hnoted)
    rintro ⟨c, hc⟩
    obtain ⟨message, hmessage⟩ :=
      exists_message (fun s hs => isShowable_of_noted (hnoted s hs))
        ((load_fst_of_sources h hnoted).symm.trans hc)
    cases hmessage
  · obtain ⟨s, hs, hun⟩ : ∃ s ∈ ss, Unnotable m s := by simpa using hnoted
    refine iff_of_true ?_ ⟨s, hs, hun⟩
    cases hc : ss.findSome? (Source.crash? m) with
    | some c => exact ⟨c, load_fst_of_crash h hc⟩
    | none => exact absurd hun (crash?_eq_none.1 (List.findSome?_eq_none_iff.1 hc s hs))

/-- Loading a configuration breaks off if and only if some source cannot be noted. Otherwise it is
refused if and only if the first source that has some field says of it what its constraint
refuses, and else every field is as the first source that has it says, or as the default, and what
is said of where it is from is true. Whatever else the sources say makes no difference: sources
that decide the same come to the same. -/
theorem load_by_precedence (arguments : Table)
    (hlocal : (ofFile m localFile).1 = .ok localTable)
    (huser : (ofFile m m.userConfig).1 = .ok userTable) (hnamed : NamedTable m custom named) :
    let base := standard (defaultLicence m)
    let ss := inOrder arguments named localTable (ofEnvironment environmentMark m.environment)
      userTable
    ((∃ c, (load m arguments custom).1 = .error (.crash c)) ↔ ∃ s ∈ ss, Unnotable m s) ∧
    ((∀ s ∈ ss, ¬ Unnotable m s) →
      ((∃ message, (load m arguments custom).1 = .error (.failure (.configuration message))) ↔
        ∃ f ∈ base.fields, ∃ name v e, Decides ss f.name name v ∧
          f.constraint.coerce v = .error e) ∧
      ((∀ f ∈ base.fields, ∀ name v, Decides ss f.name name v →
          ∃ w, f.constraint.coerce v = .ok w) →
        ∃ x, (load m arguments custom).1 = .ok x ∧ Settles base ss x) ∧
      ∀ ss', ss'.map Source.name = ss.map Source.name →
        (∀ f ∈ base.fields, ∀ name v, Decides ss' f.name name v ↔ Decides ss f.name name v) →
        ofSources base ss' = (load m arguments custom).1) := by
  intro base ss
  have hsources : (sources m arguments custom).1 = .ok ss :=
    sources_eq_inOrder hlocal huser hnamed
  refine ⟨load_crash_iff_of_sources hsources, fun hnoted => ?_⟩
  have hshown : ∀ s ∈ ss, (Setting.table s.table).isShowable = true := fun s hs =>
    isShowable_of_noted (hnoted s hs)
  rw [load_fst_of_sources hsources hnoted]
  refine ⟨ofSources_refused hshown, fun hgood => ?_, fun ss' hnames hsame =>
    ofSources_congr hnames (inOrder_nodup _ _ _ _ _) hsame⟩
  cases hx : ofSources base ss with
  | ok x => exact ⟨x, rfl, ofSources_settles hx⟩
  | error h =>
    obtain ⟨message, rfl⟩ := exists_message hshown hx
    obtain ⟨f, hf, name, v, e, hdecides, he⟩ := (ofSources_refused hshown).1 ⟨message, hx⟩
    obtain ⟨w, hw⟩ := hgood f hf name v hdecides
    simp [hw] at he

/-- A machine without configuration files, whose environment says of `silent` what is refused. -/
def refusedMachine : Machine where
  disk := ⟨.emptyFolder, []⟩
  environment := [("HEADERSTAMP_SILENT".toList, ['x'])]
  year := 2025
  moment := []
  assets := .ofRoot []
  userConfig := .ofRoot [['u']]
  logFolder := .ofRoot []

theorem ofEnvironment_refusedMachine :
    ofEnvironment environmentMark refusedMachine.environment =
      [("silent".toList, .text ['x'])] := by
  have hmark : (Text.lower environmentMark).isPrefixOf
      (Text.lower "HEADERSTAMP_SILENT".toList) = true := by decide +kernel
  have hkey : Text.lower ("HEADERSTAMP_SILENT".toList.drop environmentMark.length) =
      "silent".toList := by decide +kernel
  simp only [ofEnvironment, refusedMachine, List.foldl_cons, List.foldl_nil, hmark, hkey, if_true,
    Table.put]

/-- Arguments that say something else of `silent`. -/
def silentArgument : Table := [("silent".toList, .bool true)]

/-- An argument of no field that is an integer of too many digits. -/
def hugeArgument : Table := [(['x'], .int (.ofNat Setting.leastHidden))]

theorem unnotable_hugeArgument (m : Machine) (name : Text) : Unnotable m ⟨name, hugeArgument⟩ :=
  .inr ⟨.ofNat Setting.leastHidden, List.mem_cons_self, (Int.natAbs_natCast _).ge⟩

theorem load_by_precedence_shadowed :
    (ofFile refusedMachine localFile).1 = .ok [] ∧
    (ofFile refusedMachine refusedMachine.userConfig).1 = .ok [] ∧
    NamedTable refusedMachine none none ∧
    (∃ message, (load refusedMachine [] none).1 = .error (.failure (.configuration message))) ∧
    (∃ x, (load refusedMachine silentArgument none).1 = .ok x ∧
      x.config.value? "silent".toList = some (.bool true)) ∧
    ∃ c, (load refusedMachine hugeArgument none).1 = .error (.crash c) := by
  have hlocal : (ofFile refusedMachine localFile).1 = .ok [] := rfl
  have huser : (ofFile refusedMachine refusedMachine.userConfig).1 = .ok [] := rfl
  have hnamed : NamedTable refusedMachine none none := trivial
  have hsilent : ∀ c : Config, flagField "silent" c.silent ∈ c.fields := fun c => by simp [fields]
  have hnoted : ∀ arguments, (Setting.table arguments).integers = [] →
      ∀ s ∈ inOrder arguments none [] (ofEnvironment environmentMark refusedMachine.environment) [],
        ¬ Unnotable refusedMachine s := fun arguments hnone s hs => by
    rw [ofEnvironment_refusedMachine] at hs
    have hempty : (Setting.table s.table).integers = [] := by
      simp only [inOrder, Option.toList, List.map_nil, List.cons_append, List.nil_append,
        List.mem_cons, List.not_mem_nil, or_false] at hs
      rcases hs with rfl | rfl | rfl | rfl
      · exact hnone
      all_goals rfl
    simp [Unnotable, hempty, refusedMachine]
  refine ⟨hlocal, huser, hnamed, ?_, ?_, ?_⟩
  · obtain ⟨-, hmerges⟩ := load_by_precedence [] hlocal huser hnamed
    obtain ⟨hrefused, -, -⟩ := hmerges (hnoted [] rfl)
    have hdecides : Decides (inOrder [] none [] (ofEnvironment environmentMark
        refusedMachine.environment) []) "silent".toList "Environment Variables".toList
        (.text ['x']) :=
      ⟨[⟨"Input Args".toList, []⟩, ⟨"Local Config".toList, []⟩], _, _, rfl, by simp [Table.get?],
        by rw [ofEnvironment_refusedMachine]; rfl⟩
    have hno : (Constraint.flag.coerce (.text ['x'])).isOk = false := by decide +kernel
    cases hw : Constraint.flag.coerce (.text ['x']) with
    | ok w => simp [hw, Except.isOk, Except.toBool] at hno
    | error e => exact hrefused.2 ⟨_, hsilent _, _, _, e, hdecides, hw⟩
  · obtain ⟨-, hmerges⟩ := load_by_precedence silentArgument hlocal huser hnamed
    obtain ⟨-, hloads, -⟩ := hmerges (hnoted silentArgument rfl)
    have hgood : ∀ f ∈ (standard (defaultLicence refusedMachine)).fields,
        (Merged.first? f.name ((inOrder silentArgument none [] (ofEnvironment environmentMark
          refusedMachine.environment) []).map Source.table)).all
            fun x => (f.constraint.coerce x.2).isOk := by decide +kernel
    obtain ⟨x, hx, hsettles⟩ := hloads fun f hf name v hdecides => by
      obtain ⟨i, hfirst, -⟩ := decides_iff.1 hdecides
      have hok := hgood f hf
      rw [hfirst] at hok
      cases hw : f.constraint.coerce v with
      | ok w => exact ⟨w, rfl⟩
      | error e => simp [hw, Except.isOk, Except.toBool] at hok
    obtain ⟨w, hw, hvalue⟩ := hsettles.decided _ (hsilent _) "Input Args".toList (.bool true)
      ⟨[], silentArgument, _, rfl, by simp, rfl⟩
    obtain rfl := Except.ok.inj hw
    exact ⟨x, hx, hvalue⟩
  · obtain ⟨hbreaks, -⟩ := load_by_precedence hugeArgument hlocal huser hnamed
    exact hbreaks.2 ⟨⟨"Input Args".toList, hugeArgument⟩, by simp [inOrder],
      unnotable_hugeArgument _ _⟩

/-! ## A huge integer under a key of no field -/

/-- A machine with nothing but a configuration file in the current folder. -/
def oneFileMachine (bytes : Text.Utf8.Bytes) : Machine where
  disk := ⟨.folder .full [("headerstampconfig.toml".toList, .file .full bytes)], []⟩
  environment := []
  year := 2025
  moment := []
  assets := .ofRoot []
  userConfig := .ofRoot [['u']]
  logFolder := .ofRoot []

theorem oneFileMachine_leads (bytes : Text.Utf8.Bytes) :
    (oneFileMachine bytes).disk.leads localFile = .ok true ∧
      (oneFileMachine bytes).disk.read localFile = .ok bytes ∧
      (oneFileMachine bytes).disk.leads (oneFileMachine bytes).userConfig = .ok false :=
  ⟨rfl, rfl, rfl⟩

/-- A document that sets a key of no field to a hexadecimal integer. -/
def hexDocument : Text := "x = 0x".toList ++ List.replicate 3600 'F'

/-- The document is read, and what it holds cannot be shown. -/
theorem read_hexDocument : ∃ t, Toml.read hexDocument = .ok t ∧ t.map Prod.fst = [['x']] ∧
    (Setting.table t).isShowable = false := by
  have hread : (match Toml.read hexDocument with
      | .ok t => t.map Prod.fst == [['x']] && !(Setting.table t).isShowable
      | .error _ => false) = true := by decide +kernel
  cases ht : Toml.read hexDocument with
  | error e => simp [ht] at hread
  | ok t =>
    rw [ht, Bool.and_eq_true, beq_iff_eq, Bool.not_eq_true'] at hread
    exact ⟨t, rfl, hread⟩

/-- A machine with this document for its only configuration file. -/
def hexMachine : Machine := oneFileMachine (Text.Utf8.encode hexDocument)

/-- No source says anything of a field, and yet nothing is loaded. -/
theorem load_breaks_off_at_hexDocument : ∃ t, t.map Prod.fst = [['x']] ∧
    (ofFile hexMachine localFile).1 = .ok t ∧
    (ofFile hexMachine hexMachine.userConfig).1 = .ok [] ∧
    (∀ f ∈ (standard (defaultLicence hexMachine)).fields,
      ∀ s ∈ inOrder [] none t [] [], s.table.get? f.name = none) ∧
    (load hexMachine [] none).1 = .error (.crash .hugeInteger) := by
  obtain ⟨t, hread, hkeys, hhuge⟩ := read_hexDocument
  obtain ⟨hleads, hfile, huserLeads⟩ := oneFileMachine_leads (Text.Utf8.encode hexDocument)
  have hbytes : ofBytes hexMachine (Text.Utf8.encode hexDocument) = .ok (some t) := by
    simp [ofBytes, Text.Utf8.decode_encode, hread, hexMachine, oneFileMachine]
  have hlocal : (ofFile hexMachine localFile).1 = .ok t := by
    rw [ofFile, hexMachine, hleads, ← hexMachine, hexMachine, hfile, ← hexMachine]
    simp [hbytes]
  have huser : (ofFile hexMachine hexMachine.userConfig).1 = .ok [] := by
    rw [ofFile, hexMachine, huserLeads]
  have hsources : (sources hexMachine [] none).1 = .ok (inOrder [] none t [] []) :=
    sources_eq_inOrder hlocal huser trivial
  refine ⟨t, hkeys, hlocal, huser, fun f hf s hs => ?_, load_fst_of_crash hsources ?_⟩
  · have hname : f.name ≠ ['x'] := fun hx => by
      have hmem : f.name ∈ (standard _).fields.map Field.name := List.mem_map_of_mem hf
      rw [names_fields, hx] at hmem
      exact absurd hmem (by decide +kernel)
    have hnone : t.get? f.name = none := List.lookup_eq_none_iff.2 fun e he => by
      have hkey : e.1 ∈ t.map Prod.fst := List.mem_map_of_mem he
      rw [hkeys, List.mem_singleton] at hkey
      simp [hkey, hname]
    simp only [inOrder, Option.toList, List.map_nil, List.cons_append, List.nil_append,
      List.mem_cons, List.not_mem_nil, or_false] at hs
    rcases hs with rfl | rfl | rfl | rfl
    · rfl
    · exact hnone
    all_goals rfl
  · have hempty : ∀ name, Source.crash? hexMachine ⟨name, []⟩ = none := fun name => rfl
    have hcrash : ∀ name, Source.crash? hexMachine ⟨name, t⟩ = some .hugeInteger := fun name => by
      simp [Source.crash?, hexMachine, oneFileMachine, hhuge]
    simp [inOrder, hempty, hcrash]

end Config
end Letterhead
