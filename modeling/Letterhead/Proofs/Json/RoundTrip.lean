import Letterhead.Proofs.Json.Numbers
import Letterhead.Proofs.Json.Strings
/-
# What is printed is read back

A value that was read can be printed and read again, and is the same value then
(`read_print`): the fields of every object are named once, strings hold content, integers have
no more digits than are converted and decimals are of their format (`Readable`), and a value in
writing is read as far as it goes, in no more steps than twice its length (`value_write`).
-/
namespace Letterhead.Json

open Text (toPoints Point)

mutual

/-- A value that a text can be read as. -/
def Readable : Json → Prop
  | .null | .bool _ => True
  | .int n => (Text.ofNat n.natAbs).length ≤ mostDigits
  | .float x => x.Canonical
  | .text s => ∀ p ∈ s, IsContent p
  | .list vs => ReadableItems vs
  | .object fs => (fs.map Prod.fst).Nodup ∧ ReadableFields fs

def ReadableItems : List Json → Prop
  | [] => True
  | v :: vs => Readable v ∧ ReadableItems vs

def ReadableFields : List (Points × Json) → Prop
  | [] => True
  | (k, v) :: fs => (∀ p ∈ k, IsContent p) ∧ Readable v ∧ ReadableFields fs

end

/-! ## How a value begins -/

/-- A point that a value can begin with. -/
def Opens (p : Point) : Prop := isSpace p = false ∧ p ≠ .char ']' ∧ p ≠ .char '\uFEFF'

theorem opens_of_beginsNumber {c : Char} (h : BeginsNumber c) : Opens (.char c) := by
  have hne : ∀ d : Char, d.isDigit = false → d ≠ '-' → d ≠ 'N' → d ≠ 'I' → c ≠ d := by
    rintro d hd h1 h2 h3 rfl
    rcases h with h | h | h | h
    · simp [hd] at h
    · exact h1 h
    · exact h2 h
    · exact h3 h
  refine ⟨?_, ?_, ?_⟩
  · simp [isSpace, hne]
  · simpa using hne ']' rfl (by decide) (by decide) (by decide)
  · simpa using hne '\uFEFF' rfl (by decide) (by decide) (by decide)

/-- A value in writing begins with no blank. -/
theorem exists_write_eq_cons {v : Json} (hv : Readable v) (level : Nat) :
    ∃ p s, write level v = p :: s ∧ Opens p := by
  have hopens : ∀ c ∈ ['n', 't', 'f', '"', '[', '{'], Opens (.char c) := by
    intro c hc
    simp only [List.mem_cons, List.not_mem_nil, or_false] at hc
    rcases hc with rfl | rfl | rfl | rfl | rfl | rfl <;> exact ⟨rfl, by decide, by decide⟩
  cases v with
  | null => exact ⟨_, _, rfl, hopens 'n' (by simp)⟩
  | bool b =>
    cases b with
    | true => exact ⟨_, _, rfl, hopens 't' (by simp)⟩
    | false => exact ⟨_, _, rfl, hopens 'f' (by simp)⟩
  | int n =>
    obtain ⟨c, s, hs, hc⟩ := exists_ofInt_eq_cons n
    exact ⟨.char c, toPoints s, by rw [write, hs]; rfl, opens_of_beginsNumber hc⟩
  | float x =>
    obtain ⟨c, s, hs, hc⟩ := exists_float_eq_cons hv
    exact ⟨.char c, toPoints s, by rw [write, hs]; rfl, opens_of_beginsNumber hc⟩
  | text s => exact ⟨_, _, rfl, hopens '"' (by simp)⟩
  | list vs =>
    cases vs with
    | nil => exact ⟨_, _, rfl, hopens '[' (by simp)⟩
    | cons v vs => exact ⟨_, _, rfl, hopens '[' (by simp)⟩
  | object fs =>
    cases fs with
    | nil => exact ⟨_, _, rfl, hopens '{' (by simp)⟩
    | cons f fs => exact ⟨_, _, rfl, hopens '{' (by simp)⟩

/-! ## Between values -/

variable {v : Json} {n : Nat} {r s rest : Points} {p : Point}

theorem skip_cons (hp : isSpace p = false) (s : Points) : skip (p :: s) = p :: s := by
  simp [skip, hp]

theorem skip_newline (level : Nat) (s : Points) : skip (newline level ++ s) = skip s := by
  refine List.dropWhile_append_of_pos fun p hp => ?_
  rcases List.mem_cons.1 hp with rfl | hp
  · rfl
  · obtain ⟨-, rfl⟩ := List.mem_replicate.1 hp
    rfl

theorem skip_write (hv : Readable v) (level : Nat) (rest : Points) :
    skip (write level v ++ rest) = write level v ++ rest := by
  obtain ⟨p, s, hs, hp, -⟩ := exists_write_eq_cons hv level
  rw [hs, List.cons_append, skip_cons hp]

theorem delimited_newline (level : Nat) (s : Points) : Delimited (newline level ++ s) := by
  rintro p ⟨⟩
  exact .inr rfl

theorem delimited_comma (s : Points) : Delimited (.char ',' :: s) := by
  rintro p ⟨⟩
  exact .inl rfl

/-! ## Steps of reading -/

theorem value_of_beginsNumber {c : Char} (h : BeginsNumber c) (n : Nat) (s : Points) :
    value (n + 1) (.char c :: s) = scalar (.char c :: s) := by
  have hne : ∀ d ∈ ['"', '[', '{'], c ≠ d := by
    rintro d hd rfl
    revert hd
    rcases h with h | rfl | rfl | rfl
    · simp only [List.mem_cons, List.not_mem_nil, or_false]
      rintro (rfl | rfl | rfl) <;> simp at h
    all_goals simp
  unfold value
  split
  · next h => exact absurd (Point.char.inj (List.cons.inj h).1) (hne _ (by simp))
  · next h => exact absurd (Point.char.inj (List.cons.inj h).1) (hne _ (by simp))
  · next h => exact absurd (Point.char.inj (List.cons.inj h).1) (hne _ (by simp))
  · rfl

/-- A list is read item by item, unless it closes at once. -/
theorem value_list {vs : List Json} (hr : (skip r).head? ≠ some (.char ']'))
    (h : items n (skip r) = .ok (vs, rest)) :
    value (n + 1) (.char '[' :: r) = .ok (.list vs, rest) := by
  unfold value
  simp only
  split
  · next hs => exact absurd (congrArg List.head? hs) hr
  · rw [h]

/-- An object is read field by field, unless it closes at once. -/
theorem value_object {fs : List (Points × Json)} (hr : (skip r).head? ≠ some (.char '}'))
    (h : fields n (skip r) = .ok (fs, rest)) :
    value (n + 1) (.char '{' :: r) = .ok (.object (fieldsOf fs), rest) := by
  unfold value
  simp only
  split
  · next hs => exact absurd (congrArg List.head? hs) hr
  · rw [h]

theorem items_last (h : value n s = .ok (v, r)) (hr : skip r = .char ']' :: rest) :
    items (n + 1) s = .ok ([v], rest) := by
  simp only [items, h, hr]

theorem items_more {vs : List Json} {behind : Points} (h : value n s = .ok (v, r))
    (hr : skip r = .char ',' :: behind) (hvs : items n (skip behind) = .ok (vs, rest)) :
    items (n + 1) s = .ok (v :: vs, rest) := by
  simp only [items, h, hr, hvs]

theorem encodeString_append (key s : Points) : encodeString key ++ s =
    .char '"' :: (key.flatMap encodePoint ++ .char '"' :: s) := by
  simp [encodeString]

theorem skip_encodeString (key s : Points) :
    skip (encodeString key ++ s) = encodeString key ++ s := by
  rw [encodeString_append, skip_cons rfl]

theorem fields_last {key : Points} (hkey : ∀ p ∈ key, IsContent p) (hn : key.length ≤ n)
    (h : value n (skip s) = .ok (v, r)) (hr : skip r = .char '}' :: rest) :
    fields (n + 1) (encodeString key ++ .char ':' :: .char ' ' :: s) =
      .ok ([(key, v)], rest) := by
  have hcolon : ∀ s, skip (.char ':' :: s) = .char ':' :: s := skip_cons rfl
  have hblank : skip (.char ' ' :: s) = skip s := rfl
  rw [encodeString_append]
  simp only [fields, string_encodeString hkey _ (Nat.lt_succ_of_le hn), hcolon, hblank, h, hr]

theorem fields_more {key behind : Points} {fs : List (Points × Json)}
    (hkey : ∀ p ∈ key, IsContent p) (hn : key.length ≤ n) (h : value n (skip s) = .ok (v, r))
    (hr : skip r = .char ',' :: behind) (hfs : fields n (skip behind) = .ok (fs, rest)) :
    fields (n + 1) (encodeString key ++ .char ':' :: .char ' ' :: s) =
      .ok ((key, v) :: fs, rest) := by
  have hcolon : ∀ s, skip (.char ':' :: s) = .char ':' :: s := skip_cons rfl
  have hblank : skip (.char ' ' :: s) = skip s := rfl
  rw [encodeString_append]
  simp only [fields, string_encodeString hkey _ (Nat.lt_succ_of_le hn), hcolon, hblank, h, hr, hfs]

/-! ## Fields that are named once -/

section

variable {key : Points} {fs : List (Points × Json)}

theorem put_of_notMem (h : key ∉ fs.map Prod.fst) : put key v fs = fs ++ [(key, v)] := by
  induction fs with
  | nil => rfl
  | cons f fs ih =>
    obtain ⟨k, w⟩ := f
    have hk : k ≠ key := fun heq => h (by simp [heq])
    have hrest : key ∉ fs.map Prod.fst := fun hmem => h (List.mem_cons_of_mem k hmem)
    rw [put, if_neg hk, ih hrest]
    rfl

theorem foldl_put (gs : List (Points × Json)) (h : ((gs ++ fs).map Prod.fst).Nodup) :
    fs.foldl (fun fs f => put f.1 f.2 fs) gs = gs ++ fs := by
  induction fs generalizing gs with
  | nil => simp
  | cons f fs ih =>
    have hnew : f.1 ∉ gs.map Prod.fst := fun hmem => by
      rw [List.map_append, List.nodup_append] at h
      exact h.2.2 f.1 hmem f.1 (by simp) rfl
    rw [List.foldl_cons, put_of_notMem hnew, ih _ (by simpa using h), List.append_assoc]
    rfl

/-- Fields that are named once are kept as they are named. -/
theorem fieldsOf_of_nodup (h : (fs.map Prod.fst).Nodup) : fieldsOf fs = fs :=
  foldl_put [] h

end

/-! ## Values -/

/-- There is a step for every value. -/
theorem exists_step (hv : Readable v) {level : Nat} (hn : 2 * (write level v).length ≤ n) :
    ∃ k, n = k + 1 := by
  obtain ⟨p, s, hs, -⟩ := exists_write_eq_cons hv level
  rw [hs, List.length_cons] at hn
  exact ⟨n - 1, by omega⟩

theorem head?_skip_items {vs : List Json} (hvs : ReadableItems (v :: vs)) (level : Nat)
    (rest : Points) : (skip (writeItems level (v :: vs) ++ rest)).head? ≠ some (.char ']') := by
  obtain ⟨p, s, hs, hp, hne, -⟩ := exists_write_eq_cons hvs.1 level
  have hopen : ∀ t, skip (newline level ++ (write level v ++ t)) = p :: (s ++ t) := fun t => by
    rw [skip_newline, hs, List.cons_append, skip_cons hp]
  cases vs with
  | nil =>
    rw [writeItems, List.append_assoc, hopen]
    simpa using hne
  | cons w vs =>
    rw [writeItems, List.append_assoc, List.append_assoc, hopen]
    simpa using hne

theorem skip_fields (k : Points) (fs : List (Points × Json)) (level : Nat) (rest : Points) :
    ∃ s, skip (writeFields level ((k, v) :: fs) ++ rest) = .char '"' :: s := by
  have hquote : ∀ t, skip (newline level ++ (encodeString k ++ t)) =
      .char '"' :: (k.flatMap encodePoint ++ .char '"' :: t) := fun t => by
    rw [skip_newline, encodeString_append, skip_cons rfl]
  cases fs with
  | nil => exact ⟨_, by rw [writeFields, List.append_assoc, List.append_assoc, hquote]⟩
  | cons f fs => exact ⟨_, by rw [writeFields, List.append_assoc, List.append_assoc, hquote]⟩

mutual

/-- A value in writing is read as far as it goes. -/
theorem value_write (level : Nat) : ∀ {v : Json}, Readable v → ∀ {n : Nat} {rest : Points},
    2 * (write level v).length ≤ n → Delimited rest →
    value n (write level v ++ rest) = .ok (v, rest)
  | .null, hv, n, rest, hn, h => by
    obtain ⟨n, rfl⟩ := exists_step hv hn
    rfl
  | .bool b, hv, n, rest, hn, h => by
    obtain ⟨n, rfl⟩ := exists_step hv hn
    cases b <;> rfl
  | .int i, hv, n, rest, hn, h => by
    obtain ⟨n, rfl⟩ := exists_step hv hn
    obtain ⟨c, s, hs, hc⟩ := exists_ofInt_eq_cons i
    have hscalar := scalar_ofInt hv h
    rw [hs] at hscalar
    rw [write, hs]
    exact (value_of_beginsNumber hc n _).trans hscalar
  | .float x, hv, n, rest, hn, h => by
    obtain ⟨n, rfl⟩ := exists_step hv hn
    obtain ⟨c, s, hs, hc⟩ := exists_float_eq_cons hv
    have hscalar := scalar_float hv h
    rw [hs] at hscalar
    rw [write, hs]
    exact (value_of_beginsNumber hc n _).trans hscalar
  | .text s, hv, n, rest, hn, h => by
    obtain ⟨n, rfl⟩ := exists_step hv hn
    have hlength : s.length ≤ n := by
      have := length_le_flatMap_encodePoint s
      simp only [write, encodeString, List.length_cons, List.length_append] at hn
      omega
    rw [write, encodeString_append]
    simp only [value, string_encodeString hv _ (Nat.lt_succ_of_le hlength)]
  | .list [], hv, n, rest, hn, h => by
    obtain ⟨n, rfl⟩ := exists_step hv hn
    rfl
  | .list (v :: vs), hv, n, rest, hn, h => by
    obtain ⟨n, rfl⟩ := exists_step hv hn
    have hlength : 2 * (writeItems (level + 1) (v :: vs)).length ≤ n := by
      simp only [write, List.length_cons, List.length_append] at hn
      omega
    rw [write, List.cons_append, List.append_assoc, List.append_assoc]
    exact value_list (head?_skip_items hv (level + 1) _) (items_write level (level + 1) hv hlength)
  | .object [], hv, n, rest, hn, h => by
    obtain ⟨n, rfl⟩ := exists_step hv hn
    rfl
  | .object ((k, v) :: fs), hv, n, rest, hn, h => by
    obtain ⟨n, rfl⟩ := exists_step hv hn
    have hlength : 2 * (writeFields (level + 1) ((k, v) :: fs)).length ≤ n := by
      simp only [write, List.length_cons, List.length_append] at hn
      omega
    have hread := fields_write level (level + 1) (r := rest) hv.2 hlength
    obtain ⟨s, hs⟩ := skip_fields (v := v) k fs (level + 1) (newline level ++ .char '}' :: rest)
    rw [write, List.cons_append, List.append_assoc, List.append_assoc, List.singleton_append,
      value_object (by simp [hs]) hread, fieldsOf_of_nodup hv.1]
termination_by v => sizeOf v

theorem items_write (level inner : Nat) : ∀ {v : Json} {vs : List Json},
    ReadableItems (v :: vs) → ∀ {n : Nat} {r : Points},
    2 * (writeItems inner (v :: vs)).length ≤ n →
    items n (skip (writeItems inner (v :: vs) ++ (newline level ++ .char ']' :: r))) =
      .ok (v :: vs, r)
  | v, [], hvs, n, rest, hn => by
    simp only [writeItems, newline, List.length_append, List.length_cons] at hn
    obtain ⟨n, rfl⟩ : ∃ k, n = k + 1 := ⟨n - 1, by omega⟩
    rw [writeItems, List.append_assoc, skip_newline, skip_write hvs.1]
    refine items_last (value_write inner hvs.1 (by omega) (delimited_newline level _)) ?_
    rw [skip_newline]
    rfl
  | v, w :: vs, hvs, n, rest, hn => by
    simp only [writeItems, newline, List.length_append, List.length_cons] at hn
    obtain ⟨n, rfl⟩ : ∃ k, n = k + 1 := ⟨n - 1, by omega⟩
    have hrest := items_write level inner (n := n) (r := rest) hvs.2 (by omega)
    rw [writeItems, List.append_assoc, skip_newline, List.append_assoc, skip_write hvs.1]
    exact items_more (value_write inner hvs.1 (by omega) (delimited_comma _)) (skip_cons rfl _)
      hrest
termination_by v vs => sizeOf (v :: vs)

theorem fields_write (level inner : Nat) : ∀ {k : Points} {v : Json}
    {fs : List (Points × Json)}, ReadableFields ((k, v) :: fs) → ∀ {n : Nat} {r : Points},
    2 * (writeFields inner ((k, v) :: fs)).length ≤ n →
    fields n (skip (writeFields inner ((k, v) :: fs) ++ (newline level ++ .char '}' :: r))) =
      .ok ((k, v) :: fs, r)
  | k, v, [], ⟨hk, hv, hfs⟩, n, rest, hn => by
    have hkey := length_le_flatMap_encodePoint k
    simp only [writeFields, newline, encodeString, List.length_append, List.length_cons] at hn
    obtain ⟨n, rfl⟩ : ∃ k, n = k + 1 := ⟨n - 1, by omega⟩
    have hvalue := value_write inner (n := n) hv (by omega)
      (delimited_newline level (.char '}' :: rest))
    rw [writeFields, List.append_assoc, skip_newline, List.append_assoc, skip_encodeString]
    refine fields_last hk (by omega) ((congrArg (value n) (skip_write hv inner _)).trans hvalue) ?_
    rw [skip_newline]
    rfl
  | k, v, (k', w) :: fs, ⟨hk, hv, hfs⟩, n, rest, hn => by
    have hkey := length_le_flatMap_encodePoint k
    simp only [writeFields, newline, encodeString, List.length_append, List.length_cons] at hn
    obtain ⟨n, rfl⟩ : ∃ k, n = k + 1 := ⟨n - 1, by omega⟩
    have hrest := fields_write level inner (n := n) (r := rest) hfs (by omega)
    have hvalue := value_write inner (n := n) hv (by omega) (delimited_comma
      (writeFields inner ((k', w) :: fs) ++ (newline level ++ .char '}' :: rest)))
    rw [writeFields, List.append_assoc, skip_newline, List.append_assoc, skip_encodeString]
    simp only [List.cons_append, List.append_assoc]
    exact fields_more hk (by omega) ((congrArg (value n) (skip_write hv inner _)).trans hvalue)
      (skip_cons rfl _) hrest
termination_by k v fs => sizeOf ((k, v) :: fs)

end

/-! ## What is read is readable -/

section

variable {key : Points} {fs : List (Points × Json)} {vs : List Json}

theorem readableFields_iff :
    ReadableFields fs ↔ ∀ f ∈ fs, (∀ p ∈ f.1, IsContent p) ∧ Readable f.2 := by
  induction fs with
  | nil => simp [ReadableFields]
  | cons f fs ih =>
    obtain ⟨k, v⟩ := f
    rw [ReadableFields, ih, List.forall_mem_cons, and_assoc]

theorem mem_put {f : Points × Json} (h : f ∈ put key v fs) :
    f ∈ fs ∨ f = (key, v) := by
  induction fs with
  | nil => exact .inr (List.mem_singleton.1 h)
  | cons g fs ih =>
    obtain ⟨k, w⟩ := g
    rw [put] at h
    split at h
    · next hk =>
      rcases List.mem_cons.1 h with rfl | h
      · exact .inr (by rw [hk])
      · exact .inl (List.mem_cons_of_mem _ h)
    · rcases List.mem_cons.1 h with rfl | h
      · exact .inl List.mem_cons_self
      · exact (ih h).imp_left (List.mem_cons_of_mem _)

theorem map_fst_put : (put key v fs).map Prod.fst =
    if key ∈ fs.map Prod.fst then fs.map Prod.fst else fs.map Prod.fst ++ [key] := by
  by_cases h : key ∈ fs.map Prod.fst
  · rw [if_pos h]
    induction fs with
    | nil => simp at h
    | cons g fs ih =>
      obtain ⟨k, w⟩ := g
      rw [put]
      split
      · rfl
      · next hk =>
        have hrest : key ∈ fs.map Prod.fst := (List.mem_cons.1 h).resolve_left (Ne.symm hk)
        rw [List.map_cons, ih hrest]
        rfl
  · rw [if_neg h, put_of_notMem h, List.map_append]
    rfl

theorem mem_map_fst_put {k : Points} :
    k ∈ (put key v fs).map Prod.fst ↔ k = key ∨ k ∈ fs.map Prod.fst := by
  rw [map_fst_put]
  split
  · next h => exact ⟨.inr, fun hk => hk.elim (fun heq => heq ▸ h) id⟩
  · rw [List.mem_append, List.mem_singleton, or_comm]

theorem nodup_put (h : (fs.map Prod.fst).Nodup) : ((put key v fs).map Prod.fst).Nodup := by
  rw [map_fst_put]
  split
  · exact h
  · next hnew =>
    refine List.nodup_append.2 ⟨h, by simp, ?_⟩
    rintro k hk k' hk' rfl
    exact hnew (List.mem_singleton.1 hk' ▸ hk)

theorem Readable.put (hkey : ∀ p ∈ key, IsContent p) (hv : Readable v)
    (h : Readable (.object fs)) : Readable (.object (put key v fs)) := by
  obtain ⟨hnodup, hfs⟩ := h
  refine ⟨nodup_put hnodup, readableFields_iff.2 fun f hf => ?_⟩
  rcases mem_put hf with hf | rfl
  · exact readableFields_iff.1 hfs f hf
  · exact ⟨hkey, hv⟩

/-- Namings that are readable make a readable object. -/
theorem readable_fieldsOf (h : ReadableFields fs) : Readable (.object (fieldsOf fs)) := by
  have hfold : ∀ gs, Readable (.object gs) →
      Readable (.object (fs.foldl (fun fs f => put f.1 f.2 fs) gs)) := by
    induction fs with
    | nil => exact fun gs hgs => hgs
    | cons f fs ih =>
      intro gs hgs
      obtain ⟨k, v⟩ := f
      exact ih h.2.2 _ (Readable.put h.1 h.2.1 hgs)
  exact hfold [] ⟨List.nodup_nil, trivial⟩

end

theorem digit?_lt {d : Nat} (h : digit? p = some d) : d < 10 := by
  obtain ⟨c, -, hc⟩ := Option.bind_eq_some_iff.1 h
  unfold Text.digit? at hc
  split at hc
  · next hrange =>
    simp only [Bool.and_eq_true, decide_eq_true_iff, Char.le_def, UInt32.le_iff_toNat_le] at hrange
    obtain rfl := Option.some.inj hc
    have : c.toNat ≤ '9'.toNat := hrange.2
    have hnine : '9'.toNat = 57 := rfl
    have hzero : '0'.toNat = 48 := rfl
    omega
  · cases hc

theorem foldl_digits_lt {l : List Nat} (h : ∀ d ∈ l, d < 10) (m : Nat) :
    l.foldl (fun n d => n * 10 + d) m < (m + 1) * 10 ^ l.length := by
  induction l generalizing m with
  | nil => simp
  | cons d l ih =>
    obtain ⟨hd, hl⟩ := List.forall_mem_cons.1 h
    calc (d :: l).foldl (fun n d => n * 10 + d) m < (m * 10 + d + 1) * 10 ^ l.length := ih hl _
      _ ≤ ((m + 1) * 10) * 10 ^ l.length := Nat.mul_le_mul_right _ (by omega)
      _ = (m + 1) * 10 ^ (d :: l).length := by
        rw [List.length_cons, Nat.pow_succ', Nat.mul_assoc]

/-- The value of digits has no more digits than they are. -/
theorem length_ofNat_natOf {ds : Points} (h : ds.length ≤ mostDigits) :
    (Text.ofNat (natOf ds)).length ≤ mostDigits := by
  have hlt : natOf ds < 10 ^ mostDigits := by
    refine lt_of_lt_of_le (foldl_digits_lt (l := ds.filterMap digit?) (fun d hd => ?_) 0) ?_
    · obtain ⟨p, -, hp⟩ := List.mem_filterMap.1 hd
      exact digit?_lt hp
    · rw [Nat.zero_add, Nat.one_mul]
      exact Nat.pow_le_pow_right (by decide) ((List.length_filterMap_le _ _).trans h)
  exact (Nat.length_toDigits_le_iff (by decide) (by decide)).2 hlt

theorem readable_of_numberFrom {negative : Bool} {whole : Points}
    (h : numberFrom negative whole s = .ok (v, rest)) : Readable v := by
  unfold numberFrom at h
  dsimp only at h
  split at h
  · split at h
    · cases h
    · next hlength =>
      obtain ⟨rfl, -⟩ := Prod.mk.inj (Except.ok.inj h)
      have := length_ofNat_natOf (not_lt.1 hlength)
      cases negative <;> simpa [Readable] using this
  · obtain ⟨rfl, -⟩ := Prod.mk.inj (Except.ok.inj h)
    exact Binary64.canonical_ofDecimal _ _ _

theorem readable_of_scalar (h : scalar s = .ok (v, rest)) : Readable v := by
  have hmagnitude : ∀ negative r, magnitude? negative r = some (.ok (v, rest)) → Readable v := by
    intro negative r hm
    unfold magnitude? at hm
    split at hm
    · exact readable_of_numberFrom (Option.some.inj hm)
    · split at hm
      · exact readable_of_numberFrom (Option.some.inj hm)
      · cases hm
    · cases hm
  have hwords : ∀ u ∈ words, Readable u.2 := by
    simp [words, Readable, Binary64.Canonical]
  unfold scalar at h
  split at h
  · next u hu =>
    obtain ⟨rfl, -⟩ := Prod.mk.inj (Except.ok.inj h)
    exact hwords _ (List.mem_of_find?_eq_some hu)
  · have hsome : ∀ o : Option (Except Stop (Json × Points)),
        o.getD (.error (.malformed .value s.length)) = .ok (v, rest) →
          o = some (.ok (v, rest)) := by
      rintro (_ | x) ho
      · cases ho
      · exact congrArg some ho
    have h := hsome _ h
    split at h
    · exact hmagnitude true _ h
    · exact hmagnitude false _ h

section

variable {fs : List (Points × Json)} {vs : List Json}

/-- The items and fields that `n` steps read are readable. -/
structure ReadsReadable (n : Nat) : Prop where
  value : ∀ {s v rest}, value n s = .ok (v, rest) → Readable v
  items : ∀ {s vs rest}, items n s = .ok (vs, rest) → ReadableItems vs
  fields : ∀ {s fs rest}, fields n s = .ok (fs, rest) → ReadableFields fs

theorem ReadsReadable.value_succ (hn : ReadsReadable n) (h : Json.value (n + 1) s = .ok (v, rest)) :
    Readable v := by
  unfold Json.value at h
  split at h
  · split at h
    · cases h
    · next hs =>
      obtain ⟨rfl, -⟩ := Prod.mk.inj (Except.ok.inj h)
      exact isContent_of_string hs
  · split at h
    · obtain ⟨rfl, -⟩ := Prod.mk.inj (Except.ok.inj h)
      trivial
    · split at h
      · cases h
      · next hs =>
        obtain ⟨rfl, -⟩ := Prod.mk.inj (Except.ok.inj h)
        exact hn.items hs
  · split at h
    · obtain ⟨rfl, -⟩ := Prod.mk.inj (Except.ok.inj h)
      exact ⟨List.nodup_nil, trivial⟩
    · split at h
      · cases h
      · next hs =>
        obtain ⟨rfl, -⟩ := Prod.mk.inj (Except.ok.inj h)
        exact readable_fieldsOf (hn.fields hs)
  · exact readable_of_scalar h

theorem ReadsReadable.items_succ (hn : ReadsReadable n)
    (h : Json.items (n + 1) s = .ok (vs, rest)) : ReadableItems vs := by
  unfold Json.items at h
  split at h
  · cases h
  · next hv =>
    split at h
    · obtain ⟨rfl, -⟩ := Prod.mk.inj (Except.ok.inj h)
      exact ⟨hn.value hv, trivial⟩
    · split at h
      · cases h
      · next hvs =>
        obtain ⟨rfl, -⟩ := Prod.mk.inj (Except.ok.inj h)
        exact ⟨hn.value hv, hn.items hvs⟩
    · cases h

theorem ReadsReadable.fields_succ (hn : ReadsReadable n)
    (h : Json.fields (n + 1) s = .ok (fs, rest)) : ReadableFields fs := by
  unfold Json.fields at h
  split at h
  · split at h
    · cases h
    · next hkey =>
      split at h
      · split at h
        · cases h
        · next hv =>
          split at h
          · obtain ⟨rfl, -⟩ := Prod.mk.inj (Except.ok.inj h)
            exact ⟨isContent_of_string hkey, hn.value hv, trivial⟩
          · split at h
            · cases h
            · next hfs =>
              obtain ⟨rfl, -⟩ := Prod.mk.inj (Except.ok.inj h)
              exact ⟨isContent_of_string hkey, hn.value hv, hn.fields hfs⟩
          · cases h
      · cases h
  · cases h

/-- Every value, item and field that is read is readable. -/
theorem readsReadable (n : Nat) : ReadsReadable n := by
  induction n with
  | zero =>
    refine ⟨fun h => ?_, fun h => ?_, fun h => ?_⟩
    · simp [Json.value] at h
    · simp [Json.items] at h
    · simp [Json.fields] at h
  | succ n ih => exact ⟨ih.value_succ, ih.items_succ, ih.fields_succ⟩

end

/-! ## Whole texts -/

/-- What a text reads as is readable. -/
theorem readable_of_read (h : read s = .ok v) : Readable v := by
  unfold read at h
  split at h
  · cases h
  · split at h
    · cases h
    · next hv =>
      split at h
      · obtain rfl := Except.ok.inj h
        exact (readsReadable _).value hv
      · cases h

/-- A value that is printed is read back, with a line end behind it or not. -/
theorem read_print (hv : Readable v) {ending : Points}
    (hending : ending = [] ∨ ending = [.char '\n']) :
    read (print v ++ ending) = .ok v := by
  obtain ⟨p, s, hs, -, -, hmark⟩ := exists_write_eq_cons hv 0
  have hdelimited : Delimited ending := by
    rcases hending with rfl | rfl
    · rintro p ⟨⟩
    · rintro p ⟨⟩
      exact .inr rfl
  have hskip : skip ending = [] := by
    rcases hending with rfl | rfl <;> rfl
  have hhead : (print v ++ ending).head? ≠ some (.char '\uFEFF') := by
    rw [print, hs]
    simpa using hmark
  have hopen : skip (print v ++ ending) = print v ++ ending := skip_write hv 0 ending
  have hvalue : value (2 * (print v ++ ending).length + 2) (print v ++ ending) =
      .ok (v, ending) := by
    refine value_write 0 hv ?_ hdelimited
    rw [List.length_append, print]
    omega
  rw [read, if_neg hhead, hopen, hvalue]
  simp [hskip]

end Letterhead.Json
