import Mathlib
import Letterhead.Manifest
import Letterhead.Proofs.Json.RoundTrip
/-
# What a patched manifest holds

A patched manifest reads as the object that it was, with the same fields at the same places,
but for the author and the licence, which have their new values where they stood or stand at the
end (`patch_keeps_data`). So a patch leaves nothing of the patches before it (`patch_absorbs`), and
a manifest that is patched again stays as it is (`patch_again`).
-/
namespace Letterhead.Manifest

open Text (toPoints)

/-- The names of the two fields that are set. -/
def authorKey : Points := toPoints "author".toList

def licenceKey : Points := toPoints "license".toList

/-- The fields of an object with new values for the two fields. -/
def renew (identifier : Text) (f : Points × Json) : Points × Json :=
  if f.1 = authorKey then (f.1, author)
  else if f.1 = licenceKey then (f.1, .text (toPoints identifier))
  else f

/-- The two fields, as far as there are none of their names. -/
def missing (identifier : Text) (fields : List (Points × Json)) : List (Points × Json) :=
  [(authorKey, author), (licenceKey, .text (toPoints identifier))].filter
    fun f => f.1 ∉ fields.map Prod.fst

variable {fields : List (Points × Json)} {key : Points} {v : Json} {licencePath identifier : Text}
  {content patched : Points}

/-! ## Setting a field -/

/-- A field is set at its place, or at the end. -/
theorem put_eq (h : (fields.map Prod.fst).Nodup) : Json.put key v fields =
    fields.map (fun f => if f.1 = key then (key, v) else f) ++
      if key ∈ fields.map Prod.fst then [] else [(key, v)] := by
  induction fields with
  | nil => rfl
  | cons f fields ih =>
    obtain ⟨k, w⟩ := f
    obtain ⟨hk, hrest⟩ := List.nodup_cons.1 (List.map_cons ▸ h)
    by_cases heq : k = key
    · subst heq
      have hothers : fields.map (fun f => if f.1 = k then (k, v) else f) = fields := by
        refine (List.map_congr_left fun f hf => if_neg fun heq => ?_).trans (List.map_id' fields)
        have hmem : f.1 ∈ fields.map Prod.fst := List.mem_map_of_mem hf
        exact hk (heq ▸ hmem)
      simp [Json.put, hothers]
    · have hmem : key ∈ List.map Prod.fst ((k, w) :: fields) ↔ key ∈ fields.map Prod.fst := by
        simp [Ne.symm heq]
      rw [Json.put, if_neg heq, ih hrest, List.map_cons, if_neg heq]
      simp only [hmem, List.cons_append]

theorem authorKey_ne_licenceKey : authorKey ≠ licenceKey := by
  decide

/-- The two fields are set where they stand, or at the end. -/
theorem patchFields_eq (h : (fields.map Prod.fst).Nodup) (identifier : Text) :
    patchFields identifier fields =
      fields.map (renew identifier) ++ missing identifier fields := by
  have hne := authorKey_ne_licenceKey
  have hlicence : licenceKey ∈ (Json.put authorKey author fields).map Prod.fst ↔
      licenceKey ∈ fields.map Prod.fst := by
    rw [Json.mem_map_fst_put]
    simp [hne.symm]
  have hstart : patchFields identifier fields = Json.put licenceKey (.text (toPoints identifier))
      (Json.put authorKey author fields) := rfl
  have hrenew : (fun f : Points × Json => if f.1 = licenceKey then
      (licenceKey, .text (toPoints identifier)) else f) ∘ (fun f : Points × Json =>
        if f.1 = authorKey then (authorKey, author) else f) = renew identifier := by
    funext f
    by_cases hauthor : f.1 = authorKey
    · simp [renew, hauthor, hne]
    · by_cases hl : f.1 = licenceKey
      · simp [renew, hl, hne.symm]
      · simp [renew, hauthor, hl]
  rw [hstart, put_eq (Json.nodup_put h)]
  simp only [hlicence]
  rw [put_eq h, List.map_append, List.map_map, hrenew, List.append_assoc]
  congr 1
  by_cases ha : authorKey ∈ fields.map Prod.fst <;>
    by_cases hl : licenceKey ∈ fields.map Prod.fst <;>
      simp [missing, ha, hl, hne]

/-! ## Patching -/

/-- The line end that a text has at its end, if it has one. -/
def ending (content : Points) : Points :=
  if content.getLast? = some (.char '\n') then [.char '\n'] else []

theorem patch_of_read (h : Json.read content = .ok (.object fields)) (licencePath : Text) :
    patch licencePath content = .ok (Json.print
      (.object (patchFields (licenceIdentifier licencePath) fields)) ++ ending content) := by
  unfold patch ending
  simp only [h]
  split <;> simp

/-- A text that is patched is an object. -/
theorem exists_fields_of_patch (h : patch licencePath content = .ok patched) :
    ∃ fields, Json.read content = .ok (.object fields) := by
  unfold patch at h
  split at h
  · cases h
  · cases h
  · next fields hread => exact ⟨fields, hread⟩
  · cases h

theorem readable_textValue (s : Text) : Json.Readable (.text (toPoints s)) :=
  Json.isContent_toPoints s

theorem readable_author : Json.Readable author :=
  ⟨by decide, Json.isContent_toPoints _, Json.isContent_toPoints _, Json.isContent_toPoints _,
    Json.isContent_toPoints _, trivial⟩

theorem readable_patchFields (h : Json.Readable (.object fields)) (identifier : Text) :
    Json.Readable (.object (patchFields identifier fields)) :=
  Json.Readable.put (Json.isContent_toPoints _) (readable_textValue identifier)
    (Json.Readable.put (Json.isContent_toPoints _) readable_author h)

theorem ending_cases (content : Points) : ending content = [] ∨ ending content = [.char '\n'] := by
  unfold ending
  split
  · exact .inr rfl
  · exact .inl rfl

/-- An object in writing ends with its bracket. -/
theorem getLast?_print (fields : List (Points × Json)) :
    (Json.print (.object fields)).getLast? = some (.char '\x7d') := by
  cases fields with
  | nil => rfl
  | cons f fields =>
    rw [Json.print, Json.write, ← List.append_assoc, ← List.cons_append,
      List.getLast?_append_of_ne_nil _ (by simp)]
    rfl

theorem getLast?_patched (content : Points) :
    (Json.print (.object fields) ++ ending content).getLast? = some (.char '\n') ↔
      content.getLast? = some (.char '\n') := by
  unfold ending
  split
  · next h => simp [h]
  · next h =>
    rw [List.append_nil, getLast?_print]
    simp [h]

/-- A text that reads as an object is patched. What comes of it reads as the object with every
field at its place and as it was, but for the author and the licence: these two have their new
values, where they stood or, the author first, at the end. It ends its last line if and only
if the text does. -/
theorem patch_keeps_data (licencePath : Text) {content : Points}
    {fields : List (Points × Json)} (h : Json.read content = .ok (.object fields)) :
    ∃ patched, patch licencePath content = .ok patched ∧
      Json.read patched = .ok (.object
        (fields.map (renew (licenceIdentifier licencePath)) ++
          missing (licenceIdentifier licencePath) fields)) ∧
      (patched.getLast? = some (.char '\n') ↔ content.getLast? = some (.char '\n')) := by
  have hreadable := Json.readable_of_read h
  refine ⟨_, patch_of_read h licencePath, ?_, getLast?_patched content⟩
  rw [Json.read_print (readable_patchFields hreadable _) (ending_cases content),
    patchFields_eq hreadable.1]

/-- A manifest that has a licence already, and no author. -/
def oddManifest : Points :=
  toPoints "\x7b\"odd\": [-0.0, NaN, \"\\ud800\"], \"license\": \"MIT\", \"x\": \x7b\x7d\x7d\n".toList

def oddValue : Json :=
  .list [.float (.finite true 0 (-1074)), .float .nan, .text [.surrogate 0xD800]]

theorem read_oddManifest : Json.read oddManifest = .ok (.object [(toPoints "odd".toList, oddValue),
      (licenceKey, .text (toPoints "MIT".toList)), (toPoints "x".toList, .object [])]) := by
  cbv

/-- The licence is set where it stands, and the author at the end. -/
theorem patch_keeps_data_oddManifest :
    Json.read oddManifest = .ok (.object [(toPoints "odd".toList, oddValue),
      (licenceKey, .text (toPoints "MIT".toList)), (toPoints "x".toList, .object [])]) ∧
    ∃ patched, patch "AFL.txt".toList oddManifest = .ok patched ∧
      Json.read patched = .ok (.object [(toPoints "odd".toList, oddValue),
        (licenceKey, .text (toPoints "AFL-3.0".toList)), (toPoints "x".toList, .object []),
        (authorKey, author)]) ∧
      patched.getLast? = some (.char '\n') := by
  obtain ⟨patched, hpatch, hread, hending⟩ := patch_keeps_data "AFL.txt".toList read_oddManifest
  have hidentifier : licenceIdentifier "AFL.txt".toList = "AFL-3.0".toList := by decide +kernel
  rw [hidentifier] at hread
  refine ⟨read_oddManifest, patched, hpatch, hread, hending.2 (by decide +kernel)⟩

/-! ## Patching again -/

/-- A new value takes the place of any that was set before. -/
theorem renew_renew (identifier identifier' : Text) (f : Points × Json) :
    renew identifier' (renew identifier f) = renew identifier' f := by
  have hne := authorKey_ne_licenceKey
  unfold renew
  split_ifs <;> simp_all

theorem map_renew_missing (identifier identifier' : Text) (fields : List (Points × Json)) :
    (missing identifier fields).map (renew identifier') = missing identifier' fields := by
  have hne := authorKey_ne_licenceKey
  by_cases ha : authorKey ∈ fields.map Prod.fst <;>
    by_cases hl : licenceKey ∈ fields.map Prod.fst <;>
      simp [missing, renew, ha, hl, hne.symm]

/-- Fields that were patched have both fields. -/
theorem missing_patchFields (identifier identifier' : Text) (fields : List (Points × Json)) :
    missing identifier' (patchFields identifier fields) = [] := by
  have ha : authorKey ∈ (patchFields identifier fields).map Prod.fst :=
    Json.mem_map_fst_put.2 (.inr (Json.mem_map_fst_put.2 (.inl rfl)))
  have hl : licenceKey ∈ (patchFields identifier fields).map Prod.fst :=
    Json.mem_map_fst_put.2 (.inl rfl)
  simp [missing, ha, hl]

/-- Fields that were patched are patched as if they had not been. -/
theorem patchFields_patchFields (h : (fields.map Prod.fst).Nodup) (identifier identifier' : Text) :
    patchFields identifier' (patchFields identifier fields) = patchFields identifier' fields := by
  have hnodup : ((patchFields identifier fields).map Prod.fst).Nodup :=
    Json.nodup_put (Json.nodup_put h)
  have hrenew : renew identifier' ∘ renew identifier = renew identifier' :=
    funext (renew_renew identifier identifier')
  calc patchFields identifier' (patchFields identifier fields)
      = (patchFields identifier fields).map (renew identifier') := by
        rw [patchFields_eq hnodup, missing_patchFields, List.append_nil]
    _ = fields.map (renew identifier') ++ missing identifier' fields := by
        rw [patchFields_eq h, List.map_append, List.map_map, hrenew, map_renew_missing]
    _ = patchFields identifier' fields := (patchFields_eq h identifier').symm

/-- A patched text ends as the text did. -/
theorem ending_patched (fields : List (Points × Json)) (content : Points) :
    ending (Json.print (.object fields) ++ ending content) = ending content := by
  rw [ending, ite_congr (propext (getLast?_patched content)) (fun _ => rfl) fun _ => rfl]
  rfl

/-- A patched manifest takes another patch as the manifest itself does. -/
theorem patch_patched (h : patch licencePath content = .ok patched) (licencePath' : Text) :
    patch licencePath' patched = patch licencePath' content := by
  obtain ⟨fields, hread⟩ := exists_fields_of_patch h
  have hreadable := Json.readable_of_read hread
  obtain rfl := Except.ok.inj ((patch_of_read hread licencePath).symm.trans h)
  have hagain := Json.read_print (readable_patchFields hreadable (licenceIdentifier licencePath))
    (ending_cases content)
  rw [patch_of_read hagain, patch_of_read hread, patchFields_patchFields hreadable.1,
    ending_patched]

/-- A manifest that was patched is patched. -/
theorem patch_again (h : patch licencePath content = .ok patched) :
    patch licencePath patched = .ok patched :=
  (patch_patched h licencePath).trans h

/-- The last patch counts. A manifest that can be patched can be patched again, for any licence,
and that leaves nothing of the first patch: the text is the same, character by character, as
when the manifest itself is patched for that licence. For the same licence nothing changes. -/
theorem patch_absorbs (licencePath licencePath' : Text) {content patched : Points}
    (h : patch licencePath content = .ok patched) :
    ∃ again, patch licencePath' patched = .ok again ∧ patch licencePath' content = .ok again ∧
      (licencePath' = licencePath → again = patched) := by
  obtain ⟨fields, hread⟩ := exists_fields_of_patch h
  have hcontent := patch_of_read hread licencePath'
  refine ⟨_, (patch_patched h licencePath').trans hcontent, hcontent, ?_⟩
  rintro rfl
  exact Except.ok.inj (hcontent.symm.trans h)

/-- A manifest with two licences, a number that is too large and an escape. -/
def hastyManifest : Points :=
  toPoints "\x7b\"license\":-0,\"n\":1e999,\"license\":\"\\u0041\"\x7d\n".toList

/-- What is made of it. -/
def hastyPatched : Points :=
  toPoints ("\x7b\n    \"license\": \"AFL-3.0\",\n    \"n\": Infinity,\n".toList ++
    "    \"author\": \x7b\n        \"name\": \"PrestaShop SA\",\n".toList ++
    "        \"email\": \"contact@prestashop.com\"\n    \x7d\n\x7d\n".toList)

theorem patch_absorbs_hastyManifest :
    patch "AFL.txt".toList hastyManifest = .ok hastyPatched ∧
      patch "osl.txt".toList hastyPatched = patch "osl.txt".toList hastyManifest ∧
      patch "AFL.txt".toList hastyPatched = .ok hastyPatched := by
  have hread : Json.read hastyManifest = .ok (.object [(licenceKey, .text (toPoints ['A'])),
      (toPoints ['n'], .float (.infinite false))]) := by
    cbv
  have h : patch "AFL.txt".toList hastyManifest = .ok hastyPatched := by
    rw [patch_of_read hread]
    decide +kernel
  obtain ⟨other, hother, hfirst, -⟩ := patch_absorbs "AFL.txt".toList "osl.txt".toList h
  obtain ⟨same, hsame, -, heq⟩ := patch_absorbs "AFL.txt".toList "AFL.txt".toList h
  rw [heq rfl] at hsame
  exact ⟨h, hother.trans hfirst.symm, hsame⟩

end Letterhead.Manifest
