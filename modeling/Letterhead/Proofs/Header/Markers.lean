import Letterhead.Proofs.Header.Matching
import Letterhead.Proofs.Text.Lowering
/-
# Markers as they are written

A comment is ours if it holds the marker without regard to case, so it should be ours where it
holds the marker as it is written. But the marker is lowered on its own and the comment as a
whole, and a capital sigma is lowered by the letters next to it, which at an end of the marker
are those of the comment. The markers that are found wherever they stand are those with no such
sigma at either end (`verbatim_marker_found`).
-/
namespace Letterhead

namespace Text

variable {m p s u : Text} {a b : Bool}

/-! ## What is looked through -/

theorem behindCased_of_ignorable (h : ∀ c ∈ u, isCaseIgnorable c) (b : Bool) :
    behindCased b u = b := by
  induction u generalizing b with
  | nil => rfl
  | cons c u ih =>
    obtain ⟨hc, hu⟩ := List.forall_mem_cons.1 h
    have hpass : passCase c b = b := by simp [passCase, hc]
    rw [behindCased_cons, hpass, ih hu]

/-- A piece is looked through, or what stands in front of it has no say in what is at its end. -/
theorem behindCased_cases (u : Text) :
    (∀ c ∈ u, isCaseIgnorable c) ∨ ∀ b b', behindCased b u = behindCased b' u := by
  induction u with
  | nil => exact .inl (by simp)
  | cons c u ih =>
    by_cases hc : isCaseIgnorable c
    · refine ih.imp (fun hu => List.forall_mem_cons.2 ⟨hc, hu⟩) fun hu b b' => ?_
      exact hu (passCase c b) (passCase c b')
    · refine .inr fun b b' => ?_
      have hpass : passCase c b = passCase c b' := by simp [passCase, hc]
      rw [behindCased_cons, behindCased_cons, hpass]

theorem aheadCased_eq_behindCased (a : Bool) (s : Text) :
    aheadCased a s = behindCased a s.reverse := by
  rw [aheadCased, behindCased, List.foldl_reverse]

theorem aheadCased_of_ignorable (h : ∀ c ∈ s, isCaseIgnorable c) (a : Bool) :
    aheadCased a s = a := by
  rw [aheadCased_eq_behindCased]
  exact behindCased_of_ignorable (fun c hc => h c (List.mem_reverse.1 hc)) a

theorem aheadCased_cases (s : Text) :
    (∀ c ∈ s, isCaseIgnorable c) ∨ ∀ a a', aheadCased a s = aheadCased a' s := by
  simp only [aheadCased_eq_behindCased]
  exact (behindCased_cases s.reverse).imp_left fun h c hc => h c (List.mem_reverse.2 hc)

/-! ## Sigmas at the ends of a marker -/

/-- The marker begins with a sigma, past what is looked through, and no letter follows this one:
behind a letter it ends a word. -/
def BeginsLoneSigma (m : Text) : Prop :=
  ∃ u v, m = u ++ 'Σ' :: v ∧ (∀ c ∈ u, isCaseIgnorable c) ∧ startsCased v = false

/-- The marker ends in a sigma, past what is looked through, and a letter stands in front of this
one: where no letter follows it ends a word. -/
def EndsFinalSigma (m : Text) : Prop :=
  ∃ u v, m = u ++ 'Σ' :: v ∧ behindCased false u = true ∧ ∀ c ∈ v, isCaseIgnorable c

theorem sigma_cased : isCased 'Σ' = true ∧ isCaseIgnorable 'Σ' = false := by decide +kernel

theorem passCase_sigma (known : Bool) : passCase 'Σ' known = true := by
  simp [passCase, sigma_cased]

theorem sigma_notMem (h : ∀ c ∈ s, isCaseIgnorable c) : 'Σ' ∉ s := fun hmem => by
  simpa [sigma_cased] using h _ hmem

/-- What a sigma is lowered to in a piece, and what it parts the piece into. -/
theorem lowerAmid_around_sigma (b a : Bool) (u v : Text) :
    lowerAmid b a (u ++ 'Σ' :: v) = lowerAmid b true u ++
      (if behindCased b u && !aheadCased a v then 'ς' else 'σ') :: lowerAmid true a v := by
  have hahead : aheadCased a ('Σ' :: v) = true := by rw [aheadCased_cons, passCase_sigma]
  rw [lowerAmid_append, hahead, lowerAmid, if_pos rfl, passCase_sigma]

/-- What stands in front of a marker has a say in its first sigma at most. -/
theorem lowerAmid_behind (h : b = true → ¬ BeginsLoneSigma m) (a : Bool) :
    lowerAmid b a m = lowerAmid false a m := by
  by_cases hsigma : 'Σ' ∈ m
  · obtain ⟨u, v, rfl, hfirst⟩ := List.eq_append_cons_of_mem hsigma
    rw [lowerAmid_around_sigma, lowerAmid_around_sigma,
      lowerAmid_of_notMem hfirst b true false true]
    rcases behindCased_cases u with hthrough | hfree
    · cases b with
      | false => rfl
      | true =>
        -- a letter follows this sigma, so that it ends no word
        have hv : aheadCased false v = true := by
          by_contra hv
          exact h rfl ⟨u, v, rfl, hthrough, by simpa [startsCased_eq] using hv⟩
        have hahead : aheadCased a v = true := by
          rcases aheadCased_cases v with hthrough' | hfree'
          · rw [aheadCased_of_ignorable hthrough'] at hv
            cases hv
          · rw [hfree' a false, hv]
        simp [hahead]
    · rw [hfree b false]
  · exact lowerAmid_of_notMem hsigma b a false a

/-- What follows a marker has a say in its last sigma at most. -/
theorem lowerAmid_ahead (h : a = true → ¬ EndsFinalSigma m) :
    lowerAmid false a m = lowerAmid false false m := by
  by_cases hsigma : 'Σ' ∈ m
  · obtain ⟨u, v, rfl, hlast⟩ : ∃ u v, m = u ++ 'Σ' :: v ∧ 'Σ' ∉ v := by
      obtain ⟨v, u, hrev, hv⟩ := List.eq_append_cons_of_mem (List.mem_reverse.2 hsigma)
      refine ⟨u.reverse, v.reverse, ?_, fun hmem => hv (List.mem_reverse.1 hmem)⟩
      rw [← List.reverse_reverse m, hrev]
      simp
    rw [lowerAmid_around_sigma, lowerAmid_around_sigma,
      lowerAmid_of_notMem hlast true a true false]
    rcases aheadCased_cases v with hthrough | hfree
    · cases a with
      | false => rfl
      | true =>
        -- no letter stands in front of this sigma, so that it ends no word
        have hu : behindCased false u = false := by
          by_contra hu
          exact h rfl ⟨u, v, rfl, by simpa using hu, hthrough⟩
        simp [hu]
    · rw [hfree a false]
  · exact lowerAmid_of_notMem hsigma false a false false

/-! ## Markers that are found -/

/-- A marker is found where it stands if no letter next to it changes a sigma at its ends. -/
theorem includesIgnoringCase_verbatim (hfront : behindCased false p = true → ¬ BeginsLoneSigma m)
    (hback : startsCased s = true → ¬ EndsFinalSigma m) :
    includesIgnoringCase (p ++ (m ++ s)) m := by
  obtain ⟨u, r, hlower⟩ := lower_around p m s
  rw [lowerAmid_behind hfront, lowerAmid_ahead hback, ← lowerFrom_eq_lowerAmid] at hlower
  exact includes_iff.2 ⟨u, r, hlower⟩

/-! ## Markers that are missed -/

theorem count_le_of_includes {needle : Text} (h : includes s needle) (c : Char) :
    needle.count c ≤ s.count c := by
  obtain ⟨u, r, rfl⟩ := includes_iff.1 h
  simp only [List.count_append]
  omega

/-- The letter that is put next to a marker below. -/
theorem letter_cased : isCased 'a' = true ∧ isCaseIgnorable 'a' = false ∧ lowerChar 'a' = 'a' := by
  decide +kernel

theorem lower_behind_letter (m : Text) : lower ('a' :: m) = 'a' :: lowerAmid true false m := by
  simp [lower, lowerFrom_eq_lowerAmid, lowerAmid, passCase, letter_cased]

theorem lower_before_letter (m : Text) : lower (m ++ ['a']) = lowerAmid false true m ++ ['a'] := by
  have hcased : startsCased ['a'] = true := by simp [startsCased_cons, passCase, letter_cased]
  rw [lower, lowerFrom_append, hcased]
  simp [lowerFrom, letter_cased]

/-- Behind a letter the first sigma becomes a final one, so that one of the other kind is
missing. -/
theorem BeginsLoneSigma.missed (h : BeginsLoneSigma m) : ¬ includesIgnoringCase ('a' :: m) m := by
  obtain ⟨u, v, rfl, hu, hv⟩ := h
  intro hfound
  have hcount := count_le_of_includes hfound 'σ'
  rw [startsCased_eq] at hv
  rw [lower_behind_letter, lower, lowerFrom_eq_lowerAmid, lowerAmid_around_sigma,
    lowerAmid_around_sigma, behindCased_of_ignorable hu, behindCased_of_ignorable hu, hv,
    lowerAmid_of_notMem (sigma_notMem hu) false true true true] at hcount
  -- alone the marker has one more of them
  grind

/-- In front of a letter the last sigma is no final one, so that one of this kind is missing. -/
theorem EndsFinalSigma.missed (h : EndsFinalSigma m) :
    ¬ includesIgnoringCase (m ++ ['a']) m := by
  obtain ⟨u, v, rfl, hu, hv⟩ := h
  intro hfound
  have hcount := count_le_of_includes hfound 'ς'
  rw [lower_before_letter, lower, lowerFrom_eq_lowerAmid, lowerAmid_around_sigma,
    lowerAmid_around_sigma, aheadCased_of_ignorable hv, aheadCased_of_ignorable hv, hu,
    lowerAmid_of_notMem (sigma_notMem hv) true true true false] at hcount
  grind

/-- The markers that are found wherever they stand have no sigma at their ends that letters next
to it change. -/
theorem found_everywhere_iff :
    (∀ p s, includesIgnoringCase (p ++ (m ++ s)) m) ↔ ¬ BeginsLoneSigma m ∧ ¬ EndsFinalSigma m := by
  constructor
  · intro h
    refine ⟨fun hfront => hfront.missed ?_, fun hback => hback.missed (h [] ['a'])⟩
    simpa using h ['a'] []
  · rintro ⟨hfront, hback⟩ p s
    exact includesIgnoringCase_verbatim (fun _ => hfront) fun _ => hback

end Text

namespace Matcher

open Text

variable {marker content : Text} {c : Found} {place : Place}

theorem detected_foreign {style : Style} {span : Span}
    (h : detected marker content style span = .foreign c place) :
    ¬ includesIgnoringCase c.text marker := by
  unfold detected at h
  dsimp only at h
  split at h
  · cases h
  · next hno =>
    obtain ⟨rfl, -⟩ := Detection.foreign.inj h
    exact hno

theorem ofComments_foreign {comments : List Php.Comment}
    (h : ofComments marker comments = .foreign c place) :
    ¬ includesIgnoringCase c.text marker := by
  unfold ofComments at h
  dsimp only at h
  split at h
  · cases h
  · next hnone =>
    cases comments with
    | nil => cases h
    | cons first comments =>
      obtain ⟨rfl, -⟩ := Detection.foreign.inj h
      exact List.find?_eq_none.1 hnone first List.mem_cons_self

/-- A comment that is told to be foreign does not hold the marker. -/
theorem not_includes_of_foreign {how : Matcher}
    (h : how.detect marker content = .ok (.foreign c place)) :
    ¬ includesIgnoringCase c.text marker := by
  cases how with
  | tree read =>
    cases hr : read content with
    | error e => simp [detect, hr] at h
    | ok comments =>
      simp only [detect, hr, Except.ok.injEq] at h
      exact ofComments_foreign h
  | twig =>
    simp only [detect, Except.ok.injEq] at h
    split at h
    · exact detected_foreign h
    · cases h
  | block t =>
    simp only [detect, Except.ok.injEq] at h
    split at h
    · exact detected_foreign h
    · cases h

end Matcher

open Text

/-- The markers that are found, without regard to case, in every text that holds them as they are
written: those with no sigma at either end that is lowered by a letter next to the marker. The
others are found wherever no such letter stands next to them. A comment that holds the marker and
passes for foreign all the same holds one of the others. -/
theorem verbatim_marker_found (m : Text) :
    ((∀ p s, includesIgnoringCase (p ++ (m ++ s)) m) ↔ ¬ BeginsLoneSigma m ∧ ¬ EndsFinalSigma m) ∧
    (∀ p s, (behindCased false p = true → ¬ BeginsLoneSigma m) →
      (startsCased s = true → ¬ EndsFinalSigma m) → includesIgnoringCase (p ++ (m ++ s)) m) ∧
    ∀ (how : Matcher) (content : Text) (c : Found) (place : Place),
      how.detect m content = .ok (.foreign c place) → includes c.text m →
        BeginsLoneSigma m ∨ EndsFinalSigma m := by
  refine ⟨found_everywhere_iff, fun p s => includesIgnoringCase_verbatim, ?_⟩
  intro how content c place hd hin
  obtain ⟨p, s, hcut⟩ := includes_iff.1 hin
  by_contra hsettled
  refine Matcher.not_includes_of_foreign hd ?_
  rw [hcut]
  exact found_everywhere_iff.2 (not_or.1 hsettled) p s

/-- A marker that ends in a sigma, and a script with a word that goes on behind it. -/
def lawMarker : Text := "ΝΟΜΟΣ".toList
def draftLaw : Text := "/* ΝΟΜΟΣΧΕΔΙΟ */".toList
def draftFound : Found := ⟨draftLaw, ⟨0, 16⟩, .plain .js⟩

theorem detect_draftLaw :
    (Matcher.block .js).detect lawMarker draftLaw = .ok (.foreign draftFound .top) := by
  decide +kernel

theorem verbatim_marker_found_law :
    behindCased false "/* ".toList = false ∧ startsCased " 4624 */".toList = false ∧
    includesIgnoringCase ("/* ".toList ++ (lawMarker ++ " 4624 */".toList)) lawMarker ∧
    (Matcher.block .js).detect lawMarker draftLaw = .ok (.foreign draftFound .top) ∧
    includes draftFound.text lawMarker ∧ (BeginsLoneSigma lawMarker ∨ EndsFinalSigma lawMarker) := by
  obtain ⟨-, hapart, hforeign⟩ := verbatim_marker_found lawMarker
  have hp : behindCased false "/* ".toList = false := by decide +kernel
  have hs : startsCased " 4624 */".toList = false := by decide +kernel
  have hfound := hapart "/* ".toList " 4624 */".toList (by rw [hp]; simp) (by rw [hs]; simp)
  have hin : includes draftFound.text lawMarker := by decide
  exact ⟨hp, hs, hfound, detect_draftLaw, hin, hforeign _ _ _ _ detect_draftLaw hin⟩

/-- The marker is not found in the word, so that the comment passes for foreign. -/
theorem draftLaw_hides_marker :
    draftLaw = "/* ".toList ++ (lawMarker ++ "ΧΕΔΙΟ */".toList) ∧
    includesIgnoringCase ("/* ".toList ++ (lawMarker ++ "ΧΕΔΙΟ */".toList)) lawMarker = false ∧
    (Matcher.block .js).detect lawMarker draftLaw = .ok (.foreign draftFound .top) :=
  ⟨rfl, by decide +kernel, detect_draftLaw⟩

end Letterhead
