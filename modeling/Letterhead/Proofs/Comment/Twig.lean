import Letterhead.Comment.Twig
import Letterhead.Proofs.Comment.Closing
/-
# Where a twig header ends

In three of the four formats a header ends at the first closing behind its opening. The
format that leads its lines with `#` can take the `#` of a closing for the marker of a
line, so there, and only there, a closing may stand inside (`mem_rests_pattern`).
-/
namespace Letterhead.TwigFormat

open Pattern

/-- What closes a twig comment. -/
abbrev closing : Text := ['#', '}']

/-- A text that ends in the indentation of a line. -/
def EndsIndented (v : Text) : Prop :=
  ∃ before indent, v = before ++ '\n' :: indent ∧ ∀ c ∈ indent, c = ' ' ∨ c = '\t'

/-- Closings begin in a text, followed by another, only where they lead a line, and
only if that is allowed. -/
def OnlyLeads (allowed : Prop) (u r : Text) : Prop :=
  ∀ v w, u = v ++ w → w ≠ [] → closing <+: w ++ r → allowed ∧ EndsIndented v

section
variable {allowed : Prop} {u v r s : Text}

theorem EndsIndented.append_left (h : EndsIndented v) (u : Text) : EndsIndented (u ++ v) := by
  obtain ⟨before, indent, rfl, hi⟩ := h
  exact ⟨u ++ before, indent, by simp, hi⟩

theorem onlyLeads_of_clear (h : Text.Clear closing u r) : OnlyLeads allowed u r := by
  rintro v w rfl hne hp
  exact absurd hp (h w (List.suffix_append v w) hne)

theorem onlyLeads_nil : OnlyLeads allowed [] r := onlyLeads_of_clear Text.clear_nil

theorem OnlyLeads.mono {allowed' : Prop} (h : OnlyLeads allowed u r) (hal : allowed → allowed') :
    OnlyLeads allowed' u r := fun v w hvw hne hp => (h v w hvw hne hp).imp_left hal

theorem OnlyLeads.append (hu : OnlyLeads allowed u (v ++ r)) (hv : OnlyLeads allowed v r) :
    OnlyLeads allowed (u ++ v) r := by
  intro a w h hne hp
  rcases List.append_eq_append_iff.1 h with ⟨b, rfl, rfl⟩ | ⟨b, rfl, rfl⟩
  · obtain ⟨hal, hb⟩ := hv b w rfl hne hp
    exact ⟨hal, hb.append_left u⟩
  · by_cases hb : b = []
    · subst hb
      obtain ⟨hal, hn⟩ := hv [] v rfl (by simpa using hne) (by simpa using hp)
      obtain ⟨before, indent, hnil, -⟩ := hn
      simp at hnil
    · exact hu a b rfl hb (by simpa using hp)

/-! ## Lines -/

/-- The pattern of a line goes on while no closing begins and no line ends. -/
theorem rests_line (s : Text) :
    rests line s = strides (fun s => !closing.isPrefixOf s && s.head?.any (· != '\n')) s := by
  refine rests_many_of_step (by simp [rests]) (fun c s => ?_) s
  cases hp : closing.isPrefixOf (c :: s) <;> simp only [rests, hp] <;> simp [rests]

theorem mem_rests_line :
    r ∈ rests line s ↔ ∃ u, s = u ++ r ∧ Text.Clear closing u r ∧ '\n' ∉ u := by
  rw [rests_line, mem_strides]
  refine exists_congr fun u => and_congr_right fun _ => ⟨fun h => ⟨?_, ?_⟩, ?_⟩
  · intro w hw hne hp
    have := h w hw hne
    simp [List.isPrefixOf_iff_prefix.2 hp] at this
  · intro hc
    obtain ⟨a, b, rfl⟩ := List.append_of_mem hc
    have := h ('\n' :: b) (List.suffix_append _ _) (by simp)
    simp at this
  · rintro ⟨hclear, hnl⟩ w hw hne
    have hp : closing.isPrefixOf (w ++ r) = false := by
      rw [Bool.eq_false_iff, ne_eq, List.isPrefixOf_iff_prefix]
      exact hclear w hw hne
    cases w with
    | nil => exact absurd rfl hne
    | cons c w =>
      have hc : c ≠ '\n' := fun h => hnl (h ▸ hw.subset List.mem_cons_self)
      rw [List.cons_append] at hp ⊢
      simpa [hp] using hc

/-- A marked line: its line end, its indentation, the marker, and what it says. -/
theorem mem_rests_markedLine {m : Char} (h : r ∈ rests (markedLine [m]) s) :
    ∃ indent l, s = '\n' :: (indent ++ m :: (l ++ r)) ∧
      (∀ c ∈ indent, c = ' ' ∨ c = '\t') ∧ Text.Clear closing l r := by
  simp only [markedLine, Pattern.all, mem_rests_seq, mem_rests_text, mem_rests_line] at h
  obtain ⟨s₁, rfl, s₂, hindent, s₃, rfl, l, rfl, hl, -⟩ := h
  have hgo : rests (.many (.oneOf fun c => c == ' ' || c == '\t')) s₁ =
      strides (fun s => s.head?.any fun c => c == ' ' || c == '\t') s₁ :=
    rests_many_of_step rfl (fun _ _ => rfl) s₁
  rw [hgo, mem_strides] at hindent
  obtain ⟨indent, rfl, hi⟩ := hindent
  refine ⟨indent, l, by simp, fun c hc => ?_, hl⟩
  obtain ⟨a, b, rfl⟩ := List.append_of_mem hc
  simpa using hi (c :: b) (List.suffix_append _ _) (by simp)

/-- Of a marked line only the marker can be the `#` of a closing. -/
theorem onlyLeads_of_mem_markedLine {m : Char} (h : r ∈ rests (markedLine [m]) s) :
    ∃ u, s = u ++ r ∧ OnlyLeads (m = '#') u r := by
  obtain ⟨indent, l, rfl, hi, hl⟩ := mem_rests_markedLine h
  have hfree : '#' ∉ '\n' :: indent := by
    intro hmem
    rcases List.mem_cons.1 hmem with h | h
    · exact absurd h (by decide)
    · rcases hi _ h with h | h <;> exact absurd h (by decide)
  have hmarker : closing <+: m :: (l ++ r) → m = '#' ∧ EndsIndented ('\n' :: indent) := fun hp =>
    ⟨(List.cons_prefix_cons.1 hp).1.symm, [], indent, rfl, hi⟩
  refine ⟨'\n' :: (indent ++ m :: l), by simp, fun v w huv hne hp => ?_⟩
  rw [← List.cons_append] at huv
  rcases List.append_eq_append_iff.1 huv with ⟨b, rfl, hb⟩ | ⟨b, hb, rfl⟩
  · cases b with
    | nil =>
      rw [List.nil_append] at hb
      rw [List.append_nil]
      exact hmarker (by rwa [← hb] at hp)
    | cons c b =>
      obtain ⟨rfl, rfl⟩ := List.cons.inj hb
      exact absurd hp (hl w (List.suffix_append b w) hne)
  · cases b with
    | nil =>
      rw [List.append_nil] at hb
      exact hb ▸ hmarker (by simpa using hp)
    | cons c b =>
      have hc : c ∈ '\n' :: indent := by simp [hb]
      exact absurd ((List.cons_prefix_cons.1 hp).1 ▸ hc) hfree

/-! ## Formats -/

/-- A header in a format with marked lines: closings inside it lead lines, and only
where the marker is `#`. -/
theorem mem_rests_marked {m : Char} {o : Text} (ho : '#' ∉ o)
    (h : r ∈ rests (marked ('{' :: '#' :: o) [m]) s) :
    ∃ body, s = '{' :: '#' :: (body ++ '#' :: '}' :: r) ∧
      OnlyLeads (m = '#') body ('#' :: '}' :: r) := by
  simp only [marked, oneOrMore, Pattern.all, mem_rests_seq, mem_rests_text, mem_rests_line] at h
  obtain ⟨s₁, rfl, s₂, ⟨l, rfl, hl, -⟩, s₃, ⟨s₄, hfirst, hmore⟩, s₅, hblanks, rfl⟩ := h
  obtain ⟨u, rfl, hu⟩ := onlyLeads_of_mem_markedLine hfirst
  obtain ⟨us, rfl, hus⟩ := exists_append_of_mem_many (P := OnlyLeads (m = '#'))
    (fun _ => onlyLeads_nil) (fun _ _ _ => OnlyLeads.append)
    (fun _ _ => onlyLeads_of_mem_markedLine) hmore
  obtain ⟨b, rfl, hb⟩ := mem_rests_blanks.1 hblanks
  have hbfree : '#' ∉ b := fun hmem => absurd (hb _ hmem) (by decide)
  refine ⟨o ++ (l ++ (u ++ (us ++ b))), by simp, ?_⟩
  refine (onlyLeads_of_clear (Text.clear_of_notMem ho)).append ?_
  refine (onlyLeads_of_clear (by simpa using hl)).append ?_
  refine OnlyLeads.append (by simpa using hu) ?_
  exact OnlyLeads.append (by simpa using hus) (onlyLeads_of_clear (Text.clear_of_notMem hbfree))

/-- What each format takes for a header: a comment that closes at its end, and has
closings inside at most in the format that allows them. -/
theorem mem_rests_pattern {f : TwigFormat} (h : r ∈ rests f.pattern s) :
    ∃ body, s = '{' :: '#' :: (body ++ '#' :: '}' :: r) ∧
      OnlyLeads (f = .paddedHash) body ('#' :: '}' :: r) := by
  cases f with
  | paddedAsterisk =>
    obtain ⟨body, rfl, hb⟩ := mem_rests_marked (by decide) h
    exact ⟨body, rfl, hb.mono fun hm => absurd hm (by decide)⟩
  | paddedHash =>
    obtain ⟨body, rfl, hb⟩ := mem_rests_marked (by decide) h
    exact ⟨body, rfl, hb.mono fun _ => rfl⟩
  | asterisk =>
    obtain ⟨body, rfl, hb⟩ := mem_rests_marked (by decide) h
    exact ⟨body, rfl, hb.mono fun hm => absurd hm (by decide)⟩
  | hash =>
    obtain ⟨body, rfl, hclear⟩ := Delimiters.mem_rests_block.1 h
    exact ⟨body, rfl, onlyLeads_of_clear hclear⟩

/-! ## At the top -/

theorem rests_pattern_of_blank {f : TwigFormat} (hs : s.head?.any Text.isBlank) :
    rests f.pattern s = [] := by
  refine List.eq_nil_iff_forall_not_mem.2 fun r hr => ?_
  obtain ⟨body, rfl, -⟩ := mem_rests_pattern hr
  simp [Text.isBlank] at hs

/-- What a format finds at the top of a text is a comment, with nothing but blanks in front. -/
theorem exists_comment_of_leading? {f : TwigFormat} {x : Span} (h : f.leading? s = some x) :
    ∃ w body r, s = w ++ ('{' :: '#' :: (body ++ closing) ++ r) ∧ (∀ c ∈ w, Text.isBlank c) ∧
      x = ⟨w.length, w.length + ('{' :: '#' :: (body ++ closing)).length⟩ := by
  obtain ⟨w, t, r, rfl, hw, rfl, hr⟩ := leading?_eq_some h
  obtain ⟨body, hbody, -⟩ := mem_rests_pattern hr
  obtain rfl : t = '{' :: '#' :: (body ++ closing) := by
    have hcut : t ++ r = '{' :: '#' :: (body ++ closing) ++ r := by simpa using hbody
    exact List.append_cancel_right hcut
  exact ⟨w, body, r, rfl, hw, rfl⟩

/-- Where the closing occurs behind an opening at the top, the plain format is met. -/
theorem exists_leading?_hash {w : Text} (hw : ∀ c ∈ w, Text.isBlank c) (inner behind : Text) :
    ∃ x, hash.leading? (w ++ '{' :: '#' :: (inner ++ '#' :: '}' :: behind)) = some x := by
  have hin : Text.includes (inner ++ '#' :: '}' :: behind) closing :=
    Text.includes_iff.2 ⟨inner, behind, rfl⟩
  obtain ⟨body, r, hcut, hclear⟩ := Text.exists_first_of_includes hin
  have hcomment : FileType.twig.profile.comment.IsComment ('{' :: '#' :: (body ++ closing)) :=
    Delimiters.isComment_iff.2 ⟨body, rfl, hclear.restrict⟩
  have hmet := Delimiters.leading?_block_append (c := '{') (o := ['#']) rfl rfl hw hcomment r
  rw [List.cons_append, List.cons_append, List.append_assoc, ← hcut] at hmet
  exact ⟨_, hmet⟩

end

end Letterhead.TwigFormat
