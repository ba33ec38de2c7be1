import Letterhead.Proofs.Header.LeadingComments
import Letterhead.Proofs.Traversal
import Letterhead.Text.Utf8.Lemmas
/-
# Comments by characters

A syntax tree places its nodes by bytes, and a header is cut out by characters. Where a node
begins and ends between two characters, its bytes are those of a piece of the text, and the
comment that is reported is that piece (`Comment.Covers`). Which nodes are reported is said by
the run of comments that leads the siblings (`leadingComments_cover`).
-/
namespace Letterhead

namespace Text.Utf8

theorem size_append (s t : Text) : size (s ++ t) = size s + size t := by
  rw [size, encode_append, List.length_append, size, size]

theorem size_eq_zero_iff {s : Text} : size s = 0 ↔ s = [] := by
  constructor
  · intro h
    cases s with
    | nil => rfl
    | cons c s =>
      have hpos := length_encodeChar_pos c
      have hlen : (encodeChar c ++ encode s).length = 0 := h
      rw [List.length_append] at hlen
      omega
  · rintro rfl
    rfl

end Text.Utf8

namespace Php

open Text

variable {content pre t post : Text} {n : Node} {ns run siblings : List Node} {i j : Nat}

/-! ## Bytes and characters -/

/-- So many bytes of the text end with a whole character. -/
def IsBoundary (content : Text) (k : Nat) : Prop :=
  ∃ pre post, content = pre ++ post ∧ Utf8.size pre = k

/-- The bytes of the node begin and end between two characters of the text. -/
structure Node.Aligned (content : Text) (n : Node) : Prop where
  start : IsBoundary content n.startByte
  stop : IsBoundary content n.endByte
  ordered : n.startByte ≤ n.endByte

theorem IsBoundary.of_take (h : Utf8.size (content.take i) = j) : IsBoundary content j :=
  ⟨content.take i, content.drop i, (List.take_append_drop i content).symm, h⟩

/-- Two boundaries cut the text into three. -/
theorem IsBoundary.exists_cut (hi : IsBoundary content i) (hj : IsBoundary content j)
    (hij : i ≤ j) : ∃ pre t post, content = pre ++ (t ++ post) ∧ Utf8.size pre = i ∧
      Utf8.size (pre ++ t) = j := by
  obtain ⟨pre, behind, rfl, rfl⟩ := hi
  obtain ⟨pre', behind', hcut, rfl⟩ := hj
  rcases List.append_eq_append_iff.1 hcut with ⟨t, rfl, rfl⟩ | ⟨t, rfl, rfl⟩
  · exact ⟨pre, t, behind', rfl, rfl, rfl⟩
  · -- a cut further to the front has no fewer bytes, so it is the same cut
    have hsize : Utf8.size t = 0 := by
      rw [Utf8.size_append] at hij
      omega
    obtain rfl := Utf8.size_eq_zero_iff.1 hsize
    exact ⟨pre', [], behind, by simp, by simp, by simp⟩

theorem charOffset_size (pre post : Text) :
    charOffset (Utf8.encode (pre ++ post)) (Utf8.size pre) = .ok pre.length := by
  have htake : (Utf8.encode (pre ++ post)).take (Utf8.size pre) = Utf8.encode pre := by
    rw [Utf8.encode_append]
    exact List.take_left' rfl
  rw [charOffset, htake, Utf8.decode_encode]

/-- A node whose bytes are those of a piece of the text is reported as that piece. -/
theorem commentOf_of_cut (hstart : Utf8.size pre = n.startByte)
    (hstop : Utf8.size (pre ++ t) = n.endByte) (post : Text) :
    commentOf (pre ++ (t ++ post)) (Utf8.encode (pre ++ (t ++ post))) n =
      .ok ⟨t, ⟨pre.length, pre.length + t.length⟩⟩ := by
  have hi := charOffset_size pre (t ++ post)
  have hj := charOffset_size (pre ++ t) post
  rw [List.append_assoc] at hj
  unfold commentOf
  rw [← hstart, ← hstop, hi, hj, List.length_append]
  show Except.ok _ = _
  rw [Span.of_append]

/-- The comment is what the node covers: its text is the piece of the file between its offsets,
in front of it stand as many bytes as the node says, and its own bytes are those of the node. -/
structure Comment.Covers (content : Text) (n : Node) (c : Comment) : Prop where
  stands : c.StandsIn content
  text : c.text = c.span.of content
  start : Utf8.size (content.take c.span.start) = n.startByte
  bytes : Utf8.encode c.text = ((Utf8.encode content).take n.endByte).drop n.startByte

theorem Comment.Covers.of_cut (hstart : Utf8.size pre = n.startByte)
    (hstop : Utf8.size (pre ++ t) = n.endByte) (post : Text) :
    Comment.Covers (pre ++ (t ++ post)) n ⟨t, ⟨pre.length, pre.length + t.length⟩⟩ where
  stands := ⟨pre, post, rfl, rfl⟩
  text := (Span.of_append pre t post).symm
  start := by rw [← hstart, List.take_left]
  bytes := by
    have htake : (Utf8.encode (pre ++ (t ++ post))).take n.endByte = Utf8.encode (pre ++ t) := by
      rw [← List.append_assoc, Utf8.encode_append, ← hstop]
      exact List.take_left' rfl
    rw [htake, Utf8.encode_append, ← hstart]
    exact (List.drop_left' rfl).symm

theorem exists_commentOf (h : n.Aligned content) :
    ∃ c, commentOf content (Utf8.encode content) n = .ok c ∧ Comment.Covers content n c := by
  obtain ⟨pre, t, post, rfl, hstart, hstop⟩ := h.start.exists_cut h.stop h.ordered
  exact ⟨_, commentOf_of_cut hstart hstop post, .of_cut hstart hstop post⟩

/-! ## The comments that lead -/

/-- A run of comments that is not shorter than it could be: the node behind it is no comment. -/
structure LongestRun (run behind : List Node) : Prop where
  comments : ∀ n ∈ run, n.kind = .comment
  ends : ∀ n, behind.head? = some n → n.kind ≠ .comment

/-- The run of comments that leads siblings: it begins with the second of them if the first is
the open tag, and else with the first. -/
inductive LeadingRun : List Node → List Node → Prop
  | behindTag {tag run behind} (htag : tag.kind = .openTag) (h : LongestRun run behind) :
    LeadingRun (tag :: (run ++ behind)) run
  | atStart {run behind} (hno : ∀ n, (run ++ behind).head? = some n → n.kind ≠ .openTag)
    (h : LongestRun run behind) : LeadingRun (run ++ behind) run

theorem LeadingRun.subset (h : LeadingRun siblings run) : run ⊆ siblings := by
  cases h with
  | behindTag => exact List.subset_cons_of_subset _ (List.subset_append_left _ _)
  | atStart => exact List.subset_append_left _ _

theorem longestRun_iff : (∃ behind, ns = run ++ behind ∧ LongestRun run behind) ↔
    run = ns.takeWhile fun n => n.kind = .comment := by
  constructor
  · rintro ⟨behind, rfl, hrun⟩
    have hall : ∀ n ∈ run, decide (n.kind = .comment) = true :=
      fun n hn => decide_eq_true (hrun.comments n hn)
    have hstop : behind.takeWhile (fun n => n.kind = .comment) = [] := by
      cases behind with
      | nil => rfl
      | cons n behind =>
        have hn : ¬ n.kind = .comment := hrun.ends n rfl
        simp [hn]
    rw [List.takeWhile_append_of_pos hall, hstop, List.append_nil]
  · rintro rfl
    refine ⟨ns.dropWhile fun n => n.kind = .comment, List.takeWhile_append_dropWhile.symm,
      fun n hn => ?_, fun n hn => ?_⟩
    · simpa using List.mem_takeWhile_imp hn
    · have := List.head?_dropWhile_not (fun n : Node => decide (n.kind = .comment)) ns
      rw [hn] at this
      simpa using this

theorem leadingNodes_behindTag (hn : n.kind = .openTag) :
    leadingNodes (n :: ns) = ns.takeWhile fun n => n.kind = .comment := by
  simp [leadingNodes, hn]

theorem leadingNodes_atStart (hno : ∀ n, ns.head? = some n → n.kind ≠ .openTag) :
    leadingNodes ns = ns.takeWhile fun n => n.kind = .comment := by
  cases ns with
  | nil => rfl
  | cons n ns => simp only [leadingNodes, hno n rfl, if_false]

/-- The nodes that are reported are the run that leads, and no others. -/
theorem leadingRun_iff : LeadingRun siblings run ↔ run = leadingNodes siblings := by
  constructor
  · intro h
    cases h with
    | behindTag htag hrun =>
      rw [leadingNodes_behindTag htag]
      exact longestRun_iff.1 ⟨_, rfl, hrun⟩
    | atStart hno hrun =>
      rw [leadingNodes_atStart hno]
      exact longestRun_iff.1 ⟨_, rfl, hrun⟩
  · rintro rfl
    by_cases htag : ∃ tag ns, siblings = tag :: ns ∧ tag.kind = .openTag
    · obtain ⟨tag, ns, rfl, htag⟩ := htag
      obtain ⟨behind, hns, hrun⟩ := longestRun_iff.2 (leadingNodes_behindTag htag)
      have hlead := LeadingRun.behindTag htag hrun
      rwa [← hns] at hlead
    · have hno : ∀ n, siblings.head? = some n → n.kind ≠ .openTag := by
        intro n hn hkind
        obtain ⟨ns, rfl⟩ := List.head?_eq_some_iff.1 hn
        exact htag ⟨n, ns, rfl, hkind⟩
      obtain ⟨behind, hns, hrun⟩ := longestRun_iff.2 (leadingNodes_atStart hno)
      rw [hns] at hno
      have hlead := LeadingRun.atStart hno hrun
      rwa [← hns] at hlead

theorem exists_comments (haligned : ∀ n ∈ siblings, n.Aligned content) :
    ∃ comments, (leadingNodes siblings).mapM (commentOf content (Utf8.encode content)) =
        .ok comments ∧ List.Forall₂ (Comment.Covers content) (leadingNodes siblings) comments :=
  exists_mapM_eq_ok fun n hn =>
    exists_commentOf (haligned n ((leadingRun_iff.2 rfl).subset hn))

/-- The leading comments of a tree without errors, whose nodes begin and end between two
characters, are told: in their order those of the longest run of comments that begins with the
first node, or behind the open tag if that is the first. Each is the piece of the text that its
node covers, by characters and by bytes. -/
theorem leadingComments_cover {root : Node} (hroot : root.hasError = false)
    (haligned : ∀ n ∈ root.children, n.Aligned content) :
    ∃ run comments, LeadingRun root.children run ∧ leadingComments content root = .ok comments ∧
      List.Forall₂ (Comment.Covers content) run comments := by
  obtain ⟨comments, hcomments, hall⟩ := exists_comments haligned
  refine ⟨_, comments, leadingRun_iff.2 rfl, ?_, hall⟩
  unfold leadingComments
  rw [hroot, if_neg (by simp), hcomments]

/-- A script with characters of two, three and four bytes in and around its comments, and the top
of its tree. -/
def accentedScript : Text := "<?php\n// é €\n/* 𝄞 */\n$x;".toList
def accentedTree : Node :=
  .mk .other 0 30 0 false false
    [.mk .openTag 0 5 0 false false [], .mk .comment 6 15 1 false false [],
      .mk .comment 16 26 2 false false [], .mk .other 27 30 3 false false []]

theorem leadingComments_cover_accentedScript :
    accentedTree.hasError = false ∧ (∀ n ∈ accentedTree.children, n.Aligned accentedScript) ∧
    leadingComments accentedScript accentedTree =
      .ok [⟨"// é €".toList, ⟨6, 12⟩⟩, ⟨"/* 𝄞 */".toList, ⟨13, 20⟩⟩] ∧
    ∃ run, LeadingRun accentedTree.children run ∧
      List.Forall₂ (Comment.Covers accentedScript) run
        [⟨"// é €".toList, ⟨6, 12⟩⟩, ⟨"/* 𝄞 */".toList, ⟨13, 20⟩⟩] := by
  have hroot : accentedTree.hasError = false := rfl
  have haligned : ∀ n ∈ accentedTree.children, n.Aligned accentedScript := by
    have hsizes : [0, 5, 6, 12, 13, 20, 21, 24].map (fun i => Utf8.size (accentedScript.take i)) =
        [0, 5, 6, 15, 16, 26, 27, 30] := by decide +kernel
    simp only [List.map_cons, List.map_nil, List.cons.injEq, and_true] at hsizes
    obtain ⟨h0, h1, h2, h3, h4, h5, h6, h7⟩ := hsizes
    simp only [accentedTree, Node.children, List.forall_mem_cons, List.not_mem_nil,
      false_imp_iff, implies_true, and_true]
    exact ⟨⟨.of_take h0, .of_take h1, by decide⟩, ⟨.of_take h2, .of_take h3, by decide⟩,
      ⟨.of_take h4, .of_take h5, by decide⟩, ⟨.of_take h6, .of_take h7, by decide⟩⟩
  have hread : leadingComments accentedScript accentedTree =
      .ok [⟨"// é €".toList, ⟨6, 12⟩⟩, ⟨"/* 𝄞 */".toList, ⟨13, 20⟩⟩] := by decide +kernel
  obtain ⟨run, comments, hrun, hcomments, hall⟩ := leadingComments_cover hroot haligned
  obtain rfl := Except.ok.inj (hcomments.symm.trans hread)
  exact ⟨hroot, haligned, hread, run, hrun, hall⟩

end Php
end Letterhead
