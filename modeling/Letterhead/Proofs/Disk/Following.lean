import Letterhead.Proofs.Disk.Proper
/-
# Paths through a tree without links

A path leads on from where its front part leads (`exists_locateFrom_append`), and in a tree
without links names lead to where they say (`locate_join`).
-/
namespace Letterhead.Disk

open FileTree

/-- A name that a path follows to an entry of the folder. -/
def Leads (n : Text) : Prop := n ≠ [] ∧ n ≠ ['.'] ∧ n ≠ ['.', '.']

variable {d : Disk} {root t : FileTree} {place q todo rest names : List Text} {m : Nat}

/-- Names in front lead to a place or to a link, and the names behind are followed from there. -/
theorem follow_append (root : FileTree) (place todo rest : List Text) :
    follow root place (todo ++ rest) = match follow root place todo with
      | .error e => .error e
      | .ok (.arrived q) => follow root q rest
      | .ok (.link start target left) => .ok (.link start target (left ++ rest)) := by
  induction todo generalizing place with
  | nil => rfl
  | cons n todo ih =>
    rw [List.cons_append, follow, follow]
    cases root.at? place with
    | none => rfl
    | some t =>
      cases t with
      | file access bytes => rfl
      | link target => rfl
      | folder access entries =>
        dsimp only
        split
        · exact ih place
        · split
          · rfl
          · split
            · exact ih _
            · cases entries.lookup n with
              | none => rfl
              | some u => cases u <;> first | rfl | exact ih _

/-- Behind the place that its front part leads to, a path goes on from there. -/
theorem exists_locateFrom_append (h : locateFrom root m place todo = .ok q)
    (rest : List Text) :
    ∃ links, locateFrom root m place (todo ++ rest) = locateFrom root links q rest := by
  induction m generalizing place todo with
  | zero =>
    rw [locateFrom] at h
    refine ⟨0, ?_⟩
    rw [locateFrom, locateFrom, follow_append]
    cases hf : follow root place todo with
    | error e => simp [hf] at h
    | ok stop =>
      cases stop with
      | arrived q' =>
        obtain rfl : q' = q := by simpa [hf] using h
        rfl
      | link start target left => simp [hf] at h
  | succ m ih =>
    rw [locateFrom] at h
    cases hf : follow root place todo with
    | error e => simp [hf] at h
    | ok stop =>
      cases stop with
      | arrived q' =>
        obtain rfl : q' = q := by simpa [hf] using h
        refine ⟨m + 1, ?_⟩
        rw [locateFrom, locateFrom, follow_append, hf]
      | link start target left =>
        simp only [hf] at h
        obtain ⟨links, hl⟩ := ih h
        refine ⟨links, ?_⟩
        rw [locateFrom, follow_append, hf]
        simpa using hl

/-- Without links, names that can be followed lead to where they say. -/
theorem follow_linkFree (ht : root.at? place = some t) (hfree : t.IsLinkFree)
    (hn : ∀ n ∈ names, Leads n) {stop : Stop} (h : follow root place names = .ok stop) :
    stop = .arrived (place ++ names) := by
  induction names generalizing place t with
  | nil => simpa [follow] using h.symm
  | cons n names ih =>
    obtain ⟨⟨hne, hdot, hdots⟩, hrest⟩ := List.forall_mem_cons.1 hn
    have hdrop : (n.isEmpty || n == ['.']) = false := by
      simp [hne, hdot]
    rw [follow, ht] at h
    cases t with
    | file access bytes => simp at h
    | link target => simp at h
    | folder access entries =>
      simp only [hdrop] at h
      rw [if_neg (by simp)] at h
      split at h
      · cases h
      · rw [if_neg (by simpa using hdots)] at h
        cases hu : entries.lookup n with
        | none => simp [hu] at h
        | some u =>
          have hat : root.at? (place ++ [n]) = some u := by
            rw [at?_append, ht]
            simp [FileTree.at?, hu]
          have hufree := (every_folder.1 hfree).2 _ (mem_of_lookup hu)
          rw [hu] at h
          cases u with
          | link target => exact absurd hufree.self (by simp [IsNoLink])
          | file access' bytes => simpa using ih hat hufree hrest h
          | folder access' entries' => simpa using ih hat hufree hrest h

/-- A path into a tree without links leads, if anywhere, to where its names say. -/
theorem locate_join {p : Path} (hp : d.locate p = .ok place) (ht : d.root.at? place = some t)
    (hfree : t.IsLinkFree) (hn : ∀ n ∈ names, Leads n)
    (h : d.locate (p.join ⟨.here, names⟩) = .ok q) : q = place ++ names := by
  obtain ⟨links, hl⟩ := exists_locateFrom_append hp names
  have hjoin : d.locate (p.join ⟨.here, names⟩) = locateFrom d.root links place names := hl
  rw [hjoin] at h
  unfold locateFrom at h
  cases hf : follow d.root place names with
  | error e => simp [hf] at h
  | ok stop =>
    obtain rfl := follow_linkFree ht hfree hn hf
    simpa [hf] using h.symm

end Letterhead.Disk
