import Letterhead.Proofs.Update.Turns
/-
# What the turns of a run carry on

A property of the visits that are done and of what the session has in hand, if every file
carries it on, is carried on by a run (`run_carries`), whether its licence loads or not.
-/
namespace Letterhead.Update

open Session (Step)

/-- What a session has in hand, whatever it says and shows, together with the visits that are
done. -/
abbrev Standing := List Visit → Disk → Licence → Report → Prop

/-- The session stands so after these visits. -/
def Standing.Of (P : Standing) (done : List Visit) (s : Session) : Prop :=
  P done s.disk s.licence s.report

/-- A step stands as it should after some of the visits that it is to do, and after all of them
unless it halts. -/
def Carries (P : Standing) (done todo : List Visit) (step : Step) : Prop :=
  ∃ more, more <+: todo ∧ (step.2 = none → more = todo) ∧ P.Of (done ++ more) step.1

variable {P : Standing} {done todo rest : List Visit} {step : Step} {s : Session} {j : Job}
  {year : Nat} {stamps : List Stamp} {d : Disk} {read : Php.Reader}

theorem Carries.nil (hs : P.Of done s) : Carries P done [] (s, none) :=
  ⟨[], List.nil_prefix, fun _ => rfl, by simpa using hs⟩

/-- A step that goes on has done all its visits. -/
theorem Carries.standing (h : Carries P done todo step) (hh : step.2 = none) :
    P.Of (done ++ todo) step.1 := by
  obtain ⟨more, -, hall, hs⟩ := h
  exact hall hh ▸ hs

theorem Carries.andThen {g : Session → Step} (h : Carries P done todo step)
    (hg : step.2 = none → P.Of (done ++ todo) step.1 →
      Carries P (done ++ todo) rest (g step.1)) :
    Carries P done (todo ++ rest) (step.andThen g) := by
  obtain ⟨s, _ | halt⟩ := step
  · obtain ⟨more, hmore, hall, hs⟩ := hg rfl (h.standing rfl)
    exact ⟨todo ++ more, (List.prefix_append_right_inj todo).2 hmore,
      fun hh => by rw [hall hh], by rwa [← List.append_assoc]⟩
  · obtain ⟨more, hmore, -, hs⟩ := h
    exact ⟨more, hmore.trans (List.prefix_append todo rest), by simp [Step.andThen], hs⟩

/-- Processing a file carries a standing on, wherever a run stands so before it. -/
def CarriedByFiles (P : Standing) (j : Job) (year : Nat) (stamps : List Stamp) : Prop :=
  ∀ done v s, P.Of done s →
    Carries P done [v] (s.processFile j year (treatmentOf stamps v.fileType) v.file)

theorem takeTurns_carries (hfile : CarriedByFiles P j year stamps) (vs : List Visit)
    (hs : P.Of done s) : Carries P done vs (takeTurns j year stamps vs s) := by
  induction vs generalizing done s with
  | nil => exact .nil hs
  | cons v vs ih => exact Carries.andThen (hfile done v s hs) fun _ hs => ih hs

/-- Whether a step carries a standing on is a matter of what it leaves in hand. -/
theorem Carries.of_hand {x y : Step} (h : Carries P done todo x) (hxy : y.hand = x.hand) :
    Carries P done todo y := by
  obtain ⟨hhand, hhalt⟩ := Prod.mk.inj hxy
  obtain ⟨hdisk, hlicence, hreport⟩ := Session.hand_eq_iff.1 hhand
  obtain ⟨more, hmore, hall, hs⟩ := h
  refine ⟨more, hmore, fun hy => hall (hhalt ▸ hy), ?_⟩
  unfold Standing.Of at hs ⊢
  rwa [hdisk, hlicence, hreport]

/-- What every file carries on a run carries on, from where it starts once its extensions and
its licence are settled. -/
theorem run_carries {ks : List Kind} (hk : kinds j.extensions = .ok ks)
    (hst : (j.licence.stamps read j.marker d year ((stampedTypes ks).map FileType.name)).result =
      .ok stamps)
    (hfile : CarriedByFiles P j year stamps)
    (hs : P [] d (j.licence.stamps read j.marker d year
      ((stampedTypes ks).map FileType.name)).licence .empty) :
    Carries P [] (agenda j d ks []) (run read d year j) := by
  refine Carries.of_hand ?_ (hand_run hk hst)
  exact takeTurns_carries hfile _ hs

end Letterhead.Update
