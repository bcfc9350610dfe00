import CksLoadtest.Worker.Life

/-!
# The start of a client

A client that waits for its first activation keeps its time, whatever reaches it, and starts at
that time or later. Its uuid is drawn then and never changes.
-/
namespace CksLoadtest.Worker

variable {K : Type*} [Field K] [LinearOrder K] [FloorRing K] (P : Platform K) (cfg : Config K)

instance (c : SimClient K) : Decidable (Started c) := inferInstanceAs (Decidable (_ ≠ _))

/-- The client waits for the time it was added with. -/
def Awaits (due : Int) (c : SimClient K) : Prop :=
  ¬ Started c ∧ c.state = .waiting ∧ c.activateAt = due

variable {c : SimClient K} {due : Int}

/-- A uuid that is drawn stays. -/
theorem Turn.run_uuid (t : Turn K) (h : Started c) : (t.run P cfg c).1.uuid = c.uuid := by
  by_cases ha : t.Aside
  · exact (ha.spec P cfg c).1
  · cases t with
    | activate now nowSec draws outcome =>
      by_cases hdue : Due now c
      · have hmarks := (activateDueClient_due P cfg hdue nowSec draws outcome).1
        refine (congrArg Marks.uuid hmarks).trans ?_
        show (resume P cfg now nowSec draws c).uuid = c.uuid
        unfold resume
        rw [if_neg h]
      · exact congrArg (fun o : Out K => o.1.uuid) (activateDueClient_idle P cfg hdue ..)
    | send nowSec inputs =>
      by_cases hslot : TakesSlot cfg nowSec c
      · exact congrArg Marks.uuid (sendDueUpdate_slot P cfg hslot inputs).1
      · exact congrArg Marks.uuid (sendDueUpdate_idle P cfg hslot inputs).1
    | _ => exact absurd trivial ha

theorem Turn.run_started (t : Turn K) (h : Started c) : Started (t.run P cfg c).1 := by
  unfold Started
  rw [t.run_uuid P cfg h]
  exact h

omit [LinearOrder K] [FloorRing K] in
/-- An update before the start changes the credentials only. -/
theorem Awaits.update (h : Awaits due c) (u : Update) :
    Awaits due (applyUpdate cfg u c).1 ∧ (applyUpdate cfg u c).2 = [] := by
  obtain ⟨hs, hw, hd⟩ := h
  have hsuspended : ¬ c.state = .suspended := by
    rw [hw]
    exact State.noConfusion
  unfold applyUpdate
  split
  · exact ⟨⟨hs, hw, hd⟩, rfl⟩
  · dsimp only
    rw [if_neg hsuspended]
    generalize hsame : (if u.creds.gameTokenId ≠ c.creds.gameTokenId then
      SimClient.rebuildTemplate cfg { c with creds := u.creds, refreshRequested := false }
      else { c with creds := u.creds, refreshRequested := false }) = d
    have hwaits : Awaits due d := by
      rw [← hsame]
      split
      · exact ⟨hs, hw, hd⟩
      · exact ⟨hs, hw, hd⟩
    have hidle : ¬ d.state = .active := by
      rw [hwaits.2.1]
      exact State.noConfusion
    rw [if_neg hidle]
    exact ⟨hwaits, rfl⟩

theorem Awaits.send (h : Awaits due c) (nowSec : K) (i : SendInputs K) :
    sendDueUpdate P cfg nowSec i c = (c, []) := by
  have hactive : c.state ≠ .active := by
    rw [h.2.1]
    exact State.noConfusion
  unfold sendDueUpdate
  exact if_pos hactive

/-- What a turn of a client with that time does at a clock reading: it leaves the client waiting
and sends nothing, or the client has started in time. -/
def InTime (due clock : Int) (o : Out K) : Prop :=
  Awaits due o.1 ∧ sends o.2 = [] ∨ Started o.1 ∧ due ≤ clock

/-- It starts at its time or later. -/
theorem Awaits.activate (h : Awaits due c) (now : Int) (nowSec : K) (r : SimClient.Draws K)
    (o : OpenOutcome) : InTime due now (activateDueClient P cfg now nowSec r o c) := by
  by_cases hdue : Due now c
  · right
    refine ⟨?_, h.2.2 ▸ hdue.2.1⟩
    unfold Started
    rw [show (activateDueClient P cfg now nowSec r o c).1.uuid = _ from
      congrArg Marks.uuid (activateDueClient_due P cfg hdue nowSec r o).1]
    exact (resume_marks P cfg now nowSec r c).1
  · left
    rw [activateDueClient_idle P cfg hdue]
    exact ⟨h, rfl⟩

end CksLoadtest.Worker
