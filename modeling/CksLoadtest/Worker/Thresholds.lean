import CksLoadtest.Worker.Life

/-!
# Reassignments after refusals and failed sends

A client counts UNAUTHORIZED replies and consecutive failed sends, and asks for another server
when a count reaches its threshold. The counts bound what happened since the latest activation
as long as every activation finds them at zero: none resets them.
-/
namespace CksLoadtest.Worker

open Lib.Buffer Lib.Transition

variable {K : Type*} [Field K] [LinearOrder K] [FloorRing K]

/-- The turn asks for a reassignment. -/
def AsksReassign (es : List (Effect K)) : Prop := ∃ creds, (true, Kind.reassign, creds) ∈ pushes es

instance (es : List (Effect K)) : Decidable (AsksReassign es) :=
  decidable_of_iff (∃ p ∈ pushes es, p.1 = true ∧ p.2.1 = Kind.reassign)
    ⟨fun ⟨p, hp, hs, hk⟩ => ⟨p.2.2, hs ▸ hk ▸ hp⟩, fun ⟨_, hp⟩ => ⟨_, hp, rfl, rfl⟩⟩

/-- An activation finds both counts at zero. -/
def FindsCountsClear (l : Life K) : Turn K → Prop
  | .activate now _ _ _ =>
    Due now l.client → l.client.unauthorizedCount = 0 ∧ l.client.consecutiveSendErrors = 0
  | _ => True

instance (l : Life K) : (t : Turn K) → Decidable (FindsCountsClear l t)
  | .activate .. => inferInstanceAs (Decidable (_ → _))
  | .update _ | .send .. | .rxBegin .. | .rxMember .. | .rxEnd _ => inferInstanceAs (Decidable True)

/-- A reassignment because of refusals comes with five seconds' worth of them since the latest
activation, and one because of failed sends with three seconds' worth in a row. -/
def ReassignEarned (P : Platform K) (cfg : Config K) (l : Life K) : Turn K → Prop
  | .rxMember signedBundle nowMs t m =>
    isRefusal m = true →
      AsksReassign (handleMember P cfg signedBundle nowMs t m l.client).2 →
      5 * cfg.updateHz ≤ l.since.refusals.length + 1
  | .send nowSec inputs =>
    sendResult P cfg nowSec inputs l.client = some false →
      AsksReassign (sendDueUpdate P cfg nowSec inputs l.client).2 →
      3 * cfg.updateHz ≤ l.since.failures + 1
  | _ => True

instance (P : Platform K) (cfg : Config K) (l : Life K) :
    (t : Turn K) → Decidable (ReassignEarned P cfg l t)
  | .rxMember .. => inferInstanceAs (Decidable (_ → _ → _))
  | .send .. => inferInstanceAs (Decidable (_ → _ → _))
  | .update _ | .activate .. | .rxBegin .. | .rxEnd _ => inferInstanceAs (Decidable True)

/-- The counts are at most what happened since the latest activation. -/
structure CountsEarned (l : Life K) : Prop where
  refusals : l.client.unauthorizedCount ≤ l.since.refusals.length
  failures : l.client.consecutiveSendErrors ≤ l.since.failures

variable {P : Platform K} {cfg : Config K}

omit [Field K] [LinearOrder K] [FloorRing K] in
theorem CountsEarned.of_marks {l : Life K} {c : SimClient K} (h : CountsEarned l)
    (hm : marks c = marks l.client) : CountsEarned ⟨c, l.since⟩ := by
  refine ⟨?_, ?_⟩
  · show c.unauthorizedCount ≤ _
    rw [show c.unauthorizedCount = _ from congrArg Marks.unauthorizedCount hm]
    exact h.refusals
  · show c.consecutiveSendErrors ≤ _
    rw [show c.consecutiveSendErrors = _ from congrArg Marks.consecutiveSendErrors hm]
    exact h.failures

/-- With the counts bounded, a reassignment is earned. -/
theorem CountsEarned.reassign {l : Life K} (h : CountsEarned l) (t : Turn K) :
    ReassignEarned P cfg l t := by
  cases t with
  | update | rxBegin | rxEnd | activate => trivial
  | rxMember signedBundle nowMs r m =>
    rintro hr ⟨creds, hmem⟩
    obtain ⟨-, hp⟩ := handleMember_refusal_marks P cfg hr signedBundle nowMs r l.client
    have hfull := hp (List.ne_nil_of_mem hmem)
    have hcount := h.refusals
    omega
  | send nowSec inputs =>
    rintro hsent ⟨creds, hmem⟩
    have hslot : TakesSlot cfg nowSec l.client := by
      by_contra hidle
      exact absurd ((if_neg hidle).symm.trans hsent) nofun
    obtain ⟨-, -, hp⟩ := sendDueUpdate_slot P cfg hslot inputs
    have hfull := (hp creds hmem).2
    have hcount := h.failures
    omega

/-- **Step lemma.** -/
theorem counts_turn {l : Life K} {t : Turn K} (h : CountsEarned l) (hclear : FindsCountsClear l t) :
    CountsEarned (l.turn P cfg t) := by
  cases t with
  | update u => exact h.of_marks (applyUpdate_marks cfg u l.client).1
  | rxBegin rxNs nowMs data => exact h.of_marks (beginDatagram_marks P rxNs nowMs data l.client).1
  | rxEnd ok => exact h.of_marks rfl
  | activate now nowSec draws outcome =>
    unfold Life.turn Since.next Turn.run
    dsimp only
    by_cases hd : Due now l.client
    · obtain ⟨hu, hs⟩ := hclear hd
      have hm := (activateDueClient_due P cfg hd nowSec draws outcome).1.trans
        (resume_marks P cfg now nowSec draws l.client).2
      rw [if_pos hd]
      exact ⟨((congrArg Marks.unauthorizedCount hm).trans hu).le,
        ((congrArg Marks.consecutiveSendErrors hm).trans hs).le⟩
    · rw [if_neg hd, activateDueClient_idle P cfg hd]
      exact h
  | rxMember signedBundle nowMs r m =>
    unfold Life.turn Since.next Turn.run
    dsimp only
    cases hr : isRefusal m with
    | false => exact h.of_marks (handleMember_marks P cfg hr signedBundle nowMs r l.client)
    | true =>
      obtain ⟨hm, -⟩ := handleMember_refusal_marks P cfg hr signedBundle nowMs r l.client
      have hcount := h.refusals
      rw [if_pos rfl]
      constructor
      · have hnext : (handleMember P cfg signedBundle nowMs r m l.client).1.unauthorizedCount =
            nextUnauthorized cfg l.client.unauthorizedCount := congrArg Marks.unauthorizedCount hm
        show _ ≤ ((l.since.refusals.length + 1 : Nat) : Int)
        rw [hnext]
        unfold nextUnauthorized
        split <;> omega
      · have hsame : (handleMember P cfg signedBundle nowMs r m l.client).1.consecutiveSendErrors =
            l.client.consecutiveSendErrors := by
          refine (congrArg Marks.consecutiveSendErrors hm).trans ?_
          rcases classifyRefusal_marks cfg r l.client with hc | ⟨-, hc⟩
          · exact congrArg Marks.consecutiveSendErrors hc
          · exact congrArg Marks.consecutiveSendErrors hc
        exact hsame.le.trans h.failures
  | send nowSec inputs =>
    unfold Life.turn Since.next Turn.run
    dsimp only
    by_cases hslot : TakesSlot cfg nowSec l.client
    · obtain ⟨hm, -⟩ := sendDueUpdate_slot P cfg hslot inputs
      have hu : (sendDueUpdate P cfg nowSec inputs l.client).1.unauthorizedCount =
          l.client.unauthorizedCount := congrArg Marks.unauthorizedCount hm
      have hs : (sendDueUpdate P cfg nowSec inputs l.client).1.consecutiveSendErrors =
          nextSendErrors cfg l.client.consecutiveSendErrors
            (sendResult P cfg nowSec inputs l.client) := congrArg Marks.consecutiveSendErrors hm
      have hcount := h.failures
      unfold nextSendErrors at hs
      rcases hres : sendResult P cfg nowSec inputs l.client with _ | _ | _
      · rw [hres] at hs
        exact ⟨hu.le.trans h.refusals, hs.le.trans hcount⟩
      · rw [hres] at hs
        refine ⟨hu.le.trans h.refusals, ?_⟩
        show _ ≤ ((l.since.failures + 1 : Nat) : Int)
        rw [hs]
        dsimp only
        split <;> omega
      · rw [hres] at hs
        exact ⟨hu.le.trans h.refusals, hs.le⟩
    · have hnone : sendResult P cfg nowSec inputs l.client = none := if_neg hslot
      rw [hnone]
      exact h.of_marks (sendDueUpdate_idle P cfg hslot inputs).1

/-- **Whole lives.** -/
theorem lives_counted {l : Life K}
    (h : (lives P cfg).GReach FindsCountsClear l) : CountsEarned l := by
  refine System.GReach.inv (I := CountsEarned) ?_ ?_ h
  · rintro _ ⟨creds, activateAt, rfl⟩
    exact ⟨le_rfl, le_rfl⟩
  · rintro l t _ - hl hclear rfl
    exact counts_turn hl hclear

end CksLoadtest.Worker
