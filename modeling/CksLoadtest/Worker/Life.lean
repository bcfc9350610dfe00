import CksLoadtest.Lib.Transition
import CksLoadtest.Worker.Marks

/-!
# The life of one client

A worker's thread gives a client one turn after another: an update, an activation, a send, a
datagram with its members. A life remembers, beside the client, what happened to it since its
latest activation.
-/
namespace CksLoadtest.Worker

open Lib.Buffer Lib.Transition

variable {K : Type*}

/-- One turn, with the readings and the outside's answers it gets. -/
inductive Turn (K : Type*) where
  | update (u : Update)
  | activate (now : Int) (nowSec : K) (draws : SimClient.Draws K) (outcome : OpenOutcome)
  | send (nowSec : K) (inputs : SendInputs K)
  | rxBegin (rxNs nowMs : Int) (data : Bytes)
  | rxMember (signedBundle : Bool) (nowMs : Int) (t : Readings) (m : Bytes)
  | rxEnd (ok : Bool)

def Turn.run [Field K] [LinearOrder K] [FloorRing K] (P : Platform K) (cfg : Config K) :
    Turn K → SimClient K → Out K
  | .update u, c => applyUpdate cfg u c
  | .activate now nowSec draws outcome, c => activateDueClient P cfg now nowSec draws outcome c
  | .send nowSec inputs, c => sendDueUpdate P cfg nowSec inputs c
  | .rxBegin rxNs nowMs data, c => (beginDatagram P rxNs nowMs data c).1
  | .rxMember signedBundle nowMs t m, c => handleMember P cfg signedBundle nowMs t m c
  | .rxEnd ok, c => endDatagram ok c

/-- A turn outside `activateDueClients` and `sendDueUpdates`. -/
def Turn.Aside : Turn K → Prop
  | .activate .. | .send .. => False
  | _ => True

section Run

variable [Field K] [LinearOrder K] [FloorRing K] (P : Platform K) (cfg : Config K)

/-- The client after a list of turns. -/
def lived (c : SimClient K) (ts : List (Turn K)) : SimClient K :=
  ts.foldl (fun c t => (t.run P cfg c).1) c

/-- An aside can take a client out of service, and only a refusal changes its marks. -/
theorem Turn.Aside.spec {t : Turn K} (h : t.Aside) (c : SimClient K) :
    (t.run P cfg c).1.uuid = c.uuid ∧ (t.run P cfg c).1.lastSendTime = c.lastSendTime ∧
      ((t.run P cfg c).1.state = .active → c.state = .active) := by
  have hmarks {o : Out K} (hm : marks o.1 = marks c) :
      o.1.uuid = c.uuid ∧ o.1.lastSendTime = c.lastSendTime :=
    ⟨congrArg Marks.uuid hm, congrArg Marks.lastSendTime hm⟩
  cases t with
  | update u =>
    obtain ⟨hm, hs⟩ := applyUpdate_marks cfg u c
    refine ⟨(hmarks hm).1, (hmarks hm).2, fun ha => ?_⟩
    rcases hs with hs | hs
    · exact hs ▸ ha
    · exact absurd (hs.symm.trans ha) nofun
  | activate | send => exact h.elim
  | rxBegin rxNs nowMs data =>
    obtain ⟨hm, hs⟩ := beginDatagram_marks P rxNs nowMs data c
    exact ⟨(hmarks hm).1, (hmarks hm).2, fun ha => hs ▸ ha⟩
  | rxMember signedBundle nowMs r m =>
    have hlast : (handleMember P cfg signedBundle nowMs r m c).1.uuid = c.uuid ∧
        (handleMember P cfg signedBundle nowMs r m c).1.lastSendTime = c.lastSendTime := by
      cases hr : isRefusal m with
      | false => exact hmarks (handleMember_marks P cfg hr signedBundle nowMs r c)
      | true =>
        obtain ⟨hm, -⟩ := handleMember_refusal_marks P cfg hr signedBundle nowMs r c
        have huuid := congrArg Marks.uuid hm
        have hsend := congrArg Marks.lastSendTime hm
        rcases classifyRefusal_marks cfg r c with hc | ⟨-, hc⟩
        · exact ⟨huuid.trans (congrArg Marks.uuid hc), hsend.trans (congrArg Marks.lastSendTime hc)⟩
        · exact ⟨huuid.trans (congrArg Marks.uuid hc), hsend.trans (congrArg Marks.lastSendTime hc)⟩
    refine ⟨hlast.1, hlast.2, fun ha => ?_⟩
    rcases (handleMember_suspends P cfg signedBundle nowMs r m c).state with hs | hs
    · exact hs ▸ ha
    · exact absurd (hs.symm.trans ha) nofun
  | rxEnd ok => exact ⟨rfl, rfl, id⟩

theorem lived_asides {ts : List (Turn K)} (hts : ∀ t ∈ ts, t.Aside) (c : SimClient K) :
    (lived P cfg c ts).uuid = c.uuid ∧ (lived P cfg c ts).lastSendTime = c.lastSendTime ∧
      ((lived P cfg c ts).state = .active → c.state = .active) := by
  induction ts generalizing c with
  | nil => exact ⟨rfl, rfl, id⟩
  | cons t ts ih =>
    obtain ⟨ht, hts⟩ := List.forall_mem_cons.mp hts
    obtain ⟨hu, hl, ha⟩ := ht.spec P cfg c
    obtain ⟨hu', hl', ha'⟩ := ih hts (t.run P cfg c).1
    exact ⟨hu'.trans hu, hl'.trans hl, fun h => ha (ha' h)⟩

/-- Out of SUSPENDED a client only ever gets to WAITING. -/
theorem Turn.run_suspended (t : Turn K) {c : SimClient K} (h : c.state = .suspended) :
    (t.run P cfg c).1.state = .suspended ∨ (t.run P cfg c).1.state = .waiting := by
  have hstay {o : Out K} (ho : o.1.state = c.state ∨ o.1.state = .suspended) :
      o.1.state = .suspended ∨ o.1.state = .waiting := by
    rcases ho with ho | ho
    · exact .inl (ho.trans h)
    · exact .inl ho
  cases t with
  | update u =>
    rcases (applyUpdate_marks cfg u c).2 with hs | hs
    · exact .inl (hs.trans h)
    · exact .inr hs
  | activate now nowSec draws outcome =>
    have hidle : ¬ Due now c := fun hd => absurd (hd.1.symm.trans h) nofun
    show (activateDueClient P cfg now nowSec draws outcome c).1.state = _ ∨ _
    rw [activateDueClient_idle P cfg hidle]
    exact .inl h
  | send nowSec inputs =>
    have hidle : ¬ TakesSlot cfg nowSec c := fun hd => absurd (hd.1.symm.trans h) nofun
    exact hstay (sendDueUpdate_idle P cfg hidle inputs).2.1
  | rxBegin rxNs nowMs data => exact hstay (.inl (beginDatagram_marks P rxNs nowMs data c).2)
  | rxMember signedBundle nowMs r m =>
    exact hstay (handleMember_suspends P cfg signedBundle nowMs r m c).state
  | rxEnd ok => exact hstay (endDatagram_suspends ok c).state

end Run

/-- An activation: its time, and the chunk the client starts in. -/
structure Activation where
  time : Int
  chunk : Vec Int

/-- An UNAUTHORIZED reply: the readings it was classified with, and the chunk it came in. -/
structure Refusal where
  times : Readings
  chunk : Vec Int

/-- What happened to a client since its latest activation. -/
structure Since where
  activated : Option Activation := none
  /-- The UNAUTHORIZED replies, the latest first. -/
  refusals : List Refusal := []
  /-- The sends that failed since the last one that did not. -/
  failures : Nat := 0

/-- A client and its history. No turn reads the history. -/
structure Life (K : Type*) where
  client : SimClient K
  since : Since := {}

section Life

variable [Field K] [LinearOrder K] [FloorRing K] (P : Platform K) (cfg : Config K)

def Since.next (v : Since) (c : SimClient K) : Turn K → Since
  | .activate now nowSec draws outcome =>
    if Due now c then
      { activated := some ⟨now, (activateDueClient P cfg now nowSec draws outcome c).1.chunk⟩ }
    else v
  | .rxMember _ _ t m =>
    if isRefusal m then { v with refusals := ⟨t, c.chunk⟩ :: v.refusals } else v
  | .send nowSec inputs =>
    match sendResult P cfg nowSec inputs c with
    | some true => { v with failures := 0 }
    | some false => { v with failures := v.failures + 1 }
    | none => v
  | _ => v

def Life.turn (l : Life K) (t : Turn K) : Life K where
  client := (t.run P cfg l.client).1
  since := l.since.next P cfg l.client t

/-- The lives of all clients that start fresh. -/
def lives : System (Life K) (Turn K) where
  init l := ∃ creds activateAt, l = { client := SimClient.fresh creds activateAt }
  step l t l' := l' = l.turn P cfg t

end Life

end CksLoadtest.Worker
