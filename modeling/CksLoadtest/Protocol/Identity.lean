import CksLoadtest.Protocol.Refinement
import CksLoadtest.Protocol.Sequence
import CksLoadtest.Worker.Badge
import CksLoadtest.Worker.Starts

/-!
# Who the server hears

Whatever a worker hands to `send()` for a slot is of the client in that slot and carries its one
uuid, its current token and its place, for the client's whole life: across refreshes,
reassignments and failures.
-/
namespace CksLoadtest.Protocol.Sys

open Lib.Transition
open Worker (Badged From SendsFrom Started)

variable {K : Type*} {n : Nat}

/-- A datagram of the client that is now in the slot it was sent for: the same uuid and the same
global index. -/
def Identified [Field K] (P : Platform K) (cfg : Config K) (s : Sys K n) (d : Sent K n) : Prop :=
  ∃ (c : SimClient K) (uuid : Vector UInt8 32), s.client? d.worker d.slot = some c ∧
    Started c ∧ d.client.uuid = c.uuid ∧ d.client.creds.index = c.creds.index ∧
    uuid.toList = c.uuid ∧ From P cfg uuid d.client d.bytes

structure IdentityInv [Field K] (P : Platform K) (cfg : Config K) (s : Sys K n) : Prop where
  clients : ∀ w i c, s.client? w i = some c → Badged P cfg c
  sent : ∀ d ∈ s.hist.sent, Identified P cfg s d

variable [Field K] [LinearOrder K] [FloorRing K] {P : Platform K} {cfg : Config K} {s s' : Sys K n}

/-- **Step lemma.** A client that has started keeps its place and its uuid. -/
theorem uuid_step {e : Event K n} (h : s.step P cfg e = some s') {w : Fin n} {i : Nat}
    {c : SimClient K} (hc : s.client? w i = some c) (hst : Started c) :
    ∃ d, s'.client? w i = some d ∧ Started d ∧ d.uuid = c.uuid := by
  obtain ⟨d, hd⟩ := Option.isSome_iff_exists.mp (client_stays h (Option.isSome_of_mem hc))
  refine ⟨d, hd, ?_⟩
  rcases client_step h hd with ⟨habsent, -⟩ | ⟨hsame, -⟩ | ⟨c₀, t, hc₀, -, rfl⟩
  · exact absurd (habsent.symm.trans hc) nofun
  · obtain rfl := Option.some.inj (hsame.symm.trans hc)
    exact ⟨hst, rfl⟩
  · obtain rfl := Option.some.inj (hc₀.symm.trans hc)
    exact ⟨t.run_started P cfg hst, t.run_uuid P cfg hst⟩

/-- **Step lemma.** The client in a slot keeps its global index. -/
theorem index_step {e : Event K n} (hr : (system P cfg n).Reach s)
    (hs : s.step P cfg e = some s') {w : Fin n} {i : Nat} {c c' : SimClient K}
    (hc : s.client? w i = some c) (hc' : s'.client? w i = some c') :
    c'.creds.index = c.creds.index := by
  have hplaced {t : Sys K n} (ht : (system P cfg n).Reach t) : t.exchange.Placed :=
    (Exchange.sound_of_reach (exchange_reach (H := fun _ _ => True) P cfg
      (fun _ _ _ => trivial) ht)).placed
  have hslot := (hplaced hr).slots w i _ (slot_of_client hc)
  have hslot' := (hplaced (hr.step hs)).slots w i _ (slot_of_client hc')
  unfold Exchange.indexOf at hslot hslot'
  obtain ⟨creds, hcreds, hindex⟩ := Option.map_eq_some_iff.mp hslot
  rw [(step_exchange P cfg hs).added w,
    List.getElem?_append_left (List.getElem?_eq_some_iff.mp hcreds).1, hslot] at hslot'
  exact (Option.some.inj hslot').symm

/-- What was sent for a client stays identified. -/
theorem Identified.step {e : Event K n} {d : Sent K n} (h : Identified P cfg s d)
    (hr : (system P cfg n).Reach s) (hs : s.step P cfg e = some s') : Identified P cfg s' d := by
  obtain ⟨c, uuid, hc, hst, hsame, hindex, hu, hfrom⟩ := h
  obtain ⟨c', hc', hst', hkept⟩ := uuid_step hs hc hst
  exact ⟨c', uuid, hc', hst', hsame.trans hkept.symm,
    hindex.trans (index_step hr hs hc hc').symm, hu.trans hkept.symm, hfrom⟩

theorem turn_sends {w : Fin n} {i : Nat} {c : SimClient K} {e : Event K n} {o : Worker.Out K}
    (h : Turn P cfg s w i c e o) (hc : Badged P cfg c) : SendsFrom P cfg c o.2 := by
  cases h with
  | @update u _ => exact (Worker.Turn.run_badged (.update u.toUpdate) hc).2
  | activate draws out => exact (Worker.Turn.run_badged (.activate _ _ draws out) hc).2
  | send inputs => exact (Worker.Turn.run_badged (.send _ inputs) hc).2
  | rxBegin rxNs nowMs data => exact (Worker.Turn.run_badged (.rxBegin rxNs nowMs data) hc).2
  | rxMember b nowMs r m => exact (Worker.Turn.run_badged (.rxMember b nowMs r m) hc).2
  | rxEnd ok => exact (Worker.Turn.run_badged (.rxEnd ok) hc).2

/-- **Step lemma.** -/
theorem IdentityInv.step {e : Event K n} (h : IdentityInv P cfg s)
    (hr : (system P cfg n).Reach s) (hs : s.step P cfg e = some s') : IdentityInv P cfg s' where
  clients w i c' hc' := by
    rcases client_step hs hc' with ⟨-, creds, activateAt, rfl⟩ | ⟨hc, -⟩ | ⟨c, t, hc, -, rfl⟩
    · exact .fresh P cfg creds activateAt
    · exact h.clients w i c' hc
    · exact (t.run_badged (h.clients w i c hc)).1
  sent d hd := by
    cases step_moves P cfg hs with
    | same hsame => exact (h.sent d (hsame.sent ▸ hd)).step hr hs
    | enroll w henroll =>
      subst henroll
      exact (h.sent d hd).step hr hs
    | @turn w i c o t hc ho ht hcommit =>
      subst hcommit
      rw [sent_commit, ht.sent, List.mem_append] at hd
      rcases hd with hd | hd
      · exact (h.sent d hd).step hr hs
      · obtain ⟨p, hp, rfl⟩ := List.mem_map.mp hd
        obtain ⟨hst, hsame, hheld, uuid, hu, hfrom⟩ :=
          turn_sends ho (h.clients w i c hc) p.1 p.2 hp
        have hindex : p.1.creds.index = c.creds.index := by rw [hheld]
        exact Identified.step ⟨c, uuid, hc, hst, hsame, hindex, hu, hfrom⟩ hr hs

/-- **One client, one uuid.** -/
theorem sent_identified (h : (system P cfg n).Reach s) :
    ∀ d ∈ s.hist.sent, Identified P cfg s d := by
  have hinv : IdentityInv P cfg s := by
    refine System.Reach.inv (I := IdentityInv P cfg) ?_ (fun _ _ _ hr hi hs => hi.step hr hs) h
    rintro _ rfl
    exact ⟨fun _ _ _ hc => absurd hc nofun, fun _ hd => absurd hd List.not_mem_nil⟩
  exact hinv.sent

end CksLoadtest.Protocol.Sys

namespace CksLoadtest.Protocol

open Lib.Transition

/-- The client of a run sends with its first token, is refreshed, and sends with its second. -/
theorem sent_identified_after_refresh : ∃ s : Sys ℚ 1,
    (s.hist.sent.map fun d => d.client.creds.gameTokenId) = [1, 1, 2, 2] ∧
      ∀ d ∈ s.hist.sent, Sys.Identified Sample.keyed Sample.config s d := by
  have hrun : ((System.exec (Sys.step Sample.keyed Sample.config) {}
      (Sample.refreshed (Sample.token 98))).map fun s : Sys ℚ 1 =>
        s.hist.sent.map fun d => d.client.creds.gameTokenId) = some [1, 1, 2, 2] := by
    decide +kernel
  obtain ⟨s, hs, hm⟩ := Option.map_eq_some_iff.mp hrun
  have hr : (system Sample.keyed Sample.config 1).Reach s := System.Reach.exec (.init rfl) hs
  exact ⟨s, hm, Sys.sent_identified hr⟩

end CksLoadtest.Protocol
