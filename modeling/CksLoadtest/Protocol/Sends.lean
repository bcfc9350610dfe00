import CksLoadtest.Protocol.Turns
import CksLoadtest.Worker.Sends

/-!
# Datagrams handed to send()

Between two steps every client's socket, template and settle delay belong to the
credentials it holds, so what it sends is addressed and signed with them. Only the
length of the token is nobody's to check: `spatialSign` reads 64 octets.
-/
namespace CksLoadtest.Protocol

open Lib.Buffer Lib.Transition
open Worker (Linked sends)

variable {K : Type*} {n : Nat}

/-- A datagram as the server expects it: from an ACTIVE client, not before the settle
delay, on the socket of the assigned server, signed with the credentials held. -/
structure Sent.WellAddressed (P : Platform K) (d : Sent K n) : Prop where
  active : d.client.state = .active
  settled : d.client.creds.udpReadyAt ≤ d.time
  peer : ∃ addr, P.inetPton d.client.creds.serverIp4 = some addr ∧
    d.client.fd = some ⟨addr, d.client.creds.serverPort⟩
  signed : Wire.SignedFor P d.client.creds.gameTokenId d.client.creds.appToken d.bytes

namespace Sys

/-- The client whose turn it is to send holds a token of 64 octets. -/
def KeyedSends (s : Sys K n) : Event K n → Prop
  | .sendDue w i _ => ∀ c ∈ s.client? w i,
      c.state = .active → c.creds.appToken.length = Hmac.TOKEN_OCTETS
  | _ => True

instance (s : Sys K n) : (e : Event K n) → Decidable (s.KeyedSends e)
  | .sendDue w i _ => inferInstanceAs (Decidable (∀ c ∈ s.client? w i, _ → _))
  | .addClient .. | .startWorker _ | .stopWorker _ | .applyPendingClients _ | .takeInbox _
  | .applyUpdate _ | .tick .. | .activate .. | .rxBegin .. | .rxMember .. | .rxEnd _ | .pop
  | .refresh _ | .place _ | .post | .shutdown | .exit => inferInstanceAs (Decidable True)

structure SendInv (P : Platform K) (cfg : Config K) (s : Sys K n) : Prop where
  now : ∀ w, (s.workers w).now ≤ (s.workers w).clock
  linked : ∀ w, ∀ c ∈ (s.workers w).clients, Linked P cfg (s.workers w).clock c
  sent : ∀ d ∈ s.hist.sent, d.WellAddressed P

theorem sent_effects (w : Fin n) (i : Nat) (es : List (Effect K)) (s : Sys K n) :
    (es.foldl (effect w i) s).hist.sent =
      s.hist.sent ++ (sends es).map fun p => ⟨w, i, p.1, p.2, (s.workers w).clock⟩ := by
  induction es generalizing s with
  | nil => simp [sends]
  | cons e es ih =>
    have hclock : ((effect w i s e).workers w).clock = (s.workers w).clock := by
      cases e <;> rfl
    rw [List.foldl_cons, ih, hclock]
    cases e with
    | send c bytes =>
      rw [show sends (.send c bytes :: es) = (c, bytes) :: sends es from rfl, List.map_cons]
      simp [effect]
    | _ => rfl

theorem sent_commit (s : Sys K n) (w : Fin n) (i : Nat) (o : Worker.Out K) :
    (s.commit w i o).hist.sent =
      s.hist.sent ++ (sends o.2).map fun p => ⟨w, i, p.1, p.2, (s.workers w).clock⟩ := by
  have hclock : ((s.setWorker w ((s.workers w).setClient i o.1)).workers w).clock =
      (s.workers w).clock := by
    show (Function.update s.workers w ((s.workers w).setClient i o.1) w).clock = _
    rw [Function.update_self]
    rfl
  unfold commit
  rw [sent_effects, hclock]
  rfl

theorem commit_clock (s : Sys K n) (w v : Fin n) (i : Nat) (o : Worker.Out K) :
    ((s.commit w i o).workers v).clock = (s.workers v).clock ∧
      ((s.commit w i o).workers v).now = (s.workers v).now := by
  rw [commit_workers, Function.update_apply]
  split
  · rename_i hv
    subst hv
    exact ⟨rfl, rfl⟩
  · exact ⟨rfl, rfl⟩

theorem enroll_clock [Field K] (s : Sys K n) (w v : Fin n) :
    ((s.applyPendingClients w).workers v).clock = (s.workers v).clock ∧
      ((s.applyPendingClients w).workers v).now = (s.workers v).now := by
  rw [enroll_workers]
  split
  · rename_i hv
    subst hv
    exact ⟨rfl, rfl⟩
  · exact ⟨rfl, rfl⟩

section

variable [Field K] [LinearOrder K] [FloorRing K] {P : Platform K} {cfg : Config K}
  {s s' : Sys K n}

/-- **Step lemma.** A turn keeps the client linked, and what it sends is well addressed. -/
theorem turn_linked {w : Fin n} {i : Nat} {c : SimClient K} {e : Event K n} {o : Worker.Out K}
    {clock : Int} (h : Turn P cfg s w i c e o) (hg : s.KeyedSends e)
    (hc : s.client? w i = some c) (hl : Linked P cfg (s.workers w).clock c)
    (hnow : (s.workers w).now ≤ (s.workers w).clock) (hk : (s.workers w).clock ≤ clock) :
    Linked P cfg clock o.1 ∧
      ∀ p ∈ sends o.2, (⟨w, i, p.1, p.2, clock⟩ : Sent K n).WellAddressed P := by
  have hnone : ∀ {es : List (Effect K)}, sends es = [] →
      ∀ p ∈ sends es, (⟨w, i, p.1, p.2, clock⟩ : Sent K n).WellAddressed P := by
    intro es hes p hp
    rw [hes] at hp
    cases hp
  cases h with
  | update hu =>
    obtain ⟨hlink, hs⟩ := Worker.applyUpdate_linked P cfg _ hl
    exact ⟨hlink.later hk, hnone hs⟩
  | activate draws out =>
    obtain ⟨hlink, hs⟩ := Worker.activateDueClient_linked P cfg hnow
      (steadySeconds (s.workers w).nowNs) draws out hl
    exact ⟨hlink.later hk, hnone hs⟩
  | send inputs =>
    obtain ⟨hlink, hsends, hidle⟩ := Worker.sendDueUpdate_linked
      (steadySeconds (s.workers w).nowNs) inputs hl
    refine ⟨hlink.later hk, fun p hp => ?_⟩
    by_cases ha : c.state = .active
    · obtain ⟨hst, hcr, hfd, hsigned⟩ := hsends p.1 p.2 hp
      obtain ⟨peer, hpeer⟩ := Option.isSome_iff_exists.mp (hl.fd.mpr ha)
      obtain ⟨haddr, hport⟩ := hl.peer peer hpeer
      refine ⟨hst.trans ha, ?_, ⟨peer.addr, ?_, ?_⟩, ?_⟩
      · rw [hcr]
        exact (hl.settled ha).trans hk
      · rw [hcr, haddr]
      · rw [hfd, hpeer, hcr, ← hport]
      · rw [hcr]
        exact hsigned (hg c hc ha)
    · exact hnone (hidle ha) p hp
  | rxBegin rxNs nowMs data =>
    obtain ⟨hlink, hs⟩ := (Worker.beginDatagram_suspends P rxNs nowMs data c).linked hl
    exact ⟨hlink.later hk, hnone hs⟩
  | rxMember b nowMs t m =>
    obtain ⟨hlink, hs⟩ := (Worker.handleMember_suspends P cfg b nowMs t m c).linked hl
    exact ⟨hlink.later hk, hnone hs⟩
  | rxEnd ok =>
    obtain ⟨hlink, hs⟩ := (Worker.endDatagram_suspends ok c).linked hl
    exact ⟨hlink.later hk, hnone hs⟩

theorem sendInv_step {e : Event K n} (hs : SendInv P cfg s) (hg : s.KeyedSends e)
    (hm : Moves P cfg e s s') : SendInv P cfg s' := by
  cases hm with
  | same h =>
    refine ⟨fun w => h.now w (hs.now w), fun w c hc => ?_, h.sent ▸ hs.sent⟩
    exact (hs.linked w c (h.clients w ▸ hc)).later (h.clock w)
  | enroll w h =>
    subst h
    refine ⟨fun v => ?_, fun v c hc => ?_, hs.sent⟩
    · rw [(enroll_clock s w v).1, (enroll_clock s w v).2]
      exact hs.now v
    · rw [(enroll_clock s w v).1]
      rw [enroll_clients] at hc
      split at hc
      · rename_i hv
        subst hv
        rcases List.mem_append.mp hc with hc | hc
        · exact hs.linked v c hc
        · obtain ⟨p, -, rfl⟩ := List.mem_map.mp hc
          exact Worker.fresh_linked ..
      · exact hs.linked v c hc
  | @turn w i c o t hc ho ht h =>
    subst h
    obtain ⟨hlink, hsends⟩ := turn_linked ho hg hc (hs.linked w c (List.mem_of_getElem? hc))
      (hs.now w) (ht.clock w)
    refine ⟨fun v => ?_, fun v d hd => ?_, fun d hd => ?_⟩
    · rw [(commit_clock t w v i o).1, (commit_clock t w v i o).2]
      exact ht.now v (hs.now v)
    · rw [(commit_clock t w v i o).1]
      rw [commit_clients] at hd
      split at hd
      · rename_i hv
        subst hv
        rw [ht.clients v] at hd
        rcases List.mem_or_eq_of_mem_set hd with hd | rfl
        · exact (hs.linked v d hd).later (ht.clock v)
        · exact hlink
      · exact (hs.linked v d (ht.clients v ▸ hd)).later (ht.clock v)
    · rw [sent_commit, ht.sent, List.mem_append] at hd
      rcases hd with hd | hd
      · exact hs.sent d hd
      · obtain ⟨p, hp, rfl⟩ := List.mem_map.mp hd
        exact hsends p hp

/-- **What is sent.** In a run where every client that sends holds a 64-octet token,
every datagram is well addressed. -/
theorem datagrams_well_addressed (h : (system P cfg n).GReach KeyedSends s) :
    ∀ d ∈ s.hist.sent, d.WellAddressed P := by
  have hinv : SendInv P cfg s := by
    refine System.GReach.inv (I := SendInv P cfg) ?_ ?_ h
    · rintro _ rfl
      exact ⟨fun _ => le_rfl, fun _ _ hc => absurd hc List.not_mem_nil,
        fun _ hd => absurd hd List.not_mem_nil⟩
    · intro s e s' _ hs hg he
      exact sendInv_step hs hg (step_moves P cfg he)
  exact hinv.sent

end

end Sys

namespace Sample

/-- Like `platform`, with a tag that depends on the key. -/
def keyed : Platform ℚ where
  __ := platform
  hmacSha256 key _ := some (UInt8.ofNat key.length :: List.replicate 31 0)

/-- The run of a client whose first send asks for a refresh, and which is then placed,
activated and sends again, with the token the API hands out. -/
def refreshed (token : Bytes) : List (Event ℚ 1) :=
  started ++ [sends, .pop, refresh { fresh with token := some token }, place, .post] ++
    applies 1 ++ [.tick 0 1000000000000 1000000000000,
      .activate 0 0 draws ⟨true, true, true, true⟩, .tick 0 1001000000000 1001000000000, sends]

end Sample

theorem datagrams_after_refresh : ∃ s : Sys ℚ 1,
    (s.hist.sent.map fun d => d.client.creds.gameTokenId) = [1, 1, 2, 2] ∧
      ∀ d ∈ s.hist.sent, d.WellAddressed Sample.keyed := by
  have hrun : ((System.exec (System.checked (fun s e => decide (s.KeyedSends e))
      (Sys.step Sample.keyed Sample.config)) {} (Sample.refreshed (Sample.token 98))).map
        fun s : Sys ℚ 1 => s.hist.sent.map fun d => d.client.creds.gameTokenId) =
      some [1, 1, 2, 2] := by decide +kernel
  obtain ⟨s, hs, hm⟩ := Option.map_eq_some_iff.mp hrun
  have hr : (system Sample.keyed Sample.config 1).GReach Sys.KeyedSends s :=
    System.GReach.exec (fun _ _ => of_decide_eq_true) (.init rfl) hs
  exact ⟨s, hm, Sys.datagrams_well_addressed hr⟩

/-- `refreshToken` takes a token of 65 octets, and the next send is signed with the first
64 of them. -/
theorem long_token_not_signed : ∃ s : Sys ℚ 1,
    (system Sample.keyed Sample.config 1).Reach s ∧
      ¬ ∀ d ∈ s.hist.sent, d.WellAddressed Sample.keyed := by
  have hrun : ((System.exec (Sys.step Sample.keyed Sample.config) {}
      (Sample.refreshed (Sample.token 98 ++ [98]))).map fun s : Sys ℚ 1 =>
        s.hist.sent.any fun d => Sample.keyed.hmacSha256 d.client.creds.appToken
          (d.bytes.take (Wire.hmacOffset d.bytes) ++ d.client.creds.appToken) ≠
            some (slice d.bytes (Wire.hmacOffset d.bytes) Hmac.TAG_SIZE)) = some true := by
    decide +kernel
  obtain ⟨s, hs, hm⟩ := Option.map_eq_some_iff.mp hrun
  refine ⟨s, System.Reach.exec (.init rfl) hs, fun hall => ?_⟩
  obtain ⟨d, hd, hbad⟩ := List.any_eq_true.mp hm
  exact of_decide_eq_true hbad (hall d hd).signed.hmac

end CksLoadtest.Protocol
