import CksLoadtest.Worker.Requests

/-!
# What a received datagram can do to a client's link

State, credentials, socket, uuid and message are the link of a client. The walk
leaves it alone, and everything a datagram brings either leaves it alone or suspends
the client.
-/
namespace CksLoadtest.Worker

open Lib.Buffer

variable {K : Type*}

def link (c : SimClient K) : State × ClientCredentials × Option Peer × Bytes × Bytes :=
  (c.state, c.creds, c.fd, c.uuid, c.message)

theorem link_parts {c d : SimClient K} (h : link d = link c) :
    d.state = c.state ∧ d.creds = c.creds ∧ d.fd = c.fd ∧ d.uuid = c.uuid ∧
      d.message = c.message := by
  simpa [link] using h

/-- An effect on the event counters only. -/
def plain : Effect K → Bool
  | .count .. | .errorCode _ | .latency _ => true
  | _ => false

@[simp] theorem plain_count (c : Counter) (n : Nat) : plain (.count c n : Effect K) = true := rfl

/-- Functions made of steps that count, and of suspensions. -/
inductive Suspends : SimClient K → Out K → Prop
  | plain {c d : SimClient K} {es : List (Effect K)} (hl : link d = link c)
      (he : es.all plain = true) : Suspends c (d, es)
  | suspend (kind : Kind) (c : SimClient K) : Suspends c (suspendClient kind c)
  | andThen {c : SimClient K} {o : Out K} {f : SimClient K → Out K} :
      Suspends c o → Suspends o.1 (f o.1) → Suspends c (andThen o f)

namespace Suspends

variable {c d : SimClient K} {o : Out K}

theorem of_link (hl : link d = link c) (h : Suspends d o) : Suspends c o :=
  .andThen (o := (d, [])) (f := fun _ => o) (.plain hl rfl) h

theorem after {es : List (Effect K)} (he : es.all Worker.plain = true) (h : Suspends c o) :
    Suspends c (Worker.after es o) :=
  .andThen (o := (c, es)) (f := fun _ => o) (.plain rfl he) h

end Suspends

theorem classifyRefusal_link (cfg : Config K) (t : Readings) (code : UInt8) (c : SimClient K) :
    link (classifyRefusal cfg t code c).1.1 = link c ∧
      (classifyRefusal cfg t code c).1.2.all plain = true := by
  unfold classifyRefusal
  split
  · exact ⟨rfl, rfl⟩
  · split
    · dsimp only
      split
      · dsimp only
        split <;> exact ⟨rfl, rfl⟩
      · exact ⟨rfl, rfl⟩
    · exact ⟨rfl, rfl⟩

theorem logError_link (expected : Bool) (c : SimClient K) :
    link (logError expected c) = link c := by
  unfold logError
  split <;> rfl

theorem reactToError_suspends (cfg : Config K) (code : UInt8) (c : SimClient K) :
    Suspends c (reactToError cfg code c) := by
  unfold reactToError
  split
  · exact .of_link (d := { c with refreshRequested := true }) rfl (.suspend _ _)
  · split
    · dsimp only
      split
      · exact .of_link (d := { c with unauthorizedCount := 0 }) rfl (.suspend _ _)
      · exact .plain rfl rfl
    · exact .plain rfl rfl

theorem handleError_suspends (cfg : Config K) (t : Readings) (m : Bytes) (c : SimClient K) :
    Suspends c (handleError cfg t m c) := by
  match m with
  | [] | [_] | [_, _] => exact .plain rfl rfl
  | _ :: _ :: code :: _ =>
    obtain ⟨hl, he⟩ := classifyRefusal_link cfg t code c
    exact .after rfl (.andThen (.plain hl he)
      (.of_link (logError_link _ _) (reactToError_suspends cfg code _)))

theorem handleMember_suspends (P : Platform K) (cfg : Config K) (signedBundle : Bool)
    (nowMs : Int) (t : Readings) (m : Bytes) (c : SimClient K) :
    Suspends c (handleMember P cfg signedBundle nowMs t m c) := by
  refine .after (by split <;> rfl) ?_
  split
  · exact .after rfl (handleError_suspends cfg t m c)
  · split
    · exact .after rfl (.suspend _ _)
    · split
      · unfold handleSpatial
        split
        · exact .plain rfl rfl
        · refine .plain rfl ?_
          rw [List.all_cons, plain_count, Bool.true_and]
          split
          · split <;> rfl
          · rfl
      · exact .plain rfl rfl

theorem beginDatagram_suspends [Field K] (P : Platform K) (rxNs nowMs : Int) (data : Bytes)
    (c : SimClient K) : Suspends c (beginDatagram P rxNs nowMs data c).1 := by
  have hb : ∀ (a b : Prop) [Decidable a] [Decidable b],
      (if a then [Effect.count (K := K) .rxBundles 1]
        else if b then [.count .rxSignedBundles 1] else []).all plain = true := by
    intro a b _ _
    split
    · rfl
    · split <;> rfl
  unfold beginDatagram
  dsimp only
  split
  · exact .plain rfl rfl
  · split
    · exact .plain rfl (by simp [hb])
    · exact .plain rfl (by simp [hb])

theorem endDatagram_suspends (ok : Bool) (c : SimClient K) : Suspends c (endDatagram ok c) := by
  refine .plain rfl ?_
  split <;> rfl

section

variable [Field K] [LinearOrder K] [FloorRing K] (P : Platform K) (cfg : Config K)

theorem updateWalk_link (r : SimClient.Draws K) (nowSec : K) (c : SimClient K) :
    link (c.updateWalk P cfg r nowSec) = link c := by
  rw [SimClient.updateWalk_moveTo]
  rfl

omit [FloorRing K] in
theorem spawn_link (r : SimClient.Draws K) (nowSec : K) (c : SimClient K) :
    link (c.spawn P cfg r nowSec) = link c := by
  rw [SimClient.spawn_moveTo]
  rfl

/-- Initialising a client writes its uuid and its template, and no other part of the
link. -/
theorem initSimulation_link (r : SimClient.Draws K) (nowSec : K) (c : SimClient K) :
    link (c.initSimulation P cfg r nowSec) =
      (c.state, c.creds, c.fd, SimClient.generateUuid r.uuidA r.uuidB,
        Wire.initActorUpdateTemplateFmt (SimClient.poseFormat cfg)
          (SimClient.generateUuid r.uuidA r.uuidB) cfg.appId c.creds.gameTokenId
          (UInt8.ofNat (cfg.distance % 256).toNat) (UInt8.ofNat (cfg.decay % 256).toNat)) := by
  have hproject : ∀ d : SimClient K, link (d.projectPose cfg) = link d := fun _ => rfl
  obtain ⟨hs, hc, hf, -⟩ := link_parts (spawn_link P cfg r nowSec c)
  unfold SimClient.initSimulation
  rw [hproject]
  unfold SimClient.rebuildTemplate link
  dsimp only
  rw [hs, hc, hf]

end

end CksLoadtest.Worker
