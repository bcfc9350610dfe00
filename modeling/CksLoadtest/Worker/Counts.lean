import CksLoadtest.Worker.Life

/-!
# Which counters a worker raises

The refreshes, the reassignments and their failures are counted by the control thread alone: no
turn of a client raises one of these counters.
-/
namespace CksLoadtest

/-- The counters of the control thread. -/
def Counter.ofControl : Counter → Bool
  | .tokenRefreshes | .refreshesKeptServer | .reassignments | .controlFailures => true
  | _ => false

namespace Worker

open Lib.Buffer

variable {K : Type*}

/-- An effect that leaves the control thread's counters alone. -/
def foreign : Effect K → Bool
  | .count c _ => !c.ofControl
  | _ => true

def Foreign (o : Out K) : Prop := o.2.all foreign = true

variable {c : SimClient K} {o : Out K}

theorem Foreign.after {es : List (Effect K)} (he : es.all foreign = true) (h : Foreign o) :
    Foreign (Worker.after es o) := by
  unfold Foreign Worker.after
  rw [List.all_append, he, h]
  rfl

theorem Foreign.andThen {f : SimClient K → Out K} (h : Foreign o) (hf : Foreign (f o.1)) :
    Foreign (Worker.andThen o f) :=
  .after h hf

theorem closeSocket_foreign (c : SimClient K) : Foreign (closeSocket c) := by
  unfold closeSocket
  split <;> rfl

theorem suspendClient_foreign (kind : Kind) (c : SimClient K) : Foreign (suspendClient kind c) := by
  unfold suspendClient
  split
  · rfl
  · unfold Foreign
    rw [List.all_append, List.all_append, closeSocket_foreign c]
    split <;> rfl

theorem openSocket_foreign (P : Platform K) (cfg : Config K) (o : OpenOutcome) (c : SimClient K) :
    Foreign (openSocket P cfg o c).1 := by
  have hrcvbuf : (if 0 < cfg.socketRcvbufBytes ∧ ¬ o.rcvbuf then
      [Effect.count (K := K) .rcvbufSetFailures 1] else []).all foreign = true := by
    split <;> rfl
  unfold openSocket Foreign
  split
  · rfl
  · cases P.inetPton c.creds.serverIp4 with
    | none => rfl
    | some addr =>
      dsimp only
      split
      · rw [List.cons_append, List.all_cons, List.all_append, hrcvbuf]
        rfl
      · rw [List.all_cons, hrcvbuf]
        rfl

theorem reactToError_foreign (cfg : Config K) (code : UInt8) (c : SimClient K) :
    Foreign (reactToError cfg code c) := by
  unfold reactToError
  split
  · exact suspendClient_foreign _ _
  · split
    · dsimp only
      split
      · exact suspendClient_foreign _ _
      · rfl
    · rfl

theorem classifyRefusal_foreign (cfg : Config K) (t : Readings) (code : UInt8) (c : SimClient K) :
    Foreign (classifyRefusal cfg t code c).1 := by
  unfold classifyRefusal
  split
  · rfl
  · split
    · dsimp only
      split <;> rfl
    · rfl

theorem handleError_foreign (cfg : Config K) (t : Readings) (m : Bytes) (c : SimClient K) :
    Foreign (handleError cfg t m c) := by
  unfold handleError
  split
  · refine .after rfl (.andThen (classifyRefusal_foreign ..) ?_)
    exact reactToError_foreign ..
  · rfl

theorem handleSpatial_foreign (P : Platform K) (cfg : Config K) (nowMs : Int) (m : Bytes)
    (c : SimClient K) : Foreign (handleSpatial P cfg nowMs m c) := by
  unfold handleSpatial Foreign
  split
  · rfl
  · rw [List.all_cons]
    split
    · cases Wire.notificationEpochMs m with
      | none => rfl
      | some epoch =>
        dsimp only
        split <;> rfl
    · cases Wire.notificationEpochMs m with
      | none => rfl
      | some epoch =>
        dsimp only
        split <;> rfl

theorem handleMember_foreign (P : Platform K) (cfg : Config K) (signedBundle : Bool) (nowMs : Int)
    (t : Readings) (m : Bytes) (c : SimClient K) :
    Foreign (handleMember P cfg signedBundle nowMs t m c) := by
  unfold handleMember
  refine .after (by split <;> rfl) ?_
  split
  · exact .after rfl (handleError_foreign ..)
  · split
    · exact .after rfl (suspendClient_foreign ..)
    · split
      · exact handleSpatial_foreign ..
      · rfl

section

variable [Field K] [LinearOrder K] [FloorRing K] (P : Platform K) (cfg : Config K)

omit [LinearOrder K] [FloorRing K] in
theorem beginDatagram_foreign (rxNs nowMs : Int) (data : Bytes) (c : SimClient K) :
    Foreign (beginDatagram P rxNs nowMs data c).1 := by
  unfold beginDatagram
  dsimp only
  split
  · rfl
  · have hbundles : (if Wire.type data = Wire.MESSAGE_BUNDLE then
        [Effect.count (K := K) .rxBundles 1]
        else if decide (Wire.type data = Wire.MESSAGE_BUNDLE_SIGNED) = true then
          [.count .rxSignedBundles 1] else []).all foreign = true := by
      split
      · rfl
      · split <;> rfl
    split
    · unfold Foreign
      rw [List.all_append, List.all_append, hbundles]
      rfl
    · unfold Foreign
      rw [List.all_append, hbundles]
      rfl

theorem transmit_foreign (nowSec : K) (i : SendInputs K) (c : SimClient K) :
    Foreign (transmit P cfg nowSec i c) := by
  unfold transmit
  dsimp only
  split
  · rfl
  · split
    · rfl
    · refine .after rfl ?_
      split
      · exact suspendClient_foreign ..
      · rfl

omit [FloorRing K] in
theorem advertise_foreign (nowSec : K) (sent : Bool) (c : SimClient K) :
    Foreign (advertise P cfg nowSec sent c) := by
  unfold advertise
  split
  · dsimp only
    split
    · unfold Foreign
      cases sent <;> rfl
    · rfl
  · rfl

theorem sendDueUpdate_foreign (nowSec : K) (i : SendInputs K) (c : SimClient K) :
    Foreign (sendDueUpdate P cfg nowSec i c) := by
  unfold sendDueUpdate
  split
  · rfl
  · split
    · exact .after rfl (suspendClient_foreign ..)
    · split
      · rfl
      · refine .andThen ?_ (.andThen (advertise_foreign ..) (transmit_foreign ..))
        unfold requestRefresh
        split <;> rfl

theorem activateDueClient_foreign (now : Int) (nowSec : K) (r : SimClient.Draws K)
    (o : OpenOutcome) (c : SimClient K) :
    Foreign (activateDueClient P cfg now nowSec r o c) := by
  unfold activateDueClient
  split
  · rfl
  · split
    · rfl
    · have hopen := openSocket_foreign P cfg o (resume P cfg now nowSec r c)
      dsimp only
      split
      · unfold Foreign
        rw [List.all_append, hopen]
        rfl
      · exact hopen.andThen (suspendClient_foreign ..)

omit [LinearOrder K] [FloorRing K] in
theorem applyUpdate_foreign (u : Update) (c : SimClient K) : Foreign (applyUpdate cfg u c) := by
  unfold applyUpdate
  split
  · rfl
  · dsimp only
    generalize (if u.creds.gameTokenId ≠ c.creds.gameTokenId then
      SimClient.rebuildTemplate cfg { c with creds := u.creds, refreshRequested := false }
      else { c with creds := u.creds, refreshRequested := false }) = d
    split
    · rfl
    · split
      · unfold Foreign
        rw [List.all_append, closeSocket_foreign d]
        rfl
      · rfl

/-- **No turn of a client raises a counter of the control thread.** -/
theorem Turn.run_foreign (t : Turn K) (c : SimClient K) : Foreign (t.run P cfg c) := by
  cases t with
  | update u => exact applyUpdate_foreign ..
  | activate now nowSec draws outcome => exact activateDueClient_foreign ..
  | send nowSec inputs => exact sendDueUpdate_foreign ..
  | rxBegin rxNs nowMs data => exact beginDatagram_foreign ..
  | rxMember signedBundle nowMs t m => exact handleMember_foreign ..
  | rxEnd ok =>
    unfold Turn.run endDatagram Foreign
    cases ok <;> rfl

end

end Worker

end CksLoadtest
