import CksLoadtest.Stats.Cells
import CksLoadtest.Worker.Life

/-!
# What a turn of a client does to the counters

The accesses of a turn in the order the thread makes them. However far a thread is in a turn, it
has counted no bundle without its datagram, no code without its message, no explanation without
its code, no latency without its notification; a whole turn leaves the buckets and the octets
even.
-/
namespace CksLoadtest

open Lib.Buffer Lib.Tally

/-- The accesses of `recordLatencyMs`. -/
def Stats.latencyAtoms (ms : Int) : List Atom :=
  [.latencySample, .latencySum ms.toNat, .latencyMax ms.toNat, .windowLatencyMax ms.toNat,
    .latencyBucket (bucketOf ms.toNat)]

/-- A counter that is only ever weighed on the earning side. -/
def Counter.earns : Counter → Bool
  | .rxBundles | .rxSignedBundles | .unauthorizedFirstContact | .unauthorizedWindowReload
  | .txPackets | .txBytes | .refreshesKeptServer => false
  | _ => true

/-- Performed from any moment on, the accesses keep every balance. -/
structure Stats.Keeps (size : Nat) (l : List Stats.Atom) : Prop where
  safe : ∀ b : Balance, Safe (b.form size).gain 0 l
  even : ∀ b : Balance, b.Even → total (b.form size).gain l = 0

namespace Stats

variable {size : Nat} {l l' : List Atom}

theorem Keeps.append (h : Keeps size l) (h' : Keeps size l') : Keeps size (l ++ l') where
  safe b := (h.safe b).append (h'.safe b)
  even b hb := by rw [total_append, h.even b hb, h'.even b hb, add_zero]

theorem keeps_nil (size : Nat) : Keeps size [] := ⟨fun _ => le_refl 0, fun _ _ => rfl⟩

/-- An access that no balance loses by and no even balance gains by. -/
theorem keeps_cons {a : Atom} (hgain : ∀ b : Balance, 0 ≤ (b.form size).gain a)
    (heven : ∀ b : Balance, b.Even → (b.form size).gain a = 0) (h : Keeps size l) :
    Keeps size (a :: l) where
  safe b := ⟨le_refl 0, (h.safe b).mono (by rw [zero_add]; exact hgain b)⟩
  even b hb := by rw [total_cons, heven b hb, h.even b hb, add_zero]

theorem earns_gain {c : Counter} (hc : c.earns = true) (size n : Nat) (b : Balance) :
    0 ≤ (b.form size).gain (.fetchAdd c n) ∧ (b.Even → (b.form size).gain (.fetchAdd c n) = 0) := by
  have hother : ∀ c' : Counter, c'.earns = false → (c' = c ↔ False) := by
    intro c' hc'
    refine iff_false_intro fun heq => ?_
    rw [heq, hc] at hc'
    cases hc'
  cases b with
  | bundles =>
    simp only [Form.gain, Balance.form, Cell.weight, List.map_cons, List.map_nil, List.sum_cons,
      List.sum_nil, hother .rxBundles rfl, hother .rxSignedBundles rfl, if_false]
    exact ⟨by split <;> omega, fun h => h.elim⟩
  | expected =>
    simp only [Form.gain, Balance.form, Cell.weight, List.map_cons, List.map_nil, List.sum_cons,
      List.sum_nil, hother .unauthorizedFirstContact rfl, hother .unauthorizedWindowReload rfl,
      if_false]
    exact ⟨by omega, fun h => h.elim⟩
  | bytes =>
    simp only [Form.gain, Balance.form, Cell.weight, List.map_cons, List.map_nil, List.sum_cons,
      List.sum_nil, hother .txPackets rfl, hother .txBytes rfl, if_false]
    exact ⟨by omega, fun _ => by omega⟩
  | kept =>
    simp only [Form.gain, Balance.form, Cell.weight, List.map_cons, List.map_nil, List.sum_cons,
      List.sum_nil, hother .refreshesKeptServer rfl, if_false]
    exact ⟨by split <;> omega, fun h => h.elim⟩
  | samples =>
    simp only [Form.gain, Balance.form, Cell.weight, List.map_cons, List.map_nil, List.sum_cons,
      List.sum_nil]
    exact ⟨by split <;> split <;> omega, fun h => h.elim⟩
  | refusals =>
    simp only [Form.gain, Balance.form, Cell.weight, List.map_cons, List.map_nil, List.sum_cons,
      List.sum_nil]
    exact ⟨by split <;> omega, fun h => h.elim⟩
  | buckets =>
    exact ⟨le_refl 0, fun _ => rfl⟩

theorem gauge_gain (size : Nat) (d : ℤ) (b : Balance) :
    (b.form size).gain (.activeClients d) = 0 ∧ (b.form size).gain (.suspendedClients d) = 0 := by
  cases b <;> exact ⟨by simp [Form.gain, Balance.form, Cell.weight],
    by simp [Form.gain, Balance.form, Cell.weight]⟩

/-- The accesses of one operation that belong together, as the balances see them. -/
theorem keeps_of_gains (hsafe : ∀ b : Balance, Safe (b.form size).gain 0 l)
    (hbuckets : total (Balance.buckets.form size).gain l = 0)
    (hbytes : total (Balance.bytes.form size).gain l = 0) : Keeps size l where
  safe := hsafe
  even b hb := by
    cases b with
    | buckets => exact hbuckets
    | bytes => exact hbytes
    | _ => exact hb.elim

end Stats

variable {K : Type*}

namespace Effect

/-- The atomic accesses of an effect. -/
def atoms : Effect K → List Stats.Atom
  | count c n => [.fetchAdd c n]
  | errorCode code => [.addErrorCode code 1]
  | latency ms => Stats.latencyAtoms ms
  | activeClients d => [.activeClients d]
  | suspendedClients d => [.suspendedClients d]
  | socketOpened | socketClosed | push .. | send .. => []

/-- An effect that no balance depends on the company of. -/
def plain : Effect K → Bool
  | count c _ => c.earns
  | errorCode _ | latency _ => false
  | _ => true

end Effect

namespace Worker

def atoms (es : List (Effect K)) : List Stats.Atom := es.flatMap Effect.atoms

theorem atoms_append (es es' : List (Effect K)) : atoms (es ++ es') = atoms es ++ atoms es' :=
  List.flatMap_append ..

/-- The accesses of a function keep every balance. -/
def Coherent (size : Nat) (o : Out K) : Prop := Stats.Keeps size (atoms o.2)

variable {size : Nat} {o : Out K} {es : List (Effect K)}

theorem keeps_of_plain (h : es.all Effect.plain = true) : Stats.Keeps size (atoms es) := by
  induction es with
  | nil => exact Stats.keeps_nil size
  | cons e es ih =>
    rw [List.all_cons, Bool.and_eq_true] at h
    have hrest := ih h.2
    cases e with
    | count c n =>
      have hc := Stats.earns_gain h.1 size n
      exact Stats.keeps_cons (fun b => (hc b).1) (fun b => (hc b).2) hrest
    | errorCode | latency => cases h.1
    | activeClients d =>
      have hd := Stats.gauge_gain size d
      exact Stats.keeps_cons (fun b => (hd b).1.ge) (fun b _ => (hd b).1) hrest
    | suspendedClients d =>
      have hd := Stats.gauge_gain size d
      exact Stats.keeps_cons (fun b => (hd b).2.ge) (fun b _ => (hd b).2) hrest
    | socketOpened | socketClosed | push | send => exact hrest

theorem Coherent.after (he : Stats.Keeps size (atoms es)) (h : Coherent size o) :
    Coherent size (Worker.after es o) := by
  unfold Coherent Worker.after
  rw [atoms_append]
  exact he.append h

theorem Coherent.andThen {f : SimClient K → Out K} (h : Coherent size o)
    (hf : Coherent size (f o.1)) : Coherent size (Worker.andThen o f) :=
  .after h hf

/-! Functions that count nothing two counters share. -/

def Plain (o : Out K) : Prop := o.2.all Effect.plain = true

theorem Plain.coherent (h : Plain o) (size : Nat) : Coherent size o := keeps_of_plain h

theorem Plain.after (he : es.all Effect.plain = true) (h : Plain o) :
    Plain (Worker.after es o) := by
  unfold Plain Worker.after
  rw [List.all_append, he, h]
  rfl

theorem closeSocket_plain (c : SimClient K) : Plain (closeSocket c) := by
  unfold closeSocket
  split <;> rfl

theorem suspendClient_plain (kind : Kind) (c : SimClient K) : Plain (suspendClient kind c) := by
  unfold suspendClient
  split
  · rfl
  · unfold Plain
    rw [List.all_append, List.all_append, closeSocket_plain c]
    split <;> rfl

theorem openSocket_plain (P : Platform K) (cfg : Config K) (o : OpenOutcome) (c : SimClient K) :
    Plain (openSocket P cfg o c).1 := by
  have hrcvbuf : (if 0 < cfg.socketRcvbufBytes ∧ ¬ o.rcvbuf then
      [Effect.count (K := K) .rcvbufSetFailures 1] else []).all Effect.plain = true := by
    split <;> rfl
  unfold openSocket Plain
  split
  · rfl
  · cases P.inetPton c.creds.serverIp4 with
    | none => rfl
    | some addr =>
      dsimp only
      split
      · rw [List.cons_append, List.all_cons, List.all_append, hrcvbuf]
        rfl
      · rw [List.all_cons, hrcvbuf]
        rfl

theorem reactToError_plain (cfg : Config K) (code : UInt8) (c : SimClient K) :
    Plain (reactToError cfg code c) := by
  unfold reactToError
  split
  · apply suspendClient_plain
  · split
    · dsimp only
      split
      · apply suspendClient_plain
      · rfl
    · rfl

section

variable [Field K] [LinearOrder K] [FloorRing K] (P : Platform K) (cfg : Config K)

theorem activateDueClient_plain (now : Int) (nowSec : K) (r : SimClient.Draws K)
    (o : OpenOutcome) (c : SimClient K) : Plain (activateDueClient P cfg now nowSec r o c) := by
  unfold activateDueClient
  split
  · rfl
  · split
    · rfl
    · have hopen := openSocket_plain P cfg o (resume P cfg now nowSec r c)
      dsimp only
      split
      · unfold Plain
        rw [List.all_append, hopen]
        rfl
      · exact .after hopen (suspendClient_plain ..)

omit [LinearOrder K] [FloorRing K] in
theorem applyUpdate_plain (u : Update) (c : SimClient K) : Plain (applyUpdate cfg u c) := by
  unfold applyUpdate
  split
  · rfl
  · dsimp only
    generalize (if u.creds.gameTokenId ≠ c.creds.gameTokenId then
      SimClient.rebuildTemplate cfg { c with creds := u.creds, refreshRequested := false }
      else { c with creds := u.creds, refreshRequested := false }) = d
    split
    · rfl
    · split
      · unfold Plain
        rw [List.all_append, closeSocket_plain d]
        rfl
      · rfl

omit [FloorRing K] in
theorem advertise_plain (nowSec : K) (sent : Bool) (c : SimClient K) :
    Plain (advertise P cfg nowSec sent c) := by
  unfold advertise
  split
  · dsimp only
    split
    · unfold Plain
      cases sent <;> rfl
    · rfl
  · rfl

end

/-! Functions whose counters explain each other. -/

/-- An error message, its code, and what explains an UNAUTHORIZED. -/
theorem code_keeps (size : Nat) {code : UInt8} {es : List (Effect K)}
    (h : es = [] ∨ (code = Wire.ERR_UNAUTHORIZED ∧
      (es = [.count .unauthorizedFirstContact 1] ∨ es = [.count .unauthorizedWindowReload 1]))) :
    Stats.Keeps size (atoms (.count .rxErrorMessages 1 :: .errorCode code :: es)) := by
  have hcode : (7 : Fin 256) = Stats.codeIndex Wire.ERR_UNAUTHORIZED := rfl
  rcases h with rfl | ⟨rfl, rfl | rfl⟩
  · refine Stats.keeps_of_gains (fun b => ?_) rfl rfl
    cases b <;> simp [atoms, Effect.atoms, Safe, Form.gain, Balance.form, Cell.weight]
    split <;> omega
  · refine Stats.keeps_of_gains (fun b => ?_) rfl rfl
    cases b <;> simp [atoms, Effect.atoms, Safe, Form.gain, Balance.form, Cell.weight, ← hcode]
  · refine Stats.keeps_of_gains (fun b => ?_) rfl rfl
    cases b <;> simp [atoms, Effect.atoms, Safe, Form.gain, Balance.form, Cell.weight, ← hcode]

/-- A spatial message, and its latency. -/
theorem spatial_keeps (size : Nat) {c : Counter}
    (hc : c = .rxActorNotifications ∨ c = .rxOtherSpatial) (ms : Int) :
    Stats.Keeps size (atoms [.count (K := K) c 1, .latency ms]) := by
  rcases hc with rfl | rfl
  · refine Stats.keeps_of_gains (fun b => ?_) rfl rfl
    cases b <;> simp [atoms, Effect.atoms, Stats.latencyAtoms, Safe, Form.gain, Balance.form,
      Cell.weight]
  · refine Stats.keeps_of_gains (fun b => ?_) rfl rfl
    cases b <;> simp [atoms, Effect.atoms, Stats.latencyAtoms, Safe, Form.gain, Balance.form,
      Cell.weight]

/-- A datagram, and the bundle it is. -/
theorem datagram_keeps (size n : Nat) {es : List (Effect K)}
    (h : es = [] ∨ es = [.count .rxBundles 1] ∨ es = [.count .rxSignedBundles 1]) :
    Stats.Keeps size (atoms (.count .rxDatagrams 1 :: .count .rxBytes n :: es)) := by
  rcases h with rfl | rfl | rfl
  · exact keeps_of_plain rfl
  · refine Stats.keeps_of_gains (fun b => ?_) rfl rfl
    cases b <;> simp [atoms, Effect.atoms, Safe, Form.gain, Balance.form, Cell.weight]
  · refine Stats.keeps_of_gains (fun b => ?_) rfl rfl
    cases b <;> simp [atoms, Effect.atoms, Safe, Form.gain, Balance.form, Cell.weight]

/-- A packet, and its octets. -/
theorem packet_keeps (size : Nat) :
    Stats.Keeps size (atoms [.count (K := K) .txPackets 1, .count .txBytes size]) := by
  refine Stats.keeps_of_gains (fun b => ?_) rfl ?_
  · cases b <;> simp [atoms, Effect.atoms, Safe, Form.gain, Balance.form, Cell.weight]
  · simp [atoms, Effect.atoms, Form.gain, Balance.form, Cell.weight]

theorem classifyRefusal_explains (cfg : Config K) (t : Readings) (code : UInt8) (c : SimClient K) :
    (classifyRefusal cfg t code c).1.2 = [] ∨
      (code = Wire.ERR_UNAUTHORIZED ∧
        ((classifyRefusal cfg t code c).1.2 = [.count .unauthorizedFirstContact 1] ∨
          (classifyRefusal cfg t code c).1.2 = [.count .unauthorizedWindowReload 1])) := by
  unfold classifyRefusal
  split
  · rename_i hfirst
    exact .inr ⟨hfirst.1, .inl rfl⟩
  · split
    · rename_i hreload
      dsimp only
      split
      · exact .inr ⟨hreload.1, .inr rfl⟩
      · exact .inl rfl
    · exact .inl rfl

theorem handleError_coherent (cfg : Config K) (t : Readings) (m : Bytes) (c : SimClient K) :
    Coherent size (after [.count .rxErrorMessages 1] (handleError cfg t m c)) := by
  unfold handleError
  split
  · rename_i code _
    -- message, code and explanation are one list, what the client does about it is another
    have hcode := code_keeps size (classifyRefusal_explains cfg t code c)
    have hreact := (reactToError_plain cfg code
      (logError (classifyRefusal cfg t code c).2 (classifyRefusal cfg t code c).1.1)).coherent size
    have hsplit := hcode.append hreact
    rw [← atoms_append] at hsplit
    exact hsplit
  · exact keeps_of_plain rfl

theorem handleSpatial_coherent (P : Platform K) (cfg : Config K) (nowMs : Int) (m : Bytes)
    (c : SimClient K) : Coherent size (handleSpatial P cfg nowMs m c) := by
  unfold handleSpatial
  split
  · exact keeps_of_plain rfl
  · dsimp only
    generalize hc : (if Wire.type m = Wire.ACTOR_UPDATE_NOTIFICATION_2 then
      Counter.rxActorNotifications else .rxOtherSpatial) = counter
    have hcounter : counter = .rxActorNotifications ∨ counter = .rxOtherSpatial := by
      rw [← hc]
      split
      · exact .inl rfl
      · exact .inr rfl
    have halone : Stats.Keeps size (atoms [Effect.count (K := K) counter 1]) := by
      rcases hcounter with rfl | rfl <;> exact keeps_of_plain rfl
    cases Wire.notificationEpochMs m with
    | none => exact halone
    | some epoch =>
      dsimp only
      unfold Coherent
      split
      · exact spatial_keeps size hcounter _
      · exact halone

/-- The callback of `handleDatagram`. -/
theorem handleMember_coherent (P : Platform K) (cfg : Config K) (signedBundle : Bool) (nowMs : Int)
    (t : Readings) (m : Bytes) (c : SimClient K) :
    Coherent size (handleMember P cfg signedBundle nowMs t m c) := by
  unfold handleMember
  apply Coherent.after
  · apply keeps_of_plain
    split <;> rfl
  · split
    · apply handleError_coherent
    · split
      · exact .after (keeps_of_plain rfl) ((suspendClient_plain ..).coherent size)
      · split
        · apply handleSpatial_coherent
        · exact Stats.keeps_nil size

section

variable [Field K] [LinearOrder K] [FloorRing K] (P : Platform K) (cfg : Config K)

omit [LinearOrder K] [FloorRing K] in
theorem beginDatagram_coherent (rxNs nowMs : Int) (data : Bytes) (c : SimClient K) :
    Coherent size (beginDatagram P rxNs nowMs data c).1 := by
  unfold beginDatagram
  dsimp only
  split
  · exact keeps_of_plain rfl
  · generalize hb : (if Wire.type data = Wire.MESSAGE_BUNDLE then
        [Effect.count (K := K) .rxBundles 1]
        else if decide (Wire.type data = Wire.MESSAGE_BUNDLE_SIGNED) = true then
          [.count .rxSignedBundles 1] else []) = bundles
    have hbundles : bundles = [] ∨ bundles = [.count .rxBundles 1] ∨
        bundles = [.count .rxSignedBundles 1] := by
      rw [← hb]
      split
      · exact .inr (.inl rfl)
      · split
        · exact .inr (.inr rfl)
        · exact .inl rfl
    have hdatagram := datagram_keeps size data.length hbundles
    unfold Coherent
    split
    · dsimp only
      rw [atoms_append]
      exact hdatagram.append (keeps_of_plain rfl)
    · exact hdatagram

theorem transmit_coherent (nowSec : K) (i : SendInputs K) (c : SimClient K) :
    Coherent (SimClient.messageSize cfg) (transmit P cfg nowSec i c) := by
  unfold transmit
  dsimp only
  split
  · exact keeps_of_plain rfl
  · split
    · exact packet_keeps _
    · refine .after (keeps_of_plain rfl) ?_
      split
      · exact (suspendClient_plain ..).coherent _
      · exact Stats.keeps_nil _

/-- The loop body of `sendDueUpdates`. -/
theorem sendDueUpdate_coherent (nowSec : K) (i : SendInputs K) (c : SimClient K) :
    Coherent (SimClient.messageSize cfg) (sendDueUpdate P cfg nowSec i c) := by
  unfold sendDueUpdate
  split
  · exact Stats.keeps_nil _
  · split
    · exact .after (keeps_of_plain rfl) ((suspendClient_plain ..).coherent _)
    · split
      · exact Stats.keeps_nil _
      · have hrequest : Plain (requestRefresh cfg i.sysNow (paceSend cfg nowSec c)) := by
          unfold requestRefresh
          split <;> rfl
        apply (hrequest.coherent _).andThen
        apply ((advertise_plain ..).coherent _).andThen
        apply transmit_coherent

/-- **No turn of a client breaks a balance**, not even between two of its accesses. -/
theorem Turn.run_coherent (t : Turn K) (c : SimClient K) :
    Coherent (SimClient.messageSize cfg) (t.run P cfg c) := by
  cases t with
  | update u => exact (applyUpdate_plain ..).coherent _
  | activate now nowSec draws outcome => exact (activateDueClient_plain ..).coherent _
  | send nowSec inputs => apply sendDueUpdate_coherent
  | rxBegin rxNs nowMs data => apply beginDatagram_coherent
  | rxMember signedBundle nowMs t m => apply handleMember_coherent
  | rxEnd ok =>
    unfold Turn.run endDatagram Coherent
    cases ok <;> exact keeps_of_plain rfl

end

end Worker

end CksLoadtest
