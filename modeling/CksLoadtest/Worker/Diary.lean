import Mathlib.Tactic.Linarith
import CksLoadtest.Lib.Trace
import CksLoadtest.Worker.Life

/-!
# What a client builds

A diary of a client: its activations and the datagrams it built, signed or not. The sequence
counter is shared by both builders, and the re-advertise timer is set back on every way into
ACTIVE.
-/
namespace CksLoadtest.Worker

open Lib.Buffer Lib.Trace

variable {K : Type*}

inductive Content where
  | capabilities
  | update
  deriving DecidableEq

/-- A call of `buildCapabilities` or `buildUpdate`. -/
structure Built (K : Type*) where
  content : Content
  nowSec : K
  creds : ClientCredentials
  seq : UInt8
  /-- The datagram; `none` when it could not be signed. -/
  bytes : Option Bytes

inductive Entry (K : Type*) where
  /-- The client is due in `activateDueClients`. -/
  | activated (creds : ClientCredentials)
  | built (b : Built K)

namespace Entry

def built? : Entry K → Option (Built K)
  | .activated _ => none
  | .built b => some b

end Entry

/-- The datagrams of a diary. -/
def datagrams (l : List (Entry K)) : List (Built K) := l.filterMap Entry.built?

/-- The credentials of the latest activation. -/
def held (l : List (Entry K)) : Option ClientCredentials :=
  l.foldl (fun h e => match e with | .activated creds => some creds | .built _ => h) none

/-- The latest CLIENT_CAPABILITIES since the latest activation. -/
def advertised (l : List (Entry K)) : Option (Built K) :=
  l.foldl (fun a e => match e with
    | .activated _ => none
    | .built b => if b.content = .capabilities then some b else a) none

section Concat

variable (l : List (Entry K)) (creds : ClientCredentials) (b : Built K)

@[simp] theorem datagrams_activated : datagrams (l ++ [.activated creds]) = datagrams l := by
  simp [datagrams, Entry.built?]

@[simp] theorem datagrams_built : datagrams (l ++ [.built b]) = datagrams l ++ [b] := by
  simp [datagrams, Entry.built?]

@[simp] theorem held_activated : held (l ++ [.activated creds]) = some creds := by
  simp [held]

@[simp] theorem held_built : held (l ++ [.built b]) = held l := by
  simp [held]

@[simp] theorem advertised_activated : advertised (l ++ [.activated creds]) = none := by
  simp [advertised]

@[simp] theorem advertised_built :
    advertised (l ++ [.built b]) = if b.content = .capabilities then some b else advertised l := by
  simp [advertised]

end Concat

section Builders

variable [Field K] [LinearOrder K] [FloorRing K] (P : Platform K) (cfg : Config K)

/-- The call of `buildCapabilities` in `sendDueUpdates`. -/
def builtCapabilities (nowSec : K) (c : SimClient K) : Built K where
  content := .capabilities
  nowSec := nowSec
  creds := c.creds
  seq := c.sequence
  bytes := Wire.buildCapabilities P cfg.appId c.creds.gameTokenId Wire.CAP_BUNDLE_SIGNED c.sequence
    c.creds.appToken

/-- What `advertise` builds. -/
def advertiseBuilds (nowSec : K) (c : SimClient K) : List (Entry K) :=
  if cfg.clientCaps ∧ (cfg.capsIntervalSec : K) ≤ nowSec - c.lastCapsTime then
    [.built (builtCapabilities P cfg nowSec c)]
  else []

/-- What `transmit` builds. -/
def transmitBuilds (nowSec : K) (i : SendInputs K) (c : SimClient K) : Built K :=
  let built := (c.updateWalk P cfg i.draws nowSec).buildUpdate P cfg i.epochMs
  { content := .update
    nowSec := nowSec
    creds := c.creds
    seq := c.sequence
    bytes := if built.2 then some (built.1.message.take (SimClient.messageSize cfg)) else none }

/-- What a turn adds to the diary. -/
def Turn.entries (c : SimClient K) : Turn K → List (Entry K)
  | .activate now _ _ _ => if Due now c then [.activated c.creds] else []
  | .send nowSec i =>
    if TakesSlot cfg nowSec c then
      advertiseBuilds P cfg nowSec (requestRefresh cfg i.sysNow (paceSend cfg nowSec c)).1 ++
        [.built (transmitBuilds P cfg nowSec i (readyToSend P cfg nowSec i c))]
    else []
  | _ => []

end Builders

section Cadence

/-- The sequence counter and the re-advertise timer. -/
def cadence (c : SimClient K) : UInt8 × K := (c.sequence, c.lastCapsTime)

theorem suspendClient_cadence (kind : Kind) (c : SimClient K) :
    cadence (suspendClient kind c).1 = cadence c := by
  unfold suspendClient closeSocket
  split
  · rfl
  · split <;> rfl

theorem classifyRefusal_cadence (cfg : Config K) (t : Readings) (code : UInt8) (c : SimClient K) :
    cadence (classifyRefusal cfg t code c).1.1 = cadence c := by
  unfold classifyRefusal
  split
  · rfl
  · split
    · dsimp only
      split
      · dsimp only
        split <;> rfl
      · rfl
    · rfl

theorem reactToError_cadence (cfg : Config K) (code : UInt8) (c : SimClient K) :
    cadence (reactToError cfg code c).1 = cadence c := by
  unfold reactToError
  split
  · exact suspendClient_cadence _ _
  · split
    · dsimp only
      split
      · exact suspendClient_cadence _ _
      · rfl
    · rfl

theorem handleError_cadence (cfg : Config K) (t : Readings) (m : Bytes) (c : SimClient K) :
    cadence (handleError cfg t m c).1 = cadence c := by
  match m with
  | [] | [_] | [_, _] => rfl
  | _ :: _ :: code :: _ =>
    have hlog : ∀ (expected : Bool) (d : SimClient K),
        cadence (logError expected d) = cadence d := by
      intro expected d
      unfold logError
      split <;> rfl
    exact (reactToError_cadence cfg code _).trans
      ((hlog _ _).trans (classifyRefusal_cadence cfg t code c))

theorem handleMember_cadence (P : Platform K) (cfg : Config K) (signedBundle : Bool) (nowMs : Int)
    (t : Readings) (m : Bytes) (c : SimClient K) :
    cadence (handleMember P cfg signedBundle nowMs t m c).1 = cadence c := by
  unfold handleMember
  show cadence (if Wire.type m = Wire.GENERIC_ERROR_MESSAGE then _ else _ : Out K).1 = _
  split
  · exact handleError_cadence cfg t m c
  · split
    · exact suspendClient_cadence _ _
    · split
      · show cadence (handleSpatial P cfg nowMs m c).1 = _
        unfold handleSpatial
        split <;> rfl
      · rfl

theorem beginDatagram_cadence [Field K] (P : Platform K) (rxNs nowMs : Int) (data : Bytes)
    (c : SimClient K) : cadence (beginDatagram P rxNs nowMs data c).1.1 = cadence c := by
  unfold beginDatagram
  dsimp only
  split
  · rfl
  · split <;> rfl

variable [Field K] [LinearOrder K] [FloorRing K] (P : Platform K) (cfg : Config K)

omit [LinearOrder K] [FloorRing K] in
/-- An update keeps the counter; a client that is still ACTIVE was not updated. -/
theorem applyUpdate_cadence (u : Update) (c : SimClient K) :
    (applyUpdate cfg u c).1.sequence = c.sequence ∧
      ((applyUpdate cfg u c).1.state = .active → (applyUpdate cfg u c).1 = c) := by
  unfold applyUpdate
  split
  · exact ⟨rfl, fun _ => rfl⟩
  · dsimp only
    generalize hd : (if u.creds.gameTokenId ≠ c.creds.gameTokenId then
      SimClient.rebuildTemplate cfg { c with creds := u.creds, refreshRequested := false }
      else { c with creds := u.creds, refreshRequested := false }) = d
    have hsame : d.sequence = c.sequence := by
      rw [← hd]
      split <;> rfl
    split
    · exact ⟨hsame, nofun⟩
    · split
      · refine ⟨?_, nofun⟩
        show (closeSocket d).1.sequence = c.sequence
        unfold closeSocket
        split <;> exact hsame
      · rename_i hactive
        exact ⟨hsame, fun h => absurd h hactive⟩

/-- An aside builds nothing, and the timer of a client that stays ACTIVE goes on. -/
theorem Turn.Aside.cadence {t : Turn K} (h : t.Aside) (c : SimClient K) :
    (t.run P cfg c).1.sequence = c.sequence ∧
      ((t.run P cfg c).1.state = .active →
        (t.run P cfg c).1.lastCapsTime = c.lastCapsTime ∧ (t.run P cfg c).1.creds = c.creds) := by
  have hsame {o : Out K} (ho : Worker.cadence o.1 = Worker.cadence c) (hs : Suspends c o) :
      o.1.sequence = c.sequence ∧
        (o.1.state = .active → o.1.lastCapsTime = c.lastCapsTime ∧ o.1.creds = c.creds) :=
    ⟨congrArg Prod.fst ho, fun _ => ⟨congrArg Prod.snd ho, hs.creds⟩⟩
  cases t with
  | update u =>
    obtain ⟨hseq, hactive⟩ := applyUpdate_cadence cfg u c
    refine ⟨hseq, fun ha => ?_⟩
    have hc : (Turn.run P cfg (.update u) c).1 = c := hactive ha
    rw [hc]
    exact ⟨rfl, rfl⟩
  | activate | send => exact h.elim
  | rxBegin rxNs nowMs data =>
    exact hsame (beginDatagram_cadence P rxNs nowMs data c)
      (beginDatagram_suspends P rxNs nowMs data c)
  | rxMember signedBundle nowMs r m =>
    exact hsame (handleMember_cadence P cfg signedBundle nowMs r m c)
      (handleMember_suspends P cfg signedBundle nowMs r m c)
  | rxEnd ok => exact hsame rfl (endDatagram_suspends ok c)

theorem resume_cadence (now : Int) (nowSec : K) (r : SimClient.Draws K) (c : SimClient K) :
    cadence (resume P cfg now nowSec r c) =
        (if c.uuid.head? = some 0 then 0 else c.sequence, -1000000000) ∧
      (resume P cfg now nowSec r c).creds = c.creds := by
  unfold resume
  dsimp only
  split
  · exact ⟨rfl, congrArg (fun l => l.2.1) (initSimulation_link P cfg r nowSec c)⟩
  · exact ⟨rfl, rfl⟩

/-- An activation sets the timer back, and the counter only when it is the first one. -/
theorem activateDueClient_cadence {now : Int} {c : SimClient K} (h : Due now c) (nowSec : K)
    (r : SimClient.Draws K) (o : OpenOutcome) :
    cadence (activateDueClient P cfg now nowSec r o c).1 =
        (if c.uuid.head? = some 0 then 0 else c.sequence, -1000000000) ∧
      (activateDueClient P cfg now nowSec r o c).1.creds = c.creds := by
  obtain ⟨hw, ha, hu⟩ := h
  obtain ⟨hcad, hcreds⟩ := resume_cadence P cfg now nowSec r c
  have hopen := (openSocket_link P cfg o (resume P cfg now nowSec r c)).2
  unfold activateDueClient
  rw [if_neg (not_not_intro hw), if_neg (by rw [not_or, not_lt, not_lt]; exact ⟨ha, hu⟩)]
  dsimp only
  split
  · rename_i hok
    rw [if_pos hok] at hopen
    obtain ⟨addr, -, hd⟩ := hopen
    rw [hd]
    exact ⟨hcad, hcreds⟩
  · rename_i hfail
    rw [if_neg hfail] at hopen
    have hsuspended :=
      Suspends.suspend .reassign (openSocket P cfg o (resume P cfg now nowSec r c)).1.1
    refine ⟨(suspendClient_cadence _ _).trans ?_, hsuspended.creds.trans ?_⟩
    · rw [hopen, hcad]
    · rw [hopen, hcreds]

/-- Without a slot nothing is built. -/
theorem sendDueUpdate_idle_cadence {nowSec : K} {c : SimClient K} (h : ¬ TakesSlot cfg nowSec c)
    (i : SendInputs K) :
    cadence (sendDueUpdate P cfg nowSec i c).1 = cadence c ∧
      (sendDueUpdate P cfg nowSec i c).1.creds = c.creds ∧
      sends (sendDueUpdate P cfg nowSec i c).2 = [] := by
  unfold sendDueUpdate
  split
  · exact ⟨rfl, rfl, rfl⟩
  · rename_i ha
    split
    · exact ⟨suspendClient_cadence _ _, (Suspends.suspend .reassign c).creds,
        (suspendClient_link .reassign c).2⟩
    · rename_i hheard
      split
      · exact ⟨rfl, rfl, rfl⟩
      · rename_i hslot
        exact absurd ⟨not_not.mp ha, hheard, not_lt.mp hslot⟩ h

theorem transmit_cadence (nowSec : K) (i : SendInputs K) (c : SimClient K) :
    cadence (transmit P cfg nowSec i c).1 = (c.sequence + 1, c.lastCapsTime) ∧
      (transmit P cfg nowSec i c).1.creds = c.creds := by
  have hwalk : cadence (c.updateWalk P cfg i.draws nowSec) = cadence c ∧
      (c.updateWalk P cfg i.draws nowSec).creds = c.creds := by
    rw [SimClient.updateWalk_moveTo]
    exact ⟨rfl, rfl⟩
  obtain ⟨hcad, hcreds⟩ := hwalk
  have hbuilt : cadence ((c.updateWalk P cfg i.draws nowSec).buildUpdate P cfg i.epochMs).1 =
        (c.sequence + 1, c.lastCapsTime) ∧
      ((c.updateWalk P cfg i.draws nowSec).buildUpdate P cfg i.epochMs).1.creds = c.creds := by
    generalize c.updateWalk P cfg i.draws nowSec = d at hcad hcreds
    have hseq : d.sequence = c.sequence := congrArg Prod.fst hcad
    have htimer : d.lastCapsTime = c.lastCapsTime := congrArg Prod.snd hcad
    refine ⟨?_, hcreds⟩
    rw [← hseq, ← htimer]
    rfl
  unfold transmit
  generalize (c.updateWalk P cfg i.draws nowSec).buildUpdate P cfg i.epochMs = built at hbuilt ⊢
  dsimp only
  split
  · exact hbuilt
  · split
    · exact hbuilt
    · show cadence (if _ then _ else _ : Out K).1 = _ ∧ (if _ then _ else _ : Out K).1.creds = _
      split
      · exact ⟨(suspendClient_cadence _ _).trans hbuilt.1,
          (Suspends.suspend .reassign _).creds.trans hbuilt.2⟩
      · exact hbuilt

end Cadence

/-- A CLIENT_CAPABILITIES for the token id, signed with the token, of these credentials. -/
def Built.Announces (P : Platform K) (cfg : Config K) (creds : ClientCredentials) (b : Built K) :
    Prop :=
  b.content = .capabilities ∧
    b.bytes = Wire.buildCapabilities P cfg.appId creds.gameTokenId Wire.CAP_BUNDLE_SIGNED b.seq
      creds.appToken

theorem builtCapabilities_announces (P : Platform K) (cfg : Config K) (nowSec : K)
    (c : SimClient K) :
    (builtCapabilities P cfg nowSec c).Announces P cfg c.creds := by
  unfold Built.Announces builtCapabilities
  dsimp only
  exact ⟨rfl, rfl⟩

/-- The datagrams carry 0, 1, 2, … modulo 256, each in its last octet. -/
structure Numbered (l : List (Entry K)) : Prop where
  seqs : (datagrams l).map Built.seq = (List.range (datagrams l).length).map UInt8.ofNat
  octets : ∀ b ∈ datagrams l, ∀ bytes ∈ b.bytes, bytes.getLast? = some b.seq

theorem Numbered.built {l : List (Entry K)} (h : Numbered l) {b : Built K}
    (hseq : b.seq = UInt8.ofNat (datagrams l).length)
    (hoctet : ∀ bytes ∈ b.bytes, bytes.getLast? = some b.seq) : Numbered (l ++ [.built b]) := by
  refine ⟨?_, ?_⟩
  · rw [datagrams_built, List.map_append, h.seqs, List.length_append, List.length_singleton,
      List.range_succ, List.map_append, List.map_singleton, List.map_singleton, hseq]
  · rw [datagrams_built]
    exact List.forall_mem_append.mpr ⟨h.octets, List.forall_mem_singleton.mpr hoctet⟩

section Diary

variable [Field K] [LinearOrder K] {P : Platform K} {cfg : Config K}

/-- The latest CLIENT_CAPABILITIES is younger than the interval, or was built just before at the
same time. -/
def Recent (cfg : Config K) (pre : List (Entry K)) (nowSec : K) : Prop :=
  ∃ a, advertised pre = some a ∧
    (nowSec - a.nowSec < (cfg.capsIntervalSec : K) ∨
      a.nowSec = nowSec ∧ pre.getLast? = some (.built a))

/-- A datagram against the diary before it. -/
structure Built.Follows (P : Platform K) (cfg : Config K) (pre : List (Entry K)) (b : Built K) :
    Prop where
  held : Worker.held pre = some b.creds
  announces : b.content = .capabilities → b.Announces P cfg b.creds
  recent : b.content = .update → cfg.clientCaps = true → cfg.capsIntervalSec ≤ 1000000000 →
    Recent cfg pre b.nowSec

/-- The diary lists what was built so far. -/
structure Written (P : Platform K) (cfg : Config K) (c : SimClient K) (l : List (Entry K)) :
    Prop where
  numbered : Numbered l
  sequence : c.sequence = UInt8.ofNat (datagrams l).length
  each : Each (fun pre e => ∀ b ∈ e.built?, b.Follows P cfg pre) l

/-- The diary of an ACTIVE client. -/
structure UpToDate (P : Platform K) (cfg : Config K) (c : SimClient K) (l : List (Entry K)) : Prop
    extends Written P cfg c l where
  held : Worker.held l = some c.creds
  timer : c.lastCapsTime = (advertised l).elim (-1000000000) Built.nowSec

theorem Written.congr {c d : SimClient K} {l : List (Entry K)} (h : Written P cfg c l)
    (hseq : d.sequence = c.sequence) : Written P cfg d l :=
  ⟨h.numbered, hseq.trans h.sequence, h.each⟩

theorem UpToDate.congr {c d : SimClient K} {l : List (Entry K)} (h : UpToDate P cfg c l)
    (hcad : cadence d = cadence c) (hcreds : d.creds = c.creds) : UpToDate P cfg d l :=
  ⟨h.toWritten.congr (congrArg Prod.fst hcad), by rw [h.held, hcreds],
    (congrArg Prod.snd hcad).trans h.timer⟩

/-- One more datagram. -/
theorem UpToDate.built {c d : SimClient K} {l : List (Entry K)} (h : UpToDate P cfg c l)
    {b : Built K}
    (hseq : b.seq = c.sequence) (hoctet : ∀ bytes ∈ b.bytes, bytes.getLast? = some b.seq)
    (hfollows : b.Follows P cfg l) (hd : d.sequence = c.sequence + 1) (hcreds : d.creds = c.creds)
    (htimer : d.lastCapsTime = if b.content = .capabilities then b.nowSec else c.lastCapsTime) :
    UpToDate P cfg d (l ++ [.built b]) := by
  refine ⟨⟨h.numbered.built (hseq.trans h.sequence) hoctet, ?_, h.each.concat ?_⟩, ?_, ?_⟩
  · rw [hd, h.sequence, datagrams_built, List.length_append, List.length_singleton,
      UInt8.ofNat_add]
    rfl
  · rintro _ ⟨⟩
    exact hfollows
  · rw [held_built, h.held, hcreds]
  · rw [advertised_built, htimer]
    split
    · rfl
    · exact h.timer

theorem UpToDate.capabilities {c d : SimClient K} {l : List (Entry K)} (h : UpToDate P cfg c l)
    (nowSec : K) (hcad : cadence d = (c.sequence + 1, nowSec)) (hcreds : d.creds = c.creds) :
    UpToDate P cfg d (l ++ [.built (builtCapabilities P cfg nowSec c)]) := by
  have hannounces := builtCapabilities_announces P cfg nowSec c
  have hseq : (builtCapabilities P cfg nowSec c).seq = c.sequence := rfl
  refine h.built hseq ?_ ⟨h.held, fun _ => hannounces, nofun⟩ (congrArg Prod.fst hcad) hcreds
    (congrArg Prod.snd hcad)
  intro bytes hbytes
  exact Wire.buildCapabilities_last (hannounces.2.symm.trans hbytes)

/-- **Advertising.** Afterwards the capabilities are young enough for an update. -/
theorem UpToDate.advertise [IsStrictOrderedRing K] {c : SimClient K} {l : List (Entry K)}
    (h : UpToDate P cfg c l) {nowSec : K} (hclock : 0 ≤ nowSec) (sent : Bool) :
    UpToDate P cfg (advertise P cfg nowSec sent c).1 (l ++ advertiseBuilds P cfg nowSec c) ∧
      (cfg.clientCaps = true → cfg.capsIntervalSec ≤ 1000000000 →
        Recent cfg (l ++ advertiseBuilds P cfg nowSec c) nowSec) := by
  unfold Worker.advertise advertiseBuilds
  split
  · refine ⟨h.capabilities nowSec ?_ ?_, fun _ _ => ?_⟩
    · dsimp only
      split <;> rfl
    · dsimp only
      split <;> rfl
    · exact ⟨_, advertised_built _ _, .inr ⟨rfl, List.getLast?_concat⟩⟩
  · rename_i hidle
    rw [List.append_nil]
    refine ⟨h, fun hcaps hinterval => ?_⟩
    have hyoung : nowSec - c.lastCapsTime < (cfg.capsIntervalSec : K) :=
      not_le.mp fun hle => hidle ⟨hcaps, hle⟩
    rw [h.timer] at hyoung
    cases hadv : advertised l with
    | none =>
      rw [hadv, Option.elim_none] at hyoung
      have hlimit : (cfg.capsIntervalSec : K) ≤ 1000000000 := by exact_mod_cast hinterval
      linarith
    | some a =>
      rw [hadv, Option.elim_some] at hyoung
      exact ⟨a, hadv, .inl hyoung⟩

/-- An update ends with the number it was built with. -/
theorem transmitBuilds_last [FloorRing K] {clock : Int} {c : SimClient K}
    (h : Linked P cfg clock c) (nowSec : K) (i : SendInputs K) :
    (((c.updateWalk P cfg i.draws nowSec).buildUpdate P cfg i.epochMs).1.message.take
      (SimClient.messageSize cfg)).getLast? = some c.sequence := by
  have hseq : (c.updateWalk P cfg i.draws nowSec).sequence = c.sequence := by
    rw [SimClient.updateWalk_moveTo]
    rfl
  have hmessage := (h.of_link (updateWalk_link P cfg i.draws nowSec c)).message
  rw [← hseq]
  exact Wire.finalize_last _ _ _ _ _ _ _ hmessage

theorem UpToDate.transmit [FloorRing K] {clock : Int} {c : SimClient K} {l : List (Entry K)}
    (h : UpToDate P cfg c l) (hl : Linked P cfg clock c) {nowSec : K} (i : SendInputs K)
    (hrecent : cfg.clientCaps = true → cfg.capsIntervalSec ≤ 1000000000 → Recent cfg l nowSec) :
    UpToDate P cfg (transmit P cfg nowSec i c).1
      (l ++ [.built (transmitBuilds P cfg nowSec i c)]) := by
  obtain ⟨hcad, hcreds⟩ := transmit_cadence P cfg nowSec i c
  have hseq : (transmitBuilds P cfg nowSec i c).seq = c.sequence := rfl
  refine h.built hseq ?_ ⟨h.held, nofun, fun _ => hrecent⟩ (congrArg Prod.fst hcad) hcreds
    (congrArg Prod.snd hcad)
  intro bytes hbytes
  obtain ⟨-, hbytes⟩ := Option.ite_none_right_eq_some.mp hbytes
  rw [← Option.some.inj hbytes]
  exact transmitBuilds_last hl nowSec i

/-- The diary of a client in any state. -/
structure Keeps (P : Platform K) (cfg : Config K) (c : SimClient K) (l : List (Entry K)) :
    Prop where
  linked : ∃ clock, Linked P cfg clock c
  written : Written P cfg c l
  unbuilt : ¬ Started c → datagrams l = []
  active : c.state = .active → UpToDate P cfg c l

theorem Keeps.fresh (creds : ClientCredentials) (activateAt : Int) :
    Keeps P cfg (SimClient.fresh creds activateAt) [] where
  linked := ⟨0, fresh_linked P cfg 0 creds activateAt⟩
  written := ⟨⟨rfl, nofun⟩, rfl, Each.nil⟩
  unbuilt := fun _ => rfl
  active := nofun

/-- A turn that builds nothing. -/
theorem Keeps.rest {c d : SimClient K} {l : List (Entry K)} (h : Keeps P cfg c l)
    (hl : ∃ clock, Linked P cfg clock d) (huuid : d.uuid = c.uuid) (hseq : d.sequence = c.sequence)
    (hactive : d.state = .active → c.state = .active ∧ d.lastCapsTime = c.lastCapsTime ∧
      d.creds = c.creds) : Keeps P cfg d l where
  linked := hl
  written := h.written.congr hseq
  unbuilt := fun hns => h.unbuilt (by unfold Started at hns ⊢; rwa [← huuid])
  active := fun ha => by
    obtain ⟨hca, htimer, hcreds⟩ := hactive ha
    have hc := h.active hca
    exact ⟨h.written.congr hseq, by rw [hc.held, hcreds], htimer.trans hc.timer⟩

variable [FloorRing K]

theorem Turn.run_linked (t : Turn K) {c : SimClient K} (h : ∃ clock, Linked P cfg clock c) :
    ∃ clock, Linked P cfg clock (t.run P cfg c).1 := by
  obtain ⟨clock, h⟩ := h
  cases t with
  | update u => exact ⟨clock, (applyUpdate_linked P cfg u h).1⟩
  | activate now nowSec draws outcome =>
    have hl := h.later (le_max_left clock now)
    exact ⟨_, (activateDueClient_linked P cfg (le_max_right clock now) nowSec draws outcome hl).1⟩
  | send nowSec i => exact ⟨clock, (sendDueUpdate_linked nowSec i h).1⟩
  | rxBegin rxNs nowMs data =>
    exact ⟨clock, ((beginDatagram_suspends P rxNs nowMs data c).linked h).1⟩
  | rxMember signedBundle nowMs r m =>
    exact ⟨clock, ((handleMember_suspends P cfg signedBundle nowMs r m c).linked h).1⟩
  | rxEnd ok => exact ⟨clock, ((endDatagram_suspends ok c).linked h).1⟩

theorem Keeps.activate {c : SimClient K} {l : List (Entry K)} (h : Keeps P cfg c l) {now : Int}
    (hdue : Due now c) (nowSec : K) (r : SimClient.Draws K) (o : OpenOutcome) :
    Keeps P cfg (activateDueClient P cfg now nowSec r o c).1 (l ++ [.activated c.creds]) := by
  obtain ⟨hcad, hcreds⟩ := activateDueClient_cadence P cfg hdue nowSec r o
  have hmarks := (activateDueClient_due P cfg hdue nowSec r o).1
  have hseq : (activateDueClient P cfg now nowSec r o c).1.sequence =
      if c.uuid.head? = some 0 then 0 else c.sequence := congrArg Prod.fst hcad
  have huuid : (activateDueClient P cfg now nowSec r o c).1.uuid =
      (resume P cfg now nowSec r c).uuid := congrArg Marks.uuid hmarks
  have hstarted : Started (activateDueClient P cfg now nowSec r o c).1 := by
    unfold Started
    rw [huuid]
    exact (resume_marks P cfg now nowSec r c).1
  have hwritten : Written P cfg (activateDueClient P cfg now nowSec r o c).1
      (l ++ [.activated c.creds]) := by
    refine ⟨?_, ?_, h.written.each.concat nofun⟩
    · refine ⟨?_, ?_⟩
      · rw [datagrams_activated]
        exact h.written.numbered.seqs
      · rw [datagrams_activated]
        exact h.written.numbered.octets
    · rw [datagrams_activated, hseq]
      split
      · rename_i hfresh
        rw [h.unbuilt (not_not_intro hfresh)]
        rfl
      · exact h.written.sequence
  refine ⟨Turn.run_linked (.activate now nowSec r o) h.linked, hwritten,
    fun hns => absurd hstarted hns, fun _ => ⟨hwritten, ?_, ?_⟩⟩
  · rw [held_activated, hcreds]
  · rw [advertised_activated]
    exact congrArg Prod.snd hcad

theorem Keeps.slot [IsStrictOrderedRing K] {c : SimClient K} {l : List (Entry K)}
    (h : Keeps P cfg c l) {nowSec : K} (hclock : 0 ≤ nowSec) (hslot : TakesSlot cfg nowSec c)
    (i : SendInputs K) :
    Keeps P cfg (sendDueUpdate P cfg nowSec i c).1 (l ++
      (advertiseBuilds P cfg nowSec (requestRefresh cfg i.sysNow (paceSend cfg nowSec c)).1 ++
        [.built (transmitBuilds P cfg nowSec i (readyToSend P cfg nowSec i c))])) := by
  obtain ⟨clock, hl⟩ := h.linked
  have hasked : cadence (requestRefresh cfg i.sysNow (paceSend cfg nowSec c)).1 = cadence c ∧
      link (requestRefresh cfg i.sysNow (paceSend cfg nowSec c)).1 = link c := by
    unfold requestRefresh
    split <;> exact ⟨rfl, rfl⟩
  have hready : link (readyToSend P cfg nowSec i c) = link c :=
    (advertise_sends P cfg nowSec i.capsSent _).1.trans hasked.2
  obtain ⟨hadvertised, hrecent⟩ := ((h.active hslot.1).congr hasked.1
    (link_parts hasked.2).2.1).advertise hclock i.capsSent
  have htransmitted := hadvertised.transmit (hl.of_link hready) i hrecent
  have hrun : (sendDueUpdate P cfg nowSec i c).1 =
      (transmit P cfg nowSec i (readyToSend P cfg nowSec i c)).1 := by
    rw [sendDueUpdate_of_slot P cfg hslot]
    simp only [andThen, after, readyToSend]
  have huuid : (sendDueUpdate P cfg nowSec i c).1.uuid = c.uuid :=
    congrArg Marks.uuid (sendDueUpdate_slot P cfg hslot i).1
  rw [List.append_assoc] at htransmitted
  refine ⟨Turn.run_linked (.send nowSec i) h.linked, ?_, fun hns => absurd (hl.started hslot.1) ?_,
    fun _ => ?_⟩
  · rw [hrun]
    exact htransmitted.toWritten
  · unfold Started at hns ⊢
    rwa [huuid] at hns
  · rw [hrun]
    exact htransmitted

/-- The clock of a send is not negative. -/
def Turn.Timely : Turn K → Prop
  | .send nowSec _ => 0 ≤ nowSec
  | _ => True

/-- **Step lemma.** Every turn keeps the diary. -/
theorem Keeps.turn [IsStrictOrderedRing K] {c : SimClient K} {l : List (Entry K)}
    (h : Keeps P cfg c l) {t : Turn K} (ht : t.Timely) :
    Keeps P cfg (t.run P cfg c).1 (l ++ t.entries P cfg c) := by
  have haside (ha : t.Aside) (hnone : t.entries P cfg c = []) :
      Keeps P cfg (t.run P cfg c).1 (l ++ t.entries P cfg c) := by
    obtain ⟨huuid, -, hactive⟩ := ha.spec P cfg c
    obtain ⟨hseq, hsame⟩ := ha.cadence P cfg c
    rw [hnone, List.append_nil]
    exact h.rest (t.run_linked h.linked) huuid hseq fun hd => ⟨hactive hd, hsame hd⟩
  cases t with
  | activate now nowSec draws outcome =>
    show Keeps P cfg (activateDueClient P cfg now nowSec draws outcome c).1
      (l ++ if Due now c then [.activated c.creds] else [])
    split
    · rename_i hdue
      exact h.activate hdue nowSec draws outcome
    · rename_i hidle
      rw [activateDueClient_idle P cfg hidle, List.append_nil]
      exact h
  | send nowSec i =>
    show Keeps P cfg (sendDueUpdate P cfg nowSec i c).1
      (l ++ if TakesSlot cfg nowSec c then _ else [])
    split
    · rename_i hslot
      exact h.slot ht hslot i
    · rename_i hidle
      rw [List.append_nil]
      obtain ⟨hcad, hcreds, -⟩ := sendDueUpdate_idle_cadence P cfg hidle i
      obtain ⟨hmarks, hstate, -⟩ := sendDueUpdate_idle P cfg hidle i
      refine h.rest (Turn.run_linked (.send nowSec i) h.linked) (congrArg Marks.uuid hmarks)
        (congrArg Prod.fst hcad) fun ha => ⟨?_, congrArg Prod.snd hcad, hcreds⟩
      rcases hstate with hs | hs
      · exact hs ▸ ha
      · exact absurd (hs.symm.trans ha) nofun
  | _ => exact haside trivial rfl

end Diary

section Sends

/-- The datagrams among the entries that could be signed. -/
def signed (l : List (Entry K)) : List Bytes := (datagrams l).filterMap Built.bytes

theorem signed_append (l l' : List (Entry K)) : signed (l ++ l') = signed l ++ signed l' := by
  unfold signed datagrams
  rw [List.filterMap_append, List.filterMap_append]

theorem signed_built (b : Built K) : signed [.built b] = b.bytes.toList := by
  show [b].filterMap Built.bytes = _
  cases hb : b.bytes <;> simp [hb]

theorem sends_cons (c : SimClient K) (bytes : Bytes) {es : List (Effect K)} (h : sends es = []) :
    (sends (.send c bytes :: es)).map Prod.snd = [bytes] := by
  show bytes :: (sends es).map Prod.snd = _
  rw [h]
  rfl

variable [Field K] [LinearOrder K] (P : Platform K) (cfg : Config K)

theorem advertise_signed (nowSec : K) (sent : Bool) (c : SimClient K) :
    (sends (advertise P cfg nowSec sent c).2).map Prod.snd =
      signed (advertiseBuilds P cfg nowSec c) := by
  have hbytes := (builtCapabilities_announces P cfg nowSec c).2
  unfold advertise advertiseBuilds
  split
  · have hcount : sends (if sent then [Effect.count (K := K) .txCapabilities 1] else []) = [] := by
      split <;> rfl
    rw [signed_built, hbytes]
    dsimp only [builtCapabilities]
    split
    · rename_i bytes hb
      rw [sends_cons _ _ hcount, hb]
      rfl
    · rename_i hb
      rw [hb]
      rfl
  · rfl

theorem transmit_signed [FloorRing K] (nowSec : K) (i : SendInputs K) (c : SimClient K) :
    (sends (transmit P cfg nowSec i c).2).map Prod.snd =
      signed [.built (transmitBuilds P cfg nowSec i c)] := by
  obtain ⟨o, -, -, hsends⟩ := transmit_built P cfg nowSec i c
  rw [signed_built, hsends]
  unfold transmitBuilds
  dsimp only
  split <;> rfl

/-- What a turn hands to the socket is what it built and could sign. -/
theorem Turn.signed_entries [FloorRing K] (t : Turn K) (c : SimClient K) :
    (sends (t.run P cfg c).2).map Prod.snd = signed (t.entries P cfg c) := by
  have hnone {es : List (Effect K)} (hes : sends es = []) : (sends es).map Prod.snd = [] := by
    rw [hes]
    rfl
  cases t with
  | update u => exact hnone (applyUpdate_silent cfg u c)
  | activate now nowSec draws outcome =>
    refine (hnone (activateDueClient_silent P cfg now nowSec draws outcome c)).trans ?_
    show [] = signed (if Due now c then [.activated c.creds] else [])
    split <;> rfl
  | send nowSec i =>
    show (sends (sendDueUpdate P cfg nowSec i c).2).map Prod.snd =
      signed (if TakesSlot cfg nowSec c then _ else [])
    split
    · rename_i hslot
      have hasked : sends (requestRefresh cfg i.sysNow (paceSend cfg nowSec c)).2 = [] := by
        unfold requestRefresh
        split <;> rfl
      rw [sendDueUpdate_of_slot P cfg hslot, signed_append,
        ← advertise_signed P cfg nowSec i.capsSent, ← transmit_signed]
      unfold andThen after
      rw [sends_append, sends_append, hasked, List.nil_append, List.map_append]
      rfl
    · rename_i hidle
      exact hnone (sendDueUpdate_idle_cadence P cfg hidle i).2.2
  | rxBegin rxNs nowMs data =>
    exact hnone (beginDatagram_suspends P rxNs nowMs data c).silent
  | rxMember signedBundle nowMs r m =>
    exact hnone (handleMember_suspends P cfg signedBundle nowMs r m c).silent
  | rxEnd ok => exact hnone (endDatagram_suspends ok c).silent

end Sends

end CksLoadtest.Worker
