import Mathlib.Algebra.BigOperators.Group.List.Basic
import Mathlib.Algebra.Group.Prod
import Mathlib.Tactic.Abel
import CksLoadtest.Worker.Link

/-!
# Gauges and sockets

A worker function moves the two shared gauges and the number of open sockets by as
much as it moves the client: one invariant of the client, that its descriptor is open
exactly when it is ACTIVE, carries this through every function.
-/
namespace CksLoadtest.Worker

open Lib.Buffer

variable {K : Type*}

/-- ACTIVE clients, SUSPENDED clients, open sockets. -/
abbrev Level := Int × Int × Int

/-- What an effect adds to the gauges and to the open sockets. -/
def gaugeStep : Effect K → Level
  | .activeClients d => (d, 0, 0)
  | .suspendedClients d => (0, d, 0)
  | .socketOpened => (0, 0, 1)
  | .socketClosed => (0, 0, -1)
  | _ => 0

def gauges (es : List (Effect K)) : Level := (es.map gaugeStep).sum

/-- What a client counts for. -/
def level (c : SimClient K) : Level :=
  (if c.state = .active then 1 else 0, if c.state = .suspended then 1 else 0,
    if c.fd.isSome then 1 else 0)

/-- One effect on a client's socket; `none` when it opens one over an open one, or
closes one that is not open. -/
def socketStep (isOpen : Bool) : Effect K → Option Bool
  | .socketOpened => if isOpen then none else some true
  | .socketClosed => if isOpen then some false else none
  | _ => some isOpen

def socketRun (isOpen : Bool) (es : List (Effect K)) : Option Bool :=
  es.foldlM socketStep isOpen

/-- An effect that concerns neither a gauge nor a socket. -/
def still : Effect K → Bool
  | .activeClients _ | .suspendedClients _ | .socketOpened | .socketClosed => false
  | _ => true

/-- The descriptor is open exactly when the client is ACTIVE. -/
def FdOk (c : SimClient K) : Prop := c.fd.isSome = true ↔ c.state = .active

/-- The result of a function moves the gauges by what it moves the client, and never
opens a socket over an open one. -/
def Balanced (c : SimClient K) (o : Out K) : Prop :=
  FdOk c → FdOk o.1 ∧ gauges o.2 = level o.1 - level c ∧
    socketRun c.fd.isSome o.2 = some o.1.fd.isSome

@[simp] theorem gauges_nil : gauges ([] : List (Effect K)) = 0 := rfl

@[simp] theorem gauges_cons (e : Effect K) (es : List (Effect K)) :
    gauges (e :: es) = gaugeStep e + gauges es := by simp [gauges]

@[simp] theorem gauges_append (es fs : List (Effect K)) :
    gauges (es ++ fs) = gauges es + gauges fs := by simp [gauges]

theorem socketRun_append (b : Bool) (es fs : List (Effect K)) :
    socketRun b (es ++ fs) = (socketRun b es).bind fun b' => socketRun b' fs :=
  List.foldlM_append ..

theorem still_spec {es : List (Effect K)} (h : es.all still = true) (b : Bool) :
    gauges es = 0 ∧ socketRun b es = some b := by
  induction es with
  | nil => exact ⟨rfl, rfl⟩
  | cons e es ih =>
    rw [List.all_cons, Bool.and_eq_true] at h
    obtain ⟨hg, hr⟩ := ih h.2
    have he : gaugeStep e = 0 ∧ socketStep b e = some b := by
      cases e with
      | activeClients | suspendedClients | socketOpened | socketClosed => cases h.1
      | count | errorCode | latency | push | send => exact ⟨rfl, rfl⟩
    refine ⟨by rw [gauges_cons, he.1, hg, add_zero], ?_⟩
    rw [socketRun, List.foldlM_cons, he.2]
    exact hr

/-- A client that is not ACTIVE has no socket. -/
theorem FdOk.closed {c : SimClient K} (h : FdOk c) (hs : c.state ≠ .active) :
    c.fd.isSome = false := by
  cases hsome : c.fd.isSome with
  | true => exact absurd (h.mp hsome) hs
  | false => rfl

namespace Balanced

variable {c : SimClient K}

/-- A function that leaves state, descriptor and gauges alone. -/
theorem quiet {d : SimClient K} {es : List (Effect K)} (hs : d.state = c.state)
    (hf : d.fd = c.fd) (he : es.all still = true) : Balanced c (d, es) := by
  intro h
  obtain ⟨hg, hr⟩ := still_spec he c.fd.isSome
  refine ⟨by unfold FdOk at h ⊢; rwa [hs, hf], ?_, by rw [hr, hf]⟩
  simp only [hg, level, hs, hf, sub_self]

theorem of_same {d : SimClient K} {o : Out K} (hs : d.state = c.state) (hf : d.fd = c.fd)
    (h : Balanced d o) : Balanced c o := by
  unfold Balanced FdOk level at h ⊢
  rwa [hs, hf] at h

theorem andThen {o : Out K} {f : SimClient K → Out K} (h : Balanced c o)
    (hf : Balanced o.1 (f o.1)) : Balanced c (Worker.andThen o f) := by
  intro hc
  obtain ⟨hfd, hg, hr⟩ := h hc
  obtain ⟨hfd', hg', hr'⟩ := hf hfd
  unfold Worker.andThen Worker.after
  refine ⟨hfd', ?_, ?_⟩
  · rw [gauges_append, hg, hg']
    abel
  · rw [socketRun_append, hr, Option.bind_some, hr']

theorem after {es : List (Effect K)} {o : Out K} (he : es.all still = true) (h : Balanced c o) :
    Balanced c (Worker.after es o) :=
  .andThen (o := (c, es)) (f := fun _ => o) (.quiet rfl rfl he) h

end Balanced

theorem closeSocket_outcome (c : SimClient K) : (closeSocket c).1.fd = none ∧
    gauges (closeSocket c).2 = (0, 0, -if c.fd.isSome then 1 else 0) ∧
    socketRun c.fd.isSome (closeSocket c).2 = some false := by
  unfold closeSocket
  cases hf : c.fd with
  | none => exact ⟨hf, rfl, rfl⟩
  | some p => exact ⟨rfl, rfl, rfl⟩

theorem suspendClient_balanced (kind : Kind) (c : SimClient K) :
    Balanced c (suspendClient kind c) := by
  unfold suspendClient
  split
  · exact .quiet rfl rfl rfl
  · rename_i hs
    intro _
    obtain ⟨hc, hg, hr⟩ := closeSocket_outcome c
    have hgauge : gauges (if c.state = .active then [Effect.activeClients (K := K) (-1)] else []) =
        (-if c.state = .active then 1 else 0, 0, 0) := by split <;> rfl
    have hrun : socketRun false
        (if c.state = .active then [Effect.activeClients (K := K) (-1)] else []) = some false := by
      split <;> rfl
    refine ⟨by simp [hc, FdOk], ?_, ?_⟩
    · simp only [gauges_append, hg, hgauge, level, hc, hs]
      simp [gaugeStep]
    · rw [socketRun_append, socketRun_append, hr, Option.bind_some, hrun, Option.bind_some, hc]
      rfl

/-- Whatever a datagram brings keeps the balance. -/
theorem Suspends.balanced {c : SimClient K} {o : Out K} (h : Suspends c o) : Balanced c o := by
  induction h with
  | plain hl he =>
    have hstill : ∀ e : Effect K, Worker.plain e = true → still e = true := by
      intro e he
      cases e with
      | count | errorCode | latency => rfl
      | activeClients | suspendedClients | socketOpened | socketClosed | push | send => cases he
    have hall := List.all_eq_true.mpr fun e hm => hstill e (List.all_eq_true.mp he e hm)
    exact .quiet (link_parts hl).1 (link_parts hl).2.2.1 hall
  | suspend kind c => exact suspendClient_balanced kind c
  | andThen _ _ ih ih' => exact .andThen ih ih'

section

variable [Field K] [LinearOrder K] [FloorRing K] (P : Platform K) (cfg : Config K)

theorem resume_fd (now : Int) (nowSec : K) (r : SimClient.Draws K) (c : SimClient K) :
    (resume P cfg now nowSec r c).fd = c.fd := by
  unfold resume
  dsimp only
  split
  · exact congrArg (·.2.2.1) (initSimulation_link P cfg r nowSec c)
  · rfl

omit [Field K] [LinearOrder K] [FloorRing K] in
/-- A socket that was opened stays open exactly when `openSocket` succeeds. -/
theorem openSocket_balanced (o : OpenOutcome) (c : SimClient K) (hc : c.fd.isSome = false) :
    (openSocket P cfg o c).1.1.state = c.state ∧
      (openSocket P cfg o c).1.1.fd.isSome = (openSocket P cfg o c).2 ∧
      gauges (openSocket P cfg o c).1.2 = (0, 0, if (openSocket P cfg o c).2 then 1 else 0) ∧
      socketRun false (openSocket P cfg o c).1.2 = some (openSocket P cfg o c).2 := by
  have hb : ∀ b : Prop, [Decidable b] →
      (if b then [Effect.count (K := K) .rcvbufSetFailures 1] else []).all still = true := by
    intro b _
    split <;> rfl
  unfold openSocket
  split
  · exact ⟨rfl, hc, rfl, rfl⟩
  · cases P.inetPton c.creds.serverIp4 with
    | none => exact ⟨rfl, hc, rfl, rfl⟩
    | some addr =>
      obtain ⟨hg, hr⟩ := still_spec (hb (0 < cfg.socketRcvbufBytes ∧ ¬ o.rcvbuf)) true
      dsimp only
      split
      · refine ⟨rfl, hc, ?_, ?_⟩
        · rw [List.cons_append, gauges_cons, gauges_append, hg]
          rfl
        · rw [List.cons_append]
          exact (socketRun_append true _ _).trans (by rw [hr]; rfl)
      · refine ⟨rfl, rfl, ?_, hr⟩
        rw [gauges_cons, hg]
        rfl

theorem activateDueClient_balanced (now : Int) (nowSec : K) (r : SimClient.Draws K)
    (o : OpenOutcome) (c : SimClient K) :
    Balanced c (activateDueClient P cfg now nowSec r o c) := by
  unfold activateDueClient
  split
  · exact .quiet rfl rfl rfl
  · rename_i hw
    have hw : c.state = .waiting := not_not.mp hw
    split
    · exact .quiet rfl rfl rfl
    · have hs : (resume P cfg now nowSec r c).state = .waiting :=
        (congrArg Core.state (resume_core P cfg now nowSec r c)).trans hw
      intro hc
      -- a WAITING client has no socket that the new one would replace
      have hfd : c.fd.isSome = false := hc.closed (by simp [hw])
      obtain ⟨hos, hof, hog, hor⟩ := openSocket_balanced P cfg o (resume P cfg now nowSec r c)
        (by rw [resume_fd, hfd])
      dsimp only
      split
      · rename_i hopen
        rw [hopen] at hof hog hor
        refine ⟨⟨fun _ => rfl, fun _ => hof⟩, ?_, ?_⟩
        · rw [gauges_append, hog]
          simp [level, hw, hfd, hof, gaugeStep]
        · rw [hfd, socketRun_append, hor, hof]
          rfl
      · rename_i hopen
        rw [Bool.not_eq_true] at hopen
        rw [hopen] at hof hog hor
        have hst := hos.trans hs
        refine Balanced.andThen ?_ (suspendClient_balanced _ _) hc
        intro _
        refine ⟨?_, ?_, by rw [hfd, hof]; exact hor⟩
        · simp [FdOk, hof, hst]
        · rw [hog]
          simp [level, hof, hst, hw, hfd]

theorem transmit_balanced (nowSec : K) (i : SendInputs K) (c : SimClient K) :
    Balanced c (transmit P cfg nowSec i c) := by
  have hl : link (c.updateWalk P cfg i.draws nowSec) = link c := updateWalk_link ..
  obtain ⟨hs, -, hf, -⟩ := link_parts hl
  refine .of_same (d := ((c.updateWalk P cfg i.draws nowSec).buildUpdate P cfg i.epochMs).1)
    hs hf ?_
  unfold transmit
  dsimp only
  split
  · exact .quiet rfl rfl rfl
  · split
    · exact .quiet rfl rfl rfl
    · refine .after rfl ?_
      split
      · refine .of_same ?_ ?_ (suspendClient_balanced _ _) <;> rfl
      · exact .quiet rfl rfl rfl

theorem sendDueUpdate_balanced (nowSec : K) (i : SendInputs K) (c : SimClient K) :
    Balanced c (sendDueUpdate P cfg nowSec i c) := by
  unfold sendDueUpdate
  split
  · exact .quiet rfl rfl rfl
  · split
    · exact .after rfl (suspendClient_balanced _ _)
    · split
      · exact .quiet rfl rfl rfl
      · refine .andThen ?_ (.andThen ?_ (transmit_balanced P cfg nowSec i _))
        · refine .of_same (d := paceSend cfg nowSec c) rfl rfl ?_
          unfold requestRefresh
          split <;> exact .quiet rfl rfl rfl
        · unfold advertise
          split
          · dsimp only
            split
            · refine .quiet rfl rfl ?_
              split <;> rfl
            · exact .quiet rfl rfl rfl
          · exact .quiet rfl rfl rfl

omit [LinearOrder K] [FloorRing K] in
theorem applyUpdate_balanced (u : Update) (c : SimClient K) :
    Balanced c (applyUpdate cfg u c) := by
  unfold applyUpdate
  split
  · exact .quiet rfl rfl rfl
  · dsimp only
    generalize hd : (if u.creds.gameTokenId ≠ c.creds.gameTokenId then
      SimClient.rebuildTemplate cfg { c with creds := u.creds, refreshRequested := false }
      else { c with creds := u.creds, refreshRequested := false }) = d
    have hsf : d.state = c.state ∧ d.fd = c.fd := by
      rw [← hd]
      split <;> exact ⟨rfl, rfl⟩
    refine .of_same hsf.1 hsf.2 ?_
    intro hc
    split
    · rename_i hs
      have hs : d.state = .suspended := hsf.1.trans hs
      have hfd : d.fd.isSome = false := hc.closed (by simp [hs])
      refine ⟨by simp [FdOk, hfd], ?_, rfl⟩
      simp [level, hs, hfd, gaugeStep]
    · split
      · rename_i ha
        obtain ⟨hn, hg, hr⟩ := closeSocket_outcome d
        refine ⟨by simp [FdOk, hn], ?_, ?_⟩
        · rw [gauges_append, hg]
          simp [level, ha, hn, hc.mpr ha, gaugeStep]
        · rw [socketRun_append, hr, Option.bind_some, hn]
          rfl
      · exact ⟨hc, by simp, rfl⟩

end

end CksLoadtest.Worker
