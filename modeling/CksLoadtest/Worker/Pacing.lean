import Mathlib.Algebra.Order.Field.Rat
import Mathlib.Data.Rat.Floor
import Mathlib.Tactic.Linarith
import Mathlib.Tactic.NormNum
import CksLoadtest.Worker.Life

/-!
# Send pacing

A client takes update slots in the passes of its worker's loop. Its `lastSendTime` moves on by
one interval at each slot and is never ahead of the time, which bounds the slots of any stretch
of time; while the client stays ACTIVE and no tick is late it is never more than one interval
behind either.
-/
namespace CksLoadtest.Worker

variable {K : Type*} [Field K] [LinearOrder K]

/-- Seconds between two updates. -/
def interval (cfg : Config K) : K := 1 / (cfg.updateHz : K)

/-- One pass of the loop in `run` for one client: the updates and datagrams since the previous
pass, then activation and sends with one reading of the clock. -/
structure Pass (K : Type*) [Field K] [LinearOrder K] where
  asides : List (Turn K)
  between : ∀ t ∈ asides, t.Aside
  now : Int
  nowSec : K
  draws : SimClient.Draws K
  outcome : OpenOutcome
  inputs : SendInputs K
  offset : draws.offset ∈ Set.Ico 0 1

section Run

variable [FloorRing K] (P : Platform K) (cfg : Config K)

/-- The client when `sendDueUpdates` reaches it. -/
def Pass.begun (p : Pass K) (c : SimClient K) : SimClient K :=
  (activateDueClient P cfg p.now p.nowSec p.draws p.outcome (lived P cfg c p.asides)).1

def Pass.run (p : Pass K) (c : SimClient K) : SimClient K :=
  (sendDueUpdate P cfg p.nowSec p.inputs (p.begun P cfg c)).1

/-- Update slots the client takes in a pass. -/
def Pass.slots (p : Pass K) (c : SimClient K) : Nat :=
  if TakesSlot cfg p.nowSec (p.begun P cfg c) then 1 else 0

def runPasses (c : SimClient K) : List (Pass K) → SimClient K
  | [] => c
  | p :: ps => runPasses (p.run P cfg c) ps

/-- Update slots the client takes in a list of passes. -/
def slots (c : SimClient K) : List (Pass K) → Nat
  | [] => 0
  | p :: ps => p.slots P cfg c + slots (p.run P cfg c) ps

/-- The client is ACTIVE before and after the sends of every pass. -/
def ActiveThroughout (c : SimClient K) : List (Pass K) → Prop
  | [] => True
  | p :: ps =>
    (lived P cfg c p.asides).state = .active ∧ (p.run P cfg c).state = .active ∧
      ActiveThroughout (p.run P cfg c) ps

end Run

/-- The time of the last of a list of passes after the time `t`. -/
def lastTick (t : K) : List (Pass K) → K
  | [] => t
  | p :: ps => lastTick p.nowSec ps

/-- The passes' clock readings do not decrease from `t` on. -/
def Ticks (t : K) : List (Pass K) → Prop
  | [] => True
  | p :: ps => t ≤ p.nowSec ∧ Ticks p.nowSec ps

/-- The passes are never more than `d` apart. -/
def Punctual (d t : K) : List (Pass K) → Prop
  | [] => True
  | p :: ps => p.nowSec ≤ t + d ∧ Punctual d p.nowSec ps

/-- The schedule at the time `t`: an ACTIVE client has started, and the pacing clock of one that
has started is not ahead. -/
structure Paced (t : K) (c : SimClient K) : Prop where
  started : c.state = .active → Started c
  past : Started c → c.lastSendTime ≤ t

/-- A time the pacing clock will not be behind when the client takes its next slot. -/
def clockFloor (cfg : Config K) (t : K) (c : SimClient K) : K :=
  if c.uuid.head? = some 0 then t - interval cfg
  else if c.state = .active then c.lastSendTime
  else t

section Floor

variable {cfg : Config K} {t : K} {c : SimClient K}

omit [LinearOrder K] in
theorem clockFloor_fresh (h : ¬ Started c) : clockFloor cfg t c = t - interval cfg :=
  if_pos (not_not.mp h)

theorem clockFloor_active (h : Paced t c) (ha : c.state = .active) :
    clockFloor cfg t c = c.lastSendTime := by
  unfold clockFloor
  rw [if_neg (h.started ha), if_pos ha]

omit [LinearOrder K] in
theorem clockFloor_parked (h : Started c) (ha : c.state ≠ .active) : clockFloor cfg t c = t := by
  unfold clockFloor
  rw [if_neg h, if_neg ha]

variable [IsStrictOrderedRing K]

theorem interval_pos (hz : 1 ≤ cfg.updateHz) : 0 < interval cfg :=
  one_div_pos.mpr (Int.cast_pos.mpr (by omega))

theorem clockFloor_le (hz : 1 ≤ cfg.updateHz) (h : Paced t c) : clockFloor cfg t c ≤ t := by
  have hpos := interval_pos hz
  by_cases hs : Started c
  · by_cases ha : c.state = .active
    · rw [clockFloor_active h ha]
      exact h.past hs
    · rw [clockFloor_parked hs ha]
  · rw [clockFloor_fresh hs]
    linarith

variable (cfg) in
/-- Time passes. -/
theorem Paced.later {t' : K} (h : Paced t c) (ht : t ≤ t') :
    Paced t' c ∧ clockFloor cfg t c ≤ clockFloor cfg t' c := by
  refine ⟨⟨h.started, fun hs => (h.past hs).trans ht⟩, ?_⟩
  unfold clockFloor
  split
  · linarith
  · split
    · exact le_rfl
    · exact ht

end Floor

section Pass

variable [IsStrictOrderedRing K] [FloorRing K] {P : Platform K} {cfg : Config K} {t : K}
  {c : SimClient K}

variable (P) in
/-- **Asides** do not touch the schedule. -/
theorem lived_paced (hz : 1 ≤ cfg.updateHz) {ts : List (Turn K)} (hts : ∀ u ∈ ts, u.Aside)
    (h : Paced t c) :
    Paced t (lived P cfg c ts) ∧ clockFloor cfg t c ≤ clockFloor cfg t (lived P cfg c ts) := by
  obtain ⟨huuid, hlast, hact⟩ := lived_asides P cfg hts c
  have hstarted : Started (lived P cfg c ts) ↔ Started c := by
    unfold Started
    rw [huuid]
  have hnext : Paced t (lived P cfg c ts) :=
    ⟨fun ha => hstarted.mpr (h.started (hact ha)), fun hs => hlast ▸ h.past (hstarted.mp hs)⟩
  refine ⟨hnext, ?_⟩
  by_cases ha : (lived P cfg c ts).state = .active
  · rw [clockFloor_active hnext ha, clockFloor_active h (hact ha), hlast]
  · by_cases hs : Started c
    · rw [clockFloor_parked (hstarted.mpr hs) ha]
      exact clockFloor_le hz h
    · rw [clockFloor_fresh hs, clockFloor_fresh (mt hstarted.mp hs)]

variable (P) in
/-- **Activation** sets the pacing clock to a time inside the last interval. -/
theorem activate_paced (hz : 1 ≤ cfg.updateHz) {r : SimClient.Draws K}
    (hr : r.offset ∈ Set.Ico 0 1) (now : Int) (o : OpenOutcome) (h : Paced t c) :
    Paced t (activateDueClient P cfg now t r o c).1 ∧
      clockFloor cfg t c ≤ clockFloor cfg t (activateDueClient P cfg now t r o c).1 := by
  by_cases hd : Due now c
  · obtain ⟨hm, -⟩ := activateDueClient_due P cfg hd t r o
    obtain ⟨hstart, hresume⟩ := resume_marks P cfg now t r c
    rw [hresume] at hm
    generalize (activateDueClient P cfg now t r o c).1 = d at hm ⊢
    have hpos := interval_pos hz
    have hfresh : Started d := by
      show d.uuid.head? ≠ some 0
      rw [show d.uuid = _ from congrArg Marks.uuid hm]
      exact hstart
    have hlast : d.lastSendTime = if c.uuid.head? = some 0 then
        t - interval cfg + r.offset * interval cfg else t := congrArg Marks.lastSendTime hm
    have hoff : 0 ≤ r.offset * interval cfg ∧ r.offset * interval cfg ≤ interval cfg :=
      ⟨mul_nonneg hr.1 hpos.le, mul_le_of_le_one_left hpos.le hr.2.le⟩
    have hpast : d.lastSendTime ≤ t := by
      rw [hlast]
      split
      · linarith
      · exact le_rfl
    have hnext : Paced t d := ⟨fun _ => hfresh, fun _ => hpast⟩
    refine ⟨hnext, ?_⟩
    by_cases ha : d.state = .active
    · rw [clockFloor_active hnext ha, hlast]
      by_cases hs : Started c
      · rw [if_neg hs]
        exact clockFloor_le hz h
      · rw [clockFloor_fresh hs, if_pos (not_not.mp hs)]
        linarith
    · rw [clockFloor_parked hfresh ha]
      exact clockFloor_le hz h
  · rw [activateDueClient_idle P cfg hd]
    exact ⟨h, le_rfl⟩

variable (P) in
/-- **A slot** raises the pacing clock by an interval or to the time, whichever is later; after
the sends an ACTIVE client is at most one interval behind. -/
theorem send_paced (hz : 1 ≤ cfg.updateHz) (i : SendInputs K) (h : Paced t c) :
    Paced t (sendDueUpdate P cfg t i c).1 ∧
      clockFloor cfg t c + (if TakesSlot cfg t c then interval cfg else 0) ≤
        clockFloor cfg t (sendDueUpdate P cfg t i c).1 ∧
      ((sendDueUpdate P cfg t i c).1.state = .active →
        t - interval cfg ≤ (sendDueUpdate P cfg t i c).1.lastSendTime) := by
  have hpos := interval_pos hz
  by_cases hslot : TakesSlot cfg t c
  · obtain ⟨hm, hs, -⟩ := sendDueUpdate_slot P cfg hslot i
    generalize (sendDueUpdate P cfg t i c).1 = d at hm hs ⊢
    have huuid : d.uuid = c.uuid := congrArg Marks.uuid hm
    have hlast : d.lastSendTime = if interval cfg < t - (c.lastSendTime + interval cfg) then t
        else c.lastSendTime + interval cfg := congrArg Marks.lastSendTime hm
    have hdue : interval cfg ≤ t - c.lastSendTime := hslot.2.2
    have hstart : Started d := by
      unfold Started
      rw [huuid]
      exact h.started hslot.1
    have hraise : c.lastSendTime + interval cfg ≤ d.lastSendTime ∧ d.lastSendTime ≤ t ∧
        t - interval cfg ≤ d.lastSendTime := by
      rw [hlast]
      split
      · exact ⟨by linarith, le_rfl, by linarith⟩
      · rename_i hlate
        exact ⟨le_rfl, by linarith, by linarith⟩
    have hnext : Paced t d := ⟨fun _ => hstart, fun _ => hraise.2.1⟩
    refine ⟨hnext, ?_, fun _ => hraise.2.2⟩
    rw [clockFloor_active h hslot.1, if_pos hslot]
    by_cases ha : d.state = .active
    · rw [clockFloor_active hnext ha]
      exact hraise.1
    · rw [clockFloor_parked hstart ha]
      linarith
  · obtain ⟨hm, hs, hearly⟩ := sendDueUpdate_idle P cfg hslot i
    generalize (sendDueUpdate P cfg t i c).1 = d at hm hs hearly ⊢
    have huuid : d.uuid = c.uuid := congrArg Marks.uuid hm
    have hlast : d.lastSendTime = c.lastSendTime := congrArg Marks.lastSendTime hm
    have hstarted : Started d ↔ Started c := by
      unfold Started
      rw [huuid]
    have hact (ha : d.state = .active) : c.state = .active := by
      rcases hs with hs | hs
      · exact hs ▸ ha
      · exact absurd (hs.symm.trans ha) nofun
    have hnext : Paced t d :=
      ⟨fun ha => hstarted.mpr (h.started (hact ha)), fun hd => hlast ▸ h.past (hstarted.mp hd)⟩
    refine ⟨hnext, ?_, fun ha => ?_⟩
    · rw [if_neg hslot, add_zero]
      by_cases ha : d.state = .active
      · rw [clockFloor_active hnext ha, clockFloor_active h (hact ha), hlast]
      · by_cases hd : Started c
        · rw [clockFloor_parked (hstarted.mpr hd) ha]
          exact clockFloor_le hz h
        · rw [clockFloor_fresh hd, clockFloor_fresh (mt hstarted.mp hd)]
    · have hwait : t - c.lastSendTime < interval cfg := hearly ha
      rw [hlast]
      linarith

/-- **One pass.** -/
theorem Pass.run_paced (hz : 1 ≤ cfg.updateHz) (p : Pass K) (ht : t ≤ p.nowSec)
    (h : Paced t c) :
    Paced p.nowSec (p.run P cfg c) ∧
      clockFloor cfg t c + p.slots P cfg c * interval cfg ≤
        clockFloor cfg p.nowSec (p.run P cfg c) ∧
      ((p.run P cfg c).state = .active →
        p.nowSec - interval cfg ≤ (p.run P cfg c).lastSendTime) := by
  obtain ⟨h₁, hf₁⟩ := lived_paced P hz p.between h
  obtain ⟨h₂, hf₂⟩ := h₁.later cfg ht
  obtain ⟨h₃, hf₃⟩ := activate_paced P hz p.offset p.now p.outcome h₂
  obtain ⟨h₄, hf₄, hlag⟩ := send_paced P hz p.inputs h₃
  have hcount : (p.slots P cfg c : K) * interval cfg =
      if TakesSlot cfg p.nowSec (p.begun P cfg c) then interval cfg else 0 := by
    unfold Pass.slots
    split
    · rw [Nat.cast_one, one_mul]
    · rw [Nat.cast_zero, zero_mul]
  refine ⟨h₄, ?_, hlag⟩
  rw [hcount]
  exact (add_le_add_left ((hf₁.trans hf₂).trans hf₃) _).trans hf₄

/-- **A list of passes.** -/
theorem runPasses_paced (hz : 1 ≤ cfg.updateHz) (ps : List (Pass K)) (ht : Ticks t ps)
    (h : Paced t c) :
    Paced (lastTick t ps) (runPasses P cfg c ps) ∧
      clockFloor cfg t c + slots P cfg c ps * interval cfg ≤
        clockFloor cfg (lastTick t ps) (runPasses P cfg c ps) := by
  induction ps generalizing t c with
  | nil =>
    refine ⟨h, ?_⟩
    rw [slots, Nat.cast_zero, zero_mul, add_zero]
    exact le_rfl
  | cons p ps ih =>
    obtain ⟨h₁, hf₁, -⟩ := p.run_paced (P := P) hz ht.1 h
    obtain ⟨h₂, hf₂⟩ := ih ht.2 h₁
    refine ⟨h₂, ?_⟩
    rw [slots, Nat.cast_add, add_mul, ← add_assoc]
    exact (add_le_add_left hf₁ _).trans hf₂

/-- **On time.** While the client stays ACTIVE and no tick is late, every slot moves the pacing
clock on by exactly one interval. -/
theorem runPasses_steady (hz : 1 ≤ cfg.updateHz) (ps : List (Pass K)) (ht : Ticks t ps)
    (hd : Punctual (interval cfg) t ps) (h : Paced t c) (ha : c.state = .active)
    (hlag : t - interval cfg ≤ c.lastSendTime) (hact : ActiveThroughout P cfg c ps) :
    (runPasses P cfg c ps).lastSendTime =
        c.lastSendTime + slots P cfg c ps * interval cfg ∧
      lastTick t ps - interval cfg ≤ (runPasses P cfg c ps).lastSendTime ∧
      (runPasses P cfg c ps).lastSendTime ≤ lastTick t ps := by
  induction ps generalizing t c with
  | nil =>
    rw [slots, Nat.cast_zero, zero_mul, add_zero]
    exact ⟨rfl, hlag, h.past (h.started ha)⟩
  | cons p ps ih =>
    obtain ⟨hbefore, hafter, hrest⟩ := hact
    obtain ⟨hnext, -, hlag'⟩ := p.run_paced (P := P) hz ht.1 h
    have hstep : (p.run P cfg c).lastSendTime =
        c.lastSendTime + p.slots P cfg c * interval cfg := by
      obtain ⟨-, hkept, -⟩ := lived_asides P cfg p.between c
      have hbegun : p.begun P cfg c = lived P cfg c p.asides := by
        have hidle : ¬ Due p.now (lived P cfg c p.asides) :=
          fun hd => absurd (hbefore.symm.trans hd.1) nofun
        exact congrArg Prod.fst (activateDueClient_idle P cfg hidle _ _ _)
      have hpunctual := hd.1
      unfold Pass.run Pass.slots
      rw [hbegun]
      split
      · rename_i hslot
        have hm := (sendDueUpdate_slot P cfg hslot p.inputs).1
        have hnear : ¬ interval cfg <
            p.nowSec - ((lived P cfg c p.asides).lastSendTime + interval cfg) := by
          rw [hkept]
          linarith
        calc (sendDueUpdate P cfg p.nowSec p.inputs (lived P cfg c p.asides)).1.lastSendTime
            = (paceSend cfg p.nowSec (lived P cfg c p.asides)).lastSendTime :=
              congrArg Marks.lastSendTime hm
          _ = (lived P cfg c p.asides).lastSendTime + interval cfg := if_neg hnear
          _ = c.lastSendTime + ((1 : Nat) : K) * interval cfg := by
              rw [hkept, Nat.cast_one, one_mul]
      · rename_i hslot
        have hm := (sendDueUpdate_idle P cfg hslot p.inputs).1
        rw [Nat.cast_zero, zero_mul, add_zero, ← hkept]
        exact congrArg Marks.lastSendTime hm
    obtain ⟨hsum, hlow, hhigh⟩ := ih ht.2 hd.2 hnext hafter (hlag' hafter) hrest
    refine ⟨?_, hlow, hhigh⟩
    rw [runPasses, hsum, hstep, slots, Nat.cast_add, add_mul, add_assoc]

omit [IsStrictOrderedRing K] in
theorem runPasses_append (c : SimClient K) (ps qs : List (Pass K)) :
    runPasses P cfg c (ps ++ qs) = runPasses P cfg (runPasses P cfg c ps) qs := by
  induction ps generalizing c with
  | nil => rfl
  | cons p ps ih => exact ih _

omit [IsStrictOrderedRing K] [FloorRing K] in
theorem ticks_append {ps qs : List (Pass K)} :
    Ticks t (ps ++ qs) ↔ Ticks t ps ∧ Ticks (lastTick t ps) qs := by
  induction ps generalizing t with
  | nil => exact (and_iff_right trivial).symm
  | cons p ps ih =>
    rw [List.cons_append, Ticks, Ticks, lastTick, ih, and_assoc]

omit [IsStrictOrderedRing K] [FloorRing K] in
theorem fresh_paced (creds : ClientCredentials) (activateAt : Int) :
    Paced t (SimClient.fresh (K := K) creds activateAt) :=
  ⟨fun h => absurd h nofun, fun h => absurd rfl h⟩

/-- **The rate neither bursts nor drifts.** Whatever happened to a client before a tick, the
update slots it takes at the later ticks of a list are at most the intervals between the first
and the last of them and one more; and if it is ACTIVE from the first tick on and no tick is late
by more than an interval, they are at most one fewer, too. -/
theorem slots_paced (hz : 1 ≤ cfg.updateHz) (creds : ClientCredentials) (activateAt : Int)
    (before : List (Pass K)) (first : Pass K) (ps : List (Pass K))
    (ht : Ticks t (before ++ first :: ps)) :
    let c := runPasses P cfg (SimClient.fresh creds activateAt) (before ++ [first])
    let k : K := slots P cfg c ps
    let t₀ := first.nowSec
    let t₁ := lastTick first.nowSec ps
    k ≤ (t₁ - t₀) / interval cfg + 1 ∧
      (c.state = .active → ActiveThroughout P cfg c ps → Punctual (interval cfg) t₀ ps →
        |k - (t₁ - t₀) / interval cfg| ≤ 1) := by
  have hpos := interval_pos hz
  obtain ⟨htb, htf, hts⟩ := ticks_append.mp ht
  obtain ⟨hpaced, -⟩ := runPasses_paced (P := P) hz before htb (fresh_paced creds activateAt)
  obtain ⟨hfirst, -, hlag⟩ := first.run_paced (P := P) hz htf hpaced
  rw [show runPasses P cfg (SimClient.fresh creds activateAt) (before ++ [first]) = _ from
    runPasses_append ..]
  rw [runPasses, runPasses]
  generalize first.run P cfg (runPasses P cfg (SimClient.fresh creds activateAt) before) = c
    at hfirst hlag
  intro c' k t₀ t₁
  obtain ⟨hlast, hraise⟩ := runPasses_paced (P := P) hz ps hts hfirst
  have htop : clockFloor cfg (lastTick first.nowSec ps) (runPasses P cfg c ps) ≤ t₁ :=
    clockFloor_le hz hlast
  have hbottom : t₀ - interval cfg ≤ clockFloor cfg first.nowSec c := by
    by_cases hs : Started c
    · by_cases ha : c.state = .active
      · rw [clockFloor_active hfirst ha]
        exact hlag ha
      · rw [clockFloor_parked hs ha]
        linarith
    · rw [clockFloor_fresh hs]
  constructor
  · have hk : k * interval cfg ≤ t₁ - t₀ + interval cfg := by linarith
    calc k = k * interval cfg / interval cfg := (mul_div_cancel_right₀ k hpos.ne').symm
      _ ≤ (t₁ - t₀ + interval cfg) / interval cfg := div_le_div_of_nonneg_right hk hpos.le
      _ = (t₁ - t₀) / interval cfg + 1 := by rw [add_div, div_self hpos.ne']
  · intro ha hact hd
    obtain ⟨hsum, hlow, hhigh⟩ := runPasses_steady (P := P) hz ps hts hd hfirst ha (hlag ha) hact
    have hstart : c.lastSendTime ≤ t₀ := hfirst.past (hfirst.started ha)
    have hbehind : t₀ - interval cfg ≤ c.lastSendTime := hlag ha
    have hgap : |k * interval cfg - (t₁ - t₀)| ≤ interval cfg :=
      abs_le.mpr ⟨by linarith, by linarith⟩
    calc |k - (t₁ - t₀) / interval cfg|
        = |(k * interval cfg - (t₁ - t₀)) / interval cfg| := by
          rw [sub_div (k * interval cfg), mul_div_cancel_right₀ k hpos.ne']
      _ = |k * interval cfg - (t₁ - t₀)| / interval cfg := by rw [abs_div, abs_of_pos hpos]
      _ ≤ 1 := (div_le_one₀ hpos).mpr hgap

end Pass

namespace Pacing.Sample

def platform : Platform ℚ where
  hmacSha256 _ _ := some (List.replicate Hmac.TAG_SIZE 0)
  behindToken _ _ := 0
  f64 _ := .replicate 8 0
  f32 _ := .replicate 4 0
  -- as the square root on the direction drawn below
  sqrt x := x
  atan2 _ _ := 0
  inetPton _ := some 0

def config : Config ℚ := { walkSpeed := -1, chunkSizeUnits := -1 }

def draws : SimClient.Draws ℚ := ⟨0, 0, 0, 0, 0, ⟨1, 0, 0⟩, 0, 0, 0, 0⟩

def pass (nowSec : ℚ) : Pass ℚ where
  asides := []
  between := fun _ h => absurd h List.not_mem_nil
  now := 1
  nowSec := nowSec
  draws := draws
  outcome := ⟨true, true, true, true⟩
  inputs := ⟨0, 0, draws, true, true⟩
  offset := show (0 : ℚ) ∈ Set.Ico 0 1 from ⟨le_rfl, zero_lt_one⟩

/-- Five ticks in a fifth of a second. -/
def ticks : List (Pass ℚ) := [1 / 20, 1 / 10, 3 / 20, 1 / 5].map pass

end Pacing.Sample

theorem slots_paced_sample :
    let c := runPasses Pacing.Sample.platform Pacing.Sample.config (SimClient.fresh {} 0)
      [Pacing.Sample.pass 0]
    let k : ℚ := slots Pacing.Sample.platform Pacing.Sample.config c Pacing.Sample.ticks
    c.state = .active ∧ k ≤ (1 / 5 - 0) / interval Pacing.Sample.config + 1 ∧
      |k - (1 / 5 - 0) / interval Pacing.Sample.config| ≤ 1 := by
  intro c k
  have hactive : c.state = .active := by decide +kernel
  have hthroughout :
      ActiveThroughout Pacing.Sample.platform Pacing.Sample.config c Pacing.Sample.ticks := by
    refine ⟨?_, ?_, ?_, ?_, ?_, ?_, ?_, ?_, trivial⟩ <;> decide +kernel
  have hpunctual : Punctual (interval Pacing.Sample.config) 0 Pacing.Sample.ticks := by
    refine ⟨?_, ?_, ?_, ?_, trivial⟩ <;> decide +kernel
  have hticks : Ticks 0 ([] ++ Pacing.Sample.pass 0 :: Pacing.Sample.ticks) := by
    refine ⟨?_, ?_, ?_, ?_, ?_, trivial⟩ <;> decide +kernel
  obtain ⟨hmost, hnear⟩ :
      k ≤ (1 / 5 - 0) / interval Pacing.Sample.config + 1 ∧
        (c.state = .active →
          ActiveThroughout Pacing.Sample.platform Pacing.Sample.config c Pacing.Sample.ticks →
          Punctual (interval Pacing.Sample.config) 0 Pacing.Sample.ticks →
          |k - (1 / 5 - 0) / interval Pacing.Sample.config| ≤ 1) :=
    slots_paced (by decide) {} 0 [] (Pacing.Sample.pass 0) Pacing.Sample.ticks hticks
  exact ⟨hactive, hmost, hnear hactive hthroughout hpunctual⟩

example : slots Pacing.Sample.platform Pacing.Sample.config
    (runPasses Pacing.Sample.platform Pacing.Sample.config (SimClient.fresh {} 0)
      [Pacing.Sample.pass 0]) Pacing.Sample.ticks = 2 := by
  decide +kernel

end CksLoadtest.Worker
