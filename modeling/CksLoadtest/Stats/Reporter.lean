import Mathlib.Algebra.Order.Field.Basic
import Mathlib.Data.List.Perm.Basic
import CksLoadtest.Stats.Loads
import CksLoadtest.Stats.OneMark

/-!
# The reporter's intervals

`StatsReporter::run` emits the rates of one interval after another, each from a snapshot that is
loaded while the counters grow, against the snapshot before. Nothing is lost between two
intervals and nothing is counted twice: the rates times their durations add up to what was
counted from the first snapshot to the last.
-/
namespace CksLoadtest

open Lib Lib.Transition

/-- The rates of an interval. -/
inductive Rate where
  | txPps
  | txBps
  | rxDps
  | rxBps
  | rxNotifPs

namespace Rate

/-- The counter a rate is the growth of. -/
def counter : Rate → Counter
  | txPps => .txPackets
  | txBps => .txBytes
  | rxDps => .rxDatagrams
  | rxBps => .rxBytes
  | rxNotifPs => .rxActorNotifications

def read {K : Type*} (iv : IntervalRates K) : Rate → K
  | txPps => iv.txPps
  | txBps => iv.txBps
  | rxDps => iv.rxDps
  | rxBps => iv.rxBps
  | rxNotifPs => iv.rxNotifPs

variable {K : Type*} [Field K] [LinearOrder K]

/-- A rate is the growth over the duration. -/
theorem read_rates (rate : Rate) (cur prev : CounterSnap) (dt : K) (epochSec : Nat) :
    rate.read (StatsReporter.rates cur prev dt epochSec) =
      ((cur.count rate.counter - prev.count rate.counter : Nat) : K) /
        (StatsReporter.rates cur prev dt epochSec).dtSec := by
  cases rate <;> rfl

/-- A clock that did not move counts as one second. -/
theorem dtSec_pos [IsStrictOrderedRing K] (cur prev : CounterSnap) (dt : K) (epochSec : Nat) :
    0 < (StatsReporter.rates cur prev dt epochSec).dtSec := by
  show 0 < if dt ≤ 0 then 1 else dt
  split
  · exact one_pos
  · exact not_le.mp ‹_›

end Rate

/-- The load that takes an event counter. -/
def Counter.access (c : Counter) : Access := .lifetime c.load

namespace Rungs

variable {K : Type*}

/-- What the reporter's blobs say of a counter: the rates times their durations. -/
def reported [Field K] (l : List (Reader K)) (rate : Rate) : K :=
  ((l.filter (·.kind = .reporter)).map fun r =>
    rate.read r.blob.interval * r.blob.interval.dtSec).sum

variable [Field K] [LinearOrder K] {s s' : Rungs K}

omit [LinearOrder K] in
theorem reported_snoc (l : List (Reader K)) (r : Reader K) (rate : Rate) :
    reported (l ++ [r]) rate = reported l rate +
      if r.kind = .reporter then rate.read r.blob.interval * r.blob.interval.dtSec else 0 := by
  unfold reported
  rw [List.filter_append, List.map_append, List.sum_append]
  by_cases hr : r.kind = .reporter <;> simp [hr]

theorem access_kind (s : Rungs K) (clock : Clock) (r : Reader K) (a : Access) :
    (s.access clock r a).kind = r.kind := by
  cases a with
  | lifetime k | now k =>
    simp only [access]
    split <;> rfl
  | _ => rfl

/-- What an access does to the lifetime snapshot: it is one of its loads, or nothing. -/
theorem access_lifetime (s : Rungs K) (clock : Clock) (r : Reader K) (a : Access) :
    (∃ k f, a = .lifetime k ∧ Stats.loads[k]? = some f ∧
      (s.access clock r a).blob.lifetime = f s.stats r.blob.lifetime) ∨
    ((s.access clock r a).blob.lifetime = r.blob.lifetime ∧
      ∀ k, a = .lifetime k → Stats.loads.length ≤ k) := by
  cases a with
  | lifetime k =>
    simp only [access]
    split
    · exact .inl ⟨k, _, rfl, ‹_›, rfl⟩
    · rename_i hnone
      refine .inr ⟨rfl, fun j hj => ?_⟩
      cases hj
      exact List.getElem?_eq_none_iff.mp hnone
  | now k =>
    simp only [access]
    split <;> exact .inr ⟨rfl, fun j hj => by cases hj⟩
  | _ => exact .inr ⟨rfl, fun j hj => by cases hj⟩

/-- An access takes the counter it loads, and no other. -/
theorem access_count (s : Rungs K) (clock : Clock) (r : Reader K) (a : Access) (c : Counter) :
    (s.access clock r a).blob.lifetime.count c =
      if a = c.access then s.stats.loadLifetime.count c else r.blob.lifetime.count c := by
  rcases s.access_lifetime clock r a with ⟨k, f, rfl, hf, hlife⟩ | ⟨hlife, hlong⟩
  · rw [hlife, Stats.count_load hf]
    simp only [Counter.access, Access.lifetime.injEq]
  · have hc := Stats.load_lt_length c
    have hother : a ≠ c.access := fun ha => absurd (hlong c.load ha) (by omega)
    rw [hlife, if_neg hother]

/-- Only the reporter's own access and the load of `interval` set the interval. -/
theorem access_interval (s : Rungs K) (clock : Clock) (r : Reader K) {a : Access}
    (hset : a ≠ .setInterval) (hload : a ≠ .interval) :
    (s.access clock r a).blob.interval = r.blob.interval := by
  cases a with
  | setInterval => exact absurd rfl hset
  | interval => exact absurd rfl hload
  | lifetime k | now k =>
    simp only [access]
    split <;> rfl
  | _ => rfl

theorem reporter_program : .interval ∉ ReaderKind.reporter.program ∧
    .setInterval ∈ ReaderKind.reporter.program := by
  constructor <;> simp [ReaderKind.program, loadLifetime, loadWindow]

theorem access_mem (c : Counter) (kind : ReaderKind) : c.access ∈ kind.program :=
  kind.lifetime_mem (Stats.load_lt_length c)

/-- What holds of a thread that puts a blob together; the reporter is measured against its
memory. -/
structure Reads (s : Rungs K) (r : Reader K) : Prop where
  rest : r.todo <:+ r.kind.program
  upto : ∀ c, r.blob.lifetime.count c ≤ s.stats.loadLifetime.count c
  loaded : r.kind = .reporter → ∀ c : Counter, c.access ∉ r.todo →
    s.prev.count c ≤ r.blob.lifetime.count c
  rated : r.kind = .reporter → .setInterval ∉ r.todo →
    ∃ dt epochSec, r.blob.interval = StatsReporter.rates r.blob.lifetime s.prev dt epochSec

theorem Reads.fresh (s : Rungs K) (kind : ReaderKind) : Reads s (Rungs.fresh kind) where
  rest := List.suffix_refl _
  upto c := by
    have hzero : (Rungs.fresh (K := K) kind).blob.lifetime.count c = 0 := by cases c <;> rfl
    omega
  loaded _ c hc := absurd (access_mem c kind) hc
  rated hk hset := by
    obtain rfl : kind = .reporter := hk
    exact absurd reporter_program.2 hset

/-- One access. -/
theorem Reads.access {r : Reader K} {a : Access} {todo : List Access} (h : Reads s r)
    (hprev : ∀ c, s.prev.count c ≤ s.stats.loadLifetime.count c) (ht : r.todo = a :: todo)
    (clock : Clock) : Reads s { s.access clock r a with todo := todo } := by
  have hkind := access_kind s clock r a
  have hsuffix : a :: todo <:+ r.kind.program := ht ▸ h.rest
  refine ⟨?_, fun c => ?_, fun hk c hc => ?_, fun hk hset => ?_⟩
  · exact hkind ▸ (List.suffix_cons a todo).trans hsuffix
  · dsimp only
    rw [access_count]
    split
    · exact le_refl _
    · exact h.upto c
  · dsimp only at hk hc ⊢
    rw [access_count]
    split
    · exact hprev c
    · rename_i ha
      refine h.loaded (hkind ▸ hk) c ?_
      rw [ht, List.mem_cons, not_or]
      exact ⟨fun heq => ha heq.symm, hc⟩
  · dsimp only at hk hset ⊢
    rw [hkind] at hk
    rw [hk] at hsuffix
    have hother : a ≠ .interval := by
      intro ha
      subst ha
      exact reporter_program.1 (hsuffix.subset (List.mem_cons_self ..))
    by_cases ha : a = .setInterval
    · subst ha
      exact ⟨_, _, rfl⟩
    · -- the interval was set before, and all loads of the snapshot came before that
      have hload : a.isLifetime = false := by
        by_contra hl
        obtain ⟨k, rfl⟩ : ∃ k, a = .lifetime k := by
          cases a with
          | lifetime k => exact ⟨k, rfl⟩
          | _ => exact absurd rfl hl
        refine hset (mem_of_suffix hsuffix (ReaderKind.program_ordered _) reporter_program.2
          (fun heq => by cases heq) fun hbefore => ?_)
        cases hbefore.2 rfl
      obtain ⟨dt, epochSec, hrates⟩ := h.rated hk (by
        rw [ht, List.mem_cons, not_or]
        exact ⟨fun heq => ha heq.symm, hset⟩)
      refine ⟨dt, epochSec, ?_⟩
      have hlife : (s.access clock r a).blob.lifetime = r.blob.lifetime := by
        rcases s.access_lifetime clock r a with ⟨k, f, rfl, -, -⟩ | ⟨hlife, -⟩
        · cases hload
        · exact hlife
      rw [access_interval s clock r ha hother, hrates, hlife]

/-- Only the memory and the growth of the counters matter to a thread. -/
theorem Reads.grow {r : Reader K} (h : Reads s r)
    (hcount : ∀ c, s.stats.loadLifetime.count c ≤ s'.stats.loadLifetime.count c)
    (hprev : r.kind = .reporter → s'.prev = s.prev) : Reads s' r where
  rest := h.rest
  upto c := (h.upto c).trans (hcount c)
  loaded hk := hprev hk ▸ h.loaded hk
  rated hk := hprev hk ▸ h.rated hk

/-- The runs from a given start. -/
def runsFrom (s₀ : Rungs K) : System (Rungs K) (RungEvent K) := .ofPartial (· = s₀) step

/-- What the reporter has emitted adds up to what it remembers, since the memory `prev` it
started with. -/
structure Reporting (prev : CounterSnap) (s : Rungs K) : Prop where
  one : (s.readers.map (·.kind)).count .reporter ≤ 1
  remembered : ∀ c, s.prev.count c ≤ s.stats.loadLifetime.count c
  readers : ∀ r ∈ s.readers, Reads s r
  total : ∀ rate : Rate, reported s.emitted rate =
    (s.prev.count rate.counter : K) - (prev.count rate.counter : K)
  lasting : ∀ r ∈ s.emitted, r.kind = .reporter → 0 < r.blob.interval.dtSec

theorem Reporting.init (h : s.Started)
    (hprev : ∀ c, s.prev.count c ≤ s.stats.loadLifetime.count c) : Reporting s.prev s where
  one := by rw [h.readers]; exact Nat.zero_le _
  remembered := hprev
  readers r hr := by
    rw [h.readers] at hr
    cases hr
  total rate := by
    rw [h.emitted, sub_self]
    rfl
  lasting r hr := by
    rw [h.emitted] at hr
    cases hr

variable [IsStrictOrderedRing K]

/-- The reporter emits its blob: the interval spans from its memory to the new snapshot. -/
theorem Reads.emit {r : Reader K} (h : Reads s r) (ht : r.todo = []) (hk : r.kind = .reporter) :
    0 < r.blob.interval.dtSec ∧ ∀ rate : Rate,
      rate.read r.blob.interval * r.blob.interval.dtSec =
        (r.blob.lifetime.count rate.counter : K) - (s.prev.count rate.counter : K) := by
  have hnone : ∀ a : Access, a ∉ r.todo := fun a => ht ▸ List.not_mem_nil
  obtain ⟨dt, epochSec, hrates⟩ := h.rated hk (hnone _)
  have hdt : 0 < r.blob.interval.dtSec := hrates ▸ Rate.dtSec_pos _ _ dt epochSec
  refine ⟨hdt, fun rate => ?_⟩
  have hle := h.loaded hk rate.counter (hnone _)
  rw [hrates] at hdt ⊢
  rw [rate.read_rates, div_mul_cancel₀ _ hdt.ne', Nat.cast_sub hle]

theorem Reporting.step {prev : CounterSnap} {e : RungEvent K} (h : Reporting prev s)
    (hs : s.step e = some s') : Reporting prev s' := by
  have hcount := count_mono hs
  cases step_moves hs with
  | other f hprev hemit hreaders =>
    have hkinds : s'.readers.map (·.kind) = s.readers.map (·.kind) := by
      rw [hreaders, List.map_map]
      rfl
    refine ⟨hkinds ▸ h.one, fun c => ?_, fun r hr => ?_, fun rate => ?_, hemit ▸ h.lasting⟩
    · rw [hprev]
      exact (h.remembered c).trans (hcount c)
    · rw [hreaders] at hr
      obtain ⟨r', hr', rfl⟩ := List.mem_map.mp hr
      have hgrown := (h.readers r' hr').grow hcount fun _ => hprev
      exact ⟨hgrown.rest, hgrown.upto, hgrown.loaded, hgrown.rated⟩
    · rw [hemit, hprev]
      exact h.total rate
  | start kind hone hstart =>
    subst hstart
    refine ⟨?_, h.remembered, fun r hr => ?_, h.total, h.lasting⟩
    · simp only [List.map_append, List.count_append, List.map_cons, List.map_nil]
      by_cases hk : kind = .reporter
      · have hnone : (s.readers.map (·.kind)).count .reporter = 0 := by
          rw [List.count_eq_zero, List.mem_map]
          exact fun ⟨r, hr, hrk⟩ => hone hk r hr hrk
        rw [hnone, zero_add]
        exact List.count_le_length
      · have hnew : [(Rungs.fresh (K := K) kind).kind].count .reporter = 0 := by
          rw [List.count_eq_zero, List.mem_singleton]
          exact fun heq => hk heq.symm
        rw [hnew]
        exact h.one
    · rcases List.mem_append.mp hr with hr | hr
      · exact (h.readers r hr).grow hcount fun _ => rfl
      · rw [List.mem_singleton.mp hr]
        exact .fresh _ kind
  | access i clock r a todo hr ht hstats hprev hemit hreaders =>
    have hmem := List.mem_of_getElem? hr
    have hread := (h.readers r hmem).access h.remembered ht clock
    have hkinds : s'.readers.map (·.kind) = s.readers.map (·.kind) := by
      obtain ⟨hi, rfl⟩ := List.getElem?_eq_some_iff.mp hr
      rw [hreaders, List.map_set, access_kind]
      have hi' : i < (s.readers.map (·.kind)).length := by rwa [List.length_map]
      have hself := List.set_getElem_self hi'
      rwa [List.getElem_map] at hself
    refine ⟨hkinds ▸ h.one, fun c => ?_, fun r' hr' => ?_, fun rate => ?_, hemit ▸ h.lasting⟩
    · rw [hprev]
      exact (h.remembered c).trans (hcount c)
    · rw [hreaders] at hr'
      rcases List.mem_or_eq_of_mem_set hr' with hr' | rfl
      · exact (h.readers r' hr').grow hcount fun _ => hprev
      · exact hread.grow hcount fun _ => hprev
    · rw [hemit, hprev]
      exact h.total rate
  | emit i r hr ht hstats hprev hemit hreaders =>
    obtain ⟨hi, hget⟩ := List.getElem?_eq_some_iff.mp hr
    have hread := h.readers r (List.mem_of_getElem? hr)
    have hperm : (s.readers.map (·.kind)).count .reporter =
        (if r.kind = .reporter then 1 else 0) + (s'.readers.map (·.kind)).count .reporter := by
      have hcons := (List.getElem_cons_eraseIdx_perm hi).map (·.kind)
      rw [← hcons.count_eq, hreaders, List.map_cons, List.count_cons, hget, Nat.add_comm]
      simp only [beq_iff_eq]
    have hone := h.one
    refine ⟨by omega, fun c => ?_, fun r' hr' => ?_, fun rate => ?_, fun r' hr' hk => ?_⟩
    · rw [hprev, hstats]
      split
      · exact hread.upto c
      · exact h.remembered c
    · rw [hreaders] at hr'
      refine (h.readers r' (List.mem_of_mem_eraseIdx hr')).grow hcount fun hk => ?_
      -- the only reporter would be gone
      have hleft : 0 < (s'.readers.map (·.kind)).count .reporter := by
        rw [List.count_pos_iff, hreaders, List.mem_map]
        exact ⟨r', hr', hk⟩
      have hother : r.kind ≠ .reporter := by
        intro hrk
        rw [if_pos hrk] at hperm
        omega
      rw [hprev, if_neg hother]
    · rw [hemit, reported_snoc, h.total rate, hprev]
      by_cases hk : r.kind = .reporter
      · rw [if_pos hk, if_pos hk, (hread.emit ht hk).2 rate]
        ring
      · rw [if_neg hk, if_neg hk, add_zero]
    · rw [hemit] at hr'
      rcases List.mem_append.mp hr' with hr' | hr'
      · exact h.lasting r' hr' hk
      · obtain rfl := List.mem_singleton.mp hr'
        exact (hread.emit ht hk).1

/-- **No packet between two intervals.** However the loads of the reporter, the other readers,
the rungs and the increments interleave: the rates the reporter emitted times their durations add
up to the growth of the counter from the snapshot it started with to the one it remembers, which
is never ahead of the counter. -/
theorem reporter_telescopes {s₀ : Rungs K} (h₀ : s₀.Started)
    (hprev : ∀ c, s₀.prev.count c ≤ s₀.stats.loadLifetime.count c)
    (h : (runsFrom s₀).Reach s) (rate : Rate) :
    reported s.emitted rate =
        (s.prev.count rate.counter : K) - (s₀.prev.count rate.counter : K) ∧
      s.prev.count rate.counter ≤ s.stats.loadLifetime.count rate.counter ∧
      ∀ r ∈ s.emitted, r.kind = .reporter → 0 < r.blob.interval.dtSec := by
  have hinv : Reporting s₀.prev s := by
    refine System.Reach.inv (I := Reporting s₀.prev) ?_ ?_ h
    · rintro _ rfl
      exact .init h₀ hprev
    · exact fun _ _ _ _ hi hs => hi.step hs
  exact ⟨hinv.total rate, hinv.remembered _, hinv.lasting⟩

/-- Two intervals; a packet sent while the first snapshot was loaded. -/
def twoIntervals : List (RungEvent ℚ) :=
  .atom (.fetchAdd .txPackets 5) :: .read .reporter :: .readStep 0 ⟨1, 10⟩ ::
    .atom (.fetchAdd .txPackets 3) ::
      List.replicate ReaderKind.reporter.program.length (.readStep 0 ⟨2000000001, 12⟩) ++
    .read .reporter ::
      List.replicate (ReaderKind.reporter.program.length + 1) (.readStep 0 ⟨6000000001, 16⟩)

/-- The first interval had missed the three packets, and the second has them. -/
theorem reporter_telescopes_two : ∃ s : Rungs ℚ,
    s.emitted.map (fun r => (r.blob.interval.txPps, r.blob.interval.dtSec)) =
      [(5 / 2, 2), (3 / 4, 4)] ∧
    reported s.emitted .txPps = 8 := by
  have hrun : ((System.exec step sample twoIntervals).map fun s =>
      (s.emitted.map fun r => (r.blob.interval.txPps, r.blob.interval.dtSec), s.prev.txPackets)) =
      some ([(5 / 2, 2), (3 / 4, 4)], 8) := by decide +kernel
  obtain ⟨s, hs, hm⟩ := Option.map_eq_some_iff.mp hrun
  obtain ⟨hrates, hprev⟩ := Prod.mk.inj hm
  have hreach : (runsFrom sample).Reach s := System.Reach.exec (.init rfl) hs
  have htotal := (reporter_telescopes sample_started (fun c => by cases c <;> exact le_refl 0)
    hreach .txPps).1
  refine ⟨s, hrates, htotal.trans ?_⟩
  show (s.prev.txPackets : ℚ) - ((0 : Nat) : ℚ) = 8
  rw [hprev]
  norm_num

end Rungs

end CksLoadtest
