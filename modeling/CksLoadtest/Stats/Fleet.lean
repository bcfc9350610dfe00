import Mathlib.Data.Rat.Floor
import CksLoadtest.Lib.Total
import CksLoadtest.Stats.Merge

/-!
# Merging in any order

What a merge adds up of a blob is a commutative semigroup, and the merge of a list is its
total: the order of the hosts and their grouping do not matter.
-/
namespace CksLoadtest

open Lib

namespace CounterSnap

theorem plus_comm (a b : CounterSnap) : plus a b = plus b a := by
  have hvec : ∀ {n : Nat} (u v : Vector Nat n), u.zipWith (· + ·) v = v.zipWith (· + ·) u := by
    intro n u v
    ext i hi
    simp [Nat.add_comm]
  unfold plus
  rw [hvec a.latencyHist, hvec a.errorCodes]
  simp only [Nat.add_comm, Int.add_comm, max_comm]

theorem plus_assoc (a b c : CounterSnap) : plus (plus a b) c = plus a (plus b c) := by
  have hvec : ∀ {n : Nat} (u v w : Vector Nat n),
      (u.zipWith (· + ·) v).zipWith (· + ·) w = u.zipWith (· + ·) (v.zipWith (· + ·) w) := by
    intro n u v w
    ext i hi
    simp [Nat.add_assoc]
  unfold plus
  simp only [Nat.add_assoc, Int.add_assoc, max_assoc, hvec]

theorem count_plus (a b : CounterSnap) (c : Counter) :
    (plus a b).count c = a.count c + b.count c := by
  cases c <;> rfl

end CounterSnap

namespace FleetMerge

theorem agree_comm (a b : String) : agree false a b = agree false b a := by
  unfold agree
  by_cases h : b = a
  · simp [h]
  · simp [h, Ne.symm h]

theorem agree_assoc (a b c : String) :
    agree false (agree false a b) c = agree false a (agree false b c) := by
  unfold agree
  grind

theorem earliest_zero (a : Nat) : earliest 0 a = a := by
  unfold earliest
  by_cases h : a = 0 <;> simp [h]

theorem earliest_comm (a b : Nat) : earliest a b = earliest b a := by
  unfold earliest
  split <;> split <;> omega

theorem earliest_assoc (a b c : Nat) :
    earliest (earliest a b) c = earliest a (earliest b c) := by
  unfold earliest
  grind

end FleetMerge

/-- What a blob adds to the fleet's. -/
@[ext]
structure FleetSums (K : Type*) where
  life : CounterSnap
  win : CounterSnap
  used : Int
  limit : Int
  active : Int
  suspended : Int
  busy : Bool
  opened : Nat
  duration : K
  replayLogging : String
  requested : String
  atEnd : String
  dtSec : K
  txPps : K
  txBps : K
  rxDps : K
  rxBps : K
  rxNotifPs : K

variable {K : Type*} [Field K] [LinearOrder K]

instance : Add (FleetSums K) where
  add a b :=
    { life := .plus a.life b.life
      win := .plus a.win b.win
      used := a.used + b.used
      limit := a.limit + b.limit
      active := a.active + b.active
      suspended := a.suspended + b.suspended
      busy := a.busy || b.busy
      opened := FleetMerge.earliest a.opened b.opened
      duration := max a.duration b.duration
      replayLogging := FleetMerge.agree false a.replayLogging b.replayLogging
      requested := FleetMerge.agree false a.requested b.requested
      atEnd := FleetMerge.agree false a.atEnd b.atEnd
      dtSec := max a.dtSec b.dtSec
      txPps := a.txPps + b.txPps
      txBps := a.txBps + b.txBps
      rxDps := a.rxDps + b.rxDps
      rxBps := a.rxBps + b.rxBps
      rxNotifPs := a.rxNotifPs + b.rxNotifPs }

instance : AddCommSemigroup (FleetSums K) where
  add_assoc a b c := by
    ext1
    case life => exact CounterSnap.plus_assoc _ _ _
    case win => exact CounterSnap.plus_assoc _ _ _
    case busy => exact Bool.or_assoc _ _ _
    case opened => exact FleetMerge.earliest_assoc _ _ _
    case replayLogging => exact FleetMerge.agree_assoc _ _ _
    case requested => exact FleetMerge.agree_assoc _ _ _
    case atEnd => exact FleetMerge.agree_assoc _ _ _
    case duration => exact max_assoc _ _ _
    case dtSec => exact max_assoc _ _ _
    all_goals exact add_assoc _ _ _
  add_comm a b := by
    ext1
    case life => exact CounterSnap.plus_comm _ _
    case win => exact CounterSnap.plus_comm _ _
    case busy => exact Bool.or_comm _ _
    case opened => exact FleetMerge.earliest_comm _ _
    case replayLogging => exact FleetMerge.agree_comm _ _
    case requested => exact FleetMerge.agree_comm _ _
    case atEnd => exact FleetMerge.agree_comm _ _
    case duration => exact max_comm _ _
    case dtSec => exact max_comm _ _
    all_goals exact add_comm _ _

/-- A merge starts its maxima at 0. -/
def HostBlob.sums (b : HostBlob K) : FleetSums K where
  life := b.lifetime
  win := b.window
  used := b.snapshot.used
  limit := b.snapshot.limit
  active := b.snapshot.activeClients
  suspended := b.snapshot.suspendedClients
  busy := b.snapshot.busy
  opened := b.snapshot.windowOpenEpochSec
  duration := max 0 b.snapshot.windowDurationSec
  replayLogging := b.snapshot.replayLogging
  requested := b.snapshot.replayLoggingRequested
  atEnd := b.snapshot.replayLoggingAtEnd
  dtSec := max 0 b.interval.dtSec
  txPps := b.interval.txPps
  txBps := b.interval.txBps
  rxDps := b.interval.rxDps
  rxBps := b.interval.rxBps
  rxNotifPs := b.interval.rxNotifPs

namespace FleetMerge

theorem init_absorb_sums (now : Nat) (b : HostBlob K) :
    ((init.absorb b).blob now).sums = b.sums := by
  ext1
  case opened => exact earliest_zero _
  case duration => exact sup_left_idem _ _
  case dtSec => exact sup_left_idem _ _
  case busy => exact Bool.false_or _
  case used => exact zero_add _
  case limit => exact zero_add _
  case active => exact zero_add _
  case suspended => exact zero_add _
  case txPps => exact zero_add _
  case txBps => exact zero_add _
  case rxDps => exact zero_add _
  case rxBps => exact zero_add _
  case rxNotifPs => exact zero_add _
  all_goals rfl

theorem absorb_sums (now : Nat) {m : FleetMerge K} (hm : m.first = false) (b : HostBlob K) :
    ((m.absorb b).blob now).sums = (m.blob now).sums + b.sums := by
  ext1
  case life => exact if_neg (by simp [hm])
  case win => exact if_neg (by simp [hm])
  case replayLogging => exact congrArg (agree · _ _) hm
  case requested => exact congrArg (agree · _ _) hm
  case atEnd => exact congrArg (agree · _ _) hm
  case duration => exact sup_sup_distrib_left _ _ _
  case dtSec => exact sup_sup_distrib_left _ _ _
  all_goals rfl

theorem foldl_absorb_sums (now : Nat) {m : FleetMerge K} (hm : m.first = false)
    (hosts : List (HostBlob K)) :
    ((hosts.foldl absorb m).blob now).sums =
      (hosts.map HostBlob.sums).foldl (· + ·) (m.blob now).sums := by
  induction hosts generalizing m with
  | nil => rfl
  | cons b hosts ih =>
    rw [List.foldl_cons, List.map_cons, List.foldl_cons, ← absorb_sums now hm b]
    exact ih rfl

/-- The maxima of the locals start at 0. -/
structure Grown (m : FleetMerge K) : Prop where
  duration : 0 ≤ m.fleet.windowDurationSec
  dtSec : 0 ≤ m.iv.dtSec

theorem foldl_absorb_grown {m : FleetMerge K} (hm : m.Grown) (hosts : List (HostBlob K)) :
    (hosts.foldl absorb m).Grown := by
  induction hosts generalizing m with
  | nil => exact hm
  | cons b hosts ih => exact ih ⟨le_max_of_le_left hm.duration, le_max_of_le_left hm.dtSec⟩

/-- Two hosts that disagree are noticed, whichever of them differs from the first. -/
theorem foldl_absorb_disagree {m : FleetMerge K} (hm : m.first = false)
    (hosts : List (HostBlob K)) :
    (hosts.foldl absorb m).disagree ≠ "" ↔
      m.disagree ≠ "" ∨ ∃ b ∈ hosts, b.snapshot.rungId ≠ m.fleet.rungId := by
  induction hosts generalizing m with
  | nil => simp
  | cons b hosts ih =>
    have hrung : (m.absorb b).fleet.rungId = m.fleet.rungId := if_neg (by simp [hm])
    have hstep : (m.absorb b).disagree ≠ "" ↔
        m.disagree ≠ "" ∨ b.snapshot.rungId ≠ m.fleet.rungId := by
      show (if ¬ m.first ∧ b.snapshot.rungId ≠ m.fleet.rungId then "rung_id" else m.disagree) ≠ ""
        ↔ _
      by_cases hb : b.snapshot.rungId = m.fleet.rungId <;> simp [hm, hb]
    rw [List.foldl_cons, ih rfl, hrung, hstep, List.exists_mem_cons_iff, or_assoc]

variable [FloorRing K]

theorem foldlM_carries {hosts : List (Json K)} {blobs : List (HostBlob K)}
    (h : List.Forall₂ Carries hosts blobs) (m : FleetMerge K) :
    hosts.foldlM host m = some (blobs.foldl absorb m) := by
  induction h generalizing m with
  | nil => rfl
  | cons hc _ ih =>
    rw [List.foldlM_cons, host_carries m hc]
    exact ih _

end FleetMerge

/-- The members of a merged document that are the fleet's. -/
structure Shows (j : Json K) (t : FleetSums K) : Prop where
  lifetime : j.field? "lifetime" = some (t.life.toJson K)
  counters : (j.objField "window").field? "counters" = some (t.win.toJson K)
  used : j.field? "used" = some (.int t.used)
  limit : j.field? "limit" = some (.int t.limit)
  gauges : j.field? "gauges" =
    some (.obj [("active", .int t.active), ("suspended", .int t.suspended)])
  busy : j.field? "busy" = some (.bool t.busy)
  opened : (j.objField "window").field? "open_epoch_sec" = some (.int t.opened)
  duration : (j.objField "window").field? "duration_sec" = some (.real t.duration)
  replayLogging : j.field? "replay_logging" = some (.str t.replayLogging)
  requested : j.field? "replay_logging_requested" = some (.str t.requested)
  atEnd : j.field? "replay_logging_at_end" = some (.str t.atEnd)
  txPps : (j.objField "interval").field? "tx_pps" = some (.real t.txPps)
  txBps : (j.objField "interval").field? "tx_bps" = some (.real t.txBps)
  rxDps : (j.objField "interval").field? "rx_dps" = some (.real t.rxDps)
  rxBps : (j.objField "interval").field? "rx_bps" = some (.real t.rxBps)
  rxNotifPs : (j.objField "interval").field? "rx_notif_ps" = some (.real t.rxNotifPs)

/-- A merged document shows the sums of what it carries. -/
theorem Carries.shows {j : Json K} {b : HostBlob K} (h : Carries j b)
    (hd : 0 ≤ b.snapshot.windowDurationSec) : Shows j b.sums := by
  have hwindow : j.objField "window" = .obj
      [("id", .str b.snapshot.rungId), ("open_epoch_sec", .int b.snapshot.windowOpenEpochSec),
       ("duration_sec", .real b.snapshot.windowDurationSec), ("counters", b.window.toJson K)] := by
    unfold Json.objField
    rw [h.field "window" (by decide) (by decide)]
    rfl
  have hinterval : j.objField "interval" = .obj
      [("dt_sec", .real b.interval.dtSec), ("epoch_sec", .int b.interval.epochSec),
       ("tx_pps", .real b.interval.txPps), ("tx_bps", .real b.interval.txBps),
       ("rx_dps", .real b.interval.rxDps), ("rx_bps", .real b.interval.rxBps),
       ("rx_notif_ps", .real b.interval.rxNotifPs),
       ("avg_latency_ms", .real b.interval.avgLatencyMs)] := by
    unfold Json.objField
    rw [h.field "interval" (by decide) (by decide)]
    rfl
  have hmax : b.sums.duration = b.snapshot.windowDurationSec := max_eq_right hd
  exact
    { lifetime := h.field _ (by decide) (by decide)
      counters := by rw [hwindow]; rfl
      used := h.field _ (by decide) (by decide)
      limit := h.field _ (by decide) (by decide)
      gauges := h.field _ (by decide) (by decide)
      busy := h.field _ (by decide) (by decide)
      opened := by rw [hwindow]; rfl
      duration := by rw [hwindow, hmax]; rfl
      replayLogging := h.field _ (by decide) (by decide)
      requested := h.field _ (by decide) (by decide)
      atEnd := h.field _ (by decide) (by decide)
      txPps := by rw [hinterval]; rfl
      txBps := by rw [hinterval]; rfl
      rxDps := by rw [hinterval]; rfl
      rxBps := by rw [hinterval]; rfl
      rxNotifPs := by rw [hinterval]; rfl }

/-- **One merge**: the total of what its blobs carry, and a warning when rungs differ. -/
theorem mergeFleetStats_carries [FloorRing K] (now : Nat) {hosts : List (Json K)}
    {blobs : List (HostBlob K)} (h : List.Forall₂ Carries hosts blobs) (hne : blobs ≠ []) :
    ∃ j b, mergeFleetStats now hosts = some j ∧ Carries j b ∧ Shows j b.sums ∧
      IsTotal (blobs.map HostBlob.sums) b.sums ∧
      ((j.field? "warning").isSome = true ↔
        ∃ a ∈ blobs, ∃ a' ∈ blobs, a.snapshot.rungId ≠ a'.snapshot.rungId) := by
  obtain ⟨a, blobs, rfl⟩ := List.exists_cons_of_ne_nil hne
  have hrun := FleetMerge.foldlM_carries h .init
  rw [List.foldl_cons] at hrun
  have hfirst : (FleetMerge.init.absorb a).first = false := rfl
  have hgrown := FleetMerge.foldl_absorb_grown (m := FleetMerge.init.absorb a)
    ⟨le_max_left _ _, le_max_left _ _⟩ blobs
  have hdisagree := FleetMerge.foldl_absorb_disagree hfirst blobs
  have hsums := FleetMerge.foldl_absorb_sums now hfirst blobs
  rw [FleetMerge.init_absorb_sums] at hsums
  generalize blobs.foldl FleetMerge.absorb (FleetMerge.init.absorb a) = m
    at hrun hgrown hdisagree hsums
  have hcarries := m.json_carries now hosts.length
  refine ⟨m.json now hosts.length, m.blob now, ?_, hcarries, hcarries.shows hgrown.duration, ?_, ?_⟩
  · rw [mergeFleetStats, hrun]
    rfl
  · rw [hsums]
    exact IsTotal.foldl _ _
  · rw [m.json_warning now hosts.length, hdisagree]
    have hrung : (FleetMerge.init.absorb a).fleet.rungId = a.snapshot.rungId := rfl
    have hnone : (FleetMerge.init.absorb a).disagree = "" := by
      simp [FleetMerge.absorb, FleetMerge.init]
    rw [hrung, hnone]
    constructor
    · rintro (hn | ⟨b, hb, hdiff⟩)
      · exact absurd rfl hn
      · exact ⟨b, List.mem_cons_of_mem _ hb, a, List.mem_cons_self, hdiff⟩
    · rintro ⟨b, hb, b', hb', hdiff⟩
      -- one of the two differs from the first
      by_cases hba : b.snapshot.rungId = a.snapshot.rungId
      · rcases List.mem_cons.mp hb' with rfl | hb'
        · exact absurd hba hdiff
        · exact .inr ⟨b', hb', fun h => hdiff (hba.trans h.symm)⟩
      · rcases List.mem_cons.mp hb with rfl | hb
        · exact absurd rfl hba
        · exact .inr ⟨b, hb, hba⟩

section Totals

variable {hosts : List (HostBlob K)} {t : FleetSums K}

/-- A snapshot that adds up others. -/
structure CounterSnap.SumOf (snaps : List CounterSnap) (s : CounterSnap) : Prop where
  count : ∀ c, s.count c = (snaps.map fun a => a.count c).sum
  latencySamples : s.latencySamples = (snaps.map fun a => a.latencySamples).sum
  latencySumMs : s.latencySumMs = (snaps.map fun a => a.latencySumMs).sum
  latencyMaxMs : IsGreatest {x | x ∈ snaps.map fun a => a.latencyMaxMs} s.latencyMaxMs
  latencyHist : ∀ i : Fin LATENCY_BUCKETS,
    s.latencyHist[i] = (snaps.map fun a => a.latencyHist[i]).sum
  errorCodes : ∀ c : Fin 256, s.errorCodes[c] = (snaps.map fun a => a.errorCodes[c]).sum
  signInReused : s.signInReused = (snaps.map fun a => a.signInReused).sum
  signInMintedBefore : s.signInMintedBefore = (snaps.map fun a => a.signInMintedBefore).sum
  signInMintedDuring : s.signInMintedDuring = (snaps.map fun a => a.signInMintedDuring).sum

/-- The common value of the labels, or else `mixed`. -/
def CommonOrMixed (labels : List String) (l : String) : Prop :=
  (∀ x ∈ labels, x = l) ∨ l = "mixed" ∧ ∃ x ∈ labels, ∃ y ∈ labels, x ≠ y

/-- The earliest of the opens that are not 0, or 0 when there is none. -/
def EarliestOpen (opens : List Nat) (o : Nat) : Prop :=
  IsLeast {x | x ∈ opens ∧ x ≠ 0} o ∨ o = 0 ∧ ∀ x ∈ opens, x = 0

theorem isGreatest_cons {α : Type*} [LinearOrder α] {l : List α} {m : α}
    (h : IsGreatest {x | x ∈ l} m) (a : α) : IsGreatest {x | x ∈ a :: l} (max a m) := by
  refine ⟨?_, fun x hx => ?_⟩
  · rcases max_choice a m with hm | hm
    · rw [hm]
      exact List.mem_cons_self
    · rw [hm]
      exact List.mem_cons_of_mem _ h.1
  · rcases List.mem_cons.mp hx with rfl | hx
    · exact le_max_left _ _
    · exact (h.2 hx).trans (le_max_right _ _)

theorem isGreatest_single {α : Type*} [LinearOrder α] (a : α) : IsGreatest {x | x ∈ [a]} a :=
  ⟨List.mem_singleton_self a, fun _ hx => (List.mem_singleton.mp hx).le⟩

/-- A reading that adds up is the sum over the hosts. -/
theorem sum_of_total {M : Type*} [AddCommMonoid M] (φ : FleetSums K → M)
    (hφ : ∀ a b, φ (a + b) = φ a + φ b) (h : IsTotal (hosts.map HostBlob.sums) t) :
    φ t = (hosts.map fun b => φ b.sums).sum := by
  rw [h.map_sum hφ, List.map_map]
  rfl

theorem greatest_of_total {α : Type*} [LinearOrder α] (φ : FleetSums K → α)
    (hφ : ∀ a b, φ (a + b) = max (φ a) (φ b)) (h : IsTotal (hosts.map HostBlob.sums) t) :
    IsGreatest {x | x ∈ hosts.map fun b => φ b.sums} (φ t) := by
  have hg := h.rec_on (P := fun l s => IsGreatest {x | x ∈ l.map φ} (φ s))
    (fun a => isGreatest_single (φ a)) fun a l s _ ih => by
      rw [hφ, List.map_cons]
      exact isGreatest_cons ih (φ a)
  rwa [List.map_map] at hg

theorem commonOrMixed_cons {labels : List String} {l : String} (h : CommonOrMixed labels l)
    (hne : labels ≠ []) (a : String) :
    CommonOrMixed (a :: labels) (FleetMerge.agree false a l) := by
  unfold FleetMerge.agree
  rw [if_neg Bool.false_ne_true]
  rcases h with hcommon | ⟨rfl, x, hx, y, hy, hxy⟩
  · by_cases hla : l = a
    · rw [if_neg (not_not_intro hla)]
      refine .inl fun x hx => ?_
      rcases List.mem_cons.mp hx with rfl | hx
      · rfl
      · exact (hcommon x hx).trans hla
    · rw [if_pos hla]
      obtain ⟨x, hx⟩ := List.exists_mem_of_ne_nil _ hne
      refine .inr ⟨rfl, a, List.mem_cons_self, x, List.mem_cons_of_mem _ hx, ?_⟩
      exact fun hax => hla ((hcommon x hx).symm.trans hax.symm)
  · refine .inr ⟨?_, x, List.mem_cons_of_mem _ hx, y, List.mem_cons_of_mem _ hy, hxy⟩
    split
    · rfl
    · rename_i hma
      exact (not_not.mp hma).symm

theorem label_of_total (φ : FleetSums K → String)
    (hφ : ∀ a b, φ (a + b) = FleetMerge.agree false (φ a) (φ b))
    (h : IsTotal (hosts.map HostBlob.sums) t) :
    CommonOrMixed (hosts.map fun b => φ b.sums) (φ t) := by
  have hl := h.rec_on (P := fun l s => CommonOrMixed (l.map φ) (φ s))
    (fun a => .inl fun x hx => List.mem_singleton.mp hx) fun a l s hs ih => by
      rw [hφ, List.map_cons]
      refine commonOrMixed_cons ih ?_ (φ a)
      rintro hnil
      rw [List.map_eq_nil_iff.mp hnil] at hs
      exact not_isTotal_nil s hs
  rwa [List.map_map] at hl

theorem earliestOpen_cons {l : List Nat} {o : Nat} (h : EarliestOpen l o) (a : Nat) :
    EarliestOpen (a :: l) (FleetMerge.earliest a o) := by
  unfold FleetMerge.earliest
  rcases h with ⟨⟨hmem, ho⟩, hleast⟩ | ⟨rfl, hzero⟩
  · by_cases hao : a = 0 ∨ o < a
    · rw [if_pos ⟨ho, hao⟩]
      refine .inl ⟨⟨List.mem_cons_of_mem _ hmem, ho⟩, ?_⟩
      rintro x ⟨hx, hx0⟩
      rcases List.mem_cons.mp hx with rfl | hx
      · omega
      · exact hleast ⟨hx, hx0⟩
    · rw [if_neg fun hn => hao hn.2]
      refine .inl ⟨⟨List.mem_cons_self, fun ha => hao (.inl ha)⟩, ?_⟩
      rintro x ⟨hx, hx0⟩
      rcases List.mem_cons.mp hx with rfl | hx
      · exact le_refl _
      · have := hleast ⟨hx, hx0⟩
        omega
  · rw [if_neg fun hn => hn.1 rfl]
    by_cases ha : a = 0
    · refine .inr ⟨ha, fun x hx => ?_⟩
      rcases List.mem_cons.mp hx with rfl | hx
      · exact ha
      · exact hzero x hx
    · refine .inl ⟨⟨List.mem_cons_self, ha⟩, ?_⟩
      rintro x ⟨hx, hx0⟩
      rcases List.mem_cons.mp hx with rfl | hx
      · exact le_refl _
      · exact absurd (hzero x hx) hx0

theorem earliest_of_total (h : IsTotal (hosts.map HostBlob.sums) t) :
    EarliestOpen (hosts.map fun b => b.snapshot.windowOpenEpochSec) t.opened := by
  have he : EarliestOpen ((hosts.map HostBlob.sums).map FleetSums.opened) t.opened := by
    refine h.rec_on (P := fun l s => EarliestOpen (l.map FleetSums.opened) s.opened) ?_ ?_
    · intro a
      have hone := earliestOpen_cons (l := []) (o := 0) (.inr ⟨rfl, nofun⟩) a.opened
      rwa [FleetMerge.earliest_comm, FleetMerge.earliest_zero] at hone
    · intro a l s _ ih
      exact earliestOpen_cons ih a.opened
  rwa [List.map_map] at he

theorem busy_of_total (h : IsTotal (hosts.map HostBlob.sums) t) :
    t.busy = hosts.any fun b => b.snapshot.busy := by
  have hb : t.busy = (hosts.map HostBlob.sums).any FleetSums.busy := by
    refine h.rec_on (P := fun l s => s.busy = l.any FleetSums.busy) (fun a => by simp) ?_
    intro a l s _ ih
    rw [List.any_cons, ← ih]
    rfl
  rwa [List.any_map] at hb

theorem sumOf_total (φ : FleetSums K → CounterSnap)
    (hφ : ∀ a b, φ (a + b) = .plus (φ a) (φ b)) (h : IsTotal (hosts.map HostBlob.sums) t) :
    CounterSnap.SumOf (hosts.map fun b => φ b.sums) (φ t) := by
  have hsum : ∀ {M : Type} [AddCommMonoid M] (ψ : CounterSnap → M),
      (∀ a b, ψ (.plus a b) = ψ a + ψ b) →
        ψ (φ t) = ((hosts.map fun b => φ b.sums).map ψ).sum := by
    intro M _ ψ hψ
    rw [List.map_map]
    exact sum_of_total (fun s => ψ (φ s)) (fun a b => by rw [hφ, hψ]) h
  have hmax := greatest_of_total (fun s => (φ s).latencyMaxMs)
    (fun a b => by rw [hφ]; rfl) h
  exact
    { count := fun c => hsum (·.count c) fun a b => CounterSnap.count_plus a b c
      latencySamples := hsum (·.latencySamples) fun _ _ => rfl
      latencySumMs := hsum (·.latencySumMs) fun _ _ => rfl
      latencyMaxMs := by rwa [List.map_map]
      latencyHist := fun i => hsum (·.latencyHist[i]) fun a b => by simp [CounterSnap.plus]
      errorCodes := fun c => hsum (·.errorCodes[c]) fun a b => by simp [CounterSnap.plus]
      signInReused := hsum (·.signInReused) fun _ _ => rfl
      signInMintedBefore := hsum (·.signInMintedBefore) fun _ _ => rfl
      signInMintedDuring := hsum (·.signInMintedDuring) fun _ _ => rfl }

end Totals

/-- What the sums of a fleet are in terms of its hosts. -/
structure FleetOf (hosts : List (HostBlob K)) (t : FleetSums K) : Prop where
  life : CounterSnap.SumOf (hosts.map (·.lifetime)) t.life
  win : CounterSnap.SumOf (hosts.map (·.window)) t.win
  used : t.used = (hosts.map (·.snapshot.used)).sum
  limit : t.limit = (hosts.map (·.snapshot.limit)).sum
  active : t.active = (hosts.map (·.snapshot.activeClients)).sum
  suspended : t.suspended = (hosts.map (·.snapshot.suspendedClients)).sum
  busy : t.busy = hosts.any (·.snapshot.busy)
  opened : EarliestOpen (hosts.map (·.snapshot.windowOpenEpochSec)) t.opened
  /-- The longest, and 0 at least. -/
  duration : IsGreatest {x | x ∈ hosts.map fun b => max 0 b.snapshot.windowDurationSec} t.duration
  replayLogging : CommonOrMixed (hosts.map (·.snapshot.replayLogging)) t.replayLogging
  requested : CommonOrMixed (hosts.map (·.snapshot.replayLoggingRequested)) t.requested
  atEnd : CommonOrMixed (hosts.map (·.snapshot.replayLoggingAtEnd)) t.atEnd
  txPps : t.txPps = (hosts.map (·.interval.txPps)).sum
  txBps : t.txBps = (hosts.map (·.interval.txBps)).sum
  rxDps : t.rxDps = (hosts.map (·.interval.rxDps)).sum
  rxBps : t.rxBps = (hosts.map (·.interval.rxBps)).sum
  rxNotifPs : t.rxNotifPs = (hosts.map (·.interval.rxNotifPs)).sum

theorem fleetOf_total {hosts : List (HostBlob K)} {t : FleetSums K}
    (h : IsTotal (hosts.map HostBlob.sums) t) : FleetOf hosts t where
  life := sumOf_total FleetSums.life (fun _ _ => rfl) h
  win := sumOf_total FleetSums.win (fun _ _ => rfl) h
  used := sum_of_total FleetSums.used (fun _ _ => rfl) h
  limit := sum_of_total FleetSums.limit (fun _ _ => rfl) h
  active := sum_of_total FleetSums.active (fun _ _ => rfl) h
  suspended := sum_of_total FleetSums.suspended (fun _ _ => rfl) h
  busy := busy_of_total h
  opened := earliest_of_total h
  duration := greatest_of_total FleetSums.duration (fun _ _ => rfl) h
  replayLogging := label_of_total FleetSums.replayLogging (fun _ _ => rfl) h
  requested := label_of_total FleetSums.requested (fun _ _ => rfl) h
  atEnd := label_of_total FleetSums.atEnd (fun _ _ => rfl) h
  txPps := sum_of_total FleetSums.txPps (fun _ _ => rfl) h
  txBps := sum_of_total FleetSums.txBps (fun _ _ => rfl) h
  rxDps := sum_of_total FleetSums.rxDps (fun _ _ => rfl) h
  rxBps := sum_of_total FleetSums.rxBps (fun _ _ => rfl) h
  rxNotifPs := sum_of_total FleetSums.rxNotifPs (fun _ _ => rfl) h

section Groups

variable [FloorRing K]

omit [FloorRing K] in
theorem forall₂_carries (hosts : List (HostBlob K)) :
    List.Forall₂ Carries (hosts.map HostBlob.json) hosts := by
  induction hosts with
  | nil => exact .nil
  | cons b hosts ih => exact .cons b.carries ih

/-- The merge of every group: a blob for each, and their sums are those of the groups. -/
theorem mapM_merge (groups : List (Nat × List (HostBlob K))) (hne : ∀ g ∈ groups, g.2 ≠ []) :
    ∃ outs blobs, groups.mapM (fun g => mergeFleetStats g.1 (g.2.map HostBlob.json)) = some outs ∧
      List.Forall₂ Carries outs blobs ∧
      List.Forall₂ IsTotal (groups.map fun g => g.2.map HostBlob.sums)
        (blobs.map HostBlob.sums) := by
  induction groups with
  | nil => exact ⟨[], [], rfl, .nil, .nil⟩
  | cons g groups ih =>
    obtain ⟨outs, blobs, hm, hc, ht⟩ := ih fun g hg => hne g (List.mem_cons_of_mem _ hg)
    obtain ⟨j, b, hj, hcarries, -, htotal, -⟩ :=
      mergeFleetStats_carries g.1 (forall₂_carries g.2) (hne g List.mem_cons_self)
    refine ⟨j :: outs, b :: blobs, ?_, .cons hcarries hc, .cons htotal ht⟩
    rw [List.mapM_cons, hj, hm]
    rfl

/-- **The fleet merge.** Merging the groups of any split of any permutation of the hosts,
and then the results, shows the same fleet as one flat merge, and that fleet is the sum of
the hosts; the flat merge warns exactly when two hosts are on different rungs. -/
theorem merge_regrouped (groups : List (Nat × List (HostBlob K))) (hosts : List (HostBlob K))
    (now now' : Nat) (hgroups : groups ≠ []) (hne : ∀ g ∈ groups, g.2 ≠ [])
    (hperm : (groups.flatMap (·.2)).Perm hosts) :
    ∃ outs nested flat t,
      groups.mapM (fun g => mergeFleetStats g.1 (g.2.map HostBlob.json)) = some outs ∧
      mergeFleetStats now outs = some nested ∧
      mergeFleetStats now' (hosts.map HostBlob.json) = some flat ∧
      Shows nested t ∧ Shows flat t ∧ FleetOf hosts t ∧
      ((flat.field? "warning").isSome = true ↔
        ∃ a ∈ hosts, ∃ b ∈ hosts, a.snapshot.rungId ≠ b.snapshot.rungId) := by
  obtain ⟨outs, blobs, hm, hc, ht⟩ := mapM_merge groups hne
  have hblobs : blobs ≠ [] := by
    rintro rfl
    have hlen := ht.length_eq
    rw [List.length_map] at hlen
    exact hgroups (List.eq_nil_of_length_eq_zero hlen)
  have hhosts : hosts ≠ [] := by
    rintro rfl
    obtain ⟨g, hg⟩ := List.exists_mem_of_ne_nil _ hgroups
    exact hne g hg (List.flatMap_eq_nil_iff.mp hperm.eq_nil g hg)
  obtain ⟨nested, b, hnested, -, hshows, htotal, -⟩ := mergeFleetStats_carries now hc hblobs
  obtain ⟨flat, b', hflat, -, hshows', htotal', hwarning⟩ :=
    mergeFleetStats_carries now' (forall₂_carries hosts) hhosts
  -- both are totals of the same blobs
  have hsame : b.sums = b'.sums := by
    refine ((htotal.flatten ht).perm ?_).unique htotal'
    have hmap : (groups.map fun g => g.2.map HostBlob.sums).flatten =
        (groups.flatMap (·.2)).map HostBlob.sums := by
      rw [List.map_flatMap, List.flatMap_def]
    rw [hmap]
    exact hperm.map _
  exact ⟨outs, nested, flat, b'.sums, hm, hnested, hflat, hsame ▸ hshows, hshows',
    fleetOf_total htotal', hwarning⟩

end Groups

/-- Three hosts, one of them on another rung. -/
theorem three_hosts_regrouped : ∃ a b c : HostBlob ℚ, ∃ outs nested flat t,
    [(1, [a]), (2, [b, c])].mapM (fun g => mergeFleetStats g.1 (g.2.map HostBlob.json)) =
      some outs ∧
    mergeFleetStats 3 outs = some nested ∧
    mergeFleetStats 4 ([c, a, b].map HostBlob.json) = some flat ∧
    Shows nested t ∧ Shows flat t ∧ t.used = 60 ∧ t.life.txPackets = 6 ∧
    (flat.field? "warning").isSome = true := by
  let host (used : Int) (txPackets : Nat) (rungId : String) : HostBlob ℚ :=
    { snapshot := { used := used, rungId := rungId, windowDurationSec := 2 }
      lifetime := { txPackets := txPackets }
      window := {}
      interval := ⟨1, 1, 0, 0, 0, 0, 0, 0⟩ }
  obtain ⟨outs, nested, flat, t, hm, hn, hf, hs, hs', hfleet, hw⟩ := merge_regrouped
    [(1, [host 10 1 "r1"]), (2, [host 20 2 "r1", host 30 3 "r2"])]
    [host 30 3 "r2", host 10 1 "r1", host 20 2 "r1"] 3 4 (by simp) (by simp)
    (List.perm_append_comm : ([host 10 1 "r1", host 20 2 "r1"] ++ [host 30 3 "r2"]).Perm _)
  refine ⟨_, _, _, outs, nested, flat, t, hm, hn, hf, hs, hs', hfleet.used,
    hfleet.life.count .txPackets, hw.mpr ?_⟩
  exact ⟨host 30 3 "r2", by simp, host 10 1 "r1", by simp, by simp [host]⟩

end CksLoadtest
