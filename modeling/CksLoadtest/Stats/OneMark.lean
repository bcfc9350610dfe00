import Mathlib.Algebra.Order.Ring.Unbundled.Rat
import Mathlib.Algebra.Field.Rat
import CksLoadtest.Stats.Rung

/-!
# Which rung a blob belongs to

A blob's rung id, opening time and window are three locked reads. Each is true of some
`markWindow`: the window counts what the thread's own loads have beyond the origin of that
mark, and its largest latency is the largest that was recorded between the mark and the read.
The three are of one `markWindow` exactly if no locked section of `markWindow` ran between the
first of them and the last.
-/
namespace CksLoadtest

open Lib Lib.Transition

variable {K : Type*} [Field K] [LinearOrder K]

/-- The largest of the first `n` latencies recorded since the mark. -/
def Mark.latencyMaxMs (m : Mark) (n : Nat) : Nat := (m.latencies.take n).foldl max 0

/-- The part of the blob is what the `markWindow` left: of the window, the thread's loads less
the origin of the mark, and the largest latency recorded from the mark to the read. -/
def Part.Shows (r : Reader K) (m : Mark) : Part → Prop
  | .rungId => r.blob.snapshot.rungId = m.id
  | .openEpochSec => r.blob.snapshot.windowOpenEpochSec = m.epochSec
  | .window => r.seen ≤ m.latencies.length ∧
      r.blob.window =
        { CounterSnap.minus r.now m.origin with latencyMaxMs := m.latencyMaxMs r.seen }

/-- The same mark, with more latencies recorded since. -/
structure Mark.Grows (m m' : Mark) : Prop where
  id : m'.id = m.id
  epochSec : m'.epochSec = m.epochSec
  origin : m'.origin = m.origin
  latencies : m.latencies <+: m'.latencies

theorem Mark.Grows.refl (m : Mark) : m.Grows m := ⟨rfl, rfl, rfl, List.prefix_rfl⟩

theorem Mark.record_grows (m : Mark) (a : Stats.Atom) : m.Grows (m.record a) := by
  cases a with
  | windowLatencyMax ms => exact ⟨rfl, rfl, rfl, List.prefix_append ..⟩
  | _ => exact .refl m

omit [Field K] [LinearOrder K] in
/-- What was shown of a mark stays shown of it. -/
theorem Part.Shows.grows {r : Reader K} {m m' : Mark} (hg : m.Grows m') {p : Part}
    (h : p.Shows r m) : p.Shows r m' := by
  cases p with
  | rungId => exact Eq.trans h hg.id.symm
  | openEpochSec => exact Eq.trans h hg.epochSec.symm
  | window =>
    obtain ⟨hseen, hwindow⟩ := h
    obtain ⟨more, hmore⟩ := hg.latencies
    have hmax : m'.latencyMaxMs r.seen = m.latencyMaxMs r.seen := by
      rw [Mark.latencyMaxMs, ← hmore, List.take_append_of_le_length hseen, Mark.latencyMaxMs]
    exact ⟨hseen.trans hg.latencies.length_le, by rw [hwindow, hg.origin, hmax]⟩

omit [Field K] [LinearOrder K] in
theorem Part.access_inj {p q : Part} : p.access = q.access ↔ p = q := by
  cases p <;> cases q <;> decide

namespace Stats

/-- The window is the one the mark opened. -/
structure OpenedBy (s : Stats) (m : Mark) : Prop where
  rungId : s.rungId = m.id
  windowOpenEpochSec : s.windowOpenEpochSec = m.epochSec
  windowOrigin : s.windowOrigin = m.origin
  windowLatencyMaxMs : s.windowLatencyMaxMs = m.latencies.foldl max 0

theorem OpenedBy.atom {s : Stats} {m : Mark} (h : s.OpenedBy m) (a : Atom) :
    (a.apply s).OpenedBy (m.record a) := by
  obtain ⟨hid, hepoch, horigin, hmax⟩ := h
  cases a with
  | fetchAdd c n => cases c <;> exact ⟨hid, hepoch, horigin, hmax⟩
  | windowLatencyMax ms =>
    refine ⟨hid, hepoch, horigin, ?_⟩
    simp only [Atom.apply, Mark.record, List.foldl_append, List.foldl_cons, List.foldl_nil, hmax]
  | _ => exact ⟨hid, hepoch, horigin, hmax⟩

end Stats

namespace Rungs

/-- The event is the locked section of a `markWindow`. -/
def Marks (s : Rungs K) : RungEvent K → Prop
  | .openStep i _ => ∃ id k now, s.openers[i]? = some ⟨id, .load k now⟩ ∧ Stats.loads[k]? = none
  | _ => False

/-- No `markWindow` runs its locked section while a blob has some of its parts. -/
def Quiet (s : Rungs K) (e : RungEvent K) : Prop :=
  s.Marks e → ∀ r ∈ s.readers, ¬ r.versions.Between

/-- The three parts of a blob are those of one `markWindow`. -/
def OneMark (s : Rungs K) (r : Reader K) : Prop :=
  ∃ k m, s.marks[k]? = some m ∧ ∀ p, r.versions.read p = some k ∧ p.Shows r m

/-- The window is read after the loads it subtracts from. -/
def LoadsFirst (a b : Access) : Prop := a = .window → ∀ k, b ≠ .now k

/-- What holds of a thread with a history of marks. -/
structure ReaderInv (marks : List Mark) (r : Reader K) : Prop where
  /-- A part is read once. -/
  todo : ∀ p : Part, r.todo.count p.access = if (r.versions.read p).isSome then 0 else 1
  loads : r.todo.Pairwise LoadsFirst
  /-- Once the window is read, its loads are behind. -/
  loaded : (r.versions.read .window).isSome → ∀ k, Access.now k ∉ r.todo
  versions : Versions.Inv (marks.length - 1) r.versions
  shows : ∀ p k, r.versions.read p = some k → ∃ m, marks[k]? = some m ∧ p.Shows r m

/-- What holds of an emitted blob. -/
structure EmittedInv (marks : List Mark) (r : Reader K) : Prop where
  shows : ∀ p, ∃ k m, r.versions.read p = some k ∧ marks[k]? = some m ∧ p.Shows r m
  whole : r.versions.Whole ↔ r.versions.torn = false

/-- Every kind of thread reads every part once. -/
theorem program_count (kind : ReaderKind) (p : Part) : kind.program.count p.access = 1 := by
  have hloads : ∀ f : Nat → Access, (∀ k, f k ≠ p.access) →
      ((List.range Stats.loads.length).map f).count p.access = 0 := by
    intro f hf
    rw [List.count_eq_zero, List.mem_map]
    exact fun ⟨k, _, hk⟩ => hf k hk
  have hlife := hloads .lifetime (by cases p <;> exact nofun)
  have hnow := hloads .now (by cases p <;> exact nofun)
  cases kind <;> cases p <;>
    simp only [ReaderKind.program, loadLifetime, loadWindow, List.count_append, hlife, hnow] <;>
    decide

theorem program_loads (kind : ReaderKind) : kind.program.Pairwise LoadsFirst := by
  -- nothing behind the window is a load of it
  have hsplit : ∀ front back : List Access, Access.window ∉ front →
      (∀ k, Access.now k ∉ back) → (front ++ .window :: back).Pairwise LoadsFirst := by
    intro front back hfront hback
    refine List.pairwise_append.mpr ⟨?_, List.pairwise_cons.mpr ⟨?_, ?_⟩, ?_⟩
    · exact List.pairwise_of_forall_mem_list fun a ha b _ h => absurd (h ▸ ha) hfront
    · exact fun b hb _ k hk => hback k (hk ▸ hb)
    · exact List.pairwise_of_forall_mem_list fun a _ b hb _ k hk => hback k (hk ▸ hb)
    · exact fun a ha b _ h => absurd (h ▸ ha) hfront
  cases kind with
  | reporter =>
    have := hsplit (loadLifetime ++ [.setInterval, .activeClients, .suspendedClients] ++
        (List.range Stats.loads.length).map .now) [.rungId, .windowOpenEpochSec, .windowDurationSec]
      (by simp [loadLifetime]) (by simp)
    simpa [ReaderKind.program, loadWindow] using this
  | _ =>
    have := hsplit ([.harness, .rungId, .windowOpenEpochSec, .windowDurationSec, .activeClients,
        .suspendedClients] ++ loadLifetime ++ (List.range Stats.loads.length).map .now) [.interval]
      (by simp [loadLifetime]) (by simp)
    simpa [ReaderKind.program, loadWindow] using this

section Marks

variable {K : Type*} {marks marks' : List Mark} {r : Reader K}

/-- Every mark is still there, with what was recorded since. -/
def Later (marks marks' : List Mark) : Prop :=
  ∀ (k : Nat) (m : Mark), marks[k]? = some m → ∃ m', marks'[k]? = some m' ∧ m.Grows m'

theorem later_append (marks : List Mark) (m : Mark) : Later marks (marks ++ [m]) := by
  intro k n hn
  have hlt := (List.getElem?_eq_some_iff.mp hn).1
  exact ⟨n, by rw [List.getElem?_append_left hlt, hn], .refl n⟩

theorem later_record (marks : List Mark) (i : Nat) (a : Stats.Atom) :
    Later marks (marks.modify i (·.record a)) := by
  intro k m hm
  rw [List.getElem?_modify, hm]
  by_cases hi : i = k
  · exact ⟨m.record a, by simp [hi], m.record_grows a⟩
  · exact ⟨m, by simp [hi], .refl m⟩

/-- A `markWindow` keeps what holds of a thread. -/
theorem ReaderInv.mark (h : ReaderInv marks r) (hne : marks ≠ []) (m : Mark) :
    ReaderInv (marks ++ [m]) { r with versions := r.versions.replaced } where
  todo := h.todo
  loads := h.loads
  loaded := h.loaded
  versions := by
    have hlen : (marks ++ [m]).length - 1 = marks.length - 1 + 1 := by
      have := List.length_pos_iff.mpr hne
      simp only [List.length_append, List.length_singleton]
      omega
    rw [hlen]
    exact h.versions.replaced
  shows p k hk := by
    obtain ⟨n, hn, hp⟩ := h.shows p k hk
    obtain ⟨n', hn', hg⟩ := later_append marks m k n hn
    exact ⟨n', hn', by cases p <;> exact hp.grows hg⟩

/-- So does a latency that is recorded. -/
theorem ReaderInv.record (h : ReaderInv marks r) (i : Nat) (a : Stats.Atom) :
    ReaderInv (marks.modify i (·.record a)) r where
  todo := h.todo
  loads := h.loads
  loaded := h.loaded
  versions := by
    rw [List.length_modify]
    exact h.versions
  shows p k hk := by
    obtain ⟨m, hm, hp⟩ := h.shows p k hk
    obtain ⟨m', hm', hg⟩ := later_record marks i a k m hm
    exact ⟨m', hm', hp.grows hg⟩

/-- A thread that is done has all its parts. -/
theorem ReaderInv.emit (h : ReaderInv marks r) (ht : r.todo = []) :
    EmittedInv marks r := by
  have hall : ∀ p, (r.versions.read p).isSome = true := by
    intro p
    have := h.todo p
    rw [ht, List.count_nil] at this
    split at this <;> simp_all
  refine ⟨fun p => ?_, ?_⟩
  · obtain ⟨k, hk⟩ := Option.isSome_iff_exists.mp (hall p)
    obtain ⟨m, hm, hp⟩ := h.shows p k hk
    exact ⟨k, m, hk, hm, hp⟩
  · have : Nonempty Part := ⟨.rungId⟩
    exact h.versions.whole_iff hall

theorem EmittedInv.later (h : EmittedInv marks r) (hl : Later marks marks') :
    EmittedInv marks' r where
  shows p := by
    obtain ⟨k, m, hk, hm, hp⟩ := h.shows p
    obtain ⟨m', hm', hg⟩ := hl k m hm
    exact ⟨k, m', hk, hm', hp.grows hg⟩
  whole := h.whole

/-- A thread that has just begun. -/
theorem ReaderInv.start (hv : r.versions = {})
    (ht : r.todo = r.kind.program) : ReaderInv marks r where
  todo p := by
    rw [hv, ht]
    exact program_count r.kind p
  loads := ht ▸ program_loads r.kind
  loaded h := by rw [hv] at h; nomatch h
  versions := hv ▸ .empty _
  shows p k hk := by rw [hv] at hk; nomatch hk

end Marks

structure Inv (s : Rungs K) : Prop where
  current : ∃ m, s.marks[s.current]? = some m ∧ s.stats.OpenedBy m
  readers : ∀ r ∈ s.readers, ReaderInv s.marks r
  emitted : ∀ r ∈ s.emitted, EmittedInv s.marks r

section Reader

variable {s : Rungs K} {clock : Clock} {r : Reader K} {a : Access}

/-- An access that reads no part changes none; only a load of the window's changes what the
window would be. -/
theorem access_of_ne (s : Rungs K) (clock : Clock) (r : Reader K) (h : ∀ p : Part, a ≠ p.access) :
    (s.access clock r a).versions = r.versions ∧
      ∀ p m, (p = .window → ∀ k, a ≠ .now k) →
        (Part.Shows (s.access clock r a) m p ↔ Part.Shows r m p) := by
  cases a with
  | rungId => exact absurd rfl (h .rungId)
  | windowOpenEpochSec => exact absurd rfl (h .openEpochSec)
  | window => exact absurd rfl (h .window)
  | lifetime k =>
    simp only [access]
    split
    · exact ⟨rfl, fun p m _ => by cases p <;> rfl⟩
    · exact ⟨rfl, fun p m _ => Iff.rfl⟩
  | now k =>
    simp only [access]
    split
    · refine ⟨rfl, fun p m hp => ?_⟩
      cases p with
      | window => exact absurd rfl (hp rfl k)
      | _ => rfl
    · exact ⟨rfl, fun p m _ => Iff.rfl⟩
  | _ => exact ⟨rfl, fun p m _ => by cases p <;> rfl⟩

/-- An access that reads a part reads it off the current mark, and no other part. -/
theorem access_part (s : Rungs K) (clock : Clock) (r : Reader K) (p : Part) :
    (s.access clock r p.access).versions = r.versions.take p s.current ∧
      (∀ m, s.marks[s.current]? = some m → s.stats.OpenedBy m →
        Part.Shows (s.access clock r p.access) m p) ∧
      ∀ q m, q ≠ p → (Part.Shows (s.access clock r p.access) m q ↔ Part.Shows r m q) := by
  cases p with
  | rungId =>
    refine ⟨rfl, fun m _ h => h.rungId, fun q m hq => ?_⟩
    cases q <;> first | exact absurd rfl hq | rfl
  | openEpochSec =>
    refine ⟨rfl, fun m _ h => h.windowOpenEpochSec, fun q m hq => ?_⟩
    cases q <;> first | exact absurd rfl hq | rfl
  | window =>
    refine ⟨rfl, fun m hm h => ?_, fun q m hq => ?_⟩
    · have hseen : s.seen = m.latencies.length := by simp [seen, hm]
      refine ⟨hseen.le, ?_⟩
      simp only [access, Part.access, Stats.windowSince, h.windowOrigin, h.windowLatencyMaxMs,
        hseen, Mark.latencyMaxMs, List.take_length]
    · cases q <;> first | exact absurd rfl hq | rfl

theorem access_torn : (s.access clock r a).versions.torn = r.versions.torn := by
  by_cases ha : ∃ p : Part, a = p.access
  · obtain ⟨p, rfl⟩ := ha
    rw [(access_part s clock r p).1, Versions.take_torn]
  · rw [(access_of_ne s clock r fun p hp => ha ⟨p, hp⟩).1]

/-- One access keeps what holds of its thread. -/
theorem ReaderInv.access {todo : List Access} (h : ReaderInv s.marks r)
    (hs : ∃ m, s.marks[s.current]? = some m ∧ s.stats.OpenedBy m) (ht : r.todo = a :: todo) :
    ReaderInv s.marks { s.access clock r a with todo := todo } := by
  have hcount : ∀ p : Part, todo.count p.access + (if a = p.access then 1 else 0) =
      if (r.versions.read p).isSome then 0 else 1 := by
    intro p
    rw [← h.todo, ht, List.count_cons]
    simp only [beq_iff_eq]
  obtain ⟨hfirst, hloads⟩ := List.pairwise_cons.mp (ht ▸ h.loads)
  have hrest : ∀ k, Access.now k ∉ r.todo → Access.now k ∉ todo :=
    fun k hk hmem => hk (ht ▸ List.mem_cons_of_mem a hmem)
  by_cases ha : ∃ p : Part, a = p.access
  · obtain ⟨p, rfl⟩ := ha
    obtain ⟨hv, hp, hq⟩ := access_part s clock r p
    have hnone : r.versions.read p = none := by
      have := hcount p
      rw [if_pos rfl] at this
      split at this <;> simp_all
    have hread : ∀ q, (s.access clock r p.access).versions.read q =
        if q = p then some s.current else r.versions.read q := by
      intro q
      rw [hv]
      exact Function.update_apply ..
    refine ⟨fun q => ?_, hloads, fun hsome k => ?_, ?_, fun q k hk => ?_⟩
    · have := hcount q
      simp only [hread, Part.access_inj] at this ⊢
      by_cases hqp : q = p
      · subst hqp
        simp_all
      · simpa [hqp, Ne.symm hqp] using this
    · rw [hread] at hsome
      split at hsome
      · subst p
        exact fun hmem => hfirst _ hmem rfl k rfl
      · exact hrest k (h.loaded hsome k)
    · rw [hv]
      exact h.versions.take hnone
    · rw [hread] at hk
      split at hk
      · obtain ⟨m, hm, ho⟩ := hs
        subst q
        exact ⟨m, Option.some.inj hk ▸ hm, hp m hm ho⟩
      · obtain ⟨m, hm, ho⟩ := h.shows q k hk
        exact ⟨m, hm, (hq q m ‹_›).mpr ho⟩
  · have ha : ∀ p : Part, a ≠ p.access := fun p hp => ha ⟨p, hp⟩
    obtain ⟨hv, hshows⟩ := access_of_ne s clock r ha
    refine ⟨fun q => ?_, hloads, fun hsome k => ?_, ?_, fun q k hk => ?_⟩
    · have := hcount q
      rw [if_neg (ha q)] at this
      rw [hv]
      exact this
    · rw [hv] at hsome
      exact hrest k (h.loaded hsome k)
    · rw [hv]
      exact h.versions
    · rw [hv] at hk
      obtain ⟨m, hm, ho⟩ := h.shows q k hk
      refine ⟨m, hm, (hshows q m fun hw j hj => ?_).mpr ho⟩
      subst q a
      exact h.loaded (by rw [hk]; rfl) j (ht ▸ List.mem_cons_self)

end Reader

section Samples

/-- A run that has just started. -/
def sample : Rungs ℚ where
  stats := ({} : Stats).markWindow "" 10 1
  interval := ⟨0, 0, 0, 0, 0, 0, 0, 0⟩
  harness := { windowDurationSec := 0 }
  prev := {}
  prevSteady := 1
  marks := [⟨"", 10, ({} : Stats).loadLifetime, []⟩]

theorem sample_started : Started sample := ⟨⟨{}, 10, 1, rfl, rfl⟩, rfl, rfl, rfl⟩

/-- A `statsJson` that has made `n` accesses when a rung is opened, and runs to its end. -/
def sampleRun (n : Nat) : List (RungEvent ℚ) :=
  .read .statsJson :: List.replicate n (.readStep 0 ⟨1, 10⟩) ++
    .openRung "r1" :: List.replicate (Stats.loads.length + 2) (.openStep 0 ⟨2, 20⟩) ++
    List.replicate (ReaderKind.statsJson.program.length + 1 - n) (.readStep 0 ⟨3, 30⟩)

/-- A check that no thread is torn. -/
def idle (s : Rungs ℚ) : RungEvent ℚ → Bool
  | .openStep .. => s.readers.all fun r => !decide r.versions.Between
  | _ => true

theorem quiet_of_idle (s : Rungs ℚ) (e : RungEvent ℚ) (h : s.idle e = true) : s.Quiet e := by
  intro hmark r hr
  cases e with
  | openStep i clock => simpa using List.all_eq_true.mp h r hr
  | _ => exact hmark.elim

end Samples

section Step

variable {s s' : Rungs K} {e : RungEvent K}

/-- What a step can do to the marks, the threads and the blobs. -/
theorem step_cases (hs : s.step e = some s') :
    (∃ a : Stats.Atom, s'.marks = s.marks.modify s.current (·.record a) ∧
      s'.stats = a.apply s.stats ∧ s'.emitted = s.emitted ∧ s'.readers = s.readers) ∨
    (s'.marks = s.marks ∧ (∀ m, s.stats.OpenedBy m → s'.stats.OpenedBy m) ∧
      s'.emitted = s.emitted ∧
      ((∀ r ∈ s'.readers, r ∈ s.readers) ∨
        (∃ r : Reader K,
          s'.readers = s.readers ++ [r] ∧ r.versions = {} ∧ r.todo = r.kind.program) ∨
        ∃ i clock r a todo, r ∈ s.readers ∧ r.todo = a :: todo ∧
          s'.readers = s.readers.set i { s.access clock r a with todo := todo })) ∨
    (s'.marks = s.marks ∧ s'.stats = s.stats ∧
      ∃ r ∈ s.readers, r.todo = [] ∧ s'.emitted = s.emitted ++ [r] ∧
        ∀ r ∈ s'.readers, r ∈ s.readers) ∨
    (s.Marks e ∧ ∃ m, s'.marks = s.marks ++ [m] ∧ s'.stats.OpenedBy m ∧
      s'.emitted = s.emitted ∧
      s'.readers = s.readers.map fun r => { r with versions := r.versions.replaced }) := by
  cases e with
  | atom a =>
    cases hs
    exact .inl ⟨a, rfl, rfl, rfl, rfl⟩
  | setSignIn =>
    cases hs
    exact .inr (.inl ⟨rfl, fun m h => ⟨h.1, h.2, h.3, h.4⟩, rfl, .inl fun _ h => h⟩)
  | harness h =>
    cases hs
    exact .inr (.inl ⟨rfl, fun _ h => h, rfl, .inl fun _ h => h⟩)
  | openRung id =>
    simp only [step] at hs
    split at hs <;> cases hs <;> exact .inr (.inl ⟨rfl, fun _ h => h, rfl, .inl fun _ h => h⟩)
  | openStep i clock =>
    simp only [step, openStep] at hs
    split at hs
    · cases hs
    · split at hs <;> cases hs <;> exact .inr (.inl ⟨rfl, fun _ h => h, rfl, .inl fun _ h => h⟩)
    · split at hs
      · cases hs
        exact .inr (.inl ⟨rfl, fun _ h => h, rfl, .inl fun _ h => h⟩)
      · cases hs
        exact .inr (.inr (.inr ⟨⟨_, _, _, ‹_›, ‹_›⟩, _, rfl, ⟨rfl, rfl, rfl, rfl⟩, rfl, rfl⟩))
  | read kind =>
    simp only [step] at hs
    split at hs
    · cases hs
    · cases hs
      exact .inr (.inl ⟨rfl, fun _ h => h, rfl, .inr (.inl ⟨_, rfl, rfl, rfl⟩)⟩)
  | readStep i clock =>
    simp only [step, readStep] at hs
    split at hs
    · cases hs
    · have hr := List.mem_of_getElem? ‹s.readers[i]? = some _›
      split at hs
      · cases hs
        exact .inr (.inr (.inl ⟨rfl, rfl, _, hr, ‹_›, rfl, fun _ => List.mem_of_mem_eraseIdx⟩))
      · cases hs
        exact .inr (.inl ⟨rfl, fun _ h => h, rfl, .inr (.inr ⟨i, clock, _, _, _, hr, ‹_›, rfl⟩)⟩)

theorem Inv.step (h : Inv s) (hs : s.step e = some s') : Inv s' := by
  obtain ⟨m, hm, ho⟩ := h.current
  rcases step_cases hs with ⟨a, hmarks, hstats, hemit, hreaders⟩ |
    ⟨hmarks, hstats, hemit, hreaders⟩ |
    ⟨hmarks, hstats, r, hr, ht, hemit, hreaders⟩ | ⟨-, n, hmarks, hn, hemit, hreaders⟩
  · refine ⟨⟨m.record a, ?_, hstats ▸ ho.atom a⟩, ?_, ?_⟩
    · rw [Rungs.current, hmarks, List.length_modify, List.getElem?_modify]
      simpa [Rungs.current] using congrArg (Option.map (·.record a)) hm
    · rw [hmarks, hreaders]
      exact fun r hr => (h.readers r hr).record s.current a
    · rw [hmarks, hemit]
      exact fun r hr => (h.emitted r hr).later (later_record s.marks s.current a)
  · refine ⟨⟨m, by rw [Rungs.current, hmarks]; exact hm, hstats m ho⟩, ?_, ?_⟩
    · rw [hmarks]
      rcases hreaders with hsub | ⟨r, hr, hv, ht⟩ | ⟨i, clock, r, a, todo, hr, ht, hset⟩
      · exact fun r hr => h.readers r (hsub r hr)
      · intro r' hr'
        rw [hr, List.mem_append, List.mem_singleton] at hr'
        rcases hr' with hr' | rfl
        · exact h.readers r' hr'
        · exact .start hv ht
      · intro r' hr'
        rw [hset] at hr'
        rcases List.mem_or_eq_of_mem_set hr' with hr' | rfl
        · exact h.readers r' hr'
        · exact (h.readers r hr).access h.current ht
    · rw [hmarks, hemit]
      exact h.emitted
  · refine ⟨⟨m, by rw [Rungs.current, hmarks]; exact hm, hstats ▸ ho⟩, ?_, ?_⟩
    · rw [hmarks]
      exact fun r hr => h.readers r (hreaders r hr)
    · intro r' hr'
      rw [hemit, List.mem_append, List.mem_singleton] at hr'
      rw [hmarks]
      rcases hr' with hr' | rfl
      · exact h.emitted r' hr'
      · exact (h.readers _ hr).emit ht
  · have hne : s.marks ≠ [] := by rintro hnil; simp [hnil] at hm
    refine ⟨⟨n, by simp [Rungs.current, hmarks], hn⟩, ?_, ?_⟩
    · intro r' hr'
      rw [hreaders] at hr'
      obtain ⟨r, hr, rfl⟩ := List.mem_map.mp hr'
      rw [hmarks]
      exact (h.readers r hr).mark hne n
    · rw [hmarks, hemit]
      exact fun r hr => (h.emitted r hr).later (later_append s.marks n)

omit [Field K] [LinearOrder K] in
theorem Inv.init (h : Started s) : Inv s := by
  obtain ⟨stats, epochSec, steady, hstats, hmarks⟩ := h.marked
  refine ⟨⟨⟨"", epochSec, stats.loadLifetime, []⟩, by simp [Rungs.current, hmarks], ?_⟩, ?_, ?_⟩
  · rw [hstats]
    exact ⟨rfl, rfl, rfl, rfl⟩
  · rw [h.readers]
    exact fun r hr => nomatch hr
  · rw [h.emitted]
    exact fun r hr => nomatch hr

theorem inv_of_reach (h : (system K).Reach s) : Inv s :=
  h.inv (fun _ => Inv.init) fun _ _ _ _ hi hs => hi.step hs

/-- A quiet step tears no thread's parts. -/
theorem torn_step (h : ∀ r, r ∈ s.readers ∨ r ∈ s.emitted → r.versions.torn = false)
    (hq : s.Quiet e) (hs : s.step e = some s') :
    ∀ r, r ∈ s'.readers ∨ r ∈ s'.emitted → r.versions.torn = false := by
  rcases step_cases hs with ⟨a, -, -, hemit, hreaders⟩ | ⟨-, -, hemit, hreaders⟩ |
    ⟨-, -, r, hr, -, hemit, hreaders⟩ | ⟨hmark, m, -, -, hemit, hreaders⟩
  · rw [hemit, hreaders]
    exact h
  · rintro r' (hr' | hr')
    · rcases hreaders with hsub | ⟨r, hr, hv, -⟩ | ⟨i, clock, r, a, todo, hr, -, hset⟩
      · exact h r' (.inl (hsub r' hr'))
      · rw [hr, List.mem_append, List.mem_singleton] at hr'
        rcases hr' with hr' | rfl
        · exact h r' (.inl hr')
        · rw [hv]
      · rw [hset] at hr'
        rcases List.mem_or_eq_of_mem_set hr' with hr' | rfl
        · exact h r' (.inl hr')
        · rw [← h r (.inl hr)]
          exact access_torn
    · exact h r' (.inr (hemit ▸ hr'))
  · rintro r' (hr' | hr')
    · exact h r' (.inl (hreaders r' hr'))
    · rw [hemit, List.mem_append, List.mem_singleton] at hr'
      rcases hr' with hr' | rfl
      · exact h r' (.inr hr')
      · exact h _ (.inl hr)
  · rintro r' (hr' | hr')
    · rw [hreaders] at hr'
      obtain ⟨r, hr, rfl⟩ := List.mem_map.mp hr'
      rw [← h r (.inl hr)]
      exact Versions.replaced_torn_of_not_between (hq hmark r hr)
    · exact h r' (.inr (hemit ▸ hr'))

/-- What each emitted blob shows was set by some `markWindow`, and it is one `markWindow` for
all three parts exactly if none came in between. -/
theorem emitted_whole_iff (h : (system K).Reach s) {r : Reader K} (hr : r ∈ s.emitted) :
    s.OneMark r ↔ r.versions.torn = false := by
  have hi := (inv_of_reach h).emitted r hr
  rw [← hi.whole]
  constructor
  · rintro ⟨k, m, -, hall⟩
    exact ⟨k, fun p => (hall p).1⟩
  · rintro ⟨k, hk⟩
    obtain ⟨j, m, hj, hm, -⟩ := hi.shows .rungId
    obtain rfl : k = j := Option.some.inj ((hk .rungId).symm.trans hj)
    refine ⟨k, m, hm, fun p => ⟨hk p, ?_⟩⟩
    obtain ⟨i, n, hi, hn, hp⟩ := hi.shows p
    obtain rfl : k = i := Option.some.inj ((hk p).symm.trans hi)
    rwa [Option.some.inj (hm.symm.trans hn)]

/-- **One mark for each blob.** When no `markWindow` takes its lock between a blob's first
and last part, the rung id, the opening time and the window are those of one `markWindow`. -/
theorem blob_one_mark (h : (system K).GReach Quiet s) : ∀ r ∈ s.emitted, s.OneMark r := by
  have htorn : ∀ r, r ∈ s.readers ∨ r ∈ s.emitted → r.versions.torn = false := by
    refine h.inv (I := fun s => ∀ r, r ∈ s.readers ∨ r ∈ s.emitted → r.versions.torn = false)
      (fun s hs r hr => ?_) fun s e s' _ hi hq hs => torn_step hi hq hs
    rw [hs.readers, hs.emitted] at hr
    rcases hr with hr | hr <;> nomatch hr
  exact fun r hr => (emitted_whole_iff h.reach hr).mpr (htorn r (.inr hr))

/-- A rung opened before the first part is the rung of the blob. -/
theorem blob_one_mark_run : ∃ s : Rungs ℚ, (system ℚ).GReach Quiet s ∧
    ∃ r ∈ s.emitted, r.blob.snapshot.rungId = "r1" ∧ s.OneMark r := by
  have hrun : ((System.exec (System.checked idle step) sample (sampleRun 1)).bind fun s =>
      s.emitted[0]?.map fun r => r.blob.snapshot.rungId) = some "r1" := by decide +kernel
  obtain ⟨s, hs, h⟩ := Option.bind_eq_some_iff.mp hrun
  obtain ⟨r, hr, hid⟩ := Option.map_eq_some_iff.mp h
  have hreach := System.GReach.exec quiet_of_idle (.init sample_started) hs
  exact ⟨s, hreach, r, List.mem_of_getElem? hr, hid,
    blob_one_mark hreach r (List.mem_of_getElem? hr)⟩

/-- A rung opened after the id was read labels its window with the id of the one before. -/
theorem blob_of_two_marks : ∃ s : Rungs ℚ, (system ℚ).Reach s ∧
    s.marks.map (fun m => (m.id, m.epochSec)) = [("", 10), ("r1", 20)] ∧
    ∃ r ∈ s.emitted, r.blob.snapshot.rungId = "" ∧ r.blob.snapshot.windowOpenEpochSec = 20 ∧
      ¬ s.OneMark r := by
  have hrun : ((System.exec step sample (sampleRun 2)).bind fun s =>
      s.emitted[0]?.map fun r => (s.marks.map fun m => (m.id, m.epochSec),
        r.blob.snapshot.rungId, r.blob.snapshot.windowOpenEpochSec, r.versions.torn)) =
      some ([("", 10), ("r1", 20)], "", 20, true) := by decide +kernel
  obtain ⟨s, hs, h⟩ := Option.bind_eq_some_iff.mp hrun
  obtain ⟨r, hr, hall⟩ := Option.map_eq_some_iff.mp h
  obtain ⟨hmarks, hid, hepoch, htorn⟩ := by simpa only [Prod.mk.injEq] using hall
  have hreach := System.Reach.exec (.init sample_started) hs
  have hmem := List.mem_of_getElem? hr
  exact ⟨s, hreach, hmarks, r, hmem, hid, hepoch,
    fun hone => by simp [(emitted_whole_iff hreach hmem).mp hone] at htorn⟩

end Step

end Rungs

end CksLoadtest
