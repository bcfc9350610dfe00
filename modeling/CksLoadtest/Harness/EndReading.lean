import CksLoadtest.Harness.RungFiles

/-!
# Where the end reading goes

The last write into a file is what the file holds. The end reading belongs into the file of the
rung closed last, and it gets there exactly when the two writes that compete for it go well and
come in the right order, and no other rung shares the file.
-/
namespace CksLoadtest

open Lib Lib.Transition

/-- The rung files from the start of the process to its end. -/
def rungFiles (K : Type*) [Field K] [LinearOrder K] {F : Type*} [DecidableEq F] (file : String → F)
    (statsDir : String) : System (RungFiles K F) (RungFiles.Event K) :=
  .ofPartial (fun s => s = {}) (RungFiles.step file statsDir)

namespace RungFiles

variable {K F : Type*} [DecidableEq F] (file : String → F) (statsDir : String)

/-- The close request and the end of the run are done. -/
def Done (s : RungFiles K F) : Prop := s.closing = .finished ∧ s.recording = .finished

/-- What the latest close of a rung left in the file it opened. -/
def ownFile (s : RungFiles K F) (id : String) : Option (Content K) :=
  (s.writes.find? fun w => w.id = id ∧ w.ending = false).map Entry.content

/-- The file of a rung holds a whole document of that rung with the end reading. -/
def Carried (s : RungFiles K F) (id : String) : Prop :=
  ∃ body, s.files (file (rungPath statsDir id)) = some ⟨body, true⟩ ∧ bodyRungId body = id ∧
    AtEndIs s.replayLoggingAtEnd body

/-- The file of the rung closed last carries the end reading, and the file of every other rung
is as its own close wrote it. -/
def EndFiled (s : RungFiles K F) : Prop :=
  ∀ last ∈ s.closed.head?, s.Carried file statsDir last ∧
    ∀ id ≠ last, ∀ x ∈ s.ownFile id, s.files (file (rungPath statsDir id)) = some x

/-- The end reading gets into the file of a rung: the rung is the one remembered when the reading
was stored and the second write comes last, or the close request copied the reading and its own
write stays. -/
def Reaches (s : RungFiles K F) (c : Cut) (last : String) : Prop :=
  c.written = .whole ∧ c.lastRungId = last ∧ (s.written ≠ .unopened → c.late = true) ∨
    s.written = .whole ∧ c.copied = false ∧ (c.written ≠ .unopened → c.late = true →
      file (rungPath statsDir c.lastRungId) ≠ file (rungPath statsDir last))

/-- Nothing of another rung was written into the file of a rung after its close wrote it. -/
def Apart (s : RungFiles K F) (c : Cut) (id : String) : Prop :=
  (∀ w ∈ s.writes.find? fun w =>
      w.ending = false ∧ file (rungPath statsDir w.id) = file (rungPath statsDir id), w.id = id) ∧
    (c.written ≠ .unopened →
      file (rungPath statsDir c.lastRungId) ≠ file (rungPath statsDir id))

/-- How the end of the run met the latest close request, and what became of the writes. -/
def Settled (s : RungFiles K F) : Prop :=
  ∀ last ∈ s.closed.head?, ∃ c ∈ s.cut, s.Reaches file statsDir c last ∧
    ∀ id ≠ last, (s.ownFile id).isSome → s.Apart file statsDir c id

variable {file statsDir} {s : RungFiles K F} {c : Cut}

theorem entry_opened {o : WriteOutcome} (h : o ≠ .unopened) (id : String) (body : Json K)
    (ending : Bool) : entry id body ending o = [⟨id, ⟨body, o = .whole⟩, ending⟩] := by
  cases o with
  | unopened => exact absurd rfl h
  | cutShort | whole => rfl

/-- An entry that puts the end reading into the file of a rung. -/
def Entry.Carries (w : Entry K) (atEnd last : String) : Prop :=
  w.id = last ∧ w.content.whole = true ∧ AtEndIs atEnd w.content.body

theorem Logged.carried_iff (h : Logged file statsDir s) (last : String) :
    s.Carried file statsDir last ↔
      ∃ w ∈ s.writes.find? fun w =>
          file (rungPath statsDir w.id) = file (rungPath statsDir last),
        w.Carries s.replayLoggingAtEnd last := by
  unfold Carried
  rw [h.files]
  constructor
  · rintro ⟨body, hfile, hid, hbody⟩
    obtain ⟨w, hw, hcontent⟩ := Option.map_eq_some_iff.mp hfile
    have htitled := h.titled w (List.mem_of_find?_eq_some hw)
    rw [hcontent] at htitled
    exact ⟨w, hw, htitled.symm.trans hid, by rw [hcontent], by rw [hcontent]; exact hbody⟩
  · rintro ⟨w, hw, hid, hwhole, hbody⟩
    have htitled := h.titled w (List.mem_of_find?_eq_some hw)
    refine ⟨w.content.body, Option.map_eq_some_iff.mpr ⟨w, hw, ?_⟩, htitled.trans hid, hbody⟩
    rw [← hwhole]

/-- What was closed before the end of the run does not carry its reading. -/
theorem Entry.Plain.not_carries {w : Entry K} (h : w.Plain) {atEnd : String} (hne : atEnd ≠ "")
    (last : String) : ¬ w.Carries atEnd last :=
  fun hcarries => hne (hcarries.2.2.unique h.2)

theorem carries_iff {o : WriteOutcome} {id last a b : String} {body : Json K}
    (hbody : AtEndIs a body) (ending : Bool) :
    Entry.Carries ⟨id, ⟨body, o = .whole⟩, ending⟩ b last ↔ id = last ∧ o = .whole ∧ a = b := by
  refine and_congr_right fun _ => and_congr decide_eq_true_iff ?_
  exact ⟨fun hb => hbody.unique hb, fun heq => heq ▸ hbody⟩

theorem Cut.read_eq_iff {atEnd : String} (h : atEnd ≠ "") :
    c.read atEnd = atEnd ↔ c.copied = false := by
  unfold Cut.read
  cases c.copied with
  | true => exact iff_of_false (Ne.symm h) nofun
  | false => exact iff_of_true rfl rfl

theorem find?_into_cons {f : F} {w : Entry K} {ws : List (Entry K)} {Q : Entry K → Prop} :
    (∃ v ∈ (w :: ws).find? fun v => file (rungPath statsDir v.id) = f, Q v) ↔
      file (rungPath statsDir w.id) = f ∧ Q w ∨
        file (rungPath statsDir w.id) ≠ f ∧
          ∃ v ∈ ws.find? fun v => file (rungPath statsDir v.id) = f, Q v := by
  by_cases hat : file (rungPath statsDir w.id) = f
  · rw [List.find?_cons_of_pos (by simpa using hat)]
    simp [hat]
  · rw [List.find?_cons_of_neg (by simpa using hat)]
    simp [hat]

/-- Rungs whose ids lead to different files are apart. -/
theorem apart_of_injective (hfile : Function.Injective file) {id : String}
    (hid : c.written ≠ .unopened → c.lastRungId ≠ id) : s.Apart file statsDir c id := by
  have hpath := hfile.comp (rungPath_injective statsDir)
  constructor
  · intro w hw
    have hat := List.find?_some hw
    exact hpath (of_decide_eq_true hat).2
  · exact fun hopened heq => hid hopened (hpath heq)

/-- Whether the end reading gets into the file of the rung closed last. -/
theorem Ended.carried_iff (h : Ended s c) (hlog : Logged file statsDir s) {last : String}
    (hlast : last ∈ s.closed.head?) :
    s.Carried file statsDir last ↔ s.Reaches file statsDir c last := by
  obtain ⟨closed, ended, rest, hclosed, hended, hrest, hwrites⟩ := h.writes
  have hnone : ¬ ∃ w ∈ rest.find? fun w =>
      file (rungPath statsDir w.id) = file (rungPath statsDir last),
      w.Carries s.replayLoggingAtEnd last := by
    rintro ⟨w, hw, hcarries⟩
    exact (hrest w (List.mem_of_find?_eq_some hw)).not_carries h.atEnd last hcarries
  have hsame : c.lastRungId = last →
      file (rungPath statsDir c.lastRungId) = file (rungPath statsDir last) :=
    fun heq => by rw [heq]
  have hread := Cut.read_eq_iff (c := c) h.atEnd
  rw [hlog.carried_iff, hwrites]
  unfold Reaches
  by_cases hwritten : s.written = .unopened
  · have hlate : c.late = false := by
      rw [Bool.eq_false_iff]
      exact fun hl => h.late hl hwritten
    rw [hwritten, hlate]
    by_cases hsecond : c.written = .unopened
    · rw [hsecond]
      exact iff_of_false hnone (by rintro (⟨hw, -⟩ | ⟨hw, -⟩) <;> cases hw)
    · rw [entry_opened hsecond]
      show (∃ w ∈ List.find? _ (_ :: rest), _) ↔ _
      rw [find?_into_cons, carries_iff hended]
      constructor
      · rintro (⟨-, hid, hwhole, -⟩ | ⟨-, hmem⟩)
        · exact .inl ⟨hwhole, hid, fun hne => absurd rfl hne⟩
        · exact absurd hmem hnone
      · rintro (⟨hwhole, hid, -⟩ | ⟨hw, -⟩)
        · exact .inl ⟨hsame hid, hid, hwhole, rfl⟩
        · cases hw
  · obtain rfl : s.rungId = last := Option.some.inj ((hlog.closed hwritten).symm.trans hlast)
    rw [entry_opened hwritten]
    cases hlate : c.late with
    | false =>
      -- the close request wrote last
      show (∃ w ∈ List.find? _ (_ :: _), _) ↔ _
      rw [find?_into_cons, carries_iff hclosed, hread]
      constructor
      · rintro (⟨-, -, hwhole, hcopied⟩ | ⟨hne, -⟩)
        · exact .inr ⟨hwhole, hcopied, fun _ hl => absurd hl nofun⟩
        · exact absurd rfl hne
      · rintro (⟨-, -, hlater⟩ | ⟨hwhole, hcopied, -⟩)
        · exact absurd (hlater hwritten) nofun
        · exact .inl ⟨rfl, rfl, hwhole, hcopied⟩
    | true =>
      by_cases hsecond : c.written = .unopened
      · rw [hsecond]
        show (∃ w ∈ List.find? _ (_ :: _), _) ↔ _
        rw [find?_into_cons, carries_iff hclosed, hread]
        constructor
        · rintro (⟨-, -, hwhole, hcopied⟩ | ⟨hne, -⟩)
          · exact .inr ⟨hwhole, hcopied, fun hno => absurd rfl hno⟩
          · exact absurd rfl hne
        · rintro (⟨hw, -⟩ | ⟨hwhole, hcopied, -⟩)
          · cases hw
          · exact .inl ⟨rfl, rfl, hwhole, hcopied⟩
      · -- the end of the run wrote last
        rw [entry_opened hsecond]
        show (∃ w ∈ List.find? _ (_ :: _ :: _), _) ↔ _
        rw [find?_into_cons, find?_into_cons, carries_iff hended, carries_iff hclosed, hread]
        constructor
        · rintro (⟨-, hid, hwhole, -⟩ | ⟨hother, ⟨-, -, hwhole, hcopied⟩ | ⟨hne, -⟩⟩)
          · exact .inl ⟨hwhole, hid, fun _ => rfl⟩
          · exact .inr ⟨hwhole, hcopied, fun _ _ => hother⟩
          · exact absurd rfl hne
        · rintro (⟨hwhole, hid, -⟩ | ⟨hwhole, hcopied, hother⟩)
          · exact .inl ⟨hsame hid, hid, hwhole, rfl⟩
          · exact .inr ⟨hother hsecond rfl, .inl ⟨rfl, rfl, hwhole, hcopied⟩⟩

/-- The first of the narrower kind, where the first of the wider kind is of the narrower one. -/
theorem find?_narrow {ws : List (Entry K)} {p q : Entry K → Bool} {w : Entry K}
    (h : ws.find? p = some w) (hw : q w = true) (hqp : ∀ v, q v = true → p v = true) :
    ws.find? q = some w := by
  obtain ⟨-, before, after, rfl, hbefore⟩ := List.find?_eq_some_iff_append.mp h
  refine List.find?_eq_some_iff_append.mpr ⟨hw, before, after, rfl, fun v hv => ?_⟩
  have hno := hbefore v hv
  cases hq : q v with
  | true =>
    rw [hqp v hq] at hno
    cases hno
  | false => rfl

/-- The second write is that of the rung found at the cut; of the closes only the last one's
document may have the end reading. -/
theorem Ended.mem_writes (h : Ended s c) (hlog : Logged file statsDir s) {last : String}
    (hlast : last ∈ s.closed.head?) {w : Entry K} (hw : w ∈ s.writes) :
    (w.ending = true ∧ w.id = c.lastRungId ∧ c.written ≠ .unopened ∧
        AtEndIs s.replayLoggingAtEnd w.content.body) ∨
      w.ending = false ∧ (w.id = last ∨ AtEndIs "" w.content.body) := by
  obtain ⟨closed, ended, rest, hclosed, hended, hrest, hwrites⟩ := h.writes
  have hmem : w ∈ entry c.lastRungId ended true c.written ∨
      w ∈ entry s.rungId closed false s.written ∨ w ∈ rest := by
    rw [hwrites] at hw
    rcases List.mem_append.mp hw with hnew | hold
    · split at hnew
      · exact (List.mem_append.mp hnew).imp id .inl
      · exact (List.mem_append.mp hnew).elim (fun hc => .inr (.inl hc)) .inl
    · exact .inr (.inr hold)
  rcases hmem with hsecond | hclose | hold
  · obtain ⟨hid, hending, hbody, hopened⟩ := mem_entry hsecond
    exact .inl ⟨hending, hid, hopened, hbody ▸ hended⟩
  · obtain ⟨hid, hending, -, hopened⟩ := mem_entry hclose
    obtain rfl : s.rungId = last := Option.some.inj ((hlog.closed hopened).symm.trans hlast)
    exact .inr ⟨hending, .inl hid⟩
  · exact .inr ⟨(hrest w hold).1, .inr (hrest w hold).2⟩

/-- Whether the file of another rung is as its own close wrote it. -/
theorem Ended.kept_iff (h : Ended s c) (hlog : Logged file statsDir s) {last : String}
    (hlast : last ∈ s.closed.head?) {id : String} (hid : id ≠ last) {x : Content K}
    (hown : s.ownFile id = some x) :
    s.files (file (rungPath statsDir id)) = some x ↔ s.Apart file statsDir c id := by
  obtain ⟨own, hfind, rfl⟩ := Option.map_eq_some_iff.mp hown
  obtain ⟨howned, hmem⟩ := And.intro (List.find?_some hfind) (List.mem_of_find?_eq_some hfind)
  obtain ⟨hname, hclosed⟩ := of_decide_eq_true howned
  have hblank : AtEndIs "" own.content.body := by
    rcases h.mem_writes hlog hlast hmem with ⟨hending, -⟩ | ⟨-, hlast' | hplain⟩
    · exact absurd (hclosed.symm.trans hending) nofun
    · exact absurd (hname.symm.trans hlast') hid
    · exact hplain
  rw [hlog.files]
  constructor
  · intro hfile
    obtain ⟨w, hw, hcontent⟩ := Option.map_eq_some_iff.mp hfile
    have hwmem := List.mem_of_find?_eq_some hw
    have hwid : w.id = id := by
      rw [← hlog.titled w hwmem, hcontent, hlog.titled own hmem, hname]
    have hwclosed : w.ending = false := by
      rcases h.mem_writes hlog hlast hwmem with ⟨-, -, -, hcarries⟩ | ⟨hw, -⟩
      · rw [hcontent] at hcarries
        exact absurd (hcarries.unique hblank) h.atEnd
      · exact hw
    refine ⟨fun v hv => ?_, fun hopened heq => ?_⟩
    · have hsame := find?_narrow (q := fun w => w.ending = false ∧
        file (rungPath statsDir w.id) = file (rungPath statsDir id)) hw
        (decide_eq_true ⟨hwclosed, by rw [hwid]⟩)
        fun _ hq => decide_eq_true (of_decide_eq_true hq).2
      obtain rfl := Option.some.inj (hsame.symm.trans hv)
      exact hwid
    · -- the second write would be the last one into the file
      have hex : ∃ v ∈ s.writes.find? fun v =>
          file (rungPath statsDir v.id) = file (rungPath statsDir id),
          v.ending = false ∧ v.id ≠ last := ⟨w, hw, hwclosed, hwid ▸ hid⟩
      obtain ⟨closed, ended, rest, -, -, -, hwrites⟩ := h.writes
      rw [hwrites, entry_opened hopened] at hex
      have hnot {ws : List (Entry K)} : ¬ ∃ v ∈ List.find?
          (fun v => file (rungPath statsDir v.id) = file (rungPath statsDir id))
          (⟨c.lastRungId, ⟨ended, c.written = .whole⟩, true⟩ :: ws),
          v.ending = false ∧ v.id ≠ last := by
        rw [find?_into_cons]
        rintro (⟨-, hending, -⟩ | ⟨hother, -⟩)
        · cases hending
        · exact hother heq
      by_cases hwritten : s.written = .unopened
      · rw [hwritten] at hex
        split at hex <;> exact hnot hex
      · rw [entry_opened hwritten] at hex
        split at hex
        · exact hnot hex
        · have hrung : s.rungId = last :=
            Option.some.inj ((hlog.closed hwritten).symm.trans hlast)
          rcases find?_into_cons.mp hex with ⟨-, -, hne⟩ | ⟨-, hex⟩
          · exact hne hrung
          · exact hnot hex
  · rintro ⟨hcloses, hsecond⟩
    obtain ⟨w, hw⟩ : ∃ w, s.lastInto file statsDir (file (rungPath statsDir id)) = some w :=
      Option.isSome_iff_exists.mp (List.find?_isSome.mpr
        ⟨own, hmem, decide_eq_true (by rw [hname])⟩)
    have hwmem := List.mem_of_find?_eq_some hw
    have hat := List.find?_some hw
    have hat : file (rungPath statsDir w.id) = file (rungPath statsDir id) := of_decide_eq_true hat
    have hwclosed : w.ending = false := by
      rcases h.mem_writes hlog hlast hwmem with ⟨-, hm, hopened, -⟩ | ⟨hw, -⟩
      · exact absurd (hm ▸ hat) (hsecond hopened)
      · exact hw
    have hsame := find?_narrow (q := fun w => w.ending = false ∧
      file (rungPath statsDir w.id) = file (rungPath statsDir id)) hw
      (decide_eq_true ⟨hwclosed, hat⟩) fun _ hq => decide_eq_true (of_decide_eq_true hq).2
    have hwid := hcloses w hsame
    have hfirst := find?_narrow (q := fun w => w.id = id ∧ w.ending = false) hsame
      (decide_eq_true ⟨hwid, hwclosed⟩) fun v hq => by
        obtain ⟨rfl, hv⟩ := of_decide_eq_true hq
        exact decide_eq_true ⟨hv, rfl⟩
    obtain rfl := Option.some.inj (hfirst.symm.trans hfind)
    rw [hw]
    rfl

variable [Field K] [LinearOrder K]

theorem rungFiles_inv (h : (rungFiles K file statsDir).Reach s) :
    Logged file statsDir s ∧ (Running s ∨ ∃ c, Ended s c) := by
  refine System.Reach.inv
    (I := fun s => Logged file statsDir s ∧ (Running s ∨ ∃ c, Ended s c)) ?_ ?_ h
  · rintro _ rfl
    obtain ⟨body, hbody⟩ := exists_atEndIs (K := K) ""
    refine ⟨⟨fun _ => rfl, nofun, fun hne => absurd rfl hne, fun hne => absurd rfl hne, rfl,
      trivial, trivial⟩, .inl ⟨rfl, rfl, trivial, body, [], nofun, hbody, rfl⟩⟩
  · rintro s e s' - ⟨hlog, hrun | ⟨c, hend⟩⟩ hs
    · exact ⟨hlog.step hs, hrun.step hlog hs⟩
    · exact ⟨hlog.step hs, .inr (hend.step hlog hs)⟩

/-- With no close request under way the end of the run finds the rung closed last. -/
theorem storeEnd_idle (h : (rungFiles K file statsDir).Reach s) (hclosing : s.closing = .finished)
    (on : Option Bool) :
    (s.storeEnd on).cut = some { copied := true, lastRungId := s.closed.head?.getD "" } := by
  have htip := (rungFiles_inv h).1.tip
  simp only [remembered, hclosing] at htip
  simp only [storeEnd, hclosing, htip, Closing.copied]

/-- When the close requests and the end of the run are done, the end reading stands in the file of
the rung closed last, and the file of every other rung is as its close wrote it, exactly when the
writes that decide it went well and met no other rung's file: the second one last and for the rung
closed last, or that rung's own with a copy of the reading. -/
theorem endFiled_iff (h : (rungFiles K file statsDir).Reach s) (hdone : s.Done) :
    s.EndFiled file statsDir ↔ s.Settled file statsDir := by
  obtain ⟨hlog, hstate⟩ := rungFiles_inv h
  obtain ⟨c, hend⟩ : ∃ c, Ended s c := by
    rcases hstate with hrun | hend
    · cases hrun.recording.symm.trans hdone.2
    · exact hend
  refine forall₂_congr fun last hlast => ?_
  rw [hend.cut]
  simp only [Option.mem_some_iff, exists_eq_left']
  refine and_congr (hend.carried_iff hlog hlast) (forall₂_congr fun id hid => ?_)
  constructor
  · intro hall hsome
    obtain ⟨x, hown⟩ := Option.isSome_iff_exists.mp hsome
    exact (hend.kept_iff hlog hlast hid hown).mp (hall x hown)
  · intro hapart x hown
    exact (hend.kept_iff hlog hlast hid hown).mpr (hapart (Option.isSome_of_mem hown))

def quiet (rungId : String) : StatsReading ℚ where
  snapshot := { rungId := rungId, windowDurationSec := 0 }
  lifetime := {}
  window := {}
  interval := ⟨0, 0, 0, 0, 0, 0, 0, 0⟩

/-- Three rungs are closed before the end of the run; the file of the second one does not open. -/
theorem endFiled_apart : ∃ s : RungFiles ℚ String,
    (rungFiles ℚ (id : String → String) "stats").Reach s ∧
    s.closed = ["r2", "a/b", "r1"] ∧ s.EndFiled id "stats" := by
  have hrun : ((System.exec (RungFiles.step (id : String → String) "stats") {}
      [.request, .readEnd, .build (quiet "r1"), .writeClosed .whole, .remember,
        .request, .readEnd, .build (quiet "a/b"), .writeClosed .unopened, .remember,
        .request, .readEnd, .build (quiet "r2"), .writeClosed .whole, .remember,
        .storeEnd (some false), .writeEnd .whole]).map fun s : RungFiles ℚ String =>
      (s.closing.isFinished, s.recording.isFinished, s.closed,
        s.cut.map fun c => decide (c.lastRungId = "r2" ∧ c.written = .whole ∧ c.late = true))) =
        some (true, true, ["r2", "a/b", "r1"], some true) := by decide +kernel
  obtain ⟨s, hs, hm⟩ := Option.map_eq_some_iff.mp hrun
  simp only [Prod.mk.injEq] at hm
  obtain ⟨hclosing, hrecording, hclosed, hcut⟩ := hm
  have hr : (rungFiles ℚ (id : String → String) "stats").Reach s :=
    System.Reach.exec (.init rfl) hs
  obtain ⟨c, hc, hwrote⟩ := Option.map_eq_some_iff.mp hcut
  obtain ⟨hlast, hwhole, hlate⟩ := of_decide_eq_true hwrote
  have hdone : s.Done :=
    ⟨Closing.finished_of hclosing, Recording.finished_of hrecording⟩
  refine ⟨s, hr, hclosed, (endFiled_iff hr hdone).mpr fun last hmem => ⟨c, hc, ?_, ?_⟩⟩
  · rw [hclosed] at hmem
    obtain rfl := Option.some.inj hmem
    exact .inl ⟨hwhole, hlast, fun _ => hlate⟩
  · intro id hid _
    rw [hclosed] at hmem
    obtain rfl := Option.some.inj hmem
    exact apart_of_injective Function.injective_id fun _ => hlast ▸ Ne.symm hid

/-- The end reading is taken when the rung closed last has been read and not yet written: it goes
to the file of the rung before, and the rung closed last stays without it. -/
theorem end_reading_misfiled : ∃ s : RungFiles ℚ String,
    (rungFiles ℚ (id : String → String) "stats").Reach s ∧ s.Done ∧
      ¬ s.EndFiled id "stats" := by
  have hrun : ((System.exec (RungFiles.step (id : String → String) "stats") {}
      [.request, .readEnd, .build (quiet "r1"), .writeClosed .whole, .remember,
        .request, .readEnd, .storeEnd (some false), .writeEnd .whole, .build (quiet "r2"),
        .writeClosed .whole, .remember]).map fun s : RungFiles ℚ String =>
      (s.closing.isFinished, s.recording.isFinished, s.closed.head?, s.replayLoggingAtEnd,
        (s.files (rungPath "stats" "r2")).bind fun x => x.body.strField? AT_END)) =
        some (true, true, some "r2", "off", some "") := by decide +kernel
  obtain ⟨s, hs, hm⟩ := Option.map_eq_some_iff.mp hrun
  simp only [Prod.mk.injEq] at hm
  obtain ⟨hclosing, hrecording, hhead, hon, hr2⟩ := hm
  refine ⟨s, System.Reach.exec (.init rfl) hs,
    ⟨Closing.finished_of hclosing, Recording.finished_of hrecording⟩, fun h => ?_⟩
  obtain ⟨body, hfile, -, hbody⟩ := (h "r2" hhead).1
  have hfile : s.files (rungPath "stats" "r2") = some ⟨body, true⟩ := hfile
  rw [hfile, Option.bind_some, hbody.strField?, hon] at hr2
  exact absurd hr2 (by decide)

end RungFiles

end CksLoadtest
