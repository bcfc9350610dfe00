import CksLoadtest.Protocol.Atoms
import CksLoadtest.Stats.Reporter
import CksLoadtest.Stats.Summary

/-!
# Snapshots taken while refusals are counted

A snapshot of the running counters is not of one moment. The explanations of the UNAUTHORIZED
refusals are loaded before the refusals themselves, and counted after them: so no snapshot
explains more of them than it has.
-/
namespace CksLoadtest

open Lib Lib.Transition

namespace Rungs

variable {K : Type*} [Field K] [LinearOrder K] {s s' : Rungs K}

/-- The load that takes an error code. -/
def codeAccess (c : Fin 256) : Access := .lifetime (Stats.codeLoad c)

/-- An access takes the error code it loads, and no other. -/
theorem access_code (s : Rungs K) (clock : Clock) (r : Reader K) (a : Access) (c : Fin 256) :
    getElem (s.access clock r a).blob.lifetime.errorCodes c (code_lt c) =
      if a = codeAccess c then getElem s.stats.errorCodes c (code_lt c)
      else getElem r.blob.lifetime.errorCodes c (code_lt c) := by
  rcases s.access_lifetime clock r a with ⟨k, f, rfl, hf, hlife⟩ | ⟨hlife, hlong⟩
  · simp only [hlife, codeAccess, Access.lifetime.injEq]
    exact Stats.code_load hf s.stats r.blob.lifetime c
  · have hc := code_lt c
    have hother : a ≠ codeAccess c := by
      intro ha
      have hlen := hlong _ ha
      rw [Stats.length_loads] at hlen
      unfold Stats.codeLoad at hlen
      omega
    simp only [hlife, if_neg hother]

/-- What a thread has of the refusals and their explanations. -/
structure Explains (s : Rungs K) (r : Reader K) : Prop where
  rest : r.todo <:+ r.kind.program
  upto : ∀ c, r.blob.lifetime.count c ≤ s.stats.loadLifetime.count c
  counted : r.blob.lifetime.unauthorizedFirstContact + r.blob.lifetime.unauthorizedWindowReload ≤
    getElem s.stats.errorCodes (7 : Fin 256) unauthorized_lt
  /-- Once the refusals are loaded. -/
  explained : codeAccess 7 ∉ r.todo →
    r.blob.lifetime.unauthorizedFirstContact + r.blob.lifetime.unauthorizedWindowReload ≤
      getElem r.blob.lifetime.errorCodes (7 : Fin 256) unauthorized_lt

theorem codeAccess_mem (c : Fin 256) (kind : ReaderKind) : codeAccess c ∈ kind.program := by
  apply kind.lifetime_mem
  rw [Stats.length_loads]
  have hc := code_lt c
  unfold Stats.codeLoad
  omega

theorem Explains.fresh (s : Rungs K) (kind : ReaderKind) : Explains s (Rungs.fresh kind) where
  rest := List.suffix_refl _
  upto := (Reads.fresh s kind).upto
  counted := Nat.zero_le _
  explained h := absurd (codeAccess_mem 7 kind) h

omit [Field K] [LinearOrder K] in
/-- Counters that grow. -/
theorem Explains.grow {r : Reader K} (h : Explains s r)
    (hcount : ∀ c, s.stats.loadLifetime.count c ≤ s'.stats.loadLifetime.count c)
    (hcode : getElem s.stats.errorCodes (7 : Fin 256) unauthorized_lt ≤
      getElem s'.stats.errorCodes (7 : Fin 256) unauthorized_lt) : Explains s' r where
  rest := h.rest
  upto c := (h.upto c).trans (hcount c)
  counted := h.counted.trans hcode
  explained := h.explained

/-- One access, at a moment when the counters agree. -/
theorem Explains.access {r : Reader K} {a : Access} {todo : List Access} (h : Explains s r)
    (hs : s.stats.unauthorizedFirstContact + s.stats.unauthorizedWindowReload ≤
      getElem s.stats.errorCodes (7 : Fin 256) unauthorized_lt)
    (ht : r.todo = a :: todo) (clock : Clock) :
    Explains s { s.access clock r a with todo := todo } := by
  have hsuffix : a :: todo <:+ r.kind.program := ht ▸ h.rest
  have hfirst := access_count s clock r a .unauthorizedFirstContact
  have hreload := access_count s clock r a .unauthorizedWindowReload
  have hcode := access_code s clock r a 7
  have huptoFirst := h.upto .unauthorizedFirstContact
  have huptoReload := h.upto .unauthorizedWindowReload
  have hcounted := h.counted
  simp only [CounterSnap.count] at hfirst hreload huptoFirst huptoReload
  have hsum : (s.access clock r a).blob.lifetime.unauthorizedFirstContact +
      (s.access clock r a).blob.lifetime.unauthorizedWindowReload ≤
        getElem s.stats.errorCodes (7 : Fin 256) unauthorized_lt := by
    rw [hfirst, hreload]
    split <;> split <;> simp only [Stats.loadLifetime] at * <;> omega
  refine ⟨?_, fun c => ?_, hsum, fun hc => ?_⟩
  · exact access_kind s clock r a ▸ (List.suffix_cons a todo).trans hsuffix
  · dsimp only
    rw [access_count]
    split
    · exact le_refl _
    · exact h.upto c
  · dsimp only at hc ⊢
    by_cases ha : a = codeAccess 7
    · rw [if_pos ha] at hcode
      exact hcode ▸ hsum
    · -- the explanations are not loaded any more: their loads come before
      have hlate : ∀ c : Counter, a ≠ c.access := by
        intro c hac
        subst hac
        refine hc (mem_of_suffix hsuffix (ReaderKind.program_ordered _) (codeAccess_mem 7 _)
          (fun heq => ha heq.symm) fun hbefore => ?_)
        have hlt := hbefore.1 _ _ rfl rfl
        have hload := Stats.load_lt c
        unfold Stats.codeLoad at hlt
        omega
      rw [if_neg ha] at hcode
      rw [if_neg (hlate _)] at hfirst hreload
      rw [hfirst, hreload, hcode]
      apply h.explained
      rw [ht, List.mem_cons, not_or]
      exact ⟨fun heq => ha heq.symm, hc⟩

/-- The refusals are explained in every snapshot. -/
structure Explaining (s : Rungs K) : Prop where
  readers : ∀ r ∈ s.readers, Explains s r
  emitted : ∀ r ∈ s.emitted,
    r.blob.lifetime.unauthorizedFirstContact + r.blob.lifetime.unauthorizedWindowReload ≤
      getElem r.blob.lifetime.errorCodes (7 : Fin 256) unauthorized_lt

/-- A step from a moment when the counters agree. -/
theorem Explaining.step {e : RungEvent K} (h : Explaining s)
    (hagree : s.stats.unauthorizedFirstContact + s.stats.unauthorizedWindowReload ≤
      getElem s.stats.errorCodes (7 : Fin 256) unauthorized_lt)
    (hs : s.step e = some s') : Explaining s' := by
  have hgrow : ∀ r, Explains s r → Explains s' r := fun r hr =>
    hr.grow (count_mono hs) (code_mono hs 7)
  cases step_moves hs with
  | other f _ hemit hreaders =>
    refine ⟨fun r hr => ?_, hemit ▸ h.emitted⟩
    rw [hreaders] at hr
    obtain ⟨r', hr', rfl⟩ := List.mem_map.mp hr
    have hgrown := hgrow r' (h.readers r' hr')
    exact ⟨hgrown.rest, hgrown.upto, hgrown.counted, hgrown.explained⟩
  | start kind _ hstart =>
    subst hstart
    refine ⟨fun r hr => ?_, h.emitted⟩
    rcases List.mem_append.mp hr with hr | hr
    · exact hgrow r (h.readers r hr)
    · rw [List.mem_singleton.mp hr]
      exact .fresh _ kind
  | access i clock r a todo hr ht _ _ hemit hreaders =>
    have hread := (h.readers r (List.mem_of_getElem? hr)).access hagree ht clock
    refine ⟨fun r' hr' => ?_, hemit ▸ h.emitted⟩
    rw [hreaders] at hr'
    rcases List.mem_or_eq_of_mem_set hr' with hr' | rfl
    · exact hgrow r' (h.readers r' hr')
    · exact hgrow _ hread
  | emit i r hr ht _ _ hemit hreaders =>
    have hread := h.readers r (List.mem_of_getElem? hr)
    refine ⟨fun r' hr' => ?_, fun r' hr' => ?_⟩
    · rw [hreaders] at hr'
      exact hgrow r' (h.readers r' (List.mem_of_mem_eraseIdx hr'))
    · rw [hemit] at hr'
      rcases List.mem_append.mp hr' with hr' | hr'
      · exact h.emitted r' hr'
      · obtain rfl := List.mem_singleton.mp hr'
        exact hread.explained (ht ▸ List.not_mem_nil)

end Rungs

namespace Protocol.Fine

variable {K : Type*} [Field K] [LinearOrder K] [FloorRing K] {P : Platform K} {cfg : Config K}
  {n : Nat} {s : Fine K n}

theorem explaining_of_reach (h : (system P cfg n).Reach s) : s.rungs.Explaining := by
  refine System.Reach.inv (I := fun s => s.rungs.Explaining) ?_ ?_ h
  · intro s hs
    refine ⟨fun r hr => ?_, fun r hr => ?_⟩
    · rw [hs.rungs.readers] at hr
      cases hr
    · rw [hs.rungs.emitted] at hr
      cases hr
  · intro s e s' hr ih hs
    have hagree := (counters_coherent hr).1.expected
    rcases step_cases hs with ⟨b, -, hb⟩ | ⟨t, -, ht⟩ | ⟨r, rungs, -, -, hstep, rfl⟩
    · have hsame : s'.rungs = s.rungs := by
        unfold Fine.begin at hb
        split at hb
        · obtain ⟨sys, -, rfl⟩ := Option.map_eq_some_iff.mp hb
          rfl
        · obtain ⟨-, hb⟩ := Option.ite_none_right_eq_some.mp hb
          obtain ⟨sys, -, rfl⟩ := Option.map_eq_some_iff.mp hb
          rfl
      exact hsame ▸ ih
    · unfold Fine.atom at ht
      split at ht
      · cases ht
      · obtain ⟨rungs, hstep, rfl⟩ := Option.map_eq_some_iff.mp ht
        exact ih.step hagree hstep
    · exact ih.step hagree hstep

/-- **No refusal is explained twice.** A snapshot is loaded counter by counter while refusals are
counted; still the three parts of its UNAUTHORIZED refusals, as the report prints them, add up to
the row of that code. -/
theorem snapshot_explained (h : (system P cfg n).Reach s) {r : Reader K}
    (hr : r ∈ s.rungs.emitted) :
    (∀ part : UnauthorizedPart, (errorsJson K r.blob.lifetime).field? part.key =
      some (.int (part.count r.blob.lifetime))) ∧
    UnauthorizedPart.firstContact.count r.blob.lifetime +
        UnauthorizedPart.windowReload.count r.blob.lifetime +
        UnauthorizedPart.unexplained.count r.blob.lifetime =
      getElem r.blob.lifetime.errorCodes (7 : Fin 256) unauthorized_lt := by
  have hle := (explaining_of_reach h).emitted r hr
  refine ⟨fun part => errorsJson_part r.blob.lifetime part, ?_⟩
  simp only [UnauthorizedPart.count]
  omega

/-- A snapshot loaded while a worker has counted a refusal and not yet its explanation. -/
def halfExplained : List (Event ℚ 1) :=
  Sample.started.map Event.begin ++
    [.atom (some 0), .rungs (.read .statsJson),
      .begin (.rxBegin 0 0 2 0 [Wire.GENERIC_ERROR_MESSAGE, 0, Wire.ERR_UNAUTHORIZED]),
      .atom (some 0), .atom (some 0), .begin (.rxMember 0 ⟨3, 3⟩), .atom (some 0),
      .atom (some 0)] ++
    List.replicate (ReaderKind.statsJson.program.length + 1) (.rungs (.readStep 0 ⟨3, 30⟩))

theorem snapshot_explained_half : ∃ s : Fine ℚ 1,
    (s.todo (some 0)).length = 1 ∧ ∃ r ∈ s.rungs.emitted,
      getElem r.blob.lifetime.errorCodes (7 : Fin 256) unauthorized_lt = 1 ∧
      UnauthorizedPart.firstContact.count r.blob.lifetime +
          UnauthorizedPart.windowReload.count r.blob.lifetime +
          UnauthorizedPart.unexplained.count r.blob.lifetime =
        getElem r.blob.lifetime.errorCodes (7 : Fin 256) unauthorized_lt := by
  have hrun : ((System.exec (step Sample.platform Sample.config) sample halfExplained).bind
      fun s => s.rungs.emitted[0]?.map fun r => ((s.todo (some 0)).length,
        getElem r.blob.lifetime.errorCodes (7 : Fin 256) unauthorized_lt)) = some (1, 1) := by
    decide +kernel
  obtain ⟨s, hs, h⟩ := Option.bind_eq_some_iff.mp hrun
  obtain ⟨r, hr, hm⟩ := Option.map_eq_some_iff.mp h
  obtain ⟨htodo, hcode⟩ := Prod.mk.inj hm
  have hreach := System.Reach.exec (.init sample_started) hs
  have hmem := List.mem_of_getElem? hr
  exact ⟨s, htodo, r, hmem, hcode, (snapshot_explained hreach hmem).2⟩

end Protocol.Fine

end CksLoadtest
