import CksLoadtest.Protocol.Lives
import CksLoadtest.Protocol.Sends
import CksLoadtest.Worker.Diary

/-!
# Sequence numbers and capabilities over whole runs

Every run of the process writes a diary of each client. Whatever the order of updates,
activations, sends and received datagrams, the datagrams in it are numbered without a gap, and
each activation is followed by a CLIENT_CAPABILITIES before anything else is built.
-/
namespace CksLoadtest.Protocol.Sys

open Lib.Buffer Lib.Transition Lib.Trace
open Worker (Entry Keeps Linked Numbered Recent datagrams sends signed)

variable {K : Type*} {n : Nat}

section Clock

/-- The last reading of a worker's clock, and the one of its loop pass. -/
def readings (s : Sys K n) (w : Fin n) : Int × Int := ((s.workers w).clock, (s.workers w).nowNs)

/-- The steady clock does not read below zero. -/
def Steady (s : Sys K n) : Prop := ∀ w, 0 ≤ (s.readings w).1 ∧ 0 ≤ (s.readings w).2

variable {s s' : Sys K n}

theorem Steady.of_same (h : Steady s) (hr : s'.readings = s.readings) : Steady s' := by
  unfold Steady
  rwa [hr]

theorem readings_setWorker (s : Sys K n) {w : Fin n} {x : WorkerSt K n}
    (hx : (x.clock, x.nowNs) = s.readings w) : (s.setWorker w x).readings = s.readings := by
  funext v
  show ((Function.update s.workers w x v).clock, (Function.update s.workers w x v).nowNs) = _
  rw [Function.update_apply]
  split
  · rename_i hv
    rw [hx, hv]
  · rfl

theorem readings_commit (s : Sys K n) (w : Fin n) (i : Nat) (o : Worker.Out K) :
    (s.commit w i o).readings = s.readings := by
  have hw := commit_workers s w i o
  refine Eq.trans ?_ (readings_setWorker s (w := w) (x := (s.workers w).setClient i o.1) rfl)
  funext v
  unfold readings
  rw [hw]
  rfl

/-- A reading that is not negative is stored. -/
theorem Steady.setWorker (h : Steady s) {w : Fin n} {x : WorkerSt K n} (hclock : 0 ≤ x.clock)
    (hnow : 0 ≤ x.nowNs) : Steady (s.setWorker w x) := by
  intro v
  show 0 ≤ (Function.update s.workers w x v).clock ∧ 0 ≤ (Function.update s.workers w x v).nowNs
  rw [Function.update_apply]
  split
  · exact ⟨hclock, hnow⟩
  · exact h v

variable [Field K] [LinearOrder K] [FloorRing K] {P : Platform K} {cfg : Config K}

theorem Steady.step (h : Steady s) {e : Event K n} (hs : s.step P cfg e = some s') :
    Steady s' := by
  cases step_cases hs with
  | addClient | startWorker | stopWorker | applyPendingClients | takeInbox | post =>
    exact h.of_same (readings_setWorker s rfl)
  | @tick w now nowNs _ hclock hnow =>
    have hread : 0 ≤ nowNs := (h w).1.trans (hclock.trans hnow)
    exact h.setWorker hread hread
  | applyUpdate | rxMember | rxEnd =>
    exact h.of_same ((readings_commit ..).trans (readings_setWorker s rfl))
  | activate | sendDue => exact h.of_same (readings_commit ..)
  | @rxBegin w i rxNs nowMs data c _ _ _ hclock =>
    refine Steady.of_same ?_ (readings_commit ..)
    exact h.setWorker ((h w).1.trans hclock) (h w).2
  | refresh =>
    unfold Sys.refresh
    dsimp only
    split <;> exact h
  | rxDropped | pop | place | shutdown | exit => exact h

end Clock

section Diary

variable [Field K] [LinearOrder K] [FloorRing K] (P : Platform K) (cfg : Config K)

/-- What an event adds to the diary of client `i` of worker `w`. -/
def entries (w : Fin n) (i : Nat) (s : Sys K n) (e : Event K n) : List (Entry K) :=
  match s.client? w i, s.turn? e with
  | some c, some (v, j, t) => if v = w ∧ j = i then t.entries P cfg c else []
  | _, _ => []

/-- The diary of a client over a run from the start of the process. -/
def diary (w : Fin n) (i : Nat) (es : List (Event K n)) : List (Entry K) :=
  trace (step P cfg) (entries P cfg w i) {} es

/-- The datagrams handed to `send` for one client. -/
def sentBy (w : Fin n) (i : Nat) (s : Sys K n) : List Bytes :=
  (s.hist.sent.filter fun d => d.worker = w ∧ d.slot = i).map Sent.bytes

variable {P} {cfg} {s s' : Sys K n} {e : Event K n} {w : Fin n} {i : Nat} {c : SimClient K}

theorem entries_turn {t : Worker.Turn K} (hc : s.client? w i = some c)
    (ht : s.turn? e = some (w, i, t)) : entries P cfg w i s e = t.entries P cfg c := by
  unfold entries
  rw [hc, ht]
  exact if_pos ⟨rfl, rfl⟩

theorem entries_rest (h : s.client? w i = none ∨ ∀ t, s.turn? e ≠ some (w, i, t)) :
    entries P cfg w i s e = [] := by
  unfold entries
  split
  · rename_i v j t hc ht
    refine if_neg ?_
    rintro ⟨rfl, rfl⟩
    rcases h with h | h
    · cases h.symm.trans hc
    · exact h t ht
  · rfl

omit [LinearOrder K] [FloorRing K] in
theorem turn?_send {nowSec : K} {inputs : Worker.SendInputs K}
    (ht : s.turn? e = some (w, i, .send nowSec inputs)) :
    e = .sendDue w i inputs ∧ nowSec = steadySeconds (s.workers w).nowNs := by
  cases e with
  | sendDue v j inputs' =>
    obtain ⟨rfl, rfl, rfl, rfl⟩ : v = w ∧ j = i ∧ steadySeconds (s.workers v).nowNs = nowSec ∧
        inputs' = inputs := by simpa [turn?] using ht
    exact ⟨rfl, rfl⟩
  | rxMember | rxEnd =>
    unfold turn? at ht
    dsimp only at ht
    split at ht
    · cases ht
    · cases ht
  | _ => simp [turn?] at ht

/-- A turn of the process reads a clock that is not negative. -/
theorem Steady.timely [IsStrictOrderedRing K] (h : Steady s) {t : Worker.Turn K}
    (ht : s.turn? e = some (w, i, t)) : t.Timely := by
  cases t with
  | send nowSec inputs =>
    obtain ⟨-, rfl⟩ := turn?_send ht
    exact div_nonneg (Int.cast_nonneg (h w).2) (by norm_num)
  | _ => trivial

/-- Only a send writes datagrams down. -/
theorem signed_entries_nil (he : ∀ v j inputs, e ≠ .sendDue v j inputs) :
    signed (entries P cfg w i s e) = [] := by
  unfold entries
  split
  · rename_i v j t hc ht
    split
    · cases t with
      | send nowSec inputs => exact absurd (turn?_send ht).1 (he v j inputs)
      | activate now nowSec draws outcome =>
        show signed (if Worker.Due now _ then [.activated _] else []) = []
        split <;> rfl
      | _ => rfl
    · rfl
  · rfl

omit [Field K] [LinearOrder K] [FloorRing K] in
theorem sentBy_commit (t : Sys K n) (v : Fin n) (j : Nat) (o : Worker.Out K) :
    (t.commit v j o).sentBy w i =
      t.sentBy w i ++ if v = w ∧ j = i then (sends o.2).map Prod.snd else [] := by
  unfold sentBy
  rw [sent_commit, List.filter_append, List.map_append, List.filter_map]
  by_cases hvj : v = w ∧ j = i
  · simp [hvj, Function.comp_def]
  · simp [hvj, Function.comp_def]

/-- What a turn hands over is what its event writes down and could be signed. -/
theorem signed_turn {o : Worker.Out K} (hc : s.client? w i = some c)
    (ho : Turn P cfg s w i c e o) :
    (sends o.2).map Prod.snd = signed (entries P cfg w i s e) := by
  have hnone {es : List (Effect K)} (hes : sends es = [])
      (he : ∀ v j inputs, e ≠ .sendDue v j inputs) :
      (sends es).map Prod.snd = signed (entries P cfg w i s e) := by
    rw [hes, signed_entries_nil he]
    rfl
  cases ho with
  | activate draws outcome =>
    rw [entries_turn hc rfl]
    exact Worker.Turn.signed_entries P cfg (.activate _ _ draws outcome) c
  | send inputs =>
    rw [entries_turn hc rfl]
    exact Worker.Turn.signed_entries P cfg (.send _ inputs) c
  | update hu => exact hnone (Worker.applyUpdate_silent cfg _ c) nofun
  | rxBegin rxNs nowMs data =>
    exact hnone (Worker.beginDatagram_suspends P rxNs nowMs data c).silent nofun
  | rxMember signedBundle nowMs r m =>
    exact hnone (Worker.handleMember_suspends P cfg signedBundle nowMs r m c).silent nofun
  | rxEnd ok => exact hnone (Worker.endDatagram_suspends ok c).silent nofun

/-- Along a step a client hands over what its diary says. -/
theorem sentBy_step (hs : s.step P cfg e = some s') :
    s'.sentBy w i = s.sentBy w i ++ signed (entries P cfg w i s e) := by
  by_cases he : ∃ v j inputs, e = .sendDue v j inputs
  · obtain ⟨v, j, inputs, rfl⟩ := he
    obtain ⟨-, hs⟩ := Option.ite_none_right_eq_some.mp hs
    obtain ⟨c, hc, rfl⟩ := Option.map_eq_some_iff.mp hs
    rw [sentBy_commit]
    by_cases hvj : v = w ∧ j = i
    · obtain ⟨rfl, rfl⟩ := hvj
      rw [if_pos ⟨rfl, rfl⟩, signed_turn hc (.send inputs)]
    · rw [if_neg hvj, entries_rest (.inr fun t ht => ?_)]
      · rfl
      · obtain ⟨rfl, rfl, -⟩ := Option.some.inj ht
        exact hvj ⟨rfl, rfl⟩
  · have hne : ∀ v j inputs, e ≠ .sendDue v j inputs := fun v j inputs h => he ⟨v, j, inputs, h⟩
    rw [signed_entries_nil hne, List.append_nil]
    cases step_moves P cfg hs with
    | same hsame =>
      unfold sentBy
      rw [hsame.sent]
    | enroll v henroll =>
      subst henroll
      rfl
    | @turn v j c o t hc ho ht hcommit =>
      subst hcommit
      have hsent : t.sentBy w i = s.sentBy w i := by
        unfold sentBy
        rw [ht.sent]
      rw [sentBy_commit, hsent]
      by_cases hvj : v = w ∧ j = i
      · obtain ⟨rfl, rfl⟩ := hvj
        rw [signed_turn hc ho, signed_entries_nil hne, ite_self, List.append_nil]
      · rw [if_neg hvj, List.append_nil]

/-- Everything a run and the diary of one of its clients agree on. -/
structure Recorded (P : Platform K) (cfg : Config K) (w : Fin n) (i : Nat) (s : Sys K n)
    (l : List (Entry K)) : Prop where
  steady : Steady s
  absent : s.client? w i = none → l = []
  keeps : ∀ c, s.client? w i = some c → Keeps P cfg c l
  sent : s.sentBy w i = signed l

theorem Recorded.step [IsStrictOrderedRing K] {l : List (Entry K)} (h : Recorded P cfg w i s l)
    (hs : s.step P cfg e = some s') : Recorded P cfg w i s' (l ++ entries P cfg w i s e) where
  steady := h.steady.step hs
  absent := fun hnone => by
    have habsent : s.client? w i = none := by
      by_contra hsome
      have hstays := client_stays hs (Option.isSome_iff_ne_none.mpr hsome)
      rw [hnone] at hstays
      cases hstays
    rw [h.absent habsent, entries_rest (.inl habsent), List.append_nil]
  keeps := fun c' hc' => by
    rcases client_step hs hc' with
      ⟨habsent, creds, activateAt, rfl⟩ | ⟨hc, ht⟩ | ⟨c, t, hc, ht, rfl⟩
    · rw [h.absent habsent, entries_rest (.inl habsent), List.append_nil]
      exact Keeps.fresh creds activateAt
    · rw [entries_rest (.inr ht), List.append_nil]
      exact h.keeps c' hc
    · rw [entries_turn hc ht]
      exact (h.keeps c hc).turn (h.steady.timely ht)
  sent := by
    rw [sentBy_step hs, h.sent, Worker.signed_append]

/-- **Run lemma.** -/
theorem recorded [IsStrictOrderedRing K] {es : List (Event K n)}
    (hrun : System.exec (Sys.step P cfg) {} es = some s) (w : Fin n) (i : Nat) :
    Recorded P cfg w i s (diary P cfg w i es) := by
  have habsent : ({} : Sys K n).client? w i = none := List.getElem?_nil
  have hstart : Recorded P cfg w i {} [] := by
    refine ⟨fun _ => ⟨le_rfl, le_rfl⟩, fun _ => rfl, fun c hc => ?_, rfl⟩
    cases habsent.symm.trans hc
  show Recorded P cfg w i s ([] ++ trace (Sys.step P cfg) (entries P cfg w i) {} es)
  refine exec_trace (I := Recorded P cfg w i) (fun s l e s' h hs => ?_) hstart hrun
  exact h.step hs

/-- **Sequence numbers and capabilities.** In every run and for every client, the datagrams built
are numbered 0, 1, 2, … modulo 256, and those that could be signed are the ones handed to `send`.
With capabilities on and an interval of at most 10⁹ seconds, the first one after an activation is
a CLIENT_CAPABILITIES signed with the token of that activation, and no update is built when the
latest one is as old as the interval. -/
theorem diary_numbered [IsStrictOrderedRing K] {es : List (Event K n)}
    (hrun : System.exec (Sys.step P cfg) {} es = some s) (w : Fin n) (i : Nat) :
    let l := diary P cfg w i es
    s.sentBy w i = signed l ∧ Numbered l ∧
      (cfg.clientCaps = true → cfg.capsIntervalSec ≤ 1000000000 →
        (∀ pre creds b, pre ++ [.activated creds, .built b] <+: l →
          b.creds = creds ∧ b.Announces P cfg creds) ∧
        ∀ pre b, pre ++ [.built b] <+: l → b.content = .update → Recent cfg pre b.nowSec) := by
  intro l
  have h : Recorded P cfg w i s l := recorded hrun w i
  have hwritten : Numbered l ∧ Each (fun pre e => ∀ b ∈ e.built?, b.Follows P cfg pre) l := by
    cases hc : s.client? w i with
    | none =>
      rw [h.absent hc]
      exact ⟨⟨rfl, nofun⟩, Each.nil⟩
    | some c => exact ⟨(h.keeps c hc).written.numbered, (h.keeps c hc).written.each⟩
  obtain ⟨hnumbered, heach⟩ := hwritten
  refine ⟨h.sent, hnumbered, fun hcaps hinterval => ⟨fun pre creds b hpre => ?_,
    fun pre b hpre hupdate => ?_⟩⟩
  · have hpre' : (pre ++ [.activated creds]) ++ [.built b] <+: l := by
      rwa [List.append_assoc]
    obtain ⟨hheld, hannounces, hrecent⟩ := heach _ _ hpre' b rfl
    rw [Worker.held_activated] at hheld
    obtain rfl := Option.some.inj hheld
    refine ⟨rfl, hannounces ?_⟩
    cases hcontent : b.content with
    | capabilities => rfl
    | update =>
      obtain ⟨a, ha, -⟩ := hrecent hcontent hcaps hinterval
      rw [Worker.advertised_activated] at ha
      cases ha
  · exact (heach _ _ hpre b rfl).recent hupdate hcaps hinterval

end Diary

/-- A refresh between two activations: the numbers go on and the capabilities come again. -/
theorem diary_of_refresh : ∃ s : Sys ℚ 1,
    let l := diary Sample.keyed Sample.config 0 0 (Sample.refreshed (Sample.token 98))
    (datagrams l).map (fun b => (b.content, b.creds.gameTokenId, b.seq)) =
        [(.capabilities, 1, 0), (.update, 1, 1), (.capabilities, 2, 2), (.update, 2, 3)] ∧
      s.sentBy 0 0 = signed l ∧ Numbered l ∧
      (∀ pre creds b, pre ++ [.activated creds, .built b] <+: l →
        b.creds = creds ∧ b.Announces Sample.keyed Sample.config creds) ∧
      ∀ pre b, pre ++ [.built b] <+: l → b.content = .update →
        Recent Sample.config pre b.nowSec := by
  have hrun : (System.exec (Sys.step Sample.keyed Sample.config) ({} : Sys ℚ 1)
      (Sample.refreshed (Sample.token 98))).isSome = true := by decide +kernel
  have hdiary : (datagrams (diary Sample.keyed Sample.config 0 0
      (Sample.refreshed (Sample.token 98)))).map
        (fun b => (b.content, b.creds.gameTokenId, b.seq)) =
        [(.capabilities, 1, 0), (.update, 1, 1), (.capabilities, 2, 2), (.update, 2, 3)] := by
    decide +kernel
  obtain ⟨s, hs⟩ := Option.isSome_iff_exists.mp hrun
  obtain ⟨hsent, hnumbered, hcaps⟩ := diary_numbered hs 0 0
  exact ⟨s, hdiary, hsent, hnumbered, hcaps rfl (by decide)⟩

end CksLoadtest.Protocol.Sys
