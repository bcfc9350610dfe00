import CksLoadtest.Protocol.Turns
import CksLoadtest.Worker.Life

/-!
# Every client of the process lives a life

A tracked process remembers, for every client, what happened to it since its latest activation.
It runs as the process does, and along its runs every client is a life whose turns are the
events that concern it.
-/
namespace CksLoadtest.Protocol

open Lib.Buffer Lib.Transition
open Worker (Life Since lives)

variable {K : Type*} {n : Nat}

namespace Sys

/-- The turn an event is, and the worker and the slot of the client whose turn it is. -/
def turn? [Field K] (s : Sys K n) : Event K n → Option (Fin n × Nat × Worker.Turn K)
  | .applyUpdate w =>
    (s.workers w).updates.head?.map fun u => (w, u.clientIndex, .update u.toUpdate)
  | .activate w i draws outcome =>
    let x := s.workers w
    some (w, i, .activate x.now (steadySeconds x.nowNs) draws outcome)
  | .sendDue w i inputs => some (w, i, .send (steadySeconds (s.workers w).nowNs) inputs)
  | .rxBegin w i rxNs nowMs data =>
    if ∃ c ∈ s.client? w i, c.state = .active then some (w, i, .rxBegin rxNs nowMs data) else none
  | .rxMember w t =>
    match (s.workers w).rx with
    | some (i, ⟨signedBundle, nowMs, m :: _, _⟩) => some (w, i, .rxMember signedBundle nowMs t m)
    | _ => none
  | .rxEnd w =>
    match (s.workers w).rx with
    | some (i, ⟨_, _, [], ok⟩) => some (w, i, .rxEnd ok)
    | _ => none
  | _ => none

end Sys

/-- The process and the histories of its clients. No step reads them. -/
structure Tracked (K : Type*) (n : Nat) where
  sys : Sys K n := {}
  since : Fin n → Nat → Since := fun _ _ => {}

namespace Tracked

def life (x : Tracked K n) (w : Fin n) (i : Nat) : Option (Life K) :=
  (x.sys.client? w i).map fun c => ⟨c, x.since w i⟩

/-- A condition on the life and the turn, where the event is a turn of a client. -/
def AtTurn [Field K] (Q : Life K → Worker.Turn K → Prop) (x : Tracked K n) (e : Event K n) : Prop :=
  ∀ p ∈ x.sys.turn? e, ∀ l ∈ x.life p.1 p.2.1, Q l p.2.2

instance [Field K] (Q : Life K → Worker.Turn K → Prop) [∀ l t, Decidable (Q l t)] (x : Tracked K n)
    (e : Event K n) : Decidable (AtTurn Q x e) :=
  inferInstanceAs (Decidable (∀ p ∈ x.sys.turn? e, ∀ l ∈ x.life p.1 p.2.1, Q l p.2.2))

section Steps

variable [Field K] [LinearOrder K] [FloorRing K] (P : Platform K) (cfg : Config K)

/-- The histories after an event. -/
def next (x : Tracked K n) (e : Event K n) (w : Fin n) (i : Nat) : Since :=
  match x.sys.client? w i, x.sys.turn? e with
  | none, _ => {}
  | some c, some (v, j, t) => if v = w ∧ j = i then (x.since w i).next P cfg c t else x.since w i
  | some _, none => x.since w i

variable {P} {cfg} {x : Tracked K n} {e : Event K n} {w : Fin n} {i : Nat} {c : SimClient K}

theorem next_absent (h : x.sys.client? w i = none) : x.next P cfg e w i = {} := by
  unfold next
  rw [h]

theorem next_turn {t : Worker.Turn K} (hc : x.sys.client? w i = some c)
    (ht : x.sys.turn? e = some (w, i, t)) :
    x.next P cfg e w i = (x.since w i).next P cfg c t := by
  unfold next
  rw [hc, ht]
  exact if_pos ⟨rfl, rfl⟩

theorem next_rest (hc : x.sys.client? w i = some c) (ht : ∀ t, x.sys.turn? e ≠ some (w, i, t)) :
    x.next P cfg e w i = x.since w i := by
  unfold next
  rw [hc]
  rcases hturn : x.sys.turn? e with _ | ⟨v, j, t⟩
  · rfl
  · refine if_neg ?_
    rintro ⟨rfl, rfl⟩
    exact ht t hturn

variable (P) (cfg)

def step (x : Tracked K n) (e : Event K n) : Option (Tracked K n) :=
  (x.sys.step P cfg e).map fun s => ⟨s, x.next P cfg e⟩

end Steps

end Tracked

/-- The process with the histories of its clients. -/
def tracked [Field K] [LinearOrder K] [FloorRing K] (P : Platform K) (cfg : Config K) (n : Nat) :
    System (Tracked K n) (Event K n) :=
  .ofPartial (fun x => x = {}) (Tracked.step P cfg)

section Runs

variable [Field K] [LinearOrder K] [FloorRing K] {P : Platform K} {cfg : Config K}

/-- The histories are only watched: the tracked process reaches what the process reaches. -/
theorem tracked_reach {s : Sys K n} :
    (system P cfg n).Reach s ↔ ∃ x, (tracked P cfg n).Reach x ∧ x.sys = s := by
  constructor
  · intro h
    induction h with
    | init h0 =>
      exact ⟨{}, .init rfl, h0.symm⟩
    | @step s s' e _ _ hs ih =>
      obtain ⟨x, hx, rfl⟩ := ih
      have hstep : x.sys.step P cfg e = some s' := hs
      exact ⟨⟨s', x.next P cfg e⟩, hx.step (Option.map_eq_some_iff.mpr ⟨s', hstep, rfl⟩), rfl⟩
  · rintro ⟨x, hx, rfl⟩
    refine System.Reach.inv (I := fun x => (system P cfg n).Reach x.sys) ?_ ?_ hx
    · rintro _ rfl
      exact .init rfl
    · intro x e x' _ hr hs
      obtain ⟨s', hstep, rfl⟩ := Option.map_eq_some_iff.mp hs
      exact hr.step hstep

namespace Sys

variable {s s' : Sys K n}

/-- What one step does to the clients, with the turn it is. -/
inductive Plays (P : Platform K) (cfg : Config K) (e : Event K n) (s s' : Sys K n) : Prop
  | same (ht : s.turn? e = none) (h : ∀ w, (s'.workers w).clients = (s.workers w).clients)
  | enroll (w : Fin n) (ht : s.turn? e = none) (h : s' = s.applyPendingClients w)
  | turn {w : Fin n} {i : Nat} {t : Worker.Turn K} {c : SimClient K}
      (ht : s.turn? e = some (w, i, t)) (hc : s.client? w i = some c)
      (h : ∀ v, (s'.workers v).clients =
        if v = w then (s.workers w).clients.set i (t.run P cfg c).1 else (s.workers v).clients)

theorem Plays.of_commit {e : Event K n} {t : Worker.Turn K} {w : Fin n} {i : Nat} {c : SimClient K}
    {u : Sys K n} (ht : s.turn? e = some (w, i, t)) (hc : s.client? w i = some c)
    (hu : ∀ v, (u.workers v).clients = (s.workers v).clients) :
    Plays P cfg e s (u.commit w i (t.run P cfg c)) :=
  .turn ht hc fun v => by rw [commit_clients, hu, hu]

omit [Field K] [LinearOrder K] [FloorRing K] in
theorem setWorker_clients (s : Sys K n) {w : Fin n} {x : WorkerSt K n}
    (hx : x.clients = (s.workers w).clients) (v : Fin n) :
    ((s.setWorker w x).workers v).clients = (s.workers v).clients := by
  show (Function.update s.workers w x v).clients = _
  rw [Function.update_apply]
  split
  · rename_i hv
    rw [hx, hv]
  · rfl

/-- **Step lemma.** -/
theorem step_plays {e : Event K n} (h : s.step P cfg e = some s') : Plays P cfg e s s' := by
  have hmoves := step_moves P cfg h
  cases step_cases h with
  | @applyUpdate w u rest c hu hc =>
    refine .of_commit (t := .update u.toUpdate) ?_ hc (setWorker_clients s rfl)
    unfold turn?
    dsimp only
    rw [hu]
    rfl
  | @activate w i draws outcome c _ hc =>
    exact .of_commit (t := .activate _ _ draws outcome) rfl hc fun _ => rfl
  | @sendDue w i inputs c _ hc => exact .of_commit (t := .send _ inputs) rfl hc fun _ => rfl
  | rxDropped hc _ _ _ hidle =>
    refine .same (if_neg ?_) fun _ => rfl
    rintro ⟨d, hd, ha⟩
    rw [hc] at hd
    exact hidle (Option.some.inj hd ▸ ha)
  | @rxBegin w i rxNs nowMs data c hc _ _ _ hactive =>
    refine .of_commit (t := .rxBegin rxNs nowMs data) (if_pos ?_) hc (setWorker_clients s rfl)
    exact ⟨c, hc, hactive⟩
  | @rxMember w t i signedBundle nowMs m ms ok c hrx hc =>
    refine .of_commit (t := .rxMember signedBundle nowMs t m) ?_ hc (setWorker_clients s rfl)
    unfold turn?
    dsimp only
    rw [hrx]
  | @rxEnd w i signedBundle nowMs ok c hrx hc =>
    refine .of_commit (t := .rxEnd ok) ?_ hc (setWorker_clients s rfl)
    unfold turn?
    dsimp only
    rw [hrx]
  | _ =>
    cases hmoves with
    | same hs => exact .same rfl hs.clients
    | enroll w hs => exact .enroll w rfl hs
    | turn _ _ ho => cases ho

/-- **Step lemma.** Along a step a client is enrolled, rests or takes its turn. -/
theorem client_step {e : Event K n} (h : s.step P cfg e = some s') {w : Fin n} {i : Nat}
    {c' : SimClient K} (hc' : s'.client? w i = some c') :
    (s.client? w i = none ∧ ∃ creds activateAt, c' = SimClient.fresh creds activateAt) ∨
      (s.client? w i = some c' ∧ ∀ t, s.turn? e ≠ some (w, i, t)) ∨
      ∃ c t, s.client? w i = some c ∧ s.turn? e = some (w, i, t) ∧ c' = (t.run P cfg c).1 := by
  have hnone (ht : s.turn? e = none) (t : Worker.Turn K) : s.turn? e ≠ some (w, i, t) := ht ▸ nofun
  cases step_plays h with
  | same ht hsame =>
    refine .inr (.inl ⟨?_, hnone ht⟩)
    unfold client? at hc' ⊢
    rw [← hsame w]
    exact hc'
  | enroll v ht hs =>
    subst hs
    unfold client? at hc' ⊢
    rw [enroll_clients] at hc'
    split at hc'
    · rename_i hv
      subst hv
      rcases lt_or_ge i (s.workers w).clients.length with hi | hi
      · rw [List.getElem?_append_left hi] at hc'
        exact .inr (.inl ⟨hc', hnone ht⟩)
      · rw [List.getElem?_append_right hi] at hc'
        obtain ⟨p, -, rfl⟩ := List.mem_map.mp (List.mem_of_getElem? hc')
        exact .inl ⟨List.getElem?_eq_none hi, p.creds, p.activateAt, rfl⟩
    · exact .inr (.inl ⟨hc', hnone ht⟩)
  | @turn v j t c ht hc hclients =>
    unfold client? at hc'
    rw [hclients] at hc'
    by_cases hwi : v = w ∧ j = i
    · obtain ⟨rfl, rfl⟩ := hwi
      have hlt : j < (s.workers v).clients.length := (List.getElem?_eq_some_iff.mp hc).1
      rw [if_pos rfl, List.getElem?_set_self hlt] at hc'
      exact .inr (.inr ⟨c, t, hc, ht, (Option.some.inj hc').symm⟩)
    · refine .inr (.inl ⟨?_, ?_⟩)
      · by_cases hv : w = v
        · subst hv
          have hj : j ≠ i := fun hj => hwi ⟨rfl, hj⟩
          rw [if_pos rfl, List.getElem?_set_ne hj] at hc'
          exact hc'
        · rw [if_neg hv] at hc'
          exact hc'
      · intro u hu
        rw [ht] at hu
        obtain ⟨rfl, rfl, -⟩ := Option.some.inj hu
        exact hwi ⟨rfl, rfl⟩

/-- Clients stay where they are. -/
theorem client_stays {e : Event K n} (h : s.step P cfg e = some s') {w : Fin n} {i : Nat}
    (hc : (s.client? w i).isSome) : (s'.client? w i).isSome := by
  have hlt (x : Sys K n) : (x.client? w i).isSome ↔ i < (x.workers w).clients.length := by
    unfold client?
    rw [isSome_getElem?]
  rw [hlt] at hc ⊢
  cases step_plays h with
  | same _ hsame =>
    rw [hsame]
    exact hc
  | enroll v _ hs =>
    subst hs
    rw [enroll_clients]
    split
    · rename_i hv
      subst hv
      rw [List.length_append]
      exact Nat.lt_add_right _ hc
    · exact hc
  | turn _ _ hclients =>
    rw [hclients]
    split
    · rename_i hv
      subst hv
      rw [List.length_set]
      exact hc
    · exact hc

theorem suspended_step {e : Event K n} (h : s.step P cfg e = some s') {w : Fin n} {i : Nat}
    {c : SimClient K} (hc : s.client? w i = some c) (hs : c.state = .suspended) :
    ∃ d, s'.client? w i = some d ∧ (d.state = .suspended ∨ d.state = .waiting) := by
  obtain ⟨d, hd⟩ := Option.isSome_iff_exists.mp (client_stays h (Option.isSome_of_mem hc))
  refine ⟨d, hd, ?_⟩
  rcases client_step h hd with ⟨habsent, -⟩ | ⟨hsame, -⟩ | ⟨c₀, t, hc₀, -, rfl⟩
  · exact absurd (habsent.symm.trans hc) nofun
  · exact .inl (Option.some.inj (hsame.symm.trans hc) ▸ hs)
  · exact t.run_suspended P cfg (Option.some.inj (hc₀.symm.trans hc) ▸ hs)

end Sys

namespace Tracked

/-- **Step lemma.** Along a step every client starts its life, rests or takes its turn. -/
theorem life_step {x x' : Tracked K n} {e : Event K n} (h : x.step P cfg e = some x') {w : Fin n}
    {i : Nat} {l' : Life K} (hl : x'.life w i = some l') :
    (x.life w i = none ∧ (lives P cfg).init l') ∨
      ∃ l, x.life w i = some l ∧ (l' = l ∨
        ∃ t, x.sys.turn? e = some (w, i, t) ∧ l' = l.turn P cfg t) := by
  obtain ⟨s', hs, rfl⟩ := Option.map_eq_some_iff.mp h
  obtain ⟨c', hc', rfl⟩ := Option.map_eq_some_iff.mp hl
  have hlife {c : SimClient K} (hc : x.sys.client? w i = some c) :
      x.life w i = some ⟨c, x.since w i⟩ := by
    unfold life
    rw [hc]
    rfl
  rcases Sys.client_step hs hc' with
    ⟨habsent, creds, activateAt, rfl⟩ | ⟨hc, ht⟩ | ⟨c, t, hc, ht, rfl⟩
  · refine .inl ⟨by unfold life; rw [habsent]; rfl, creds, activateAt, ?_⟩
    exact congrArg (Life.mk _) (next_absent habsent)
  · exact .inr ⟨_, hlife hc, .inl (congrArg (Life.mk c') (next_rest hc ht))⟩
  · exact .inr ⟨_, hlife hc, .inr ⟨t, ht, congrArg (Life.mk _) (next_turn hc ht)⟩⟩

/-- **Runs are lives.** Where the turns of a run all meet a condition, every client is a life
whose turns do. -/
theorem life_reach {Q : Life K → Worker.Turn K → Prop} {x : Tracked K n}
    (h : (tracked P cfg n).GReach (AtTurn Q) x) {w : Fin n} {i : Nat} {l : Life K}
    (hl : x.life w i = some l) : (lives P cfg).GReach Q l := by
  refine System.GReach.simulate (lives P cfg) (fun x => x.life w i) ?_ ?_ h l hl
  · rintro _ v rfl hv
    exact absurd hv nofun
  · intro x e x' l' _ hq hs hl'
    rcases life_step hs hl' with hinit | ⟨l, hl, rfl | ⟨t, ht, rfl⟩⟩
    · exact .inl hinit
    · exact .inr ⟨l', hl, .refl l'⟩
    · exact .inr ⟨l, hl, .single (hq _ ht l hl) rfl⟩

end Tracked

end Runs

end CksLoadtest.Protocol
