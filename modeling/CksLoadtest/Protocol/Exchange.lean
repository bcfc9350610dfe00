import Mathlib.Data.Fintype.Basic
import CksLoadtest.Protocol.Session

/-!
# The exchange of requests and updates

All clients of all workers, reduced to their cores, with the queues between the
workers and the control thread and the history of what went through them. The
invariants say that nothing is lost or duplicated on the way and that every request
keeps the slot and the global index of its client.
-/
namespace CksLoadtest.Protocol

open Lib.Buffer Lib.Transition
open Provisioner (tokenPair)
open Worker (Core CoreStep CorePath Push updated)

structure Exchange (n : Nat) where
  slots : Fin n → List Core := fun _ => []
  pending : Fin n → List ClientCredentials := fun _ => []
  inbox : Fin n → List (ClientUpdate n) := fun _ => []
  updates : Fin n → List (ClientUpdate n) := fun _ => []
  queue : List (ControlRequest n) := []
  job : Option (Job n) := none
  added : Fin n → List ClientCredentials := fun _ => []
  pushed : List (ControlRequest n) := []
  posted : List (ClientUpdate n) := []
  applied : List (Applied n) := []
  refreshed : List (Refreshed n) := []

/-- The requests of worker `w` for its client `i`, with consecutive tickets. -/
def requests {n : Nat} (w : Fin n) (i : Nat) : Nat → List Push → List (ControlRequest n)
  | _, [] => []
  | t, (suspension, kind, creds) :: ps =>
    ⟨w, i, kind, creds, suspension, t⟩ :: requests w i (t + 1) ps

/-- What happens to the exchange in one event. -/
inductive Label (n : Nat) where
  | quiet
  | add (w : Fin n) (creds : ClientCredentials)
  | enroll (w : Fin n)
  | take (w : Fin n)
  | act (w : Fin n) (i : Nat) (mark : Prop)
  | apply (w : Fin n)
  | pop
  | refresh (j : Job n)
  | place (j : Job n)
  | post

/-- The clients an event adds to a worker. -/
def Label.adds {n : Nat} : Label n → Fin n → List ClientCredentials
  | .add w creds, v => if w = v then [creds] else []
  | _, _ => []

namespace Exchange

variable {n : Nat}

def setSlot (x : Exchange n) (w : Fin n) (i : Nat) (c : Core) : Exchange n :=
  { x with slots := Function.update x.slots w ((x.slots w).set i c) }

def push (x : Exchange n) (rs : List (ControlRequest n)) : Exchange n :=
  { x with queue := x.queue ++ rs, pushed := x.pushed ++ rs }

/-- What the result of `refreshToken` leaves of a job: it returned, or it threw. -/
def RefreshResult (j j' : Job n) : Prop :=
  j'.request = j.request ∧ j'.creds.index = j.creds.index ∧
    ((j'.refreshed = true ∧ (j'.phase = .finished false ∨ j'.phase = .placing 1)) ∨
      (j'.refreshed = j.refreshed ∧ j'.phase = .finished true))

/-- What one placement attempt leaves of a job. -/
def PlaceResult (attempt : Nat) (j j' : Job n) : Prop :=
  j'.request = j.request ∧ j'.creds.index = j.creds.index ∧ j'.refreshed = j.refreshed ∧
    tokenPair j'.creds = tokenPair j.creds ∧
    ((∃ failed, j'.phase = .finished failed) ∨
      (attempt < 15 ∧ j'.phase = .placing (attempt + 1)))

inductive Step : Exchange n → Label n → Exchange n → Prop
  | quiet {x : Exchange n} : Step x .quiet x
  | add {x : Exchange n} {w : Fin n} {creds : ClientCredentials} :
      Step x (.add w creds)
        { x with
          pending := Function.update x.pending w (x.pending w ++ [creds])
          added := Function.update x.added w (x.added w ++ [creds]) }
  | enroll {x : Exchange n} {w : Fin n} :
      Step x (.enroll w)
        { x with
          pending := Function.update x.pending w []
          slots := Function.update x.slots w
            (x.slots w ++ (x.pending w).map fun creds => ⟨.waiting, false, creds⟩) }
  | take {x : Exchange n} {w : Fin n} (h : x.updates w = []) :
      Step x (.take w)
        { x with
          updates := Function.update x.updates w (x.inbox w)
          inbox := Function.update x.inbox w [] }
  | act {x : Exchange n} {w : Fin n} {i : Nat} {mark : Prop} {c c' : Core} {ps : List Push}
      (hc : (x.slots w)[i]? = some c) (hp : CorePath mark c ps c') :
      Step x (.act w i mark) ((x.setSlot w i c').push (requests w i x.pushed.length ps))
  | apply {x : Exchange n} {w : Fin n} {u : ClientUpdate n} {rest : List (ClientUpdate n)}
      {c : Core} (hu : x.updates w = u :: rest) (hc : (x.slots w)[u.clientIndex]? = some c) :
      Step x (.apply w)
        { x.setSlot w u.clientIndex (updated u.toUpdate c) with
          updates := Function.update x.updates w rest
          applied := x.applied ++ [⟨w, u.clientIndex, c.creds.index, u⟩] }
  | pop {x : Exchange n} {r : ControlRequest n} {rest : List (ControlRequest n)}
      (hj : x.job = none) (hq : x.queue = r :: rest) :
      Step x .pop { x with queue := rest, job := some (Job.start r) }
  | refresh {x : Exchange n} {j j' : Job n} (hj : x.job = some j) (hp : j.phase = .refreshing)
      (hr : RefreshResult j j') :
      Step x (.refresh j')
        { x with
          job := some j'
          refreshed := if j'.refreshed then
              x.refreshed ++ [⟨j.request.workerIndex, j.request.clientIndex, tokenPair j'.creds⟩]
            else x.refreshed }
  | place {x : Exchange n} {j j' : Job n} {attempt : Nat} (hj : x.job = some j)
      (hp : j.phase = .placing attempt) (hr : PlaceResult attempt j j') :
      Step x (.place j') { x with job := some j' }
  | post {x : Exchange n} {j : Job n} {failed : Bool} (hj : x.job = some j)
      (hp : j.phase = .finished failed) :
      Step x .post
        { x with
          job := none
          posted := x.posted ++ [j.update failed]
          inbox := Function.update x.inbox j.request.workerIndex
            (x.inbox j.request.workerIndex ++ [j.update failed]) }

theorem Step.added {x x' : Exchange n} {a : Label n} (h : Step x a x')
    (v : Fin n) : x'.added v = x.added v ++ a.adds v := by
  cases h with
  | @add w creds =>
    show Function.update x.added w _ v = _ ++ if w = v then [creds] else []
    by_cases hw : w = v
    · subst hw
      rw [Function.update_self, if_pos rfl]
    · rw [Function.update_of_ne (Ne.symm hw), if_neg hw, List.append_nil]
  | quiet | enroll | take | act | apply | pop | refresh | place | post =>
    exact (List.append_nil _).symm

def system (n : Nat) : System (Exchange n) (Label n) where
  init x := x = {}
  step := Step

theorem push_nil (x : Exchange n) : x.push [] = x := by
  simp [push]

theorem setSlot_self {x : Exchange n} {w : Fin n} {i : Nat} {c : Core}
    (h : (x.slots w)[i]? = some c) : x.setSlot w i c = x := by
  obtain ⟨hi, rfl⟩ := List.getElem?_eq_some_iff.mp h
  simp [setSlot]

theorem length_requests (w : Fin n) (i t : Nat) (ps : List Push) :
    (requests w i t ps).length = ps.length := by
  induction ps generalizing t with
  | nil => rfl
  | cons p ps ih => rw [requests, List.length_cons, ih, List.length_cons]

theorem requests_append (w : Fin n) (i t : Nat) (ps qs : List Push) :
    requests w i t (ps ++ qs) = requests w i t ps ++ requests w i (t + ps.length) qs := by
  induction ps generalizing t with
  | nil => rfl
  | cons p ps ih =>
    rw [List.cons_append, requests, requests, ih, List.length_cons, List.cons_append,
      Nat.add_right_comm, Nat.add_assoc]

theorem mem_requests {w : Fin n} {i t : Nat} {ps : List Push} {r : ControlRequest n}
    (h : r ∈ requests w i t ps) :
    r.workerIndex = w ∧ r.clientIndex = i ∧ Session.push r ∈ ps := by
  induction ps generalizing t with
  | nil => cases h
  | cons p ps ih =>
    rw [requests, List.mem_cons] at h
    rcases h with rfl | h
    · exact ⟨rfl, rfl, List.mem_cons_self ..⟩
    · obtain ⟨hw, hi, hp⟩ := ih h
      exact ⟨hw, hi, List.mem_cons_of_mem _ hp⟩

/-- Every push of a path carries the credentials the client holds. -/
theorem pushes_creds {mark : Prop} {a b : Core} {ps : List Push} (h : CorePath mark a ps b) :
    b.creds = a.creds ∧ ∀ p ∈ ps, p.2.2 = a.creds := by
  induction h with
  | refl => exact ⟨rfl, by simp⟩
  | step hs _ ih =>
    refine ⟨ih.1.trans (hs.creds), ?_⟩
    intro p hp
    rcases List.mem_append.mp hp with hp | hp
    · cases hs <;> simp_all
    · exact (ih.2 p hp).trans (hs.creds)

/-! ## Nothing lost, nothing duplicated -/

/-- Every request is posted, in process or queued, once and in the order of the
pushes; every posted update is applied, in hand or in the inbox of its worker. -/
structure Account (x : Exchange n) : Prop where
  requests : x.pushed = x.posted.map (·.request) ++ (x.job.toList.map (·.request) ++ x.queue)
  updates : ∀ w, x.posted.filter (fun u => u.request.workerIndex = w) =
    (x.applied.filter (fun a => a.worker = w)).map (·.update) ++ (x.updates w ++ x.inbox w)
  tickets : x.pushed.map (·.ticket) = List.range x.pushed.length

theorem requests_tickets (w : Fin n) (i t : Nat) (ps : List Push) :
    (requests w i t ps).map (·.ticket) = List.range' t ps.length := by
  induction ps generalizing t with
  | nil => rfl
  | cons p ps ih =>
    rw [requests, List.map_cons, ih, List.length_cons, List.range'_succ]

theorem Account.step {x x' : Exchange n} {l : Label n} (h : x.Account) (hs : Step x l x') :
    x'.Account := by
  cases hs with
  | quiet => exact h
  | add => exact ⟨h.requests, h.updates, h.tickets⟩
  | enroll => exact ⟨h.requests, h.updates, h.tickets⟩
  | @take w hu =>
    refine ⟨h.requests, fun w' => ?_, h.tickets⟩
    have hw := h.updates w'
    by_cases hww : w' = w
    · subst hww
      simpa [hu] using hw
    · simpa [Function.update_of_ne hww] using hw
  | @act w i mark c c' ps hc hp =>
    refine ⟨?_, h.updates, ?_⟩
    · simp only [push, setSlot]
      rw [h.requests]
      simp
    · simp only [push, setSlot, List.map_append, List.length_append, h.tickets,
        requests_tickets, length_requests, List.range_eq_range']
      simpa using List.range'_append_1 (s := 0) (m := x.pushed.length) (n := ps.length)
  | @apply w u rest c hu hc =>
    refine ⟨h.requests, fun w' => ?_, h.tickets⟩
    have hw := h.updates w'
    by_cases hww : w' = w
    · subst hww
      simpa [setSlot, hu, List.filter_append] using hw
    · simpa [setSlot, List.filter_append, Function.update_of_ne hww, Ne.symm hww] using hw
  | pop hj hq =>
    refine ⟨?_, h.updates, h.tickets⟩
    have hr := h.requests
    rw [hj, hq] at hr
    simpa using hr
  | @refresh j j' hj hp hr =>
    refine ⟨?_, h.updates, h.tickets⟩
    have hx := h.requests
    rw [hj] at hx
    simpa [hr.1] using hx
  | @place j j' attempt hj hp hr =>
    refine ⟨?_, h.updates, h.tickets⟩
    have hx := h.requests
    rw [hj] at hx
    simpa [hr.1] using hx
  | @post j failed hj hp =>
    refine ⟨?_, fun w' => ?_, h.tickets⟩
    · have hx := h.requests
      rw [hj] at hx
      simpa using hx
    · have hw := h.updates w'
      by_cases hww : w' = j.request.workerIndex
      · subst hww
        simp [List.filter_append, hw]
      · simp [List.filter_append, Function.update_of_ne hww, Ne.symm hww, hw]

/-! ## Slots and indices -/

/-- The global index of the client that was added as number `i` of worker `w`. -/
def indexOf (x : Exchange n) (w : Fin n) (i : Nat) : Option Int :=
  (x.added w)[i]?.map (·.index)

/-- The slot a request names exists. -/
def InRange (x : Exchange n) (w : Fin n) (i : Nat) : Prop := i < (x.slots w).length

/-- Slots hold the clients in the order they were added, and a request keeps the
slot and the index of its client through all of its processing. -/
structure Placed (x : Exchange n) : Prop where
  pending : ∀ w, (x.added w).drop (x.slots w).length = x.pending w
  covered : ∀ w, (x.slots w).length ≤ (x.added w).length
  slots : ∀ w i c, (x.slots w)[i]? = some c → x.indexOf w i = some c.creds.index
  pushed : ∀ r ∈ x.pushed, x.InRange r.workerIndex r.clientIndex ∧
    x.indexOf r.workerIndex r.clientIndex = some r.creds.index
  job : ∀ j, x.job = some j → j.creds.index = j.request.creds.index
  posted : ∀ u ∈ x.posted, u.creds.index = u.request.creds.index
  applied : ∀ a ∈ x.applied, a.worker = a.update.request.workerIndex ∧
    a.slot = a.update.request.clientIndex ∧ a.index = a.update.request.creds.index
  refreshed : ∀ q ∈ x.refreshed, x.InRange q.worker q.slot

theorem Account.mem_updates {x : Exchange n} (h : x.Account) {w : Fin n} {u : ClientUpdate n}
    (hu : u ∈ x.updates w ∨ u ∈ x.inbox w) : u ∈ x.posted ∧ u.request.workerIndex = w := by
  have hm : u ∈ x.posted.filter (fun u => u.request.workerIndex = w) := by
    rw [h.updates w]
    simp only [List.mem_append]
    exact .inr hu
  simpa using hm

theorem Account.mem_pushed {x : Exchange n} (h : x.Account) {r : ControlRequest n}
    (hr : (∃ u ∈ x.posted, u.request = r) ∨ (∃ j, x.job = some j ∧ j.request = r) ∨
      r ∈ x.queue) : r ∈ x.pushed := by
  rw [h.requests]
  simp only [List.mem_append, List.mem_map, Option.mem_toList]
  exact hr

/-- Adding clients and enrolling them keeps the ranges and indices there are. -/
theorem Placed.keep {x x' : Exchange n} (h : x.Placed)
    (hpending : ∀ w, (x'.added w).drop (x'.slots w).length = x'.pending w)
    (hcovered : ∀ w, (x'.slots w).length ≤ (x'.added w).length)
    (hrange : ∀ w, (x.slots w).length ≤ (x'.slots w).length)
    (hindex : ∀ w i k, x.indexOf w i = some k → x'.indexOf w i = some k)
    (hslots : ∀ w i c, (x'.slots w)[i]? = some c → x'.indexOf w i = some c.creds.index)
    (hpushed : x'.pushed = x.pushed) (hjob : x'.job = x.job) (hposted : x'.posted = x.posted)
    (happlied : x'.applied = x.applied) (hrefreshed : x'.refreshed = x.refreshed) :
    x'.Placed where
  pending := hpending
  covered := hcovered
  slots := hslots
  pushed r hr := by
    have hp := h.pushed r (hpushed ▸ hr)
    exact ⟨lt_of_lt_of_le hp.1 (hrange _), hindex _ _ _ hp.2⟩
  job j hj := h.job j (hjob ▸ hj)
  posted u hu := h.posted u (hposted ▸ hu)
  applied a ha := h.applied a (happlied ▸ ha)
  refreshed q hq := lt_of_lt_of_le (h.refreshed q (hrefreshed ▸ hq)) (hrange _)

theorem Placed.add {x : Exchange n} (h : x.Placed) (w : Fin n) (creds : ClientCredentials) :
    { x with
      pending := Function.update x.pending w (x.pending w ++ [creds])
      added := Function.update x.added w (x.added w ++ [creds]) : Exchange n }.Placed := by
  have hindex : ∀ w' i k, x.indexOf w' i = some k →
      (Function.update x.added w (x.added w ++ [creds]) w')[i]?.map (·.index) = some k := by
    intro w' i k hk
    by_cases hw : w' = w
    · subst hw
      rw [Function.update_self]
      obtain ⟨d, hd, rfl⟩ := Option.map_eq_some_iff.mp hk
      have hi := (List.getElem?_eq_some_iff.mp hd).1
      rw [List.getElem?_append_left hi, hd]
      rfl
    · rwa [Function.update_of_ne hw]
  refine h.keep ?_ ?_ (fun _ => le_refl _) hindex
    (fun w' i c hc => hindex w' i _ (h.slots w' i c hc)) rfl rfl rfl rfl rfl
  · intro w'
    by_cases hw : w' = w
    · subst hw
      simp only [Function.update_self]
      rw [List.drop_append_of_le_length (h.covered w'), h.pending]
    · simpa [Function.update_of_ne hw] using h.pending w'
  · intro w'
    have hc := h.covered w'
    by_cases hw : w' = w
    · subst hw
      simp only [Function.update_self, List.length_append]
      omega
    · simpa [Function.update_of_ne hw] using hc

/-- An enrolled client is the one that was added at its position. -/
theorem Placed.enrolled {x : Exchange n} (h : x.Placed) {w : Fin n} {i : Nat} {c : Core}
    (hi : (x.slots w).length ≤ i)
    (hc : (x.slots w ++ (x.pending w).map fun creds => (⟨.waiting, false, creds⟩ : Core))[i]? =
      some c) : ∃ creds, (x.added w)[i]? = some creds ∧ c = ⟨.waiting, false, creds⟩ := by
  rw [List.getElem?_append_right hi, List.getElem?_map] at hc
  obtain ⟨creds, hd, rfl⟩ := Option.map_eq_some_iff.mp hc
  rw [← h.pending w, List.getElem?_drop, Nat.add_sub_cancel' hi] at hd
  exact ⟨creds, hd, rfl⟩

theorem Placed.enroll {x : Exchange n} (h : x.Placed) (w : Fin n) :
    { x with
      pending := Function.update x.pending w []
      slots := Function.update x.slots w
        (x.slots w ++ (x.pending w).map fun creds => ⟨.waiting, false, creds⟩) :
        Exchange n }.Placed := by
  have hlen : (x.slots w).length + (x.pending w).length = (x.added w).length := by
    have hc := h.covered w
    rw [← h.pending w, List.length_drop]
    omega
  refine h.keep ?_ ?_ ?_ (fun _ _ _ hk => hk) ?_ rfl rfl rfl rfl rfl
  · intro w'
    by_cases hw : w' = w
    · subst hw
      simp only [Function.update_self, List.length_append, List.length_map]
      rw [hlen, List.drop_length]
    · simpa [Function.update_of_ne hw] using h.pending w'
  · intro w'
    by_cases hw : w' = w
    · subst hw
      simp only [Function.update_self, List.length_append, List.length_map]
      omega
    · simpa [Function.update_of_ne hw] using h.covered w'
  · intro w'
    by_cases hw : w' = w
    · subst hw
      simp
    · simp [Function.update_of_ne hw]
  · intro w' i c hc
    by_cases hw : w' = w
    · subst hw
      simp only [Function.update_self] at hc
      rcases lt_or_ge i (x.slots w').length with hi | hi
      · rw [List.getElem?_append_left hi] at hc
        exact h.slots w' i c hc
      · obtain ⟨creds, hd, rfl⟩ := h.enrolled hi hc
        simp [indexOf, hd]
    · simp only [Function.update_of_ne hw] at hc
      exact h.slots w' i c hc

/-- Replacing a core by one of the same client. -/
theorem Placed.setSlot {x : Exchange n} (h : x.Placed) {w : Fin n} {i : Nat} {c c' : Core}
    (hc : (x.slots w)[i]? = some c) (hi : c'.creds.index = c.creds.index) :
    (x.setSlot w i c').Placed := by
  have hlen : ∀ w', ((x.setSlot w i c').slots w').length = (x.slots w').length := by
    intro w'
    by_cases hw : w' = w
    · subst hw
      simp [Exchange.setSlot]
    · simp [Exchange.setSlot, Function.update_of_ne hw]
  refine h.keep ?_ ?_ (fun w' => (hlen w').ge) (fun _ _ _ hk => hk) ?_ rfl rfl rfl rfl rfl
  · intro w'
    rw [hlen]
    exact h.pending w'
  · intro w'
    rw [hlen]
    exact h.covered w'
  · intro w' i' d hd
    by_cases hw : w' = w
    · subst hw
      simp only [Exchange.setSlot, Function.update_self] at hd
      by_cases hii : i' = i
      · subst hii
        have hlt := (List.getElem?_eq_some_iff.mp hc).1
        rw [List.getElem?_set_self hlt] at hd
        obtain rfl := Option.some.inj hd
        rw [hi]
        exact h.slots w' i' c hc
      · rw [List.getElem?_set_ne (Ne.symm hii)] at hd
        exact h.slots w' i' d hd
    · simp only [Exchange.setSlot, Function.update_of_ne hw] at hd
      exact h.slots w' i' d hd

/-- Pushing requests of one client, with the credentials it holds. -/
theorem Placed.push {x : Exchange n} (h : x.Placed) {w : Fin n} {i : Nat} {c : Core}
    (hc : (x.slots w)[i]? = some c) {rs : List (ControlRequest n)}
    (hr : ∀ r ∈ rs, r.workerIndex = w ∧ r.clientIndex = i ∧ r.creds.index = c.creds.index) :
    (x.push rs).Placed where
  pending := h.pending
  covered := h.covered
  slots := h.slots
  pushed r hm := by
    rcases List.mem_append.mp hm with hm | hm
    · exact h.pushed r hm
    · obtain ⟨rfl, rfl, hcr⟩ := hr r hm
      refine ⟨(List.getElem?_eq_some_iff.mp hc).1, ?_⟩
      rw [hcr]
      exact h.slots _ _ c hc
  job := h.job
  posted := h.posted
  applied := h.applied
  refreshed := h.refreshed

theorem updated_index {u : Update} {c : Core} (h : u.creds.index = c.creds.index) :
    (updated u c).creds.index = c.creds.index := by
  unfold updated
  split
  · rfl
  · exact h

/-- An update in the hands of a worker carries the index of the client in its slot. -/
theorem Placed.update_index {x : Exchange n} (h : x.Placed) (ha : x.Account) {w : Fin n}
    {u : ClientUpdate n} {c : Core} (hu : u ∈ x.updates w)
    (hc : (x.slots w)[u.clientIndex]? = some c) :
    u.request.workerIndex = w ∧ u.creds.index = c.creds.index ∧
      u.request.creds.index = c.creds.index := by
  obtain ⟨hp, hw⟩ := ha.mem_updates (.inl hu)
  have hr := (h.pushed _ (ha.mem_pushed (.inl ⟨u, hp, rfl⟩))).2
  have hs := h.slots w u.clientIndex c hc
  rw [hw] at hr
  have he : u.request.creds.index = c.creds.index := Option.some.inj (hr.symm.trans hs)
  exact ⟨hw, (h.posted u hp).trans he, he⟩

theorem Placed.step {x x' : Exchange n} {l : Label n} (h : x.Placed) (ha : x.Account)
    (hs : Step x l x') : x'.Placed := by
  cases hs with
  | quiet => exact h
  | add => exact h.add _ _
  | enroll => exact h.enroll _
  | take => exact ⟨h.pending, h.covered, h.slots, h.pushed, h.job, h.posted, h.applied, h.refreshed⟩
  | @act w i mark c c' ps hc hp =>
    obtain ⟨hcreds, hps⟩ := pushes_creds hp
    have hlt := (List.getElem?_eq_some_iff.mp hc).1
    have hc' : ((x.setSlot w i c').slots w)[i]? = some c' := by
      simp [Exchange.setSlot, List.getElem?_set_self hlt]
    refine (h.setSlot hc (by rw [hcreds])).push hc' ?_
    intro r hr
    obtain ⟨hw, hi, hm⟩ := mem_requests hr
    refine ⟨hw, hi, ?_⟩
    rw [hcreds, ← hps _ hm]
    rfl
  | @apply w u rest c hu hc =>
    obtain ⟨hw, hi, hri⟩ := h.update_index ha (by rw [hu]; exact List.mem_cons_self ..) hc
    have hset := h.setSlot hc (updated_index (u := u.toUpdate) hi)
    refine ⟨hset.pending, hset.covered, hset.slots, hset.pushed, hset.job, hset.posted, ?_,
      hset.refreshed⟩
    intro a hm
    rcases List.mem_append.mp hm with hm | hm
    · exact h.applied a hm
    · obtain rfl := List.mem_singleton.mp hm
      exact ⟨hw.symm, rfl, hri.symm⟩
  | pop hj hq =>
    refine ⟨h.pending, h.covered, h.slots, h.pushed, ?_, h.posted, h.applied, h.refreshed⟩
    rintro j ⟨⟩
    rfl
  | @refresh j j' hj hp hr =>
    refine ⟨h.pending, h.covered, h.slots, h.pushed, ?_, h.posted, h.applied, ?_⟩
    · rintro _ ⟨⟩
      rw [hr.2.1, hr.1]
      exact h.job j hj
    · intro q hq
      have hrange := (h.pushed _ (ha.mem_pushed (.inr (.inl ⟨j, hj, rfl⟩)))).1
      dsimp only at hq
      split at hq
      · rcases List.mem_append.mp hq with hq | hq
        · exact h.refreshed q hq
        · obtain rfl := List.mem_singleton.mp hq
          exact hrange
      · exact h.refreshed q hq
  | @place j j' attempt hj hp hr =>
    refine ⟨h.pending, h.covered, h.slots, h.pushed, ?_, h.posted, h.applied, h.refreshed⟩
    rintro _ ⟨⟩
    rw [hr.2.1, hr.1]
    exact h.job j hj
  | @post j failed hj hp =>
    refine ⟨h.pending, h.covered, h.slots, h.pushed, ?_, ?_, h.applied, h.refreshed⟩
    · rintro _ ⟨⟩
    · intro u hu
      rcases List.mem_append.mp hu with hu | hu
      · exact h.posted u hu
      · obtain rfl := List.mem_singleton.mp hu
        exact h.job j hj

/-! ## The job -/

/-- Where the control thread stands fits what the job was asked for. -/
structure JobOk (j : Job n) : Prop where
  refreshing : j.phase = .refreshing → j.refreshed = false ∧ j.request.kind = .refresh
  placing : ∀ a, j.phase = .placing a →
    1 ≤ a ∧ a ≤ 15 ∧ (j.request.kind = .refresh → j.refreshed = true)
  finished : j.phase = .finished false → j.request.kind = .refresh → j.refreshed = true
  refreshed : j.refreshed = true → j.request.kind = .refresh

def JobsOk (x : Exchange n) : Prop := ∀ j, x.job = some j → JobOk j

theorem jobOk_start (r : ControlRequest n) : JobOk (Job.start r) := by
  cases hk : r.kind with
  | reassign => constructor <;> simp [Job.start, hk]
  | refresh => constructor <;> simp [Job.start, hk]

theorem JobOk.refresh {j j' : Job n} (h : JobOk j) (hp : j.phase = .refreshing)
    (hr : RefreshResult j j') : JobOk j' := by
  have hk := (h.refreshing hp).2
  obtain ⟨hreq, -, ⟨hrf, hp' | hp'⟩ | ⟨-, hp'⟩⟩ := hr
  · exact ⟨by simp [hp'], by simp [hp'], fun _ _ => hrf, fun _ => hreq ▸ hk⟩
  · exact ⟨by simp [hp'], by simp [hp', hrf], by simp [hp'], fun _ => hreq ▸ hk⟩
  · exact ⟨by simp [hp'], by simp [hp'], by simp [hp'], fun _ => hreq ▸ hk⟩

theorem JobOk.place {j j' : Job n} {attempt : Nat} (h : JobOk j)
    (hp : j.phase = .placing attempt) (hr : PlaceResult attempt j j') : JobOk j' := by
  obtain ⟨hreq, -, hrf, -, ⟨failed, hf⟩ | ⟨hlt, hf⟩⟩ := hr
  · refine ⟨by simp [hf], by simp [hf], fun _ hk => ?_, by rw [hreq, hrf]; exact h.refreshed⟩
    rw [hrf]
    exact (h.placing attempt hp).2.2 (hreq ▸ hk)
  · refine ⟨by simp [hf], ?_, by simp [hf], by rw [hreq, hrf]; exact h.refreshed⟩
    intro a ha
    rw [hf, Phase.placing.injEq] at ha
    have hpl := h.placing attempt hp
    rw [hreq, hrf]
    exact ⟨by omega, by omega, hpl.2.2⟩

theorem JobsOk.step {x x' : Exchange n} {l : Label n} (h : x.JobsOk) (hs : Step x l x') :
    x'.JobsOk := by
  cases hs with
  | quiet | add | enroll | take | act | apply => exact h
  | pop hj hq =>
    rintro _ ⟨⟩
    exact jobOk_start _
  | refresh hj hp hr =>
    rintro _ ⟨⟩
    exact (h _ hj).refresh hp hr
  | place hj hp hr =>
    rintro _ ⟨⟩
    exact (h _ hj).place hp hr
  | post hj hp => rintro _ ⟨⟩

/-- The three invariants together, as every run has them. -/
structure Sound (x : Exchange n) : Prop where
  account : x.Account
  placed : x.Placed
  jobs : x.JobsOk

theorem sound_of_reach {G : Exchange n → Label n → Prop} {x : Exchange n}
    (h : (system n).GReach G x) : x.Sound := by
  refine System.GReach.inv (I := Sound) ?_ ?_ h
  · rintro _ rfl
    refine ⟨⟨rfl, fun _ => rfl, rfl⟩,
      ⟨fun _ => rfl, fun _ => le_refl _, ?_, ?_, ?_, ?_, ?_, ?_⟩, ?_⟩
    all_goals simp [JobsOk]
  · intro s e s' _ hi _ hs
    exact ⟨hi.account.step hs, hi.placed.step hi.account hs, hi.jobs.step hs⟩

end Exchange

end CksLoadtest.Protocol
