import CksLoadtest.Protocol.Exchange

/-!
# Every client of the exchange is a session

`view` shows one client with its own requests. A step of the exchange is a path of
session moves for the client it concerns and nothing for all others, so what holds
of sessions holds of every client in every run.
-/
namespace CksLoadtest.Protocol

open Lib.Buffer Lib.Transition
open Provisioner (tokenPair)
open Worker (Core CoreStep CorePath Push updated)

variable {n : Nat}

def Item.ofUpdate (u : ClientUpdate n) : Item n where
  request := u.request
  creds := u.creds
  refreshed := u.refreshed
  answer := some u.failed

def Item.ofJob (j : Job n) : Item n where
  request := j.request
  creds := j.creds
  refreshed := j.refreshed
  answer := match j.phase with
    | .finished failed => some failed
    | _ => none

namespace Exchange

/-- The requests of a client that no applied update has answered, oldest first. -/
def outstanding (x : Exchange n) (w : Fin n) (i : Nat) : List (Item n) :=
  ((x.updates w ++ x.inbox w).filter (fun u => u.clientIndex = i)).map Item.ofUpdate ++
    ((x.job.toList.filter (fun j => j.request.IsFor w i)).map Item.ofJob ++
      (x.queue.filter (·.IsFor w i)).map Item.queued)

/-- The request of the latest suspension in a list of requests. -/
def lastSuspension (l : Option (ControlRequest n)) (rs : List (ControlRequest n)) :
    Option (ControlRequest n) :=
  rs.foldl (fun l r => if r.suspension then some r else l) l

def latest (x : Exchange n) (w : Fin n) (i : Nat) : Option (ControlRequest n) :=
  lastSuspension none (x.pushed.filter (·.IsFor w i))

/-- The requests of a client whose failed update was applied. -/
def failed (x : Exchange n) (w : Fin n) (i : Nat) : List (ControlRequest n) :=
  (x.applied.filter fun a => a.worker = w ∧ a.slot = i ∧ a.update.failed).map (·.update.request)

/-- The pair the client was added with. -/
def provisioned (x : Exchange n) (w : Fin n) (i : Nat) : Int64 × Bytes :=
  ((x.added w)[i]?.map tokenPair).getD (0, [])

/-- The pair of the last `refreshToken` call that returned for a client, the
provisioned one before the first. -/
def lastPair (x : Exchange n) (w : Fin n) (i : Nat) : Int64 × Bytes :=
  x.refreshed.foldl (fun p q => if q.worker = w ∧ q.slot = i then q.pair else p)
    (x.provisioned w i)

def view (x : Exchange n) (w : Fin n) (i : Nat) : Option (Session n) :=
  (x.slots w)[i]?.map fun c =>
    { core := c
      outstanding := x.outstanding w i
      latest := x.latest w i
      failed := x.failed w i
      last := x.lastPair w i }

theorem view_eq_some {x : Exchange n} {w : Fin n} {i : Nat} {v : Session n}
    (h : x.view w i = some v) : ∃ c, (x.slots w)[i]? = some c ∧
      v = ⟨c, x.outstanding w i, x.latest w i, x.failed w i, x.lastPair w i⟩ := by
  obtain ⟨c, hc, rfl⟩ := Option.map_eq_some_iff.mp h
  exact ⟨c, hc, rfl⟩

/-- The requests of a client: those answered by an applied update, then the
outstanding ones, in the order they were pushed. -/
theorem pushed_isFor {x : Exchange n} (h : x.Sound) (w : Fin n) (i : Nat) :
    x.pushed.filter (·.IsFor w i) =
      (x.applied.filter fun a => a.worker = w ∧ a.slot = i).map (·.update.request) ++
        (x.outstanding w i).map (·.request) := by
  have hposted : (x.posted.filter fun u => u.request.IsFor w i).map (·.request) =
      (x.applied.filter fun a => a.worker = w ∧ a.slot = i).map (·.update.request) ++
        ((x.updates w ++ x.inbox w).filter fun u => u.clientIndex = i).map (·.request) := by
    have hu := congrArg (List.filter fun u => u.clientIndex = i) (h.account.updates w)
    rw [List.filter_filter, List.filter_append, List.filter_map, List.filter_filter] at hu
    have hl : (x.posted.filter fun u => u.request.IsFor w i) =
        x.posted.filter fun u =>
          decide (u.clientIndex = i) && decide (u.request.workerIndex = w) := by
      refine List.filter_congr fun u _ => ?_
      rw [Bool.eq_iff_iff, decide_eq_true_eq, Bool.and_eq_true, decide_eq_true_eq,
        decide_eq_true_eq]
      exact and_comm
    have hr : (x.applied.filter fun a => a.worker = w ∧ a.slot = i) =
        x.applied.filter fun a =>
          ((fun u : ClientUpdate n => decide (u.clientIndex = i)) ∘ fun a => a.update) a &&
            decide (a.worker = w) := by
      refine List.filter_congr fun a ha => ?_
      rw [Bool.eq_iff_iff, decide_eq_true_eq, Bool.and_eq_true, Function.comp_apply,
        decide_eq_true_eq, decide_eq_true_eq, (h.placed.applied a ha).2.1]
      exact and_comm
    rw [hl, hu, hr, List.map_append, List.map_map]
    rfl
  rw [h.account.requests]
  simp only [List.filter_append, List.filter_map, outstanding, List.map_append, List.map_map]
  simp only [Function.comp_def] at *
  rw [hposted]
  simp [Item.ofUpdate, Item.ofJob, Item.queued]

theorem item_of_finished {j : Job n} {failed : Bool} (h : j.phase = .finished failed) :
    Item.ofUpdate (j.update failed) = Item.ofJob j := by
  simp [Item.ofUpdate, Item.ofJob, Job.update, h]

theorem item_start (r : ControlRequest n) : Item.ofJob (Job.start r) = Item.queued r := by
  unfold Item.ofJob Job.start Item.queued
  cases r.kind <;> rfl

theorem requests_isFor {w w' : Fin n} {i i' t : Nat} {ps : List Push} :
    (requests w i t ps).filter (·.IsFor w' i') =
      if w = w' ∧ i = i' then requests w i t ps else [] := by
  split
  · rename_i h
    obtain ⟨rfl, rfl⟩ := h
    refine List.filter_eq_self.mpr fun r hr => ?_
    obtain ⟨hw, hi, -⟩ := mem_requests hr
    simp [ControlRequest.IsFor, hw, hi]
  · rename_i h
    refine List.filter_eq_nil_iff.mpr fun r hr => ?_
    obtain ⟨hw, hi, -⟩ := mem_requests hr
    simpa [ControlRequest.IsFor, hw, hi] using h

/-- A path of a client's core is a path of its session, with the requests queued. -/
theorem path_of_core {H : Session n → Move n → Prop} {mark : Prop} {a b : Core} {ps : List Push}
    (hH : ∀ v target r, CoreStep mark v.core (r.map Session.push).toList target →
      H v (.worker target r)) (w : Fin n) (i : Nat) (hp : CorePath mark a ps b) :
    ∀ (v : Session n) (t : Nat), v.core = a →
      (Session.system n).GPath H v
        { v with
          core := b
          outstanding := v.outstanding ++ (requests w i t ps).map Item.queued
          latest := lastSuspension v.latest (requests w i t ps) } := by
  induction hp with
  | refl c =>
    rintro v t rfl
    simpa [requests, lastSuspension] using System.GPath.refl (M := Session.system n) (G := H) v
  | @step a b c ps qs hs _ ih =>
    rintro v t rfl
    -- an elementary step pushes at most one request
    have hone : ∃ r : Option (ControlRequest n), (r.map Session.push).toList = ps ∧
        requests w i t (ps ++ qs) = r.toList ++ requests w i (t + ps.length) qs := by
      have one : ∀ p : Push, ∃ r : Option (ControlRequest n), (r.map Session.push).toList = [p] ∧
          requests w i t ([p] ++ qs) = r.toList ++ requests w i (t + 1) qs := fun p =>
        ⟨some ⟨w, i, p.2.1, p.2.2, p.1, t⟩, rfl, rfl⟩
      cases hs with
      | activate => exact ⟨none, rfl, rfl⟩
      | ask => exact one _
      | suspend => exact one _
      | tokenError => exact one _
      | markOnly => exact ⟨none, rfl, rfl⟩
    obtain ⟨r, hr, hreq⟩ := hone
    have hs' : CoreStep mark v.core (r.map Session.push).toList b := hr ▸ hs
    have hmove : (Session.system n).step v (.worker b r) (v.pushed b r) :=
      .worker (hs'.mono fun _ => trivial)
    have hrest := ih (v.pushed b r) (t + ps.length) rfl
    refine .step (hH v b r hs') hmove ?_
    have ho : v.outstanding ++ (r.toList ++ requests w i (t + ps.length) qs).map Item.queued =
        (v.pushed b r).outstanding ++ (requests w i (t + ps.length) qs).map Item.queued := by
      cases r <;> simp [Session.pushed]
    have hl : lastSuspension v.latest (r.toList ++ requests w i (t + ps.length) qs) =
        lastSuspension (v.pushed b r).latest (requests w i (t + ps.length) qs) := by
      cases r <;> rfl
    rw [hreq, ho, hl]
    exact hrest

/-! ## Frames -/

theorem view_congr {x x' : Exchange n} {w : Fin n} {i : Nat} {c : Core}
    (hc : (x.slots w)[i]? = some c) (hc' : (x'.slots w)[i]? = some c)
    (ho : x'.outstanding w i = x.outstanding w i) (hl : x'.latest w i = x.latest w i)
    (hf : x'.failed w i = x.failed w i) (hp : x'.lastPair w i = x.lastPair w i) :
    x'.view w i = x.view w i := by
  simp only [view, hc, hc', Option.map_some, ho, hl, hf, hp]

/-- A slot that does not exist yet has no requests and no refreshed pair. -/
theorem view_of_new {x : Exchange n} (h : x.Sound) {w : Fin n} {i : Nat}
    (hi : (x.slots w).length ≤ i) :
    x.outstanding w i = [] ∧ x.latest w i = none ∧ x.failed w i = [] ∧
      x.lastPair w i = x.provisioned w i := by
  have hreq : ∀ r ∈ x.pushed, ¬ r.IsFor w i := by
    rintro r hr ⟨rfl, rfl⟩
    exact absurd (h.placed.pushed r hr).1 (not_lt.mpr hi)
  have hposted : ∀ u ∈ x.posted, ¬ u.request.IsFor w i := fun u hu =>
    hreq _ (h.account.mem_pushed (.inl ⟨u, hu, rfl⟩))
  refine ⟨?_, ?_, ?_, ?_⟩
  · unfold outstanding
    rw [List.filter_eq_nil_iff.mpr, List.filter_eq_nil_iff.mpr, List.filter_eq_nil_iff.mpr]
    · rfl
    · intro r hr
      simpa using hreq r (h.account.mem_pushed (.inr (.inr hr)))
    · intro j hj
      have hj : x.job = some j := by simpa using hj
      simpa using hreq _ (h.account.mem_pushed (.inr (.inl ⟨j, hj, rfl⟩)))
    · intro u hu
      obtain ⟨hp, hw⟩ := h.account.mem_updates (List.mem_append.mp hu)
      have hn : u.request.clientIndex ≠ i := fun hi => hposted u hp ⟨hw, hi⟩
      rw [decide_eq_true_eq]
      exact hn
  · unfold latest
    rw [List.filter_eq_nil_iff.mpr fun r hr => by simpa using hreq r hr]
    rfl
  · unfold failed
    rw [List.filter_eq_nil_iff.mpr]
    · rfl
    · intro a ha
      obtain ⟨hw, hs, -⟩ := h.placed.applied a ha
      have hu : a.update ∈ x.posted := by
        have hm : a.update ∈ x.posted.filter (fun u => u.request.workerIndex = a.worker) := by
          rw [h.account.updates]
          refine List.mem_append_left _ (List.mem_map.mpr ⟨a, ?_, rfl⟩)
          simpa using ha
        exact (List.mem_filter.mp hm).1
      have hn := hposted _ hu
      rw [ControlRequest.IsFor, ← hw, ← hs] at hn
      simp only [decide_eq_true_eq]
      tauto
  · unfold lastPair
    have hq : ∀ q ∈ x.refreshed, ¬ (q.worker = w ∧ q.slot = i) := by
      rintro q hq ⟨rfl, rfl⟩
      exact absurd (h.placed.refreshed q hq) (not_lt.mpr hi)
    generalize x.provisioned w i = p
    generalize x.refreshed = qs at hq
    induction qs generalizing p with
    | nil => rfl
    | cons q qs ih =>
      rw [List.foldl_cons, if_neg (hq q (List.mem_cons_self ..))]
      exact ih p fun q' h' => hq q' (List.mem_cons_of_mem q h')

/-! ## The simulation -/

/-- When a condition on the exchange's steps becomes the condition `H` on moves. -/
structure Carries (G : Exchange n → Label n → Prop) (H : Session n → Move n → Prop) : Prop where
  refreshed : ∀ v creds, H v (.refreshed creds)
  retry : ∀ v creds, H v (.retry creds)
  refresh : ∀ v x failed creds, v.processing = some x → x.request.kind = .refresh →
    x.refreshed = !failed → H v (.answer failed creds)
  place : ∀ x j j' failed v, x.Sound → G x (.place j') → x.job = some j →
    j'.phase = .finished failed →
    x.view j.request.workerIndex j.request.clientIndex = some v →
    v.processing = some (Item.ofJob j) → H v (.answer failed j'.creds)
  act : ∀ x w i mark v target r, G x (.act w i mark) →
    CoreStep mark v.core (r.map Session.push).toList target → H v (.worker target r)
  apply : ∀ x w u rest v, G x (.apply w) → x.updates w = u :: rest →
    x.view w u.clientIndex = some v → H v .deliver

/-- The conclusion of the simulation for one client. -/
def Matched (H : Session n → Move n → Prop) (x : Exchange n) (w : Fin n) (i : Nat)
    (v' : Session n) : Prop :=
  (x.view w i = none ∧ (Session.system n).init v') ∨
    ∃ v, x.view w i = some v ∧ (Session.system n).GPath H v v'

section

variable {G : Exchange n → Label n → Prop} {H : Session n → Move n → Prop} {x x' : Exchange n}
  {w : Fin n} {i : Nat} {v' : Session n}

theorem matched_of_eq (hv : x'.view w i = some v') (h : x'.view w i = x.view w i) :
    Matched H x w i v' :=
  .inr ⟨v', h ▸ hv, .refl v'⟩

theorem matched_add (hs : x.Sound) (w₀ : Fin n) (creds : ClientCredentials)
    (hx : x' = { x with
      pending := Function.update x.pending w₀ (x.pending w₀ ++ [creds])
      added := Function.update x.added w₀ (x.added w₀ ++ [creds]) })
    (hv : x'.view w i = some v') : Matched H x w i v' := by
  obtain ⟨c, hc, -⟩ := view_eq_some hv
  subst hx
  refine matched_of_eq hv (view_congr hc hc rfl rfl rfl ?_)
  have hlt : i < (x.added w).length :=
    lt_of_lt_of_le (List.getElem?_eq_some_iff.mp hc).1 (hs.placed.covered w)
  unfold lastPair provisioned
  by_cases hw : w = w₀
  · subst hw
    simp only [Function.update_self]
    rw [List.getElem?_append_left hlt]
  · simp only [Function.update_of_ne hw]

theorem matched_enroll (hs : x.Sound) (w₀ : Fin n)
    (hx : x' = { x with
      pending := Function.update x.pending w₀ []
      slots := Function.update x.slots w₀
        (x.slots w₀ ++ (x.pending w₀).map fun creds => ⟨.waiting, false, creds⟩) })
    (hv : x'.view w i = some v') : Matched H x w i v' := by
  obtain ⟨c, hc, rfl⟩ := view_eq_some hv
  subst hx
  by_cases hw : w = w₀
  · subst hw
    simp only [Function.update_self] at hc
    rcases lt_or_ge i (x.slots w).length with hi | hi
    · rw [List.getElem?_append_left hi] at hc
      refine matched_of_eq hv (view_congr hc ?_ rfl rfl rfl rfl)
      simp only [Function.update_self]
      rw [List.getElem?_append_left hi, hc]
    · obtain ⟨creds, hd, rfl⟩ := hs.placed.enrolled hi hc
      obtain ⟨ho, hl, hf, hp⟩ := view_of_new hs hi
      refine .inl ⟨by simp [view, List.getElem?_eq_none hi], creds, ?_⟩
      have hprov : x.provisioned w i = tokenPair creds := by simp [provisioned, hd]
      exact congr (congr (congr (congrArg (Session.mk ⟨.waiting, false, creds⟩) ho) hl) hf)
        (hp.trans hprov)
  · simp only [Function.update_of_ne hw] at hc
    refine matched_of_eq hv (view_congr hc ?_ rfl rfl rfl rfl)
    simpa only [Function.update_of_ne hw] using hc

theorem outstanding_push (x : Exchange n) (rs : List (ControlRequest n)) (w : Fin n) (i : Nat) :
    (x.push rs).outstanding w i =
      x.outstanding w i ++ (rs.filter (·.IsFor w i)).map Item.queued := by
  simp [outstanding, push]

theorem latest_push (x : Exchange n) (rs : List (ControlRequest n)) (w : Fin n) (i : Nat) :
    (x.push rs).latest w i = lastSuspension (x.latest w i) (rs.filter (·.IsFor w i)) := by
  simp [latest, push, lastSuspension]

theorem setSlot_slots_ne {x : Exchange n} {w₀ w : Fin n} {i₀ i : Nat} {c : Core}
    (h : ¬ (w₀ = w ∧ i₀ = i)) : ((x.setSlot w₀ i₀ c).slots w)[i]? = (x.slots w)[i]? := by
  unfold setSlot
  by_cases hw : w = w₀
  · subst hw
    have hi : i₀ ≠ i := fun hi => h ⟨rfl, hi⟩
    simp [List.getElem?_set_ne hi]
  · simp [Function.update_of_ne hw]

theorem setSlot_slots_self {x : Exchange n} {w : Fin n} {i : Nat} {c c' : Core}
    (hc : (x.slots w)[i]? = some c) : ((x.setSlot w i c').slots w)[i]? = some c' := by
  have hlt := (List.getElem?_eq_some_iff.mp hc).1
  simp [setSlot, List.getElem?_set_self hlt]

theorem matched_act (hcar : Carries G H) {w₀ : Fin n} {i₀ : Nat} {mark : Prop} {c c' : Core}
    {ps : List Push} (hg : G x (.act w₀ i₀ mark)) (hc : (x.slots w₀)[i₀]? = some c)
    (hp : CorePath mark c ps c')
    (hx : x' = (x.setSlot w₀ i₀ c').push (requests w₀ i₀ x.pushed.length ps))
    (hv : x'.view w i = some v') : Matched H x w i v' := by
  obtain ⟨d, hd, rfl⟩ := view_eq_some hv
  subst hx
  by_cases hwi : w₀ = w ∧ i₀ = i
  · obtain ⟨rfl, rfl⟩ := hwi
    obtain rfl : c' = d := Option.some.inj ((setSlot_slots_self hc).symm.trans hd)
    refine .inr ⟨_, by rw [view, hc, Option.map_some], ?_⟩
    rw [outstanding_push, latest_push, requests_isFor, if_pos ⟨rfl, rfl⟩]
    exact path_of_core (fun v target r h => hcar.act x w₀ i₀ mark v target r hg h) w₀ i₀ hp
      ⟨c, x.outstanding w₀ i₀, x.latest w₀ i₀, x.failed w₀ i₀, x.lastPair w₀ i₀⟩ _ rfl
  · have hslot : (x.slots w)[i]? = some d := (setSlot_slots_ne hwi).symm.trans hd
    refine matched_of_eq hv (view_congr hslot hd ?_ ?_ rfl rfl)
    · rw [outstanding_push, requests_isFor, if_neg hwi, List.map_nil, List.append_nil]
      rfl
    · rw [latest_push, requests_isFor, if_neg hwi]
      rfl

/-- The answered items before the job, and the queued ones behind it. -/
theorem outstanding_job {j : Job n} (hj : x.job = some j) (hf : j.request.IsFor w i) :
    ∃ done rest, (∀ y ∈ done, y.answer ≠ none) ∧
      x.outstanding w i = done ++ Item.ofJob j :: rest ∧
      ∀ j' : Job n, j'.request = j.request →
        ∀ rf, { x with job := some j', refreshed := rf : Exchange n }.outstanding w i =
          done ++ Item.ofJob j' :: rest := by
  refine ⟨((x.updates w ++ x.inbox w).filter (fun u => u.clientIndex = i)).map Item.ofUpdate,
    (x.queue.filter (·.IsFor w i)).map Item.queued, ?_, ?_, ?_⟩
  · intro y hy
    obtain ⟨u, -, rfl⟩ := List.mem_map.mp hy
    simp [Item.ofUpdate]
  · simp [outstanding, hj, hf]
  · intro j' hr rf
    simp [outstanding, hr, hf]

theorem outstanding_other {j j' : Job n} (hj : x.job = some j) (hr : j'.request = j.request)
    (hf : ¬ j.request.IsFor w i) (rf : List (Refreshed n)) :
    { x with job := some j', refreshed := rf : Exchange n }.outstanding w i =
      x.outstanding w i := by
  simp [outstanding, hj, hr, hf]

theorem answer_ofJob {j : Job n} (h : ∀ failed, j.phase ≠ .finished failed) :
    (Item.ofJob j).answer = none := by
  unfold Item.ofJob
  split
  · rename_i failed hp
    exact absurd hp (h failed)
  · rfl

theorem matched_place (hcar : Carries G H) (hs : x.Sound) {j j' : Job n} {attempt : Nat}
    (hg : G x (.place j')) (hj : x.job = some j) (hp : j.phase = .placing attempt)
    (hr : PlaceResult attempt j j') (hx : x' = { x with job := some j' })
    (hv : x'.view w i = some v') : Matched H x w i v' := by
  obtain ⟨c, hc, rfl⟩ := view_eq_some hv
  subst hx
  obtain ⟨hreq, -, hrf, hpair, hphase⟩ := hr
  by_cases hf : j.request.IsFor w i
  · obtain ⟨done, rest, hdone, ho, ho'⟩ := outstanding_job (x := x) hj hf
    have ha : (Item.ofJob j).answer = none := answer_ofJob (by simp [hp])
    have hview : x.view w i =
        some ⟨c, x.outstanding w i, x.latest w i, x.failed w i, x.lastPair w i⟩ := by
      rw [view, hc, Option.map_some]
    obtain ⟨hproc, hmod⟩ := Session.processing_eq
      (v := ⟨c, x.outstanding w i, x.latest w i, x.failed w i, x.lastPair w i⟩) ho hdone ha
    have hnew := ho' j' hreq x.refreshed
    refine .inr ⟨_, hview, ?_⟩
    rcases hphase with ⟨failed, hfin⟩ | ⟨-, hretry⟩
    · have hitem : Item.ofJob j' =
          { Item.ofJob j with creds := j'.creds, answer := some failed } := by
        simp [Item.ofJob, hreq, hrf, hfin]
      have hstep := @Session.Step.answer _ _ _ failed j'.creds hproc
        (fun hok => ⟨hpair, fun hk => ((hs.jobs j hj).placing attempt hp).2.2 hk⟩)
      rw [hmod, ← hitem, ← hnew] at hstep
      obtain ⟨hw, hi⟩ := hf
      refine .single (hcar.place x j j' failed _ hs hg hj hfin ?_ hproc) hstep
      rw [hw, hi]
      exact hview
    · have hitem : Item.ofJob j' = { Item.ofJob j with creds := j'.creds } := by
        simp [Item.ofJob, hreq, hrf, hretry, hp]
      have hstep := @Session.Step.retry _ _ _ j'.creds hproc hpair
      rw [hmod, ← hitem, ← hnew] at hstep
      exact .single (hcar.retry _ _) hstep
  · exact matched_of_eq hv (view_congr hc hc (outstanding_other hj hreq hf x.refreshed) rfl rfl rfl)

theorem lastPair_refreshed {qs : List (Refreshed n)} (q : Refreshed n) :
    { x with refreshed := qs ++ [q] : Exchange n }.lastPair w i =
      if q.worker = w ∧ q.slot = i then q.pair
      else { x with refreshed := qs : Exchange n }.lastPair w i := by
  simp [lastPair, provisioned]

theorem matched_refresh (hcar : Carries G H) (hs : x.Sound) {j j' : Job n}
    (hj : x.job = some j) (hp : j.phase = .refreshing) (hr : RefreshResult j j')
    (hx : x' = { x with
      job := some j'
      refreshed := if j'.refreshed then
          x.refreshed ++ [⟨j.request.workerIndex, j.request.clientIndex, tokenPair j'.creds⟩]
        else x.refreshed })
    (hv : x'.view w i = some v') : Matched H x w i v' := by
  obtain ⟨c, hc, rfl⟩ := view_eq_some hv
  subst hx
  obtain ⟨hreq, -, hresult⟩ := hr
  obtain ⟨hunref, hkind⟩ := (hs.jobs j hj).refreshing hp
  by_cases hf : j.request.IsFor w i
  · obtain ⟨done, rest, hdone, ho, ho'⟩ := outstanding_job (x := x) hj hf
    have ha : (Item.ofJob j).answer = none := answer_ofJob (by simp [hp])
    have hview : x.view w i =
        some ⟨c, x.outstanding w i, x.latest w i, x.failed w i, x.lastPair w i⟩ := by
      rw [view, hc, Option.map_some]
    obtain ⟨hproc, hmod⟩ := Session.processing_eq
      (v := ⟨c, x.outstanding w i, x.latest w i, x.failed w i, x.lastPair w i⟩) ho hdone ha
    refine .inr ⟨_, hview, ?_⟩
    rcases hresult with ⟨href, hphase⟩ | ⟨href, hphase⟩
    · -- the call returned: the item now carries the pair it returned
      have hcall := @Session.Step.refreshed _ _ _ j'.creds hproc hunref
      rw [hmod] at hcall
      have hpair : { x with
          job := some j'
          refreshed := if j'.refreshed then
              x.refreshed ++ [⟨j.request.workerIndex, j.request.clientIndex, tokenPair j'.creds⟩]
            else x.refreshed : Exchange n }.lastPair w i = tokenPair j'.creds := by
        rw [if_pos href]
        exact (lastPair_refreshed _).trans (if_pos hf)
      rw [ho' j' hreq _, hpair]
      rcases hphase with hkept | hplace
      · have hitem : Item.ofJob j' = { Item.ofJob j with
            creds := j'.creds, refreshed := true, answer := some false } := by
          simp [Item.ofJob, hreq, href, hkept]
        obtain ⟨hproc', hmod'⟩ := Session.processing_eq
          (v := ⟨c, done ++ { Item.ofJob j with creds := j'.creds, refreshed := true } :: rest,
            x.latest w i, x.failed w i, tokenPair j'.creds⟩) rfl hdone ha
        have hanswer := @Session.Step.answer _ _ _ false j'.creds hproc'
          fun _ => ⟨rfl, fun _ => rfl⟩
        rw [hmod'] at hanswer
        rw [hitem]
        exact .step (hcar.refreshed _ _) hcall
          (.single (hcar.refresh _ _ false _ hproc' hkind rfl) hanswer)
      · have hitem : Item.ofJob j' = { Item.ofJob j with
            creds := j'.creds, refreshed := true } := by
          simp [Item.ofJob, hreq, href, hplace, hp]
        rw [hitem]
        exact .single (hcar.refreshed _ _) hcall
    · have hitem : Item.ofJob j' =
          { Item.ofJob j with creds := j'.creds, answer := some true } := by
        simp [Item.ofJob, hreq, href, hphase]
      have hanswer := @Session.Step.answer _ _ _ true j'.creds hproc (by simp)
      rw [hmod, ← hitem] at hanswer
      have hnone : ¬ j'.refreshed = true := by rw [href, hunref]; simp
      rw [ho' j' hreq _]
      simp only [hnone]
      exact .single (hcar.refresh _ _ true _ hproc hkind hunref) hanswer
  · refine matched_of_eq hv (view_congr hc hc (outstanding_other hj hreq hf _) rfl rfl ?_)
    split
    · exact (lastPair_refreshed _).trans (if_neg hf)
    · rfl

theorem matched_post {j : Job n} {failed : Bool} (hj : x.job = some j)
    (hp : j.phase = .finished failed)
    (hx : x' = { x with
      job := none
      posted := x.posted ++ [j.update failed]
      inbox := Function.update x.inbox j.request.workerIndex
        (x.inbox j.request.workerIndex ++ [j.update failed]) })
    (hv : x'.view w i = some v') : Matched H x w i v' := by
  obtain ⟨c, hc, -⟩ := view_eq_some hv
  subst hx
  refine matched_of_eq hv (view_congr hc hc ?_ rfl rfl rfl)
  have hitem := item_of_finished hp
  by_cases hw : w = j.request.workerIndex
  · subst hw
    by_cases hi : j.request.clientIndex = i
    · simp [outstanding, hj, ControlRequest.IsFor, hi, ClientUpdate.clientIndex, hitem]
    · simp [outstanding, hj, ControlRequest.IsFor, hi, ClientUpdate.clientIndex]
  · simp [outstanding, hj, ControlRequest.IsFor, Function.update_of_ne hw, Ne.symm hw]

theorem matched_pop {r : ControlRequest n} {rest : List (ControlRequest n)} (hj : x.job = none)
    (hq : x.queue = r :: rest) (hx : x' = { x with queue := rest, job := some (Job.start r) })
    (hv : x'.view w i = some v') : Matched H x w i v' := by
  obtain ⟨c, hc, -⟩ := view_eq_some hv
  subst hx
  refine matched_of_eq hv (view_congr hc hc ?_ rfl rfl rfl)
  by_cases hf : r.IsFor w i
  · simp [outstanding, hj, hq, hf, item_start]
  · simp [outstanding, hj, hq, hf]

theorem matched_take (w₀ : Fin n) (hu : x.updates w₀ = [])
    (hx : x' = { x with
      updates := Function.update x.updates w₀ (x.inbox w₀)
      inbox := Function.update x.inbox w₀ [] })
    (hv : x'.view w i = some v') : Matched H x w i v' := by
  obtain ⟨c, hc, -⟩ := view_eq_some hv
  subst hx
  refine matched_of_eq hv (view_congr hc hc ?_ rfl rfl rfl)
  by_cases hw : w = w₀
  · subst hw
    simp [outstanding, hu]
  · simp [outstanding, Function.update_of_ne hw]

theorem matched_apply (hcar : Carries G H) {w₀ : Fin n} {u : ClientUpdate n}
    {rest : List (ClientUpdate n)} {c : Core} (hg : G x (.apply w₀)) (hu : x.updates w₀ = u :: rest)
    (hc : (x.slots w₀)[u.clientIndex]? = some c)
    (hx : x' = { x.setSlot w₀ u.clientIndex (updated u.toUpdate c) with
      updates := Function.update x.updates w₀ rest
      applied := x.applied ++ [⟨w₀, u.clientIndex, c.creds.index, u⟩] })
    (hv : x'.view w i = some v') : Matched H x w i v' := by
  obtain ⟨d, hd, rfl⟩ := view_eq_some hv
  subst hx
  by_cases hwi : w₀ = w ∧ u.clientIndex = i
  · obtain ⟨rfl, rfl⟩ := hwi
    obtain rfl : updated u.toUpdate c = d :=
      Option.some.inj ((setSlot_slots_self hc).symm.trans hd)
    have hview : x.view w₀ u.clientIndex = some ⟨c, x.outstanding w₀ u.clientIndex,
        x.latest w₀ u.clientIndex, x.failed w₀ u.clientIndex, x.lastPair w₀ u.clientIndex⟩ := by
      rw [view, hc, Option.map_some]
    have ho : x.outstanding w₀ u.clientIndex = Item.ofUpdate u ::
        { x with updates := Function.update x.updates w₀ rest : Exchange n }.outstanding w₀
          u.clientIndex := by
      simp [outstanding, hu]
    refine .inr ⟨_, hview, ?_⟩
    have ha : (Item.ofUpdate u).answer = some u.failed := rfl
    have hstep := Session.Step.deliver (v := ⟨c, x.outstanding w₀ u.clientIndex,
      x.latest w₀ u.clientIndex, x.failed w₀ u.clientIndex, x.lastPair w₀ u.clientIndex⟩) ho ha
    refine .single (hcar.apply x w₀ u rest _ hg hu hview) ?_
    refine cast (congrArg _ ?_) hstep
    unfold Session.delivered updated
    cases hfail : u.failed with
    | true =>
      simp [failed, hfail, outstanding, setSlot, latest, lastPair, provisioned, Item.ofUpdate]
    | false =>
      simp [failed, hfail, outstanding, setSlot, latest, lastPair, provisioned, Item.ofUpdate]
  · have hslot : (x.slots w)[i]? = some d := (setSlot_slots_ne hwi).symm.trans hd
    refine matched_of_eq hv (view_congr hslot hd ?_ rfl ?_ rfl)
    · by_cases hw : w = w₀
      · subst hw
        have hi : u.clientIndex ≠ i := fun hi => hwi ⟨rfl, hi⟩
        simp [outstanding, setSlot, hu, hi]
      · simp [outstanding, setSlot, Function.update_of_ne hw]
    · have hn : ¬ (w₀ = w ∧ u.clientIndex = i ∧ u.failed = true) := fun h => hwi ⟨h.1, h.2.1⟩
      simp [failed, hn]

end

/-- **Every client's session.** In every run whose steps meet `G`, what a client
shows is reachable by session moves that meet `H`. -/
theorem view_reach {G : Exchange n → Label n → Prop} {H : Session n → Move n → Prop}
    (hcar : Carries G H) {x : Exchange n} (h : (system n).GReach G x) (w : Fin n) (i : Nat)
    {v : Session n} (hv : x.view w i = some v) : (Session.system n).GReach H v := by
  refine System.GReach.simulate (Session.system n) (fun x => x.view w i) ?_ ?_ h v hv
  · rintro _ v rfl hv
    simp [view] at hv
  · intro x l x' v' hr hg hs hv
    have hsound := sound_of_reach hr
    cases hs with
    | quiet => exact matched_of_eq hv rfl
    | add => exact matched_add hsound _ _ rfl hv
    | enroll => exact matched_enroll hsound _ rfl hv
    | take hu => exact matched_take _ hu rfl hv
    | act hc hp => exact matched_act hcar hg hc hp rfl hv
    | apply hu hc => exact matched_apply hcar hg hu hc rfl hv
    | pop hj hq => exact matched_pop hj hq rfl hv
    | refresh hj hp hr => exact matched_refresh hcar hsound hj hp hr rfl hv
    | place hj hp hr => exact matched_place hcar hsound hg hj hp hr rfl hv
    | post hj hp => exact matched_post hj hp rfl hv

end Exchange

end CksLoadtest.Protocol
