import CksLoadtest.Control.Loop
import CksLoadtest.Lib.Transition
import CksLoadtest.Worker.Requests

/-!
# One client and its outstanding requests

The purpose of the protocol between workers and control thread, for one client: its
core, and the requests it pushed that no update has answered yet, oldest first. The
control thread works on the oldest one without an answer. The three invariants at
the end are those the claims about tokens, wake-ups and the refresh flag rest on.
-/
namespace CksLoadtest.Protocol

open Lib.Buffer Lib.Transition
open Provisioner (tokenPair)
open Worker (Core CoreStep CorePath Push)

/-- An outstanding request, with the credentials as worked on so far. -/
structure Item (n : Nat) where
  request : ControlRequest n
  creds : ClientCredentials
  refreshed : Bool := false
  /-- Whether the answer is a failed one, once there is an answer. -/
  answer : Option Bool := none
  deriving DecidableEq

/-- A request nobody has worked on. -/
def Item.queued {n : Nat} (r : ControlRequest n) : Item n := { request := r, creds := r.creds }

structure Session (n : Nat) where
  core : Core
  outstanding : List (Item n) := []
  /-- The request of the latest suspension. -/
  latest : Option (ControlRequest n) := none
  /-- Requests whose failed update was applied. -/
  failed : List (ControlRequest n) := []
  /-- The pair of the last `refreshToken` that returned, at first the provisioned one. -/
  last : Int64 × Bytes
  deriving DecidableEq

inductive Move (n : Nat) where
  /-- One step of the worker, with the request it pushes if it pushes one. -/
  | worker (target : Core) (request : Option (ControlRequest n))
  | refreshed (creds : ClientCredentials)
  | retry (creds : ClientCredentials)
  | answer (failed : Bool) (creds : ClientCredentials)
  | deliver

namespace Session

variable {n : Nat}

/-- Change the oldest item without an answer. -/
def onProcessing (f : Item n → Item n) : List (Item n) → List (Item n)
  | [] => []
  | x :: xs => if x.answer = none then f x :: xs else x :: onProcessing f xs

def processing (v : Session n) : Option (Item n) := v.outstanding.find? fun x => x.answer = none

/-- The push a request stands for. -/
def push (r : ControlRequest n) : Push := (r.suspension, r.kind, r.creds)

def pushed (v : Session n) (target : Core) (r : Option (ControlRequest n)) : Session n :=
  { v with
    core := target
    outstanding := v.outstanding ++ (r.map Item.queued).toList
    latest := match r with
      | some r => if r.suspension then some r else v.latest
      | none => v.latest }

/-- What applying an update does: a failed one nothing, any other makes the client
WAITING with the new credentials and a clear flag. -/
def delivered (v : Session n) (x : Item n) (rest : List (Item n)) (failed : Bool) : Session n :=
  if failed then { v with outstanding := rest, failed := v.failed ++ [x.request] }
  else { v with outstanding := rest, core := ⟨.waiting, false, x.creds⟩ }

/-- The steps of a session. The worker's are the elementary ones of `CoreStep`. -/
inductive Step : Session n → Move n → Session n → Prop
  | worker {v : Session n} {target : Core} {r : Option (ControlRequest n)}
      (h : CoreStep True v.core (r.map push).toList target) :
      Step v (.worker target r) (v.pushed target r)
  | refreshed {v : Session n} {x : Item n} {creds : ClientCredentials}
      (hx : v.processing = some x) (hr : x.refreshed = false) :
      Step v (.refreshed creds)
        { v with
          outstanding := onProcessing (fun x => { x with creds := creds, refreshed := true })
            v.outstanding
          last := tokenPair creds }
  | retry {v : Session n} {x : Item n} {creds : ClientCredentials}
      (hx : v.processing = some x) (hc : tokenPair creds = tokenPair x.creds) :
      Step v (.retry creds)
        { v with outstanding := onProcessing (fun x => { x with creds := creds }) v.outstanding }
  | answer {v : Session n} {x : Item n} {failed : Bool} {creds : ClientCredentials}
      (hx : v.processing = some x)
      (hc : failed = false → tokenPair creds = tokenPair x.creds ∧
        (x.request.kind = .refresh → x.refreshed = true)) :
      Step v (.answer failed creds)
        { v with
          outstanding := onProcessing (fun x => { x with creds := creds, answer := some failed })
            v.outstanding }
  | deliver {v : Session n} {x : Item n} {rest : List (Item n)} {failed : Bool}
      (ho : v.outstanding = x :: rest) (ha : x.answer = some failed) :
      Step v .deliver (v.delivered x rest failed)

/-- The system of one session; a client begins WAITING with the provisioned pair. -/
def system (n : Nat) : System (Session n) (Move n) where
  init v := ∃ creds, v = { core := ⟨.waiting, false, creds⟩, last := tokenPair creds }
  step := Step

theorem processing_split {v : Session n} {x : Item n} (h : v.processing = some x) :
    ∃ done rest, v.outstanding = done ++ x :: rest ∧ x.answer = none ∧
      (∀ y ∈ done, y.answer ≠ none) ∧
      ∀ f, onProcessing f v.outstanding = done ++ f x :: rest := by
  unfold processing at h
  generalize v.outstanding = xs at h ⊢
  induction xs with
  | nil => cases h
  | cons y ys ih =>
    rw [List.find?_cons] at h
    by_cases hy : y.answer = none
    · simp only [hy, decide_true, Option.some.injEq] at h
      subst h
      exact ⟨[], ys, rfl, hy, by simp, fun f => by simp [onProcessing, hy]⟩
    · simp only [hy, decide_false] at h
      obtain ⟨done, rest, rfl, hx, hd, hf⟩ := ih h
      refine ⟨y :: done, rest, rfl, hx, ?_, fun f => by simp [onProcessing, hy, hf]⟩
      intro z hz
      cases hz with
      | head => exact hy
      | tail _ hz => exact hd z hz

/-- The item behind the answered ones is the one worked on. -/
theorem processing_eq {v : Session n} {done rest : List (Item n)} {x : Item n}
    (ho : v.outstanding = done ++ x :: rest) (hd : ∀ y ∈ done, y.answer ≠ none)
    (ha : x.answer = none) : v.processing = some x ∧
      ∀ f, onProcessing f v.outstanding = done ++ f x :: rest := by
  unfold processing
  rw [ho]
  clear ho
  induction done with
  | nil => simp [onProcessing, ha]
  | cons y ys ih =>
    have hy := hd y (List.mem_cons_self ..)
    obtain ⟨hp, hf⟩ := ih fun z hz => hd z (List.mem_cons_of_mem y hz)
    refine ⟨by simpa [hy] using hp, fun f => ?_⟩
    rw [List.cons_append, onProcessing, if_neg hy, hf f]
    rfl

/-- **What a move can do** to the outstanding requests: append one, change the one
the control thread works on, or take the oldest away. -/
theorem Step.cases {v v' : Session n} {m : Move n} (h : Step v m v') :
    (∃ target r, m = .worker target r ∧ CoreStep True v.core (r.map push).toList target ∧
      v' = v.pushed target r) ∨
    (∃ done x x' rest, v.processing = some x ∧ v.outstanding = done ++ x :: rest ∧
      x.answer = none ∧ (∀ y ∈ done, y.answer ≠ none) ∧ x'.request = x.request ∧
      v'.outstanding = done ++ x' :: rest ∧ v'.core = v.core ∧ v'.latest = v.latest ∧
      v'.failed = v.failed ∧
      ((m = .refreshed x'.creds ∧ x' = { x with creds := x'.creds, refreshed := true } ∧
          v'.last = tokenPair x'.creds) ∨
        (m = .retry x'.creds ∧ x' = { x with creds := x'.creds } ∧
          tokenPair x'.creds = tokenPair x.creds ∧ v'.last = v.last) ∨
        ∃ failed, m = .answer failed x'.creds ∧
          x' = { x with creds := x'.creds, answer := some failed } ∧ v'.last = v.last ∧
          (failed = false → tokenPair x'.creds = tokenPair x.creds ∧
            (x.request.kind = .refresh → x.refreshed = true)))) ∨
    (∃ x rest failed, m = .deliver ∧ v.outstanding = x :: rest ∧ x.answer = some failed ∧
      v' = v.delivered x rest failed) := by
  cases h with
  | worker h => exact .inl ⟨_, _, rfl, h, rfl⟩
  | @refreshed x creds hx hr =>
    obtain ⟨done, rest, ho, ha, hd, hf⟩ := processing_split hx
    exact .inr (.inl ⟨done, x, { x with creds := creds, refreshed := true }, rest, hx, ho, ha, hd,
      rfl, hf _, rfl, rfl, rfl, .inl ⟨rfl, rfl, rfl⟩⟩)
  | @retry x creds hx hc =>
    obtain ⟨done, rest, ho, ha, hd, hf⟩ := processing_split hx
    exact .inr (.inl ⟨done, x, { x with creds := creds }, rest, hx, ho, ha, hd,
      rfl, hf _, rfl, rfl, rfl, .inr (.inl ⟨rfl, rfl, hc, rfl⟩)⟩)
  | @answer x failed creds hx hc =>
    obtain ⟨done, rest, ho, ha, hd, hf⟩ := processing_split hx
    exact .inr (.inl ⟨done, x, { x with creds := creds, answer := some failed }, rest, hx, ho, ha,
      hd, rfl, hf _, rfl, rfl, rfl, .inr (.inr ⟨failed, rfl, rfl, rfl, hc⟩)⟩)
  | deliver ho ha => exact .inr (.inr ⟨_, _, _, rfl, ho, ha, rfl⟩)

/-! ## Order -/

/-- Everything behind an item without an answer is untouched. -/
def Ordered (v : Session n) : Prop :=
  v.outstanding.Pairwise fun x y => x.answer = none → y.answer = none ∧ y.refreshed = false

theorem Ordered.rest {v : Session n} (h : v.Ordered) {done rest : List (Item n)} {x : Item n}
    (ho : v.outstanding = done ++ x :: rest) (ha : x.answer = none) :
    ∀ y ∈ rest, y.answer = none ∧ y.refreshed = false := by
  unfold Ordered at h
  rw [ho, List.pairwise_append, List.pairwise_cons] at h
  exact fun y hy => h.2.1.1 y hy ha

theorem Ordered.step {v v' : Session n} {m : Move n} (h : v.Ordered) (hs : Step v m v') :
    v'.Ordered := by
  obtain ⟨target, r, -, -, rfl⟩ | ⟨done, x, x', rest, -, ho, ha, hd, -, ho', -⟩ |
    ⟨x, rest, failed, -, ho, -, rfl⟩ := hs.cases
  · unfold Ordered pushed
    refine List.pairwise_append.mpr ⟨h, ?_, ?_⟩
    · cases r <;> simp
    · intro x _ y hy _
      cases r with
      | none => simp at hy
      | some r =>
        obtain rfl : y = Item.queued r := by simpa using hy
        exact ⟨rfl, rfl⟩
  · have hrest := h.rest ho ha
    unfold Ordered at h ⊢
    rw [ho, List.pairwise_append, List.pairwise_cons] at h
    rw [ho', List.pairwise_append, List.pairwise_cons]
    refine ⟨h.1, ⟨fun y hy _ => hrest y hy, h.2.1.2⟩, ?_⟩
    intro y hy z _ hn
    exact absurd hn (hd y hy)
  · unfold Ordered at h
    rw [ho, List.pairwise_cons] at h
    unfold Ordered delivered
    split <;> exact h.2

/-! ## Token pairs -/

/-- An item whose pair the client will hold after its delivery: answered with
success, or refreshed and not yet answered. -/
def Item.Settles (x : Item n) : Prop :=
  x.answer = some false ∨ (x.answer = none ∧ x.refreshed = true)

instance (x : Item n) : Decidable (Item.Settles x) := by unfold Item.Settles; infer_instance

/-- The pair held once the items are delivered. -/
def heldAfter (p : Int64 × Bytes) (xs : List (Item n)) : Int64 × Bytes :=
  xs.foldl (fun p x => if Item.Settles x then tokenPair x.creds else p) p

theorem heldAfter_append (p : Int64 × Bytes) (xs ys : List (Item n)) :
    heldAfter p (xs ++ ys) = heldAfter (heldAfter p xs) ys := List.foldl_append

theorem heldAfter_cons (p : Int64 × Bytes) (x : Item n) (xs : List (Item n)) :
    heldAfter p (x :: xs) = heldAfter (if Item.Settles x then tokenPair x.creds else p) xs := rfl

theorem heldAfter_untouched (p : Int64 × Bytes) {xs : List (Item n)}
    (h : ∀ x ∈ xs, x.answer = none ∧ x.refreshed = false) : heldAfter p xs = p := by
  induction xs with
  | nil => rfl
  | cons x xs ih =>
    have hx := h x (List.mem_cons_self ..)
    rw [heldAfter_cons, if_neg (by simp [Item.Settles, hx.1, hx.2])]
    exact ih fun y hy => h y (List.mem_cons_of_mem x hy)

def PairInv (v : Session n) : Prop :=
  v.Ordered ∧ heldAfter (tokenPair v.core.creds) v.outstanding = v.last

/-- The condition under which no refreshed pair is lost: a REASSIGN is only placed
with the newest pair, and a request that was refreshed is not given up on. -/
def KeepsPair (v : Session n) : Move n → Prop
  | .answer failed _ => ∀ x, v.processing = some x →
      (failed = false → x.request.kind = .reassign → tokenPair x.creds = v.last) ∧
        (failed = true → x.refreshed = false)
  | _ => True

theorem PairInv.step {v v' : Session n} {m : Move n} (h : v.PairInv) (hg : v.KeepsPair m)
    (hs : Step v m v') : v'.PairInv := by
  refine ⟨h.1.step hs, ?_⟩
  obtain ⟨target, r, -, hc, rfl⟩ | ⟨done, x, x', rest, hx, ho, ha, -, -, ho', hcore, -, -, hm⟩ |
    ⟨x, rest, failed, -, ho, ha, rfl⟩ := hs.cases
  · -- a queued request settles nothing
    simp only [pushed, hc.creds, heldAfter_append, h.2]
    cases r with
    | none => rfl
    | some r => rfl
  · have hrest := h.1.rest ho ha
    have hold := h.2
    rw [ho, heldAfter_append, heldAfter_cons, heldAfter_untouched _ hrest] at hold
    rw [ho', hcore, heldAfter_append, heldAfter_cons, heldAfter_untouched _ hrest]
    rcases hm with ⟨-, hx', hl⟩ | ⟨-, hx', hp, hl⟩ | ⟨failed, rfl, hx', hl, hp⟩
    · rw [hl, if_pos (by rw [hx']; exact .inr ⟨ha, rfl⟩)]
    · have hsame : Item.Settles x' ↔ Item.Settles x := by rw [hx']; rfl
      rw [hl, ← hold]
      simp only [hsame, hp]
    · have hguard := hg x hx
      rw [hl]
      cases failed with
      | true =>
        rw [if_neg (by rw [hx']; simp [Item.Settles]), ← hold,
          if_neg (by simp [Item.Settles, ha, hguard.2 rfl])]
      | false =>
        rw [if_pos (by rw [hx']; exact .inl rfl), (hp rfl).1]
        cases hk : x.request.kind with
        | reassign => exact hguard.1 rfl hk
        | refresh => rw [← hold, if_pos (.inr ⟨ha, (hp rfl).2 hk⟩)]
  · have hold := h.2
    rw [ho, heldAfter_cons] at hold
    cases failed with
    | true => simpa [delivered, Item.Settles, ha] using hold
    | false => simpa [delivered, Item.Settles, ha] using hold

theorem pair_of_reach {v : Session n} (h : (system n).GReach KeepsPair v) : v.PairInv :=
  System.GReach.inv (I := PairInv)
    (by rintro _ ⟨creds, rfl⟩; exact ⟨.nil, rfl⟩)
    (fun s e s' _ hi hg hs => hi.step hg hs) h

/-- With nothing outstanding the client holds the newest pair. -/
theorem pair_of_quiet {v : Session n} (h : (system n).GReach KeepsPair v)
    (ho : v.outstanding = []) : tokenPair v.core.creds = v.last := by
  have h2 := (pair_of_reach h).2
  rwa [ho] at h2

/-! ## Wake-ups -/

/-- The request of the latest suspension of a SUSPENDED client is outstanding, or
was answered by a failed update. -/
def WakeInv (v : Session n) : Prop :=
  v.core.state = .suspended →
    ∃ r, v.latest = some r ∧ (r ∈ v.outstanding.map Item.request ∨ r ∈ v.failed)

theorem WakeInv.step {v v' : Session n} {m : Move n} (h : v.WakeInv) (hs : Step v m v') :
    v'.WakeInv := by
  obtain ⟨target, r, -, hc, rfl⟩ | ⟨done, x, x', rest, -, ho, -, -, hr, ho', hcore, hl, hf, -⟩ |
    ⟨x, rest, failed, -, ho, -, rfl⟩ := hs.cases
  · intro hsusp
    -- a step that ends SUSPENDED pushes the request of a suspension, or only sets the flag
    have new : ∀ {kind : Kind}, (r.map push).toList = [(true, kind, v.core.creds)] →
        ∃ q, (v.pushed target r).latest = some q ∧
          (q ∈ (v.pushed target r).outstanding.map Item.request ∨
            q ∈ (v.pushed target r).failed) := by
      intro kind hp
      cases r with
      | none => simp at hp
      | some q =>
        have hq : q.suspension = true := by
          simp only [Option.map_some, Option.toList_some, push, List.cons.injEq, Prod.mk.injEq,
            and_true] at hp
          exact hp.1
        exact ⟨q, by simp [pushed, hq], .inl (by simp [pushed, Item.queued])⟩
    generalize hps : (r.map push).toList = ps at hc
    cases hc with
    | activate hw => cases hsusp
    | ask ha hflag => exact absurd (show v.core.state = .suspended from hsusp) (by simp [ha])
    | suspend hne => exact new hps
    | tokenError hne hflag => exact new hps
    | markOnly _ hsu hflag =>
      cases r with
      | none => simpa [pushed] using h hsu
      | some q => simp at hps
  · intro hsusp
    rw [hcore] at hsusp
    obtain ⟨r, hlr, hmem⟩ := h hsusp
    refine ⟨r, hl.trans hlr, ?_⟩
    rw [ho', hf]
    rw [ho] at hmem
    simpa [hr] using hmem
  · intro hsusp
    cases failed with
    | false => simp [delivered] at hsusp
    | true =>
      obtain ⟨r, hlr, hmem⟩ := h (by simpa [delivered] using hsusp)
      refine ⟨r, by simpa [delivered] using hlr, ?_⟩
      rw [ho, List.map_cons, List.mem_cons] at hmem
      simp only [delivered, if_true, List.mem_append, List.mem_singleton]
      tauto

theorem wake_of_reach {v : Session n} {G : Session n → Move n → Prop}
    (h : (system n).GReach G v) : v.WakeInv :=
  System.GReach.inv (I := WakeInv)
    (by rintro _ ⟨creds, rfl⟩ hs; cases hs)
    (fun s e s' _ hi _ hs => hi.step hs) h

/-! ## The refresh flag -/

/-- REFRESH requests outstanding. -/
def refreshes (v : Session n) : Nat := v.outstanding.countP fun x => x.request.kind = .refresh

/-- Permanently given up: nothing will wake the client. -/
def GivenUp (v : Session n) : Prop := v.core.state = .suspended ∧ v.outstanding = []

def FlagInv (v : Session n) : Prop :=
  v.GivenUp ∨ v.refreshes = if v.core.refreshRequested then 1 else 0

/-- The condition under which the flag follows the outstanding REFRESH: it is set
only with a request, a successful answer to a REASSIGN finds it clear, and a failed
REFRESH finds the client SUSPENDED with nothing else outstanding. -/
def KeepsFlag (v : Session n) : Move n → Prop
  | .worker target r => r = none → target.refreshRequested = v.core.refreshRequested
  | .deliver => ∀ x rest, v.outstanding = x :: rest →
      (x.answer = some false → x.request.kind = .reassign → v.core.refreshRequested = false) ∧
        (x.answer = some true → x.request.kind = .refresh →
          v.core.state = .suspended ∧ rest = [])
  | _ => True

theorem refreshes_pushed (v : Session n) (target : Core) (r : Option (ControlRequest n)) :
    (v.pushed target r).refreshes =
      v.refreshes + ((r.map push).toList.countP fun p => p.2.1 = .refresh) := by
  unfold refreshes pushed
  rw [List.countP_append]
  cases r with
  | none => rfl
  | some r => simp [push, Item.queued, List.countP_cons]

theorem FlagInv.step {v v' : Session n} {m : Move n} (h : v.FlagInv) (hg : v.KeepsFlag m)
    (hs : Step v m v') : v'.FlagInv := by
  obtain ⟨target, r, rfl, hc, rfl⟩ | ⟨done, x, x', rest, -, ho, -, -, hr, ho', hcore, -⟩ |
    ⟨x, rest, failed, rfl, ho, ha, rfl⟩ := hs.cases
  · have hset : r = none → target.refreshRequested = v.core.refreshRequested := hg
    unfold FlagInv
    rw [refreshes_pushed]
    have hcount : v.core.state ≠ .suspended →
        v.refreshes = if v.core.refreshRequested then 1 else 0 := fun hne =>
      h.resolve_left fun hgu => hne hgu.1
    generalize hps : (r.map push).toList = ps at hc
    cases hc with
    | activate hw => exact .inr (hcount (by simp [hw]))
    | ask hact hflag => exact .inr (by simp [pushed, hcount (by simp [hact]), hflag])
    | suspend hne => exact .inr (hcount hne)
    | tokenError hne hflag => exact .inr (by simp [pushed, hcount hne, hflag])
    | markOnly _ hsu hflag =>
      cases r with
      | none => exact absurd (hset rfl) (by simp [hflag])
      | some q => simp at hps
  · have hcnt : v'.refreshes = v.refreshes := by
      unfold refreshes
      rw [ho, ho']
      simp [List.countP_append, List.countP_cons, hr]
    refine .inr ?_
    rw [hcnt, hcore]
    refine h.resolve_left fun hgu => ?_
    rw [hgu.2] at ho
    simp at ho
  · have hcnt : v.refreshes = if v.core.refreshRequested then 1 else 0 :=
      h.resolve_left fun hgu => by simp [hgu.2] at ho
    have hguard := hg x rest ho
    have hsplit : v.refreshes =
        (rest.countP fun y => y.request.kind = .refresh) +
          if x.request.kind = .refresh then 1 else 0 := by
      simp only [refreshes, ho, List.countP_cons, decide_eq_true_eq]
    cases failed with
    | true =>
      cases hk : x.request.kind with
      | reassign =>
        refine .inr ?_
        rw [hk] at hsplit
        exact hsplit.symm.trans hcnt
      | refresh =>
        obtain ⟨hsusp, hrest⟩ := hguard.2 ha hk
        exact .inl ⟨hsusp, hrest⟩
    | false =>
      refine .inr ?_
      have hrest : (rest.countP fun y => y.request.kind = .refresh) = 0 := by
        cases hk : x.request.kind with
        | reassign => simp [hk, hguard.1 ha hk] at hsplit hcnt; omega
        | refresh => simp only [hk, if_true] at hsplit; split at hcnt <;> omega
      exact hrest

theorem flag_of_reach {v : Session n} (h : (system n).GReach KeepsFlag v) : v.FlagInv :=
  System.GReach.inv (I := FlagInv)
    (by rintro _ ⟨creds, rfl⟩; exact .inr rfl)
    (fun s e s' _ hi hg hs => hi.step hg hs) h

end Session

end CksLoadtest.Protocol
