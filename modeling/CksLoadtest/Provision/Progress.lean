import CksLoadtest.Provision.Range

/-!
# A range comes to its end

Every turn of a thread takes it nearer to its end, whichever client it was given and whatever the
API answers. A thread that has not ended can always take its turn.
-/
namespace CksLoadtest

/-- A bound on the turns of a thread, not counting offsets it has still to take. -/
def ThreadPhase.left (count : Nat) : ThreadPhase → Nat
  | .idle => 2
  | .claimed off => if off < count then 4 else 1
  | .working _ => 3
  | .ended => 0

/-- It is inside `provisionClient`. -/
def ThreadPhase.isWorking : ThreadPhase → Bool
  | .working _ => true
  | _ => false

/-- A turn with the replies `api`, where it has any. -/
def RangeEvent.Uses (api : ClientApi) : RangeEvent → Prop
  | .provision _ api' => api' = api
  | _ => True

def RangeEvent.provisions : RangeEvent → Bool
  | .provision .. => true
  | _ => false

namespace Range

def leftOf (count : Nat) : List ThreadPhase → Nat
  | [] => 0
  | p :: ps => p.left count + leftOf count ps

/-- Turns its threads may still take. -/
def left (r : Range) : Nat := leftOf r.count r.threads + 3 * (r.count - r.nextOffset)

/-- Clients that are being provisioned. -/
def working (r : Range) : Nat := r.threads.countP (·.isWorking)

theorem leftOf_set (count : Nat) {ps : List ThreadPhase} {t : Nat} {p q : ThreadPhase}
    (h : ps[t]? = some p) :
    leftOf count (ps.set t q) + p.left count = leftOf count ps + q.left count := by
  induction ps generalizing t with
  | nil => cases h
  | cons a ps ih =>
    cases t with
    | zero =>
      obtain rfl := Option.some.inj h
      simp only [List.set_cons_zero, leftOf]
      omega
    | succ t =>
      have hrest := ih (t := t) h
      simp only [List.set_cons_succ, leftOf]
      omega

theorem leftOf_replicate (count n : Nat) : leftOf count (List.replicate n .idle) = 2 * n := by
  induction n with
  | zero => rfl
  | succ n ih =>
    rw [List.replicate_succ, leftOf, ih, ThreadPhase.left]
    omega

theorem countP_set (f : ThreadPhase → Bool) {ps : List ThreadPhase} {t : Nat}
    {p q : ThreadPhase} (h : ps[t]? = some p) :
    (ps.set t q).countP f + (if f p then 1 else 0) = ps.countP f + if f q then 1 else 0 := by
  induction ps generalizing t with
  | nil => cases h
  | cons a ps ih =>
    cases t with
    | zero =>
      obtain rfl := Option.some.inj h
      simp only [List.set_cons_zero, List.countP_cons]
      omega
    | succ t =>
      have hrest := ih (t := t) h
      simp only [List.set_cons_succ, List.countP_cons]
      omega

variable {K : Type*} {cfg : Config K} {roster : Roster} {r r' : Range} {stop : Bool}
  {e : RangeEvent} {ops : List Operation}

/-- What a turn does to the phase of its thread. -/
inductive Turned (stop : Bool) (r : Range) : RangeEvent → Range → Prop
  | claim {t : Nat} (ht : r.threads[t]? = some .idle) :
      Turned stop r (.claim t)
        { r.setThread t (.claimed r.nextOffset) with nextOffset := r.nextOffset + 1 }
  | leave {t off : Nat} (ht : r.threads[t]? = some (.claimed off)) :
      Turned stop r (.check t) (r.setThread t .ended)
  | go {t off : Nat} (ht : r.threads[t]? = some (.claimed off)) (hlt : off < r.count)
      (hs : stop = false) : Turned stop r (.check t) (r.setThread t (.working off))
  | store {t off : Nat} {api : ClientApi} (c : ClientCredentials)
      (ht : r.threads[t]? = some (.working off)) :
      Turned stop r (.provision t api)
        { r.setThread t .idle with out := r.out.set off c, completed := r.completed + 1 }
  | fail {t off : Nat} {api : ClientApi} (error : Option Thrown)
      (ht : r.threads[t]? = some (.working off)) :
      Turned stop r (.provision t api)
        { r.setThread t .ended with failed := true, firstError := error }

/-- **What a turn can do.** -/
theorem step_turned (h : r.step cfg roster stop e = some (r', ops)) : Turned stop r e r' := by
  cases e with
  | claim t =>
    simp only [step] at h
    split at h
    · rename_i ht
      obtain ⟨rfl, -⟩ := Prod.mk.inj (Option.some.inj h)
      exact .claim ht
    · cases h
  | check t =>
    simp only [step] at h
    split at h
    · rename_i off ht
      split at h
      · obtain ⟨rfl, -⟩ := Prod.mk.inj (Option.some.inj h)
        exact .leave ht
      · rename_i hgo
        obtain ⟨rfl, -⟩ := Prod.mk.inj (Option.some.inj h)
        simp only [not_or, Bool.not_eq_true] at hgo
        exact .go ht (Nat.lt_of_not_le hgo.1) hgo.2.2
    · cases h
  | provision t api =>
    simp only [step] at h
    split at h
    · rename_i off ht
      obtain ⟨rfl, -⟩ := Prod.mk.inj (Option.some.inj h)
      unfold finish
      split
      · exact .store _ ht
      · exact .fail _ ht
    · cases h

/-- Every turn counts. -/
theorem step_left (h : r.step cfg roster stop e = some (r', ops)) : r'.left < r.left := by
  unfold left
  cases step_turned h with
  | claim ht =>
    have hset := leftOf_set r.count (q := .claimed r.nextOffset) ht
    simp only [ThreadPhase.left] at hset
    show leftOf r.count (r.threads.set _ _) + 3 * (r.count - (r.nextOffset + 1)) < _
    split at hset <;> omega
  | leave ht =>
    have hset := leftOf_set r.count (q := .ended) ht
    simp only [ThreadPhase.left] at hset
    show leftOf r.count (r.threads.set _ _) + 3 * (r.count - r.nextOffset) < _
    split at hset <;> omega
  | @go t off ht hlt _ =>
    have hset := leftOf_set r.count (q := .working off) ht
    simp only [ThreadPhase.left, if_pos hlt] at hset
    show leftOf r.count (r.threads.set _ _) + 3 * (r.count - r.nextOffset) < _
    omega
  | store c ht =>
    have hset := leftOf_set r.count (q := .idle) ht
    simp only [ThreadPhase.left] at hset
    show leftOf r.count (r.threads.set _ _) + 3 * (r.count - r.nextOffset) < _
    omega
  | fail error ht =>
    have hset := leftOf_set r.count (q := .ended) ht
    simp only [ThreadPhase.left] at hset
    show leftOf r.count (r.threads.set _ _) + 3 * (r.count - r.nextOffset) < _
    omega

theorem step_length (h : r.step cfg roster stop e = some (r', ops)) :
    r'.out.length = r.out.length := by
  cases step_turned h with
  | store => exact List.length_set
  | _ => rfl

/-- Once `stop` is raised, no further client is begun. -/
theorem step_working (h : r.step cfg roster true e = some (r', ops)) :
    (if e.provisions then 1 else 0) + r'.working ≤ r.working := by
  have hset {t : Nat} {p q : ThreadPhase} {a b : Nat} (ht : r.threads[t]? = some p)
      (ha : (if p.isWorking then 1 else 0) = a) (hb : (if q.isWorking then 1 else 0) = b) :
      (r.setThread t q).working + a = r.working + b := by
    rw [← ha, ← hb]
    exact countP_set (·.isWorking) ht
  cases step_turned h with
  | @claim t ht =>
    have hkept := hset (q := .claimed r.nextOffset) (a := 0) (b := 0) ht rfl rfl
    show 0 + (r.setThread t _).working ≤ _
    omega
  | @leave t off ht =>
    have hkept := hset (q := .ended) (a := 0) (b := 0) ht rfl rfl
    show 0 + (r.setThread t _).working ≤ _
    omega
  | go _ _ hs => cases hs
  | @store t off api c ht =>
    have hdone := hset (q := .idle) (a := 1) (b := 0) ht rfl rfl
    show 1 + (r.setThread t _).working ≤ _
    omega
  | @fail t off api error ht =>
    have hdone := hset (q := .ended) (a := 1) (b := 0) ht rfl rfl
    show 1 + (r.setThread t _).working ≤ _
    omega

/-- **No thread is stuck.** -/
theorem step_enabled (cfg : Config K) (roster : Roster) (stop : Bool) (hj : r.joined = false)
    (api : ClientApi) : ∃ e : RangeEvent, e.Uses api ∧ (r.step cfg roster stop e).isSome := by
  obtain ⟨p, hmem, hp⟩ := List.all_eq_false.mp hj
  obtain ⟨t, ht⟩ := List.mem_iff_getElem?.mp hmem
  cases p with
  | idle =>
    refine ⟨.claim t, trivial, ?_⟩
    simp only [step, ht, Option.isSome_some]
  | claimed off =>
    refine ⟨.check t, trivial, ?_⟩
    simp only [step, ht]
    split <;> rfl
  | working off =>
    refine ⟨.provision t api, rfl, ?_⟩
    simp only [step, ht, Option.isSome_some]
  | ended => exact absurd rfl hp

/-- The work of a range of `count` clients. -/
def size (cfg : Config K) (count : Int) : Nat :=
  2 * (min cfg.provisionConcurrency count).toNat + 3 * count.toNat

theorem start_left {globalStart count : Int} (h : start cfg roster globalStart count = some r) :
    r.left = size cfg count ∧ r.out.length = count.toNat ∧ r.working = 0 := by
  unfold start at h
  split at h
  · cases h
  · obtain rfl := Option.some.inj h
    refine ⟨?_, List.length_replicate, ?_⟩
    · show leftOf _ (List.replicate _ _) + 3 * (count.toNat - 0) = _
      rw [leftOf_replicate]
      rfl
    · refine List.countP_eq_zero.mpr fun p hp => ?_
      rw [List.eq_of_mem_replicate hp]
      exact Bool.false_ne_true

end Range

end CksLoadtest
