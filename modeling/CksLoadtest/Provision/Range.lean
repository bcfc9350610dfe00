import CksLoadtest.Provision.Client

/-!
# Provisioning a range

`provisionRange` with its threads: each takes the next offset, looks at the stop flags,
provisions that client and stores it. The vector is returned when every thread has
ended, and only if neither flag was seen.
-/
namespace CksLoadtest

/-- Where one provisioning thread stands. -/
inductive ThreadPhase where
  | idle
  | claimed (off : Nat)
  | working (off : Nat)
  | ended
  deriving DecidableEq

/-- A running `provisionRange` call. Offsets do not wrap: they stay within the length
of the vector and the number of threads. -/
structure Range where
  globalStart : Int
  count : Nat
  nextOffset : Nat := 0
  completed : Nat := 0
  failed : Bool := false
  firstError : Option Thrown := none
  threads : List ThreadPhase
  out : List ClientCredentials

inductive RangeEvent where
  | claim (t : Nat)
  | check (t : Nat)
  | provision (t : Nat) (api : ClientApi)

namespace Range

variable {K : Type*} (cfg : Config K) (roster : Roster)

/-- Offsets of the range that the roster covers. -/
def covered (globalStart : Int) (count : Nat) : Nat :=
  (List.range count).countP fun (i : Nat) => (roster.sessions (int32 (globalStart + i))).isSome

/-- The coverage check refuses before a thread is started. -/
def refuses (globalStart : Int) (count : Nat) : Bool :=
  cfg.rosterFile ≠ "" && decide (covered roster globalStart count < count) && cfg.rosterRequired

/-- `provisionRange` up to the start of its threads; `none` has returned nothing. -/
def start (globalStart count : Int) : Option Range :=
  if count ≤ 0 ∨ refuses cfg roster globalStart count.toNat then none
  else
    some
      { globalStart := globalStart
        count := count.toNat
        threads := List.replicate (min cfg.provisionConcurrency count).toNat .idle
        out := List.replicate count.toNat {} }

def setThread (r : Range) (t : Nat) (p : ThreadPhase) : Range :=
  { r with threads := r.threads.set t p }

/-- The end of a thread's turn: store the credentials, or report the first failure. -/
def finish (r : Range) (t off : Nat) (result : Except Thrown ClientCredentials) : Range :=
  match result with
  | .ok c =>
    { r.setThread t .idle with out := r.out.set off c, completed := r.completed + 1 }
  | .error e =>
    { r.setThread t .ended with
      failed := true
      firstError := if r.failed then r.firstError else some e }

/-- One step of a thread, with what it sends. `stop` is the flag as it is now. -/
def step (stop : Bool) (r : Range) : RangeEvent → Option (Range × List Operation)
  | .claim t =>
    match r.threads[t]? with
    | some .idle =>
      some ({ r.setThread t (.claimed r.nextOffset) with nextOffset := r.nextOffset + 1 }, [])
    | _ => none
  | .check t =>
    match r.threads[t]? with
    | some (.claimed off) =>
      if r.count ≤ off ∨ r.failed ∨ stop then some (r.setThread t .ended, [])
      else some (r.setThread t (.working off), [])
    | _ => none
  | .provision t api =>
    match r.threads[t]? with
    | some (.working off) =>
      let done := Provisioner.provisionClient cfg roster api (int32 (r.globalStart + off))
      some (r.finish t off done.result, done.sent)
    | _ => none

section Turns

variable {cfg} {roster} {stop : Bool} {r : Range} {t off : Nat}

theorem step_claim (ht : r.threads[t]? = some .idle) :
    r.step cfg roster stop (.claim t) =
      some ({ r.setThread t (.claimed r.nextOffset) with nextOffset := r.nextOffset + 1 }, []) := by
  simp only [step, ht]

theorem step_go (ht : r.threads[t]? = some (.claimed off)) (hf : r.failed = false)
    (hlt : off < r.count) :
    r.step cfg roster false (.check t) = some (r.setThread t (.working off), []) := by
  simp only [step, ht, hf]
  exact if_neg (by simpa using hlt)

theorem step_leave (ht : r.threads[t]? = some (.claimed off)) (hle : r.count ≤ off) :
    r.step cfg roster stop (.check t) = some (r.setThread t .ended, []) := by
  simp only [step, ht]
  exact if_pos (.inl hle)

theorem step_store (ht : r.threads[t]? = some (.working off)) {api : ClientApi}
    {c : ClientCredentials} (hc : (Provisioner.provisionClient cfg roster api
      (int32 (r.globalStart + off))).result = .ok c) :
    r.step cfg roster stop (.provision t api) =
      some ({ r.setThread t .idle with out := r.out.set off c, completed := r.completed + 1 },
        (Provisioner.provisionClient cfg roster api (int32 (r.globalStart + off))).sent) := by
  simp only [step, ht, finish, hc]

end Turns

def joined (r : Range) : Bool := r.threads.all fun p => p = .ended

/-- What the call returns once its threads are joined. -/
def result (stop : Bool) (r : Range) : List ClientCredentials :=
  if stop ∨ r.failed then [] else r.out

/-- The client of an offset has been provisioned and stored. -/
def Stored (r : Range) (k : Nat) : Prop :=
  ∃ c, r.out[k]? = some c ∧ c.index = int32 (r.globalStart + k)

/-- Every offset that was taken is held by a thread or stored, unless a flag was seen. -/
structure Inv (stop : Bool) (r : Range) : Prop where
  positive : 0 < r.count
  length : r.out.length = r.count
  nonempty : r.threads ≠ []
  claimed : ∀ t off : Nat, r.threads[t]? = some (.claimed off) → off < r.nextOffset
  working : ∀ t off : Nat, r.threads[t]? = some (.working off) → off < r.nextOffset ∧ off < r.count
  ended : ∀ t : Nat, r.threads[t]? = some .ended →
    r.failed = true ∨ stop = true ∨ r.count ≤ r.nextOffset
  taken : ∀ k < r.nextOffset, k < r.count → r.failed = true ∨ stop = true ∨
    (∃ t : Nat, r.threads[t]? = some (.claimed k) ∨ r.threads[t]? = some (.working k)) ∨ r.Stored k

theorem Inv.stopped {stop stop' : Bool} {r : Range} (h : Inv stop r)
    (hs : stop = true → stop' = true) : Inv stop' r :=
  { h with
    ended := fun t ht => (h.ended t ht).imp id (.imp hs id)
    taken := fun k hk hc => (h.taken k hk hc).imp id (.imp hs id) }

theorem start_inv {globalStart count : Int} {r : Range} {stop : Bool}
    (hp : 1 ≤ cfg.provisionConcurrency) (h : start cfg roster globalStart count = some r) :
    Inv stop r ∧ r.globalStart = globalStart ∧ (r.count : Int) = count := by
  unfold start at h
  split at h
  · cases h
  · rename_i hn
    rw [not_or] at hn
    obtain rfl := Option.some.inj h
    have hidle : ∀ (t : Nat) (p : ThreadPhase),
        (List.replicate (min cfg.provisionConcurrency count).toNat ThreadPhase.idle)[t]? = some p →
          p = .idle := by
      intro t p ht
      exact List.eq_of_mem_replicate (List.mem_of_getElem? ht)
    refine ⟨⟨by show 0 < count.toNat; omega, List.length_replicate, ?_, ?_, ?_, ?_, ?_⟩, rfl, ?_⟩
    · show List.replicate _ _ ≠ []
      rw [Ne, List.replicate_eq_nil_iff]
      omega
    · intro t off ht
      cases hidle t _ ht
    · intro t off ht
      cases hidle t _ ht
    · intro t ht
      cases hidle t _ ht
    · intro k hk
      cases hk
    · show ((count.toNat : Nat) : Int) = count
      omega

theorem getElem?_setThread (r : Range) (t t' : Nat) (p : ThreadPhase) :
    (r.setThread t p).threads[t']? =
      if t = t' then (r.threads[t']?).map fun _ => p else r.threads[t']? := by
  unfold setThread
  rw [List.getElem?_set']
  split <;> rfl

/-- What a thread that is not idle any more holds after another one stepped. -/
theorem setThread_cases {r : Range} {t t' : Nat} {p q : ThreadPhase}
    (h : (r.setThread t p).threads[t']? = some q) : q = p ∨ r.threads[t']? = some q := by
  rw [getElem?_setThread] at h
  split at h
  · obtain ⟨_, -, hq⟩ := Option.map_eq_some_iff.mp h
    exact .inl hq.symm
  · exact .inr h

theorem setThread_self {r : Range} {t : Nat} {p q : ThreadPhase} (h : r.threads[t]? = some q) :
    (r.setThread t p).threads[t]? = some p := by
  rw [getElem?_setThread, if_pos rfl, h]
  rfl

theorem setThread_other {r : Range} {t t' : Nat} {p q : ThreadPhase} (hne : t ≠ t')
    (h : r.threads[t']? = some q) : (r.setThread t p).threads[t']? = some q := by
  rw [getElem?_setThread, if_neg hne, h]

/-- What one step leaves of the fixed parts. -/
theorem step_fixed {r r' : Range} {stop : Bool} {e : RangeEvent} {ops : List Operation}
    (h : r.step cfg roster stop e = some (r', ops)) :
    r'.globalStart = r.globalStart ∧ r'.count = r.count := by
  cases e with
  | claim t =>
    simp only [step] at h
    split at h
    · obtain ⟨rfl, -⟩ := Prod.mk.inj (Option.some.inj h)
      exact ⟨rfl, rfl⟩
    · cases h
  | check t =>
    simp only [step] at h
    split at h
    · split at h
      all_goals
        obtain ⟨rfl, -⟩ := Prod.mk.inj (Option.some.inj h)
        exact ⟨rfl, rfl⟩
    · cases h
  | provision t api =>
    simp only [step] at h
    split at h
    · obtain ⟨rfl, -⟩ := Prod.mk.inj (Option.some.inj h)
      unfold finish
      split <;> exact ⟨rfl, rfl⟩
    · cases h

/-- A step of one thread: what has to be shown of its new phase and of the offsets. -/
theorem Inv.moved {r r' : Range} {stop : Bool} {t : Nat} {p : ThreadPhase} (h : Inv stop r)
    (hthreads : r'.threads = (r.setThread t p).threads) (hcount : r'.count = r.count)
    (hnext : r.nextOffset ≤ r'.nextOffset) (hfailed : r.failed = true → r'.failed = true)
    (hlength : r'.out.length = r.out.length)
    (hclaimed : ∀ off, p = .claimed off → off < r'.nextOffset)
    (hworking : ∀ off, p = .working off → off < r'.nextOffset ∧ off < r'.count)
    (hended : p = .ended → r'.failed = true ∨ stop = true ∨ r'.count ≤ r'.nextOffset)
    (htaken : ∀ k < r'.nextOffset, k < r'.count → r'.failed = true ∨ stop = true ∨
      (∃ t' : Nat, r'.threads[t']? = some (.claimed k) ∨ r'.threads[t']? = some (.working k)) ∨
        r'.Stored k) : Inv stop r' where
  positive := hcount ▸ h.positive
  length := hlength.trans (h.length.trans hcount.symm)
  nonempty := by
    rw [hthreads]
    refine List.ne_nil_of_length_pos ?_
    show 0 < (r.threads.set t p).length
    rw [List.length_set]
    exact List.length_pos_of_ne_nil h.nonempty
  claimed t' off ho := by
    rw [hthreads] at ho
    rcases setThread_cases ho with hq | ho
    · exact hclaimed off hq.symm
    · exact (h.claimed t' off ho).trans_le hnext
  working t' off ho := by
    rw [hthreads] at ho
    rcases setThread_cases ho with hq | ho
    · exact hworking off hq.symm
    · exact ⟨(h.working t' off ho).1.trans_le hnext, hcount ▸ (h.working t' off ho).2⟩
  ended t' ho := by
    rw [hthreads] at ho
    rcases setThread_cases ho with hq | ho
    · exact hended hq.symm
    · exact (h.ended t' ho).imp hfailed (.imp id fun hc => hcount ▸ hc.trans hnext)
  taken := htaken

/-- A thread that held `off` steps: every other offset is held as before. -/
theorem held_other {r : Range} {t off k : Nat} {p q : ThreadPhase} (ht : r.threads[t]? = some q)
    (hq : ∀ k, q = .claimed k ∨ q = .working k → k = off) (hk : k ≠ off)
    (h : ∃ t' : Nat, r.threads[t']? = some (.claimed k) ∨ r.threads[t']? = some (.working k)) :
    ∃ t' : Nat, (r.setThread t p).threads[t']? = some (.claimed k) ∨
      (r.setThread t p).threads[t']? = some (.working k) := by
  obtain ⟨t', ho⟩ := h
  have hne : t ≠ t' := by
    rintro rfl
    rw [ht, Option.some.injEq, Option.some.injEq] at ho
    exact hk (hq k ho)
  exact ⟨t', ho.imp (setThread_other hne) (setThread_other hne)⟩

theorem claim_inv {r : Range} {stop : Bool} {t : Nat} (h : Inv stop r)
    (ht : r.threads[t]? = some .idle) :
    Inv stop { r.setThread t (.claimed r.nextOffset) with nextOffset := r.nextOffset + 1 } := by
  refine h.moved (t := t) (p := .claimed r.nextOffset) rfl rfl (Nat.le_succ _) id rfl ?_ nofun
    nofun ?_
  · rintro off hq
    obtain rfl := ThreadPhase.claimed.inj hq
    exact Nat.lt_succ_self _
  · intro k hk hc
    rcases Nat.lt_succ_iff_lt_or_eq.mp hk with hlt | rfl
    · refine (h.taken k hlt hc).imp id (.imp id (.imp ?_ id))
      exact held_other ht (by simp) (Nat.ne_of_lt hlt)
    · exact .inr (.inr (.inl ⟨t, .inl (setThread_self ht)⟩))

theorem check_inv {r : Range} {stop : Bool} {t off : Nat} (h : Inv stop r)
    (ht : r.threads[t]? = some (.claimed off)) :
    Inv stop (if r.count ≤ off ∨ r.failed ∨ stop then r.setThread t .ended
      else r.setThread t (.working off)) := by
  have hlt := h.claimed t off ht
  have hheld : ∀ {p : ThreadPhase} {k : Nat}, k ≠ off → _ := fun {p} {k} =>
    held_other (k := k) (p := p) ht (by simp)
  split
  · rename_i hend
    have hflag : r.failed = true ∨ stop = true ∨ r.count ≤ off := by
      rcases hend with hc | hf | hs
      · exact .inr (.inr hc)
      · exact .inl hf
      · exact .inr (.inl hs)
    refine h.moved (t := t) (p := .ended) rfl rfl (le_refl _) id rfl nofun nofun ?_ ?_
    · exact fun _ => hflag.imp id (.imp id fun hc => hc.trans (Nat.le_of_lt hlt))
    · intro k hk hc
      by_cases hko : k = off
      · subst hko
        exact hflag.imp id (.imp id fun hle => absurd hc (Nat.not_lt.mpr hle))
      · exact (h.taken k hk hc).imp id (.imp id (.imp (hheld hko) id))
  · rename_i hend
    rw [not_or] at hend
    refine h.moved (t := t) (p := .working off) rfl rfl (le_refl _) id rfl nofun ?_ nofun ?_
    · rintro o hq
      obtain rfl := ThreadPhase.working.inj hq
      exact ⟨hlt, Nat.lt_of_not_le hend.1⟩
    · intro k hk hc
      by_cases hko : k = off
      · subst hko
        exact .inr (.inr (.inl ⟨t, .inr (setThread_self ht)⟩))
      · exact (h.taken k hk hc).imp id (.imp id (.imp (hheld hko) id))

theorem finish_inv {r : Range} {stop : Bool} {t off : Nat}
    {result : Except Thrown ClientCredentials} (h : Inv stop r)
    (ht : r.threads[t]? = some (.working off))
    (hindex : ∀ c, result = .ok c → c.index = int32 (r.globalStart + off)) :
    Inv stop (r.finish t off result) := by
  unfold finish
  cases result with
  | error e =>
    exact h.moved (t := t) (p := .ended) rfl rfl (le_refl _) (fun _ => rfl) rfl nofun nofun
      (fun _ => .inl rfl) (fun _ _ _ => .inl rfl)
  | ok c =>
    have hoff := (h.working t off ht).2
    refine h.moved (t := t) (p := .idle) rfl rfl (le_refl _) id List.length_set nofun nofun nofun ?_
    intro k hk hkc
    by_cases hko : k = off
    · subst hko
      refine .inr (.inr (.inr ⟨c, ?_, hindex c rfl⟩))
      exact List.getElem?_set_self (by rw [h.length]; exact hoff)
    · refine (h.taken k hk hkc).imp id (.imp id (.imp (held_other ht (by simp) hko) ?_))
      rintro ⟨d, hd, hdi⟩
      exact ⟨d, (List.getElem?_set_ne (Ne.symm hko)).trans hd, hdi⟩

theorem step_inv {r r' : Range} {stop : Bool} {e : RangeEvent} {ops : List Operation}
    (h : Inv stop r) (hs : r.step cfg roster stop e = some (r', ops)) : Inv stop r' := by
  cases e with
  | claim t =>
    simp only [step] at hs
    split at hs
    · rename_i ht
      obtain ⟨rfl, -⟩ := Prod.mk.inj (Option.some.inj hs)
      exact claim_inv h ht
    · cases hs
  | check t =>
    simp only [step] at hs
    split at hs
    · rename_i off ht
      have hc := check_inv h ht
      split at hs
      · rename_i hend
        obtain ⟨rfl, -⟩ := Prod.mk.inj (Option.some.inj hs)
        rwa [if_pos hend] at hc
      · rename_i hend
        obtain ⟨rfl, -⟩ := Prod.mk.inj (Option.some.inj hs)
        rwa [if_neg hend] at hc
    · cases hs
  | provision t api =>
    simp only [step] at hs
    split at hs
    · rename_i off ht
      obtain ⟨rfl, -⟩ := Prod.mk.inj (Option.some.inj hs)
      exact finish_inv h ht fun c hc => Provisioner.provisionClient_index cfg roster api hc
    · cases hs

/-- Joined without a fault, every thread has ended and the whole range has been taken. -/
theorem Inv.joined {r : Range} {stop : Bool} (h : Inv stop r) (hj : r.joined = true)
    (hflag : ¬ (stop = true ∨ r.failed = true)) :
    (∀ (t : Nat) (p : ThreadPhase), r.threads[t]? = some p → p = .ended) ∧
      r.count ≤ r.nextOffset := by
  rw [not_or] at hflag
  have hended : ∀ (t : Nat) (p : ThreadPhase), r.threads[t]? = some p → p = .ended :=
    fun t p ht => of_decide_eq_true (List.all_eq_true.mp hj p (List.mem_of_getElem? ht))
  obtain ⟨p, hp⟩ := List.exists_mem_of_ne_nil _ h.nonempty
  obtain ⟨t, ht⟩ := List.mem_iff_getElem?.mp hp
  refine ⟨hended, ?_⟩
  rcases h.ended t (by rw [ht, hended t p ht]) with hf | hs | hc
  · exact absurd hf hflag.2
  · exact absurd hs hflag.1
  · exact hc

/-- **What `provisionRange` returns**: nothing, or one client for every index of the
range, in order. -/
theorem result_indices {r : Range} {stop : Bool} (h : Inv stop r) (hj : r.joined = true) :
    r.result stop = [] ∨ (r.result stop).map (·.index) =
      (List.range r.count).map fun (k : Nat) => int32 (r.globalStart + k) := by
  unfold result
  by_cases hflag : stop = true ∨ r.failed = true
  · exact .inl (if_pos hflag)
  · rw [if_neg hflag]
    obtain ⟨hended, hnext⟩ := h.joined hj hflag
    rw [not_or] at hflag
    right
    refine List.ext_getElem? fun k => ?_
    rw [List.getElem?_map, List.getElem?_map]
    by_cases hk : k < r.count
    · have hstored : r.Stored k := by
        rcases h.taken k (lt_of_lt_of_le hk hnext) hk with hf | hs | ⟨t', ho⟩ | hst
        · exact absurd hf hflag.2
        · exact absurd hs hflag.1
        · rcases ho with ho | ho
          · cases hended t' _ ho
          · cases hended t' _ ho
        · exact hst
      obtain ⟨c, hc, hindex⟩ := hstored
      rw [hc, List.getElem?_range hk, Option.map_some, Option.map_some, hindex]
    · rw [List.getElem?_eq_none (by rw [h.length]; omega),
        List.getElem?_eq_none (by rw [List.length_range]; omega)]
      rfl

/-! ## What is known of the stored clients -/

/-- The offset and the replies of the client that an event provisions. -/
def turn? (r : Range) : RangeEvent → Option (Nat × ClientApi)
  | .provision t api =>
    match r.threads[t]? with
    | some (.working off) => some (off, api)
    | _ => none
  | _ => none

/-- Every offset that was taken is held by a thread or has a client of which `F` is known,
unless a flag was seen. -/
def Filled (F : Nat → ClientCredentials → Prop) (stop : Bool) (r : Range) : Prop :=
  ∀ k < r.nextOffset, r.failed = true ∨ stop = true ∨
    (∃ t : Nat, r.threads[t]? = some (.claimed k) ∨ r.threads[t]? = some (.working k)) ∨
      ∀ c, r.out[k]? = some c → F k c

section Filled

variable {K : Type*} {cfg : Config K} {roster : Roster} {r r' : Range} {stop stop' : Bool}
  {F G : Nat → ClientCredentials → Prop}

theorem Filled.stopped (h : Filled F stop r) (hs : stop = true → stop' = true) :
    Filled F stop' r :=
  fun k hk => (h k hk).imp id (.imp hs id)

theorem Filled.mono (h : Filled F stop r) (hFG : ∀ k c, F k c → G k c) : Filled G stop r :=
  fun k hk => (h k hk).imp id (.imp id (.imp id fun hout c hc => hFG k c (hout c hc)))

theorem start_filled {globalStart count : Int} (h : start cfg roster globalStart count = some r) :
    Filled F stop r := by
  unfold start at h
  split at h
  · cases h
  · obtain rfl := Option.some.inj h
    exact fun k hk => absurd hk (Nat.not_lt_zero k)

theorem claim_filled {t : Nat} (h : Filled F stop r) (ht : r.threads[t]? = some .idle) :
    Filled F stop
      { r.setThread t (.claimed r.nextOffset) with nextOffset := r.nextOffset + 1 } := by
  intro k hk
  rcases Nat.lt_succ_iff_lt_or_eq.mp hk with hlt | rfl
  · refine (h k hlt).imp id (.imp id (.imp ?_ id))
    exact held_other ht (by simp) (Nat.ne_of_lt hlt)
  · exact .inr (.inr (.inl ⟨t, .inl (setThread_self ht)⟩))

theorem check_filled {t off : Nat} (hi : Inv stop r) (h : Filled F stop r)
    (ht : r.threads[t]? = some (.claimed off)) :
    Filled F stop (if r.count ≤ off ∨ r.failed ∨ stop then r.setThread t .ended
      else r.setThread t (.working off)) := by
  have hheld : ∀ {p : ThreadPhase} {k : Nat}, k ≠ off → _ := fun {p} {k} =>
    held_other (k := k) (p := p) ht (by simp)
  split
  · rename_i hend
    intro k hk
    by_cases hko : k = off
    · subst hko
      rcases hend with hc | hf | hs
      · -- past the end of the vector
        refine .inr (.inr (.inr fun c hout => ?_))
        obtain ⟨hlt, -⟩ := List.getElem?_eq_some_iff.mp hout
        have hlen : r.out.length = r.count := hi.length
        exact absurd (show k < r.out.length from hlt) (by omega)
      · exact .inl hf
      · exact .inr (.inl hs)
    · exact (h k hk).imp id (.imp id (.imp (hheld hko) id))
  · intro k hk
    by_cases hko : k = off
    · subst hko
      exact .inr (.inr (.inl ⟨t, .inr (setThread_self ht)⟩))
    · exact (h k hk).imp id (.imp id (.imp (hheld hko) id))

theorem finish_filled {t off : Nat} {result : Except Thrown ClientCredentials}
    (h : Filled F stop r) (ht : r.threads[t]? = some (.working off))
    (hF : ∀ c, result = .ok c → F off c) : Filled F stop (r.finish t off result) := by
  unfold finish
  cases result with
  | error e => exact fun _ _ => .inl rfl
  | ok c =>
    intro k hk
    by_cases hko : k = off
    · subst hko
      refine .inr (.inr (.inr fun d hd => ?_))
      obtain ⟨-, rfl⟩ := List.getElem?_eq_some_iff.mp hd
      simpa using hF c rfl
    · refine (h k hk).imp id (.imp id (.imp (held_other ht (by simp) hko) fun hout d hd => ?_))
      exact hout d ((List.getElem?_set_ne (Ne.symm hko)).symm.trans hd)

/-- **One step** of a thread: it is enough to know something of the client it provisions. -/
theorem step_filled (hi : Inv stop r) (h : Filled F stop r) {e : RangeEvent}
    {ops : List Operation} (hs : r.step cfg roster stop e = some (r', ops))
    (hF : ∀ off api c, r.turn? e = some (off, api) →
      (Provisioner.provisionClient cfg roster api (int32 (r.globalStart + off))).result = .ok c →
        F off c) : Filled F stop r' := by
  cases e with
  | claim t =>
    simp only [step] at hs
    split at hs
    · rename_i ht
      obtain ⟨rfl, -⟩ := Prod.mk.inj (Option.some.inj hs)
      exact claim_filled h ht
    · cases hs
  | check t =>
    simp only [step] at hs
    split at hs
    · rename_i off ht
      have hc := check_filled hi h ht
      split at hs
      · rename_i hend
        obtain ⟨rfl, -⟩ := Prod.mk.inj (Option.some.inj hs)
        rwa [if_pos hend] at hc
      · rename_i hend
        obtain ⟨rfl, -⟩ := Prod.mk.inj (Option.some.inj hs)
        rwa [if_neg hend] at hc
    · cases hs
  | provision t api =>
    simp only [step] at hs
    split at hs
    · rename_i off ht
      obtain ⟨rfl, -⟩ := Prod.mk.inj (Option.some.inj hs)
      refine finish_filled h ht fun c hc => hF off api c ?_ hc
      simp only [turn?, ht]
    · cases hs

/-- What `provisionRange` returns is known, client by client. -/
theorem result_filled (hi : Inv stop r) (h : Filled F stop r) (hj : r.joined = true) (k : Nat)
    (c : ClientCredentials) (hk : (r.result stop)[k]? = some c) : F k c := by
  unfold result at hk
  split at hk
  · cases hk
  · rename_i hflag
    obtain ⟨hended, hnext⟩ := hi.joined hj hflag
    rw [not_or] at hflag
    obtain ⟨hlt, -⟩ := List.getElem?_eq_some_iff.mp hk
    have hlen := hi.length
    rcases h k (by omega) with hf | hs | ⟨t', ho⟩ | hout
    · exact absurd hf hflag.2
    · exact absurd hs hflag.1
    · rcases ho with ho | ho
      · cases hended t' _ ho
      · cases hended t' _ ho
    · exact hout c hk

end Filled

end Range

end CksLoadtest
