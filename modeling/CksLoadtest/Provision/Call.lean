import Mathlib.Algebra.Order.Field.Rat
import CksLoadtest.Lib.Work
import CksLoadtest.Provision.Progress

/-!
# One call of provisionRange

The threads of a call and whoever raises the stop flag, in any order. The call returns nothing
or every client of its range, and it returns them exactly when none failed and the flag was not
raised; only the sum of the start and an offset can leave the `int`.
-/
namespace CksLoadtest

open Lib.Transition Lib.Work
open Provisioner (Staged provisionClient)

/-- A call: its threads unless the coverage check refused it, the flag, and the clients that
were provisioned so far with the replies they got. No step reads the latter. -/
structure Call where
  range : Option Range
  stop : Bool := false
  turns : List (Nat × ClientApi) := []

inductive CallEvent where
  | thread (e : RangeEvent)
  | raiseStop

def CallEvent.isThread : CallEvent → Bool
  | .thread _ => true
  | .raiseStop => false

namespace Call

section Steps

variable {K : Type*} (cfg : Config K) (roster : Roster)

def step (c : Call) : CallEvent → Option Call
  | .thread e => c.range.bind fun r => (r.step cfg roster c.stop e).map fun next =>
      { c with range := some next.1, turns := c.turns ++ (r.turn? e).toList }
  | .raiseStop => some { c with stop := true }

/-- What the call returns, once its threads are joined. -/
def returned (c : Call) : Option (List ClientCredentials) :=
  match c.range with
  | none => some []
  | some r => if r.joined then some (r.result c.stop) else none

/-- The client of a turn could not be provisioned. -/
def Fails (globalStart : Int) (p : Nat × ClientApi) : Prop :=
  ∃ e, (provisionClient cfg roster p.2 (int32 (globalStart + p.1))).result = .error e

/-- One client for every offset, each through all stages in a turn of this call. -/
def Provided (index : Nat → Int) (count : Int) (c : Call) (out : List ClientCredentials) : Prop :=
  (out.length : Int) = count ∧ ∀ (k : Nat) d, out[k]? = some d →
    ∃ api, (k, api) ∈ c.turns ∧ Staged cfg roster api (index k) d

/-- Nothing or every client is returned, and, past the coverage check, every client exactly when
none failed and the flag is not up. -/
def AllOrNothing (index : Nat → Int) (globalStart count : Int) (c : Call)
    (out : List ClientCredentials) : Prop :=
  (out = [] ∨ Provided cfg roster index count c out) ∧
    (Range.refuses cfg roster globalStart count.toNat = false →
      (Provided cfg roster index count c out ↔
        (∀ p ∈ c.turns, ¬ Fails cfg roster globalStart p) ∧ c.stop = false))

end Steps

end Call

/-- The calls of `provisionRange` with these arguments. -/
def call {K : Type*} (cfg : Config K) (roster : Roster) (globalStart count : Int) :
    System Call CallEvent :=
  .ofPartial (fun c => c = { range := Range.start cfg roster globalStart count })
    (Call.step cfg roster)

namespace Call

section Runs

variable {K : Type*} {cfg : Config K} {roster : Roster} {g n : Int}

/-- What is known of a call whose threads were started. -/
structure Running (cfg : Config K) (roster : Roster) (g n : Int) (c : Call) (r : Range) :
    Prop where
  inv : r.Inv c.stop
  start : r.globalStart = g
  count : (r.count : Int) = n
  filled : r.Filled (fun k d => ∃ api, (k, api) ∈ c.turns ∧
    Staged cfg roster api (int32 (g + k)) d) c.stop
  failed : r.failed = true ↔ ∃ p ∈ c.turns, Fails cfg roster g p

/-- A thread reports a failure exactly when its client fails. -/
theorem step_failed {r r' : Range} {stop : Bool} {e : RangeEvent} {ops : List Operation}
    (h : r.step cfg roster stop e = some (r', ops)) :
    r'.failed = true ↔ r.failed = true ∨ ∃ p ∈ r.turn? e, Fails cfg roster r.globalStart p := by
  cases e with
  | claim t =>
    simp only [Range.step] at h
    split at h
    · obtain ⟨rfl, -⟩ := Prod.mk.inj (Option.some.inj h)
      simp [Range.turn?, Range.setThread]
    · cases h
  | check t =>
    simp only [Range.step] at h
    split at h
    · split at h
      all_goals
        obtain ⟨rfl, -⟩ := Prod.mk.inj (Option.some.inj h)
        simp [Range.turn?, Range.setThread]
    · cases h
  | provision t api =>
    simp only [Range.step] at h
    split at h
    · rename_i off ht
      obtain ⟨rfl, -⟩ := Prod.mk.inj (Option.some.inj h)
      have hturn : r.turn? (.provision t api) = some (off, api) := by simp only [Range.turn?, ht]
      rw [hturn]
      unfold Range.finish
      cases hres : (provisionClient cfg roster api (int32 (r.globalStart + off))).result with
      | error e => exact ⟨fun _ => .inr ⟨_, rfl, e, hres⟩, fun _ => rfl⟩
      | ok c =>
        refine ⟨fun hf => .inl hf, ?_⟩
        rintro (hf | ⟨p, hp, e, he⟩)
        · exact hf
        · obtain rfl := Option.some.inj hp
          cases hres.symm.trans he
    · cases h

theorem Running.thread {c : Call} {r r' : Range} {e : RangeEvent} {ops : List Operation}
    (h : Running cfg roster g n c r) (hs : r.step cfg roster c.stop e = some (r', ops)) :
    Running cfg roster g n
      { c with range := some r', turns := c.turns ++ (r.turn? e).toList } r' := by
  obtain ⟨hstart, hcount⟩ := Range.step_fixed cfg roster hs
  refine ⟨Range.step_inv cfg roster h.inv hs, hstart.trans h.start, ?_, ?_, ?_⟩
  · rw [hcount]
    exact h.count
  · refine Range.step_filled h.inv (h.filled.mono fun k d hd => ?_) hs fun off api d ht hd => ?_
    · obtain ⟨api, hapi, hstaged⟩ := hd
      exact ⟨api, List.mem_append_left _ hapi, hstaged⟩
    · refine ⟨api, List.mem_append_right _ (by rw [ht]; exact List.mem_singleton.mpr rfl), ?_⟩
      rw [h.start] at hd
      exact Provisioner.provisionClient_ok cfg roster api hd
  · rw [step_failed hs, h.failed, h.start]
    constructor
    · rintro (⟨p, hp, hf⟩ | ⟨p, hp, hf⟩)
      · exact ⟨p, List.mem_append_left _ hp, hf⟩
      · exact ⟨p, List.mem_append_right _ (Option.mem_toList.mpr hp), hf⟩
    · rintro ⟨p, hp, hf⟩
      rcases List.mem_append.mp hp with hp | hp
      · exact .inl ⟨p, hp, hf⟩
      · exact .inr ⟨p, Option.mem_toList.mp hp, hf⟩

theorem Running.raiseStop {c : Call} {r : Range} (h : Running cfg roster g n c r) :
    Running cfg roster g n { c with stop := true } r :=
  { h with
    inv := h.inv.stopped fun _ => rfl
    filled := h.filled.stopped fun _ => rfl }

/-- **Every run.** -/
theorem running_of_reach (hconc : 1 ≤ cfg.provisionConcurrency) {c : Call}
    (h : (call cfg roster g n).Reach c) :
    (c.range = none ↔ Range.start cfg roster g n = none) ∧
      ∀ r ∈ c.range, Running cfg roster g n c r := by
  refine System.Reach.inv (I := fun c => (c.range = none ↔ Range.start cfg roster g n = none) ∧
    ∀ r ∈ c.range, Running cfg roster g n c r) ?_ ?_ h
  · rintro _ rfl
    refine ⟨Iff.rfl, fun r hr => ?_⟩
    obtain ⟨hinv, hstart, hcount⟩ := @Range.start_inv _ cfg roster _ _ _ false hconc hr
    refine ⟨hinv, hstart, hcount, Range.start_filled hr, ?_⟩
    have hfailed : r.failed = false := by
      have hr : Range.start cfg roster g n = some r := hr
      unfold Range.start at hr
      split at hr
      · cases hr
      · obtain rfl := Option.some.inj hr
        rfl
    rw [hfailed]
    exact ⟨fun hf => absurd hf Bool.false_ne_true, fun ⟨_, hp, _⟩ => absurd hp List.not_mem_nil⟩
  · rintro c e c' - ⟨hnone, hrun⟩ hs
    have hs : c.step cfg roster e = some c' := hs
    cases e with
    | raiseStop =>
      obtain rfl := Option.some.inj hs
      exact ⟨hnone, fun r hr => (hrun r hr).raiseStop⟩
    | thread e =>
      obtain ⟨r, hr, hs⟩ := Option.bind_eq_some_iff.mp hs
      obtain ⟨⟨r', ops⟩, hstep, rfl⟩ := Option.map_eq_some_iff.mp hs
      refine ⟨⟨nofun, fun hstart => ?_⟩, fun q hq => ?_⟩
      · rw [hnone.mpr hstart] at hr
        cases hr
      · obtain rfl := Option.some.inj hq
        exact (hrun r hr).thread hstep

/-- **What a call returns**, with the indices as `int` sums them. -/
theorem returned_allOrNothing (hconc : 1 ≤ cfg.provisionConcurrency) (hn : 1 ≤ n) {c : Call}
    (h : (call cfg roster g n).Reach c) {out : List ClientCredentials}
    (ho : c.returned = some out) :
    AllOrNothing cfg roster (fun k => int32 (g + k)) g n c out := by
  obtain ⟨hnone, hrun⟩ := running_of_reach hconc h
  unfold returned at ho
  split at ho
  · rename_i hr
    obtain rfl := Option.some.inj ho
    refine ⟨.inl rfl, fun hpass => ?_⟩
    have hrefused := hnone.mp hr
    unfold Range.start at hrefused
    rw [if_neg] at hrefused
    · cases hrefused
    · rw [hpass, not_or]
      exact ⟨by omega, Bool.false_ne_true⟩
  · rename_i r hr
    obtain ⟨hjoined, ho⟩ := Option.ite_none_right_eq_some.mp ho
    obtain rfl := Option.some.inj ho
    have hr := hrun r hr
    have hprovided (hclear : ¬ (c.stop = true ∨ r.failed = true)) :
        Provided cfg roster (fun k => int32 (g + k)) n c (r.result c.stop) := by
      have hresult : r.result c.stop = r.out := if_neg hclear
      refine ⟨?_, Range.result_filled hr.inv hr.filled hjoined⟩
      rw [hresult, hr.inv.length]
      exact hr.count
    have hflags : ¬ (c.stop = true ∨ r.failed = true) ↔
        (∀ p ∈ c.turns, ¬ Fails cfg roster g p) ∧ c.stop = false := by
      rw [hr.failed, not_or, Bool.not_eq_true, not_exists, and_comm]
      exact and_congr_left' (forall_congr' fun p => not_and)
    refine ⟨?_, fun _ => ⟨fun hout => ?_, fun hall => hprovided (hflags.mpr hall)⟩⟩
    · by_cases hclear : c.stop = true ∨ r.failed = true
      · exact .inl (if_pos hclear)
      · exact .inr (hprovided hclear)
    · refine hflags.mp fun hset => ?_
      have hempty : r.result c.stop = [] := if_pos hset
      have hlength := hout.1
      rw [hempty] at hlength
      have hzero : ((List.length ([] : List ClientCredentials) : Nat) : Int) = 0 := rfl
      omega

end Runs

/-! ## A call in which every client succeeds -/

namespace Sample

/-- Every index has a session. -/
def roster : Roster := { sessions := fun _ => some "session" }

def replies : ClientApi where
  signIn :=
    { login := fun _ => .error {}
      register := fun _ => .error {}
      loginAgain := fun _ => .error {} }
  mint :=
    { mint := fun _ => .ok
        { token := some (List.replicate Hmac.TOKEN_OCTETS 97), gameTokenId := some 1,
          expiresAt := some 1000000000000000000, gameApiUrl := some "https://game.example.com" }
      consents := fun _ => .error {}
      mintAgain := fun _ => .error {} }
  bootstrap _ := .ok ()
  assign :=
    { assign := fun _ => .ok { ip4 := some "10.0.0.1", clientPort := some 7000 }
      now := 1 }

/-- The last `int` and the number after it. -/
def config : Config ℚ :=
  { walkSpeed := -1, chunkSizeUnits := -1, email := "bot@example.com", password := "password"
    managementApiUrl := "https://api.example.com", appId := 1
    clients := 2, indexBase := 2147483647, indexLimit := 2, provisionConcurrency := 2 }

/-- Two threads take a client each, the second one first. -/
def events : List CallEvent :=
  [.claim 0, .claim 1, .check 1, .check 0, .provision 1 replies, .provision 0 replies,
    .claim 0, .check 0, .claim 1, .check 1].map .thread

end Sample

section Success

variable {K : Type*} {cfg : Config K} {g n : Int}

/-- With these replies every client is provisioned. -/
theorem sample_ok (cfg : Config K) (global : Int) :
    ∃ d, (provisionClient cfg Sample.roster Sample.replies global).result = .ok d := by
  have hurl : Provisioner.gameApiUrlOr cfg "https://game.example.com" ≠ "" := by
    unfold Provisioner.gameApiUrlOr
    split
    · assumption
    · decide
  have hlen : (List.replicate Hmac.TOKEN_OCTETS (97 : UInt8)).length = Hmac.TOKEN_OCTETS :=
    List.length_replicate
  unfold provisionClient Sample.roster Sample.replies
  simp [Roster.rosterSession, Roster.emailRefusal, Provisioner.provisionSession,
    Provisioner.mintAppToken, Provisioner.requestMint, request, requestWithRetry,
    Provisioner.installMint, Roster.get, Provisioner.connect, Provisioner.assignServer,
    Provisioner.placeOn, bind, Except.bind, pure, Except.pure, hurl, Except.map]

/-- A call under way, with the flag down and no failure. -/
structure Fine (cfg : Config K) (g n : Int) (c : Call) (r : Range) : Prop where
  reach : (call cfg Sample.roster g n).Reach c
  range : c.range = some r
  stop : c.stop = false
  failed : r.failed = false

theorem Fine.thread {c : Call} {r r' : Range} {e : RangeEvent} {ops : List Operation}
    (h : Fine cfg g n c r) (hs : r.step cfg Sample.roster false e = some (r', ops))
    (hf : r'.failed = false) : ∃ c', Fine cfg g n c' r' := by
  have hstep : c.step cfg Sample.roster (.thread e) =
      some { c with range := some r', turns := c.turns ++ (r.turn? e).toList } := by
    simp only [step, h.range, h.stop, hs, Option.bind_some, Option.map_some]
  exact ⟨_, h.reach.step (e := .thread e) hstep, rfl, h.stop, hf⟩

/-- A thread that finds an offset of the range stores its client and comes back. -/
theorem Fine.turn {c : Call} {r : Range} {t : Nat} (h : Fine cfg g n c r)
    (ht : r.threads[t]? = some .idle) (hlt : r.nextOffset < r.count) :
    ∃ c' out completed, Fine cfg g n c'
      { r with nextOffset := r.nextOffset + 1, out := out, completed := completed } := by
  obtain ⟨hlen, hidle⟩ := List.getElem?_eq_some_iff.mp ht
  have hclaimed : (r.threads.set t (.claimed r.nextOffset))[t]? = some (.claimed r.nextOffset) :=
    List.getElem?_set_self hlen
  have hworking : ((r.threads.set t (.claimed r.nextOffset)).set t
      (.working r.nextOffset))[t]? = some (.working r.nextOffset) :=
    List.getElem?_set_self (by rw [List.length_set]; exact hlen)
  obtain ⟨d, hd⟩ := sample_ok cfg (int32 (r.globalStart + r.nextOffset))
  obtain ⟨c₁, h₁⟩ := h.thread (Range.step_claim ht) h.failed
  obtain ⟨c₂, h₂⟩ := h₁.thread (Range.step_go hclaimed h.failed hlt) h.failed
  obtain ⟨c₃, h₃⟩ := h₂.thread (Range.step_store hworking hd) h.failed
  have hback : ((r.threads.set t (.claimed r.nextOffset)).set t (.working r.nextOffset)).set t
      .idle = r.threads := by
    rw [List.set_set, List.set_set, ← hidle, List.set_getElem_self]
  unfold Range.setThread at h₃
  dsimp only at h₃
  rw [hback] at h₃
  exact ⟨c₃, _, _, h₃⟩

/-- A thread that finds none ends. -/
theorem Fine.leave {c : Call} {r : Range} {t : Nat} (h : Fine cfg g n c r)
    (ht : r.threads[t]? = some .idle) (hle : r.count ≤ r.nextOffset) :
    ∃ c', Fine cfg g n c'
      { r with nextOffset := r.nextOffset + 1, threads := r.threads.set t .ended } := by
  obtain ⟨hlen, -⟩ := List.getElem?_eq_some_iff.mp ht
  have hclaimed : (r.threads.set t (.claimed r.nextOffset))[t]? = some (.claimed r.nextOffset) :=
    List.getElem?_set_self hlen
  obtain ⟨c₁, h₁⟩ := h.thread (Range.step_claim ht) h.failed
  obtain ⟨c₂, h₂⟩ := h₁.thread (Range.step_leave hclaimed hle) h.failed
  unfold Range.setThread at h₂
  dsimp only at h₂
  rw [List.set_set] at h₂
  exact ⟨c₂, h₂⟩

/-- The coverage check passes, and the threads are started. -/
theorem start_fine (cfg : Config K) (g : Int) (hn : 1 ≤ n) :
    ∃ c r, Fine cfg g n c r ∧ r.count = n.toNat ∧ r.nextOffset = 0 ∧
      r.threads = List.replicate (min cfg.provisionConcurrency n).toNat .idle := by
  have hpass : Range.refuses cfg Sample.roster g n.toNat = false := by
    have hall : Range.covered Sample.roster g n.toNat = n.toNat := by
      unfold Range.covered
      exact (List.countP_eq_length.mpr fun _ _ => rfl).trans List.length_range
    simp [Range.refuses, hall]
  have hstart : Range.start cfg Sample.roster g n = some
      { globalStart := g
        count := n.toNat
        threads := List.replicate (min cfg.provisionConcurrency n).toNat .idle
        out := List.replicate n.toNat {} } := by
    unfold Range.start
    rw [if_neg (by rw [hpass]; simp; omega)]
  exact ⟨_, _, ⟨.init rfl, hstart, rfl, rfl⟩, rfl, rfl, rfl⟩

theorem turns_fine (hconc : 1 ≤ cfg.provisionConcurrency) (hn : 1 ≤ n) {k : Nat}
    (hk : k ≤ n.toNat) : ∃ c r, Fine cfg g n c r ∧ r.count = n.toNat ∧ r.nextOffset = k ∧
      r.threads = List.replicate (min cfg.provisionConcurrency n).toNat .idle := by
  induction k with
  | zero => exact start_fine cfg g hn
  | succ k ih =>
    obtain ⟨c, r, h, hcount, hnext, hthreads⟩ := ih (Nat.le_of_succ_le hk)
    obtain ⟨c', out, completed, h'⟩ := h.turn (t := 0)
      (by rw [hthreads, List.getElem?_replicate]; exact if_pos (by omega)) (by omega)
    exact ⟨c', _, h', hcount, congrArg (· + 1) hnext, hthreads⟩

theorem leaves_fine (hconc : 1 ≤ cfg.provisionConcurrency) (hn : 1 ≤ n) {j : Nat}
    (hj : j ≤ (min cfg.provisionConcurrency n).toNat) :
    ∃ c r, Fine cfg g n c r ∧ r.count = n.toNat ∧ n.toNat ≤ r.nextOffset ∧
      r.threads = List.replicate j .ended ++
        List.replicate ((min cfg.provisionConcurrency n).toNat - j) .idle := by
  induction j with
  | zero =>
    obtain ⟨c, r, h, hcount, hnext, hthreads⟩ := turns_fine (g := g) hconc hn (le_refl n.toNat)
    exact ⟨c, r, h, hcount, hnext.ge, hthreads⟩
  | succ j ih =>
    obtain ⟨c, r, h, hcount, hnext, hthreads⟩ := ih (Nat.le_of_succ_le hj)
    obtain ⟨rest, hrest⟩ : ∃ rest, (min cfg.provisionConcurrency n).toNat - j = rest + 1 :=
      ⟨(min cfg.provisionConcurrency n).toNat - j - 1, by omega⟩
    have hsplit : r.threads = List.replicate j .ended ++ .idle :: List.replicate rest .idle := by
      rw [hthreads, hrest, List.replicate_succ]
    have hidle : r.threads[j]? = some .idle := by
      rw [hsplit, List.getElem?_append_right List.length_replicate.le, List.length_replicate,
        Nat.sub_self]
      rfl
    obtain ⟨c', h'⟩ := h.leave hidle (hcount.trans_le hnext)
    refine ⟨c', _, h', hcount, Nat.le_succ_of_le hnext, ?_⟩
    show r.threads.set j .ended = _
    have hleft : (min cfg.provisionConcurrency n).toNat - (j + 1) = rest := by omega
    rw [hsplit, hleft, List.replicate_succ', List.append_assoc,
      List.set_append_right _ _ List.length_replicate.le, List.length_replicate, Nat.sub_self]
    rfl

variable (g) in
/-- Whatever the configuration, some call of these arguments returns every client. -/
theorem some_call_returns (hconc : 1 ≤ cfg.provisionConcurrency) (hn : 1 ≤ n) :
    ∃ c out, (call cfg Sample.roster g n).Reach c ∧ c.returned = some out ∧
      Provided cfg Sample.roster (fun k => int32 (g + k)) n c out := by
  obtain ⟨c, r, h, hcount, -, hthreads⟩ :=
    leaves_fine (g := g) hconc hn (le_refl (min cfg.provisionConcurrency n).toNat)
  have hjoined : r.joined = true := by
    rw [Nat.sub_self, List.replicate_zero, List.append_nil] at hthreads
    unfold Range.joined
    rw [hthreads]
    exact List.all_eq_true.mpr fun p hp => decide_eq_true (List.eq_of_mem_replicate hp)
  have hreturned : c.returned = some r.out := by
    unfold returned
    rw [h.range]
    dsimp only
    rw [if_pos hjoined, h.stop]
    unfold Range.result
    rw [h.failed]
    rfl
  refine ⟨c, r.out, h.reach, hreturned, ?_⟩
  rcases (returned_allOrNothing hconc hn h.reach hreturned).1 with hempty | hall
  · have hlen := ((running_of_reach hconc h.reach).2 r h.range).inv.length
    rw [hempty, hcount, List.length_nil] at hlen
    omega
  · exact hall

theorem Provided.congr {index index' : Nat → Int} {roster : Roster} {c : Call}
    {out : List ClientCredentials} (hi : ∀ k : Nat, k < n → index k = index' k)
    (h : Provided cfg roster index n c out) : Provided cfg roster index' n c out := by
  refine ⟨h.1, fun k d hd => ?_⟩
  obtain ⟨hlt, -⟩ := List.getElem?_eq_some_iff.mp hd
  have hlen := h.1
  rw [← hi k (by omega)]
  exact h.2 k d hd

/-- **provisionRange.** In every call the threads, in any order and whatever the API answers,
return nothing or one client for every offset, through all stages, with the index and the account
of the start and the offset, and they return them exactly when no client failed and the flag was
not raised: if and only if the indices of the range are `int`s. -/
theorem provisionRange_iff (hconc : 1 ≤ cfg.provisionConcurrency)
    (hg : -2 ^ 31 ≤ g ∧ g < 2 ^ 31) (hn : 1 ≤ n) :
    (∀ roster c out, (call cfg roster g n).Reach c → c.returned = some out →
      AllOrNothing cfg roster (fun k => g + k) g n c out) ↔ g + n ≤ 2 ^ 31 := by
  constructor
  · intro hall
    by_contra hover
    obtain ⟨c, out, hc, hout, hlen, hsum⟩ := some_call_returns g hconc hn
    -- the first offset whose sum is no `int`
    obtain ⟨k, hk⟩ : ∃ k : Nat, (k : Int) = 2 ^ 31 - g := ⟨(2 ^ 31 - g).toNat, by omega⟩
    have hlt : k < out.length := by omega
    have hd : out[k]? = some out[k] := List.getElem?_eq_getElem hlt
    obtain ⟨_, -, hwrapped⟩ := hsum k _ hd
    rcases (hall Sample.roster c out hc hout).1 with hempty | ⟨-, hclaim⟩
    · rw [hempty] at hlt
      exact Nat.not_lt_zero k hlt
    · obtain ⟨_, -, hexact⟩ := hclaim k _ hd
      have hindex : int32 (g + k) = g + k := hwrapped.index.symm.trans hexact.index
      rw [show g + k = 2147483648 by omega] at hindex
      exact absurd hindex (by decide)
  · intro hfits roster c out hc hout
    have hsame (k : Nat) (hk : k < n) : int32 (g + k) = g + k :=
      int32_of_fits (by omega) (by omega)
    obtain ⟨hout, hexact⟩ := returned_allOrNothing hconc hn hc hout
    refine ⟨hout.imp id (.congr hsame), fun hpass => Iff.trans ⟨?_, ?_⟩ (hexact hpass)⟩
    · exact .congr fun k hk => (hsame k hk).symm
    · exact .congr hsame

end Success

/-! ## The end of a call -/

section Ends

variable {K : Type*} {cfg : Config K} {roster : Roster} {g n : Int}

/-- Turns its threads may still take. -/
def left (c : Call) : Nat := c.range.elim 0 Range.left

theorem step_left {c c' : Call} {e : CallEvent} (h : c.step cfg roster e = some c') :
    (if e.isThread then 1 else 0) + c'.left ≤ c.left := by
  cases e with
  | thread e =>
    obtain ⟨r, hr, h⟩ := Option.bind_eq_some_iff.mp h
    obtain ⟨⟨r', ops⟩, hs, rfl⟩ := Option.map_eq_some_iff.mp h
    have hless := Range.step_left hs
    simp only [CallEvent.isThread, if_true, left, hr, Option.elim_some]
    omega
  | raiseStop =>
    obtain rfl := Option.some.inj h
    exact (Nat.zero_add _).le

/-- A call that has not returned has a thread that can take a turn. -/
theorem step_enabled (cfg : Config K) (roster : Roster) {c : Call} (h : c.returned = none)
    (api : ClientApi) :
    ∃ e : RangeEvent, e.Uses api ∧ (c.step cfg roster (.thread e)).isSome := by
  unfold returned at h
  cases hr : c.range with
  | none => simp [hr] at h
  | some r =>
    have hjoined : r.joined = false := by
      by_contra hj
      simp [hr, Bool.not_eq_false _ |>.mp hj] at h
    obtain ⟨e, huses, hstep⟩ := Range.step_enabled cfg roster c.stop hjoined api
    obtain ⟨next, hnext⟩ := Option.isSome_iff_exists.mp hstep
    refine ⟨e, huses, ?_⟩
    simp only [step, hr, hnext, Option.bind_some, Option.map_some, Option.isSome_some]

/-- **Every call comes to its end.** Whenever the flag is raised and whatever the API answers, its
threads take no more turns than there is work in the range, and as long as it has not returned
some thread can take one. -/
theorem comes_to_its_end {evs : List CallEvent} {c : Call}
    (h : System.exec (step cfg roster) { range := Range.start cfg roster g n } evs = some c) :
    evs.countP (·.isThread) + c.left ≤ Range.size cfg n ∧
      (c.returned = none → ∀ api, ∃ e : RangeEvent,
        e.Uses api ∧ (c.step cfg roster (.thread e)).isSome) := by
  refine ⟨?_, fun hc api => step_enabled cfg roster hc api⟩
  have hwork : evs.countP (·.isThread) + c.left ≤
      left { range := Range.start cfg roster g n } +
        allowance (step cfg roster) (fun _ _ => 0) _ evs :=
    exec_work (I := fun _ => True) (fun _ _ _ _ _ => trivial) (fun _ _ _ _ hs => step_left hs)
      trivial h
  rw [allowance_none, Nat.add_zero] at hwork
  refine hwork.trans ?_
  unfold left
  cases hstart : Range.start cfg roster g n with
  | none => exact Nat.zero_le _
  | some r => exact (Range.start_left hstart).1.le

end Ends

/-- Two threads and two clients: the range is returned whole. -/
theorem provisionRange_sample :
    ∃ c out, (call Sample.config Sample.roster 7 2).Reach c ∧ c.returned = some out ∧
      AllOrNothing Sample.config Sample.roster (fun k => 7 + k) 7 2 c out ∧
      Provided Sample.config Sample.roster (fun k => 7 + k) 2 c out := by
  have hrun : ((System.exec (step Sample.config Sample.roster)
      { range := Range.start Sample.config Sample.roster 7 2 } Sample.events).bind
        fun c => c.returned.map fun out => out.map (·.index)) = some [7, 8] := by decide +kernel
  obtain ⟨c, hc, hm⟩ := Option.bind_eq_some_iff.mp hrun
  obtain ⟨out, hout, hindices⟩ := Option.map_eq_some_iff.mp hm
  have hreach : (call Sample.config Sample.roster 7 2).Reach c := System.Reach.exec (.init rfl) hc
  have hall : AllOrNothing Sample.config Sample.roster (fun k => 7 + k) 7 2 c out :=
    (provisionRange_iff (by decide) (by decide) (by decide)).mpr (by decide) _ c out hreach hout
  refine ⟨c, out, hreach, hout, hall, hall.1.resolve_left ?_⟩
  rintro rfl
  cases hindices

/-- The second client of a range that starts at the largest `int` is returned with the smallest
one as its index. -/
theorem provisionRange_wraps : Sample.config.Accepted ∧
    ∃ c out, (call Sample.config Sample.roster 2147483647 2).Reach c ∧ c.returned = some out ∧
      out.map (·.index) = [2147483647, -2147483648] ∧
      ¬ AllOrNothing Sample.config Sample.roster (fun k => 2147483647 + k) 2147483647 2 c out := by
  refine ⟨by show Config.validate _ = _; decide +kernel, ?_⟩
  have hrun : ((System.exec (step Sample.config Sample.roster)
      { range := Range.start Sample.config Sample.roster 2147483647 2 } Sample.events).bind
        fun c => c.returned.map fun out => out.map (·.index)) =
      some [2147483647, -2147483648] := by decide +kernel
  obtain ⟨c, hc, hm⟩ := Option.bind_eq_some_iff.mp hrun
  obtain ⟨out, hout, hindices⟩ := Option.map_eq_some_iff.mp hm
  refine ⟨c, out, System.Reach.exec (.init rfl) hc, hout, hindices, ?_⟩
  have hsecond : (out[1]?).map (·.index) = some (-2147483648) := by
    rw [← List.getElem?_map, hindices]
    rfl
  obtain ⟨d, hd, hindex⟩ := Option.map_eq_some_iff.mp hsecond
  rintro ⟨rfl | ⟨-, hall⟩, -⟩
  · cases hd
  · obtain ⟨_, -, hstaged⟩ := hall 1 d hd
    exact absurd (hindex.symm.trans hstaged.index) (by decide)

end Call

end CksLoadtest
