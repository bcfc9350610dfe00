import CksLoadtest.Protocol.Refinement
import CksLoadtest.Provision.Keyed

/-!
# Tokens on the way to a worker

Credentials go from a worker to the control thread and back. Every call of it keeps the
length of the token but `refreshToken`, which takes the token of the reply as it is.
-/
namespace CksLoadtest

open Lib.Buffer Lib.Transition

/-- Every field `refreshToken` reads of a reply decodes. -/
def RefreshReply.decodes (fresh : RefreshReply) : Bool :=
  fresh.token.isSome && fresh.gameTokenId.isSome && fresh.expiresAt.isSome &&
    fresh.authorizedServer.all fun server => server.ip4.isSome && server.clientPort.isSome

namespace Provisioner

/-- The reply `refreshToken` takes the token from, if it gets one. -/
def freshReply (legacyRefresh : Bool) (api : RefreshApi) (c : ClientCredentials) :
    Option RefreshReply :=
  let old := match requestWithRetry api.legacy with
    | .ok fresh => some fresh
    | .error _ => none
  if ¬ legacyRefresh ∧ c.serverIp4 ≠ "" then
    match requestWithRetry api.current with
    | .ok fresh => some fresh
    | .error e => if predatesCurrentServer e then old else none
  else old

variable {K : Type*} (cfg : Config K)

theorem refreshToken_reply (legacyRefresh : Bool) (api : RefreshApi) (c : ClientCredentials)
    {kept : Bool} (h : (refreshToken cfg legacyRefresh api c).2.2 = .ok kept) :
    ∃ fresh, freshReply legacyRefresh api c = some fresh ∧
      (refreshToken cfg legacyRefresh api c).2 = installRefresh cfg api.now fresh c := by
  unfold refreshToken at h ⊢
  unfold freshReply
  dsimp only at h ⊢
  split
  · rename_i hcurrent
    rw [if_pos hcurrent] at h
    cases hr : requestWithRetry api.current with
    | ok fresh => exact ⟨fresh, rfl, rfl⟩
    | error e =>
      rw [hr] at h
      dsimp only at h ⊢
      split
      · rename_i hold
        rw [if_pos hold] at h
        cases hl : requestWithRetry api.legacy with
        | ok fresh => exact ⟨fresh, rfl, rfl⟩
        | error e =>
          rw [hl] at h
          cases h
      · rename_i hold
        rw [if_neg hold] at h
        cases h
  · rename_i hcurrent
    rw [if_neg hcurrent] at h
    cases hl : requestWithRetry api.legacy with
    | ok fresh => exact ⟨fresh, rfl, rfl⟩
    | error e =>
      rw [hl] at h
      cases h

/-- A reply that is taken decodes, and its token is the one the credentials get. -/
theorem installRefresh_token {now : Int} {fresh : RefreshReply} {c : ClientCredentials}
    {kept : Bool} (h : (installRefresh cfg now fresh c).2 = .ok kept) :
    fresh.decodes = true ∧ fresh.token = some (installRefresh cfg now fresh c).1.appToken := by
  rcases fresh with ⟨token, id, expiresAt, server⟩
  unfold installRefresh at h ⊢
  cases token with
  | none => cases h
  | some token =>
    cases id with
    | none => cases h
    | some id =>
      cases expiresAt with
      | none => cases h
      | some expires =>
        cases server with
        | none => exact ⟨rfl, rfl⟩
        | some server =>
          rcases server with ⟨ip4, port⟩
          cases ip4 with
          | none => cases h
          | some ip4 =>
            cases port with
            | none => cases h
            | some port => exact ⟨rfl, rfl⟩

/-- The reply gives a token of the length `spatialSign` reads. -/
def KeyedReply (legacyRefresh : Bool) (api : RefreshApi) (c : ClientCredentials) : Prop :=
  ∀ fresh ∈ freshReply legacyRefresh api c, fresh.decodes = true →
    ∀ token ∈ fresh.token, token.length = Hmac.TOKEN_OCTETS

instance (legacyRefresh : Bool) (api : RefreshApi) (c : ClientCredentials) :
    Decidable (KeyedReply legacyRefresh api c) := by
  unfold KeyedReply
  infer_instance

theorem refreshToken_keyed {legacyRefresh : Bool} {api : RefreshApi} {c : ClientCredentials}
    {kept : Bool} (hreply : KeyedReply legacyRefresh api c)
    (h : (refreshToken cfg legacyRefresh api c).2.2 = .ok kept) :
    (refreshToken cfg legacyRefresh api c).2.1.Keyed := by
  obtain ⟨fresh, hfresh, hr⟩ := refreshToken_reply cfg legacyRefresh api c h
  rw [hr] at h ⊢
  obtain ⟨hdec, htoken⟩ := installRefresh_token cfg h
  exact hreply fresh hfresh hdec _ htoken

end Provisioner

namespace Protocol

open Provisioner (tokenPair KeyedReply)
open Worker (Core CorePath Push updated core)

namespace Exchange

variable {n : Nat}

/-- Credentials that reach a worker can be signed with, wherever they are. -/
structure Keyed (x : Exchange n) : Prop where
  added : ∀ w, ∀ c ∈ x.added w, c.Keyed
  pending : ∀ w, ∀ c ∈ x.pending w, c.Keyed
  slots : ∀ w, ∀ c ∈ x.slots w, c.creds.Keyed
  queue : ∀ r ∈ x.queue, r.creds.Keyed
  job : ∀ j, x.job = some j → j.phase ≠ .finished true → j.creds.Keyed
  posted : ∀ u ∈ x.posted, u.failed = false → u.creds.Keyed

/-- The condition on what comes from outside: added credentials, and refreshed ones. -/
def KeyGuard (_ : Exchange n) : Label n → Prop
  | .add _ creds => creds.Keyed
  | .refresh j' => j'.phase ≠ .finished true → j'.creds.Keyed
  | _ => True

theorem keyed_of_pair {c d : ClientCredentials} (hp : tokenPair d = tokenPair c) (h : c.Keyed) :
    d.Keyed :=
  (congrArg List.length (congrArg Prod.snd hp)).trans h

theorem updated_keyed {u : Update} {c : Core} (hc : c.creds.Keyed)
    (hu : u.failed = false → u.creds.Keyed) : (updated u c).creds.Keyed := by
  unfold updated
  cases hf : u.failed with
  | true => exact hc
  | false => exact hu hf

theorem setSlot_keyed {x : Exchange n} (h : ∀ w, ∀ c ∈ x.slots w, c.creds.Keyed) {w : Fin n}
    {i : Nat} {c' : Core} (hc' : c'.creds.Keyed) :
    ∀ v, ∀ c ∈ (x.setSlot w i c').slots v, c.creds.Keyed := by
  intro v c hc
  simp only [setSlot] at hc
  rw [Function.update_apply] at hc
  split at hc
  · rcases List.mem_or_eq_of_mem_set hc with hc | rfl
    · exact h w c hc
    · exact hc'
  · exact h v c hc

/-- **Step lemma.** -/
theorem Keyed.step {x x' : Exchange n} {l : Label n} (h : x.Keyed) (ha : x.Account)
    (hg : KeyGuard x l) (hs : Step x l x') : x'.Keyed := by
  cases hs with
  | quiet => exact h
  | @add w creds =>
    refine ⟨fun v c hc => ?_, fun v c hc => ?_, h.slots, h.queue, h.job, h.posted⟩
    all_goals
      dsimp only at hc
      rw [Function.update_apply] at hc
      split at hc
      · rcases List.mem_append.mp hc with hc | hc
        · first | exact h.added w c hc | exact h.pending w c hc
        · exact List.mem_singleton.mp hc ▸ hg
      · first | exact h.added v c hc | exact h.pending v c hc
  | @enroll w =>
    refine ⟨h.added, fun v c hc => ?_, fun v c hc => ?_, h.queue, h.job, h.posted⟩
    · dsimp only at hc
      rw [Function.update_apply] at hc
      split at hc
      · cases hc
      · exact h.pending v c hc
    · dsimp only at hc
      rw [Function.update_apply] at hc
      split at hc
      · rcases List.mem_append.mp hc with hc | hc
        · exact h.slots w c hc
        · obtain ⟨creds, hcreds, rfl⟩ := List.mem_map.mp hc
          exact h.pending w creds hcreds
      · exact h.slots v c hc
  | take => exact ⟨h.added, h.pending, h.slots, h.queue, h.job, h.posted⟩
  | @act w i mark c c' ps hc hp =>
    obtain ⟨hcreds, hpushed⟩ := pushes_creds hp
    have hkeyed : c.creds.Keyed := h.slots w c (List.mem_of_getElem? hc)
    refine ⟨h.added, h.pending, setSlot_keyed h.slots (hcreds ▸ hkeyed), fun r hr => ?_, h.job,
      h.posted⟩
    rcases List.mem_append.mp hr with hr | hr
    · exact h.queue r hr
    · obtain ⟨-, -, hp⟩ := mem_requests hr
      have hr : r.creds = c.creds := hpushed _ hp
      exact hr ▸ hkeyed
  | @apply w u rest c hu hc =>
    have hposted : u ∈ x.posted := (ha.mem_updates (.inl (hu ▸ List.mem_cons_self ..))).1
    have hkeyed := updated_keyed (h.slots w c (List.mem_of_getElem? hc)) (h.posted u hposted)
    exact ⟨h.added, h.pending, setSlot_keyed h.slots hkeyed, h.queue, h.job, h.posted⟩
  | @pop r rest hj hq =>
    have hqueue := h.queue
    rw [hq, List.forall_mem_cons] at hqueue
    refine ⟨h.added, h.pending, h.slots, hqueue.2, ?_, h.posted⟩
    rintro _ ⟨⟩ -
    exact hqueue.1
  | @refresh j j' hj hp hr =>
    refine ⟨h.added, h.pending, h.slots, h.queue, ?_, h.posted⟩
    rintro _ ⟨⟩
    exact hg
  | @place j j' attempt hj hp hr =>
    refine ⟨h.added, h.pending, h.slots, h.queue, ?_, h.posted⟩
    rintro _ ⟨⟩ -
    exact keyed_of_pair hr.2.2.2.1 (h.job j hj (by simp [hp]))
  | @post j failed hj hp =>
    refine ⟨h.added, h.pending, h.slots, h.queue, ?_, fun u hu hf => ?_⟩
    · rintro _ ⟨⟩
    · rcases List.mem_append.mp hu with hu | hu
      · exact h.posted u hu hf
      · obtain rfl := List.mem_singleton.mp hu
        have hne : j.phase ≠ .finished true := by
          rw [hp, show failed = false from hf]
          simp
        exact h.job j hj hne

theorem keyed_of_reach {x : Exchange n} (h : (system n).GReach KeyGuard x) : x.Keyed := by
  refine System.GReach.inv (I := Keyed) ?_ ?_ h
  · rintro _ rfl
    constructor <;> simp
  · intro s e s' hr hi hg hs
    exact hi.step (sound_of_reach hr).account hg hs

end Exchange

namespace Sys

variable {K : Type*} {n : Nat}

/-- The same condition on the process: what is added, and what `refreshToken` is given. -/
def KeyedInputs (s : Sys K n) : Event K n → Prop
  | .addClient _ creds _ => creds.Keyed
  | .refresh api => ∀ j ∈ s.job, KeyedReply s.legacyRefresh api j.creds
  | _ => True

variable [Field K] {cfg : Config K}

theorem keyGuard_of_inputs (s : Sys K n) (e : Event K n) (h : s.KeyedInputs e) :
    Exchange.KeyGuard s.exchange (s.label cfg e) := by
  cases e with
  | addClient w creds activateAt => exact h
  | refresh api =>
    simp only [label]
    cases hj : s.job with
    | none => trivial
    | some j =>
      intro hne
      have hreply := h j hj
      rcases hr : Provisioner.refreshToken cfg s.legacyRefresh api j.creds with
        ⟨legacy, creds, result⟩
      unfold Job.refresh at hne ⊢
      rw [hr] at hne ⊢
      cases result with
      | error e => exact absurd rfl hne
      | ok kept =>
        have hok : (Provisioner.refreshToken cfg s.legacyRefresh api j.creds).2.2 = .ok kept := by
          rw [hr]
        have hkeyed := Provisioner.refreshToken_keyed cfg hreply hok
        rwa [hr] at hkeyed
  | rxMember w r =>
    simp only [label]
    split <;> trivial
  | rxEnd w =>
    simp only [label]
    split <;> trivial
  | place api =>
    simp only [label]
    split
    · split <;> trivial
    · trivial
  | startWorker | stopWorker | applyPendingClients | takeInbox | applyUpdate | tick | activate
  | sendDue | rxBegin | pop | post | shutdown | exit => trivial

variable [LinearOrder K] [FloorRing K] {P : Platform K} {s : Sys K n}

/-- **Runs.** Where every token from outside has 64 octets, so have the credentials given to
workers, those of successful updates, and those the clients hold. -/
theorem keyed_of_inputs (h : (system P cfg n).GReach KeyedInputs s) :
    (∀ w, ∀ c ∈ s.hist.added w, c.Keyed) ∧
      (∀ u ∈ s.hist.posted, u.failed = false → u.creds.Keyed) ∧
      ∀ w i c, s.client? w i = some c → c.creds.Keyed := by
  have hx := Exchange.keyed_of_reach (exchange_reach P cfg keyGuard_of_inputs h)
  exact ⟨hx.added, hx.posted, fun w i c hc =>
    hx.slots w _ (List.mem_of_getElem? (slot_of_client hc))⟩

end Sys

end Protocol

end CksLoadtest
