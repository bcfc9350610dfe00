import CksLoadtest.Provision.Entries
import CksLoadtest.Provision.Range

/-!
# Tokens of provisioned clients

`spatialSign` reads 64 octets of a token and nobody there checks how many it has. The
constructor drops shorter and longer tokens of a roster, `mintAppToken` throws on them, and
`provisionRange` returns only credentials that came through one or the other.
-/
namespace CksLoadtest

open Lib Lib.Buffer

/-- Credentials that can be signed with. -/
def ClientCredentials.Keyed (c : ClientCredentials) : Prop :=
  c.appToken.length = Hmac.TOKEN_OCTETS

instance (c : ClientCredentials) : Decidable c.Keyed := inferInstanceAs (Decidable (_ = _))

namespace Roster

/-- The app tokens the constructor kept have the right length. -/
def Keyed (r : Roster) : Prop :=
  ∀ idx at', r.appTokens idx = some at' → at'.token.length = Hmac.TOKEN_OCTETS

variable {K : Type*} [Ring K] [LinearOrder K] [FloorRing K] (parseIso8601Utc : String → Int)

omit [Ring K] [LinearOrder K] [FloorRing K] in
theorem appTokenEntry_keyed {entry : Json K} {token : String} {at' : RosterAppToken}
    (h : appTokenEntry parseIso8601Utc entry token = .ok (some at')) :
    at'.token.length = Hmac.TOKEN_OCTETS := by
  -- either id the entry may have is followed by the length check
  have hend : ∀ id expiresAt, (if (octets token).length ≠ Hmac.TOKEN_OCTETS ∨ id = 0 then none
      else some { token := octets token, gameTokenId := id, expiresAt := expiresAt }) = some at' →
      at'.token.length = Hmac.TOKEN_OCTETS := by
    intro id expiresAt hite
    split at hite
    · cases hite
    · rename_i hok
      rw [not_or, not_not] at hok
      obtain rfl := Option.some.inj hite
      exact hok.1
  unfold appTokenEntry at h
  cases hs : entry.strField? "gameTokenId" with
  | none =>
    rw [hs] at h
    exact hend _ _ (Except.ok.inj h)
  | some s =>
    rw [hs] at h
    cases hid : get (stoll s.toList) with
    | error e => simp [hid, bind, Except.bind] at h
    | ok id =>
      simp only [hid, bind, Except.bind] at h
      exact hend _ _ (Except.ok.inj h)

theorem load_keyed {cfg : Config K} {file : RosterFile K} {r : Roster}
    (h : load parseIso8601Utc cfg file = .ok r) : r.Keyed := by
  intro idx at' hat
  by_cases hfile : cfg.rosterFile = ""
  · unfold load at h
    rw [if_pos hfile] at h
    obtain rfl := Except.ok.inj h
    cases hat
  · cases file with
    | missing => simp [load, hfile, refuse] at h
    | malformed what => simp [load, hfile, refuse] at h
    | parsed doc =>
      have hmap := ((load_spec parseIso8601Utc hfile h).2 idx).2.2
      obtain ⟨-, entry, -, -, hkept, -⟩ := lastWrite_eq_some.mp (hmap.symm.trans hat)
      unfold keptAppToken at hkept
      split at hkept
      · obtain ⟨key, -, hentry⟩ := Option.bind_eq_some_iff.mp hkept
        split at hentry
        · rename_i hat'
          obtain ⟨-, rfl⟩ := Prod.mk.inj (Option.some.inj hentry)
          exact appTokenEntry_keyed parseIso8601Utc hat'
        · cases hentry
      · cases hkept

end Roster

namespace Provisioner

variable {K : Type*} (cfg : Config K)

/-- **A provisioned client** has a token of 64 octets, from the roster or minted. -/
theorem provisionClient_keyed {r : Roster} (hr : r.Keyed) (api : ClientApi) {global : Int}
    {c : ClientCredentials} (h : (provisionClient cfg r api global).result = .ok c) : c.Keyed := by
  rcases (provisionClient_ok cfg r api h).appToken with
    ⟨pre, -, hpre, htoken, -⟩ | ⟨-, -, -, -, -, hlen⟩
  · unfold Roster.rosterAppToken at hpre
    split at hpre
    · cases hpre
    · rename_i hat
      split at hpre
      · cases hpre
      · obtain rfl := Option.some.inj (Except.ok.inj hpre)
        exact (congrArg List.length htoken).trans (hr _ _ hat)
  · exact hlen

end Provisioner

namespace Range

/-- Every offset that was taken is held by a thread or has a signing client, unless a flag
was seen. -/
def Keyed (stop : Bool) (r : Range) : Prop :=
  ∀ k < r.nextOffset, r.failed = true ∨ stop = true ∨
    (∃ t : Nat, r.threads[t]? = some (.claimed k) ∨ r.threads[t]? = some (.working k)) ∨
      ∀ c, r.out[k]? = some c → c.Keyed

variable {K : Type*} {cfg : Config K} {roster : Roster} {r r' : Range} {stop stop' : Bool}

theorem keyed_iff : Keyed stop r ↔ Filled (fun _ c => c.Keyed) stop r := Iff.rfl

theorem Keyed.stopped (h : Keyed stop r) (hs : stop = true → stop' = true) : Keyed stop' r :=
  keyed_iff.mpr ((keyed_iff.mp h).stopped hs)

theorem start_keyed {globalStart count : Int} (h : start cfg roster globalStart count = some r) :
    Keyed stop r := keyed_iff.mpr (start_filled h)

/-- **One step** of a provisioning thread. -/
theorem step_keyed (hr : roster.Keyed) (hi : Inv stop r) (h : Keyed stop r) {e : RangeEvent}
    {ops : List Operation} (hs : r.step cfg roster stop e = some (r', ops)) : Keyed stop r' :=
  keyed_iff.mpr (step_filled hi (keyed_iff.mp h) hs
    fun _ api _ _ hc => Provisioner.provisionClient_keyed cfg hr api hc)

/-- **What `provisionRange` returns** can be signed with. -/
theorem result_keyed (hi : Inv stop r) (h : Keyed stop r) (hj : r.joined = true) :
    ∀ c ∈ r.result stop, c.Keyed := by
  intro c hc
  obtain ⟨k, hk⟩ := List.mem_iff_getElem?.mp hc
  exact result_filled hi (keyed_iff.mp h) hj k c hk

end Range

end CksLoadtest
