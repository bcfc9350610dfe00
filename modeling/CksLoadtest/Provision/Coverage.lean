import CksLoadtest.Provision.Entries
import CksLoadtest.Provision.Range

/-!
# Covered ranges

What the constructor keeps of a roster is enough to provision a covered client without a
password, and the coverage check of `provisionRange` only lets covered ranges through
when the roster is required.
-/
namespace CksLoadtest

open Lib

namespace Roster

/-- No session the constructor kept is empty. -/
def Usable (r : Roster) : Prop := ∀ i, r.sessions i ≠ some ""

theorem Usable.nameEntry {R : Type*} {r : Roster} (h : r.Usable) (idx : Int) (entry : Json R) :
    (r.nameEntry idx entry).Usable := by
  unfold Roster.nameEntry
  split <;> exact h

theorem Usable.store {r : Roster} (h : r.Usable) (idx : Int) {token : String} (ht : token ≠ "") :
    ∀ i, Function.update r.sessions idx (some token) i ≠ some "" := by
  intro i
  by_cases hi : i = idx
  · subst hi
    simpa using ht
  · simpa [Function.update_of_ne hi] using h i

variable {K : Type*} [Ring K] [LinearOrder K] [FloorRing K] (parseIso8601Utc : String → Int)

theorem loadEntry_usable {r r' : Roster} {entry : Json K} (h : r.Usable)
    (he : loadEntry parseIso8601Utc r entry = .ok r') : r'.Usable := by
  rcases loadEntry_key parseIso8601Utc he with ⟨-, rfl⟩ | ⟨idx, token, hkey, hkept⟩
  · exact h
  · have hnamed := h.nameEntry idx entry
    rcases hkept with ⟨-, rfl⟩ | ⟨-, ⟨_, -, rfl⟩ | ⟨-, rfl⟩⟩
    · exact hnamed.store _ (entryKey_token hkey)
    · exact hnamed.store _ (by decide)
    · exact hnamed

theorem loadEntries_usable {r r' : Roster} {entries : List (Json K)} (h : r.Usable)
    (he : loadEntries parseIso8601Utc r entries = .ok r') : r'.Usable := by
  induction entries generalizing r with
  | nil => exact Except.ok.inj he ▸ h
  | cons entry entries ih =>
    rw [loadEntries] at he
    cases hr : loadEntry parseIso8601Utc r entry with
    | error e =>
      rw [hr] at he
      cases he
    | ok next =>
      rw [hr] at he
      exact ih (loadEntry_usable parseIso8601Utc h hr) he

/-- Whatever the document, the roster of a constructed `Provisioner` is usable. -/
theorem load_usable {cfg : Config K} {file : RosterFile K} {r : Roster}
    (h : load parseIso8601Utc cfg file = .ok r) : r.Usable := by
  have hempty : ∀ kind url, Usable { kindAppToken := kind, gameApiUrl := url } := by
    intro kind url i
    exact nofun
  unfold load at h
  split at h
  · exact Except.ok.inj h ▸ hempty false ""
  · cases file with
    | missing => cases h
    | malformed what => cases h
    | parsed doc =>
      simp only [loadDocument] at h
      split at h
      · cases h
      · cases hk : get (doc.strOr? "kind" "session") with
        | error e =>
          rw [hk] at h
          cases h
        | ok kind =>
          rw [hk] at h
          exact loadEntries_usable parseIso8601Utc (hempty _ _) h

/-- A covered client has a session. -/
theorem rosterSession_ne_empty {r : Roster} (h : r.Usable) {index : Int} {email session : String}
    (hc : (r.sessions index).isSome) (hs : r.rosterSession index email = .ok session) :
    session ≠ "" := by
  obtain ⟨token, ht⟩ := Option.isSome_iff_exists.mp hc
  unfold rosterSession at hs
  rw [ht] at hs
  dsimp only at hs
  split at hs
  · cases hs
  · obtain rfl := Except.ok.inj hs
    rintro rfl
    exact h index ht

end Roster

/-- None of the operations holds a password. -/
def NoPassword (ops : List Operation) : Prop := ∀ op ∈ ops, op.usesPassword = false

theorem NoPassword.nil : NoPassword [] := nofun

theorem NoPassword.append {ops more : List Operation} (h : NoPassword ops) (h' : NoPassword more) :
    NoPassword (ops ++ more) := by
  intro op hop
  rcases List.mem_append.mp hop with hop | hop
  · exact h op hop
  · exact h' op hop

theorem NoPassword.replicate (n : Nat) {op : Operation} (h : op.usesPassword = false) :
    NoPassword (List.replicate n op) := by
  intro o ho
  rw [List.eq_of_mem_replicate ho]
  exact h

theorem NoPassword.request {α : Type*} {op : Operation} (h : op.usesPassword = false)
    (reply : Nat → Except GraphQLError α) : NoPassword (request op reply).1 :=
  .replicate _ h

namespace Provisioner

variable {K : Type*} (cfg : Config K)

theorem connect_noPassword (bootstrap : Nat → Except GraphQLError Unit) (assign : AssignApi)
    (c : ClientCredentials) : NoPassword (connect cfg bootstrap assign c).1 := by
  have hboot : NoPassword (request .bootstrap bootstrap).1 := .request rfl bootstrap
  unfold connect
  dsimp only
  split
  · exact hboot
  · exact hboot.append (.replicate _ rfl)

theorem requestMint_noPassword (api : MintApi) : NoPassword (requestMint api).1 := by
  have hmint : NoPassword (request .mint api.mint).1 := .request rfl api.mint
  have hconsents : NoPassword (request .consents api.consents).1 := .request rfl api.consents
  unfold requestMint
  dsimp only
  split
  · exact hmint
  · split
    · exact hmint
    · split
      · exact hmint.append hconsents
      · exact (hmint.append hconsents).append (.request rfl api.mintAgain)

theorem provisionSession_noPassword (api : ClientApi) (c : ClientCredentials) :
    NoPassword (provisionSession cfg api c).1 := by
  have hmint : NoPassword (mintAppToken cfg api.mint c).1 := requestMint_noPassword api.mint
  unfold provisionSession
  dsimp only
  split
  · exact hmint
  · exact hmint.append (connect_noPassword cfg api.bootstrap api.assign _)

/-- **A covered client** is provisioned without a password. -/
theorem provisionClient_noPassword {r : Roster} (hr : r.Usable) (api : ClientApi)
    {global : Int} (hc : (r.sessions global).isSome) :
    NoPassword (provisionClient cfg r api global).sent := by
  unfold provisionClient
  dsimp only
  split
  · exact .nil
  · split
    · exact .nil
    · exact connect_noPassword cfg api.bootstrap api.assign _
  · split
    · exact .nil
    · rename_i session hs
      rw [if_pos (Roster.rosterSession_ne_empty hr hc hs)]
      exact provisionSession_noPassword cfg api _

end Provisioner

namespace Range

variable {K : Type*} {cfg : Config K} {roster : Roster}

/-- A running `provisionRange` call whose range the roster covers. -/
structure Covers (roster : Roster) (r : Range) : Prop where
  session : ∀ k < r.count, (roster.sessions (int32 (r.globalStart + k))).isSome
  working : ∀ t off : Nat, r.threads[t]? = some (.working off) → off < r.count

/-- **The coverage check**: with a required roster only covered ranges are provisioned. -/
theorem start_covers (hfile : cfg.rosterFile ≠ "") (hreq : cfg.rosterRequired = true)
    {globalStart count : Int} {r : Range} (h : start cfg roster globalStart count = some r) :
    Covers roster r := by
  unfold start at h
  split at h
  · cases h
  · rename_i hn
    obtain rfl := Option.some.inj h
    rw [not_or] at hn
    refine ⟨fun k hk => ?_, fun t off ht => ?_⟩
    · have hall : covered roster globalStart count.toNat = count.toNat := by
        refine le_antisymm ?_ ?_
        · exact List.countP_le_length.trans (List.length_range).le
        · simpa [refuses, hfile, hreq] using hn.2
      have hcov := List.countP_eq_length.mp (hall.trans (List.length_range).symm)
      exact hcov k (List.mem_range.mpr hk)
    · cases List.eq_of_mem_replicate (List.mem_of_getElem? ht)

theorem step_covers {r r' : Range} {stop : Bool} {e : RangeEvent} {ops : List Operation}
    (h : Covers roster r) (hs : r.step cfg roster stop e = some (r', ops)) : Covers roster r' := by
  obtain ⟨hstart, hcount⟩ := step_fixed cfg roster hs
  refine ⟨by rw [hstart, hcount]; exact h.session, fun t off ht => ?_⟩
  rw [hcount]
  cases e with
  | claim t' =>
    simp only [step] at hs
    split at hs
    · obtain ⟨rfl, -⟩ := Prod.mk.inj (Option.some.inj hs)
      rcases setThread_cases ht with hq | ht
      · cases hq
      · exact h.working t off ht
    · cases hs
  | check t' =>
    simp only [step] at hs
    split at hs
    · split at hs
      · obtain ⟨rfl, -⟩ := Prod.mk.inj (Option.some.inj hs)
        rcases setThread_cases ht with hq | ht
        · cases hq
        · exact h.working t off ht
      · rename_i hlt
        obtain ⟨rfl, -⟩ := Prod.mk.inj (Option.some.inj hs)
        rcases setThread_cases ht with hq | ht
        · obtain rfl := ThreadPhase.working.inj hq
          exact Nat.lt_of_not_le fun hle => hlt (.inl hle)
        · exact h.working t off ht
    · cases hs
  | provision t' api =>
    simp only [step] at hs
    split at hs
    · obtain ⟨rfl, -⟩ := Prod.mk.inj (Option.some.inj hs)
      unfold finish at ht
      split at ht
      all_goals
        rcases setThread_cases ht with hq | ht
        · cases hq
        · exact h.working t off ht
    · cases hs

/-- The threads of a covered range send no password. -/
theorem step_noPassword (hr : roster.Usable) {r r' : Range} {stop : Bool} {e : RangeEvent}
    {ops : List Operation} (h : Covers roster r)
    (hs : r.step cfg roster stop e = some (r', ops)) : NoPassword ops := by
  cases e with
  | claim t =>
    simp only [step] at hs
    split at hs
    · obtain ⟨-, rfl⟩ := Prod.mk.inj (Option.some.inj hs)
      exact .nil
    · cases hs
  | check t =>
    simp only [step] at hs
    split at hs
    · split at hs
      all_goals
        obtain ⟨-, rfl⟩ := Prod.mk.inj (Option.some.inj hs)
        exact .nil
    · cases hs
  | provision t api =>
    simp only [step] at hs
    split at hs
    · rename_i off ht
      obtain ⟨-, rfl⟩ := Prod.mk.inj (Option.some.inj hs)
      exact Provisioner.provisionClient_noPassword cfg hr api (h.session off (h.working t off ht))
    · cases hs

end Range

end CksLoadtest
