import CksLoadtest.Lib.LastWrite
import CksLoadtest.Provision.Accounts
import CksLoadtest.Provision.Roster

/-!
# Entries of a roster

What the constructor keeps of a list of entries, several of which may have one index. The
tokens, the app tokens and the accounts are in maps of their own: each map has the last
write of the entries at an index, and these are not always writes of one entry.
-/
namespace CksLoadtest

open Lib

namespace Roster

variable {K : Type*} [Ring K] [LinearOrder K] [FloorRing K]

/-- The index and the token of an entry that is not skipped at once. -/
def entryKey (entry : Json K) : Option (Int × String) :=
  match (entry.field? "index").bind Json.asInt?, (entry.field? "token").bind Json.asStr? with
  | some index, some token => if token = "" then none else some (int32 index, token)
  | _, _ => none

/-- The account an entry names for its index. -/
def named (entry : Json K) : Option (Int × String) :=
  (entryKey entry).bind fun key => (entry.strField? "email").map fun email => (key.1, email)

/-- The app token the constructor keeps of an entry. -/
def keptAppToken (parseIso8601Utc : String → Int) (kindAppToken : Bool) (entry : Json K) :
    Option (Int × RosterAppToken) :=
  if kindAppToken then
    (entryKey entry).bind fun key =>
      match appTokenEntry parseIso8601Utc entry key.2 with
      | .ok (some at') => some (key.1, at')
      | _ => none
  else none

/-- The session the constructor keeps of an entry. -/
def keptSession (parseIso8601Utc : String → Int) (kindAppToken : Bool) (entry : Json K) :
    Option (Int × String) :=
  if kindAppToken then
    (keptAppToken parseIso8601Utc true entry).map fun kept => (kept.1, "app-token")
  else entryKey entry

omit [Ring K] [LinearOrder K] [FloorRing K] in
theorem nameEntry_spec (r : Roster) (idx : Int) (entry : Json K) :
    (r.nameEntry idx entry).kindAppToken = r.kindAppToken ∧
      (r.nameEntry idx entry).emails =
        put r.emails ((entry.strField? "email").map fun email => (idx, email)) ∧
      (r.nameEntry idx entry).sessions = r.sessions ∧
      (r.nameEntry idx entry).appTokens = r.appTokens := by
  unfold nameEntry
  cases entry.strField? "email" with
  | none => exact ⟨rfl, rfl, rfl, rfl⟩
  | some email => exact ⟨rfl, rfl, rfl, rfl⟩

variable (parseIso8601Utc : String → Int)

/-- An entry with an empty token is skipped. -/
theorem entryKey_token {entry : Json K} {idx : Int} {token : String}
    (h : entryKey entry = some (idx, token)) : token ≠ "" := by
  unfold entryKey at h
  split at h
  · split at h
    · cases h
    · rename_i hne
      obtain ⟨-, rfl⟩ := Prod.mk.inj (Option.some.inj h)
      exact hne
  · cases h

/-- What the constructor does with an entry it does not skip at once. -/
theorem loadEntry_key {r r' : Roster} {entry : Json K}
    (h : loadEntry parseIso8601Utc r entry = .ok r') :
    entryKey entry = none ∧ r' = r ∨
      ∃ idx token, entryKey entry = some (idx, token) ∧
        (r.kindAppToken = false ∧
            r' = { r.nameEntry idx entry with
              sessions := Function.update (r.nameEntry idx entry).sessions idx (some token) } ∨
          r.kindAppToken = true ∧
            ((∃ at', appTokenEntry parseIso8601Utc entry token = .ok (some at') ∧
                r' = { r.nameEntry idx entry with
                  appTokens := Function.update (r.nameEntry idx entry).appTokens idx (some at')
                  sessions :=
                    Function.update (r.nameEntry idx entry).sessions idx (some "app-token") }) ∨
              appTokenEntry parseIso8601Utc entry token = .ok none ∧
                r' = r.nameEntry idx entry)) := by
  unfold loadEntry at h
  cases hindex : entry.field? "index" with
  | none =>
    rw [hindex] at h
    exact .inl ⟨by simp [entryKey, hindex], (Except.ok.inj h).symm⟩
  | some index =>
    cases htoken : entry.field? "token" with
    | none =>
      rw [hindex, htoken] at h
      exact .inl ⟨by simp [entryKey, htoken], (Except.ok.inj h).symm⟩
    | some token =>
      rw [hindex, htoken] at h
      cases hi : index.asInt? with
      | none => simp [get, hi, bind, Except.bind] at h
      | some i =>
        cases ht : token.asStr? with
        | none => simp [get, hi, ht, bind, Except.bind] at h
        | some token =>
          have hkey : entryKey entry = if token = "" then none else some (int32 i, token) := by
            simp [entryKey, hindex, htoken, hi, ht]
          simp only [get, hi, ht, bind, Except.bind, pure, Except.pure] at h
          by_cases hempty : token = ""
          · rw [if_pos hempty] at h hkey
            exact .inl ⟨hkey, (Except.ok.inj h).symm⟩
          · rw [if_neg hempty] at h hkey
            refine .inr ⟨int32 i, token, hkey, ?_⟩
            have hkind := (r.nameEntry_spec (int32 i) entry).1
            cases hk : r.kindAppToken with
            | false =>
              rw [if_neg (by simp [hkind, hk])] at h
              exact .inl ⟨rfl, (Except.ok.inj h).symm⟩
            | true =>
              rw [if_pos (hkind.trans hk)] at h
              refine .inr ⟨rfl, ?_⟩
              cases hentry : appTokenEntry parseIso8601Utc entry token with
              | error e => simp [hentry] at h
              | ok kept =>
                rw [hentry] at h
                cases kept with
                | none => exact .inr ⟨rfl, (Except.ok.inj h).symm⟩
                | some at' => exact .inl ⟨at', rfl, (Except.ok.inj h).symm⟩

/-- **One entry.** Each map gets at most one write. -/
theorem loadEntry_spec {r r' : Roster} {entry : Json K}
    (h : loadEntry parseIso8601Utc r entry = .ok r') :
    r'.kindAppToken = r.kindAppToken ∧ r'.emails = put r.emails (named entry) ∧
      r'.sessions = put r.sessions (keptSession parseIso8601Utc r.kindAppToken entry) ∧
      r'.appTokens = put r.appTokens (keptAppToken parseIso8601Utc r.kindAppToken entry) := by
  rcases loadEntry_key parseIso8601Utc h with
    ⟨hkey, rfl⟩ | ⟨idx, token, hkey, ⟨hkind, rfl⟩ | ⟨hkind, ⟨at', hentry, rfl⟩ | ⟨hentry, rfl⟩⟩⟩
  · simp [named, keptSession, keptAppToken, hkey, put]
  all_goals
    obtain ⟨hk, he, hs, ha⟩ := r.nameEntry_spec idx entry
    simp [named, keptSession, keptAppToken, hkey, hkind, put, hk, he, hs, ha]
  · simp [hentry]
  · simp [hentry]

/-- **A list of entries.** Each map has the last write at every index. -/
theorem loadEntries_spec {r r' : Roster} {entries : List (Json K)}
    (h : loadEntries parseIso8601Utc r entries = .ok r') :
    r'.kindAppToken = r.kindAppToken ∧ ∀ idx,
      r'.emails idx = (lastWrite named idx entries).or (r.emails idx) ∧
      r'.sessions idx =
        (lastWrite (keptSession parseIso8601Utc r.kindAppToken) idx entries).or (r.sessions idx) ∧
      r'.appTokens idx =
        (lastWrite (keptAppToken parseIso8601Utc r.kindAppToken) idx entries).or
          (r.appTokens idx) := by
  induction entries generalizing r with
  | nil =>
    obtain rfl := Except.ok.inj h
    exact ⟨rfl, fun idx => ⟨rfl, rfl, rfl⟩⟩
  | cons entry entries ih =>
    cases hr : loadEntry parseIso8601Utc r entry with
    | error e => simp [loadEntries, hr, bind, Except.bind] at h
    | ok r₁ =>
      have hrest : loadEntries parseIso8601Utc r₁ entries = .ok r' := by
        simpa [loadEntries, hr, bind, Except.bind] using h
      obtain ⟨hk, he, hs, ha⟩ := loadEntry_spec parseIso8601Utc hr
      obtain ⟨hk', hmaps⟩ := ih hrest
      refine ⟨hk'.trans hk, fun idx => ?_⟩
      obtain ⟨he', hs', ha'⟩ := hmaps idx
      rw [he', hs', ha', hk, he, hs, ha]
      simp only [put_apply, lastWrite, Option.or_assoc, and_self]

/-- What a range-based loop over `sessions` visits. -/
def sessionEntries {R : Type*} (doc : Json R) : List (Json R) :=
  ((doc.field? "sessions").getD (.arr [])).elements

/-- The roster declares app tokens. -/
def declaresAppTokens {R : Type*} (doc : Json R) : Bool :=
  doc.strOr? "kind" "session" = some "app-token"

/-- **A loaded document.** The maps are the last writes of its entries. -/
theorem load_spec {cfg : Config K} {doc : Json K} {r : Roster} (hfile : cfg.rosterFile ≠ "")
    (h : load parseIso8601Utc cfg (.parsed doc) = .ok r) :
    r.kindAppToken = declaresAppTokens doc ∧ ∀ idx,
      r.emails idx = lastWrite named idx (sessionEntries doc) ∧
      r.sessions idx = lastWrite (keptSession parseIso8601Utc (declaresAppTokens doc)) idx
        (sessionEntries doc) ∧
      r.appTokens idx = lastWrite (keptAppToken parseIso8601Utc (declaresAppTokens doc)) idx
        (sessionEntries doc) := by
  rw [load, if_neg hfile] at h
  simp only [loadDocument] at h
  cases horigin : originRefusal cfg doc with
  | some message => simp [horigin, refuse] at h
  | none =>
    rw [horigin] at h
    cases hkind : doc.strOr? "kind" "session" with
    | none => simp [hkind, get, bind, Except.bind] at h
    | some kind =>
      have hdecl : declaresAppTokens doc = decide (kind = "app-token") := by
        simp [declaresAppTokens, hkind]
      simp only [hkind, get, bind, Except.bind] at h
      obtain ⟨hk, hmaps⟩ := loadEntries_spec parseIso8601Utc h
      refine ⟨hk.trans hdecl.symm, fun idx => ?_⟩
      obtain ⟨he, hs, ha⟩ := hmaps idx
      rw [hdecl]
      exact ⟨he.trans (Option.or_none ..), hs.trans (Option.or_none ..),
        ha.trans (Option.or_none ..)⟩

/-! ### Whose token it is -/

/-- The entry the token of an index is read from, with the entries after it. -/
structure ReadFrom (kindAppToken : Bool) (entries : List (Json K)) (idx : Int) (entry : Json K)
    (later : List (Json K)) : Prop where
  split : ∃ earlier, entries = earlier ++ entry :: later
  kept : ∃ token, keptSession parseIso8601Utc kindAppToken entry = some (idx, token)
  last : ∀ e ∈ later, writesAt (keptSession parseIso8601Utc kindAppToken) idx e = none

/-- An entry that keeps an app token leaves a marker among the sessions. -/
theorem writesAt_marker (idx : Int) (entry : Json K) :
    writesAt (keptSession parseIso8601Utc true) idx entry =
      (writesAt (keptAppToken parseIso8601Utc true) idx entry).map fun _ => "app-token" := by
  unfold writesAt keptSession
  rw [if_pos rfl]
  cases keptAppToken parseIso8601Utc true entry with
  | none => rfl
  | some kept =>
    by_cases hi : kept.1 = idx
    · simp [hi]
    · simp [hi]

/-- A kept entry is not skipped, and is for the index it is kept for. -/
theorem entryKey_of_kept {kindAppToken : Bool} {entry : Json K} {idx : Int} {token : String}
    (h : keptSession parseIso8601Utc kindAppToken entry = some (idx, token)) :
    ∃ token, entryKey entry = some (idx, token) := by
  unfold keptSession keptAppToken at h
  cases hkey : entryKey entry with
  | none => simp [hkey] at h
  | some key =>
    simp only [hkey, Option.bind_some] at h
    cases kindAppToken with
    | false => exact ⟨token, by simpa using h⟩
    | true =>
      cases hentry : appTokenEntry parseIso8601Utc entry key.2 with
      | error e => simp [hentry] at h
      | ok kept =>
        cases kept with
        | none => simp [hentry] at h
        | some at' =>
          simp [hentry] at h
          exact ⟨key.2, by rw [← h.1]⟩

section Loaded

variable {cfg : Config K} {doc : Json K} {r : Roster}

/-- A session is the token of the entry it is read from. -/
theorem session_readFrom (hfile : cfg.rosterFile ≠ "")
    (h : load parseIso8601Utc cfg (.parsed doc) = .ok r) {idx : Int} {email token : String}
    (hcall : r.rosterSession idx email = .ok token) (htoken : token ≠ "") :
    ∃ entry later,
      ReadFrom parseIso8601Utc (declaresAppTokens doc) (sessionEntries doc) idx entry later ∧
        keptSession parseIso8601Utc (declaresAppTokens doc) entry = some (idx, token) := by
  have hmap := ((load_spec parseIso8601Utc hfile h).2 idx).2.1
  unfold rosterSession at hcall
  cases hs : r.sessions idx with
  | none =>
    rw [hs] at hcall
    exact absurd (Except.ok.inj hcall).symm htoken
  | some t =>
    rw [hs] at hcall
    cases hr : r.emailRefusal idx email with
    | some message => simp [hr, refuse] at hcall
    | none =>
      obtain rfl : t = token := by simpa [hr] using hcall
      obtain ⟨earlier, entry, later, hsplit, hkept, hlast⟩ :=
        lastWrite_eq_some.mp (hmap.symm.trans hs)
      exact ⟨entry, later, ⟨⟨earlier, hsplit⟩, ⟨t, hkept⟩, hlast⟩, hkept⟩

/-- An app token is that of the entry it is read from. -/
theorem appToken_readFrom (hfile : cfg.rosterFile ≠ "")
    (h : load parseIso8601Utc cfg (.parsed doc) = .ok r) {idx : Int} {email : String}
    {at' : RosterAppToken} (hcall : r.rosterAppToken idx email = .ok (some at')) :
    ∃ entry later,
      ReadFrom parseIso8601Utc (declaresAppTokens doc) (sessionEntries doc) idx entry later ∧
        keptAppToken parseIso8601Utc (declaresAppTokens doc) entry = some (idx, at') := by
  have hmap := ((load_spec parseIso8601Utc hfile h).2 idx).2.2
  unfold rosterAppToken at hcall
  cases ha : r.appTokens idx with
  | none => simp [ha] at hcall
  | some t =>
    rw [ha] at hcall
    cases hr : r.emailRefusal idx email with
    | some message => simp [hr, refuse] at hcall
    | none =>
      obtain rfl : t = at' := by simpa [hr] using hcall
      obtain ⟨earlier, entry, later, hsplit, hkept, hlast⟩ :=
        lastWrite_eq_some.mp (hmap.symm.trans ha)
      cases hk : declaresAppTokens doc with
      | false => simp [hk, keptAppToken] at hkept
      | true =>
        rw [hk] at hkept hlast
        refine ⟨entry, later, ⟨⟨earlier, hsplit⟩, ⟨"app-token", ?_⟩, fun e he => ?_⟩, hkept⟩
        · simp [keptSession, hkept]
        · rw [writesAt_marker, hlast e he]
          rfl

/-- A call that finds a token throws where the entry of the token names another account. -/
def RefusesOthers (doc : Json K) (r : Roster) : Prop :=
  ∀ idx entry later account email,
    ReadFrom parseIso8601Utc (declaresAppTokens doc) (sessionEntries doc) idx entry later →
    entry.strField? "email" = some account → account ≠ email →
      (∃ e, r.rosterSession idx email = .error e) ∧
        (declaresAppTokens doc = true → ∃ e, r.rosterAppToken idx email = .error e)

/-- No entry that is skipped after a kept one names another account last. -/
def LaterAgree (doc : Json K) : Prop :=
  ∀ idx entry later account,
    ReadFrom parseIso8601Utc (declaresAppTokens doc) (sessionEntries doc) idx entry later →
    entry.strField? "email" = some account →
      ∀ other, lastWrite named idx later = some other → other = account

/-- The account checked for an index is the last one named. -/
theorem emails_of_readFrom (hfile : cfg.rosterFile ≠ "")
    (h : load parseIso8601Utc cfg (.parsed doc) = .ok r) {idx : Int} {entry : Json K}
    {later : List (Json K)} {account : String}
    (hread : ReadFrom parseIso8601Utc (declaresAppTokens doc) (sessionEntries doc) idx entry later)
    (hname : entry.strField? "email" = some account) :
    r.emails idx = some ((lastWrite named idx later).getD account) := by
  obtain ⟨earlier, hsplit⟩ := hread.split
  obtain ⟨token, hkept⟩ := hread.kept
  obtain ⟨t, hkey⟩ := entryKey_of_kept parseIso8601Utc hkept
  have hnamed : writesAt named idx entry = some account :=
    writesAt_eq_some.mpr (by simp [named, hkey, hname])
  rw [((load_spec parseIso8601Utc hfile h).2 idx).1, hsplit, lastWrite_append, lastWrite, hnamed]
  cases lastWrite named idx later with
  | none => rfl
  | some other => rfl

/-- A roster has the token of the entry it is read from. -/
theorem tokens_of_readFrom (hfile : cfg.rosterFile ≠ "")
    (h : load parseIso8601Utc cfg (.parsed doc) = .ok r) {idx : Int} {entry : Json K}
    {later : List (Json K)} (hread : ReadFrom parseIso8601Utc (declaresAppTokens doc)
      (sessionEntries doc) idx entry later) :
    (∃ token, r.sessions idx = some token) ∧
      (declaresAppTokens doc = true → ∃ at', r.appTokens idx = some at') := by
  obtain ⟨-, hmaps⟩ := load_spec parseIso8601Utc hfile h
  obtain ⟨-, hs, ha⟩ := hmaps idx
  obtain ⟨earlier, hsplit⟩ := hread.split
  obtain ⟨token, hkept⟩ := hread.kept
  have hsome := hs.trans (lastWrite_eq_some.mpr ⟨earlier, entry, later, hsplit, hkept, hread.last⟩)
  refine ⟨⟨token, hsome⟩, fun hk => ?_⟩
  cases hat : r.appTokens idx with
  | some at' => exact ⟨at', rfl⟩
  | none =>
    have hnone := lastWrite_eq_none.mp (ha.symm.trans hat) entry (by simp [hsplit])
    have hmarker := writesAt_eq_some.mpr hkept
    rw [hk] at hnone hmarker
    rw [writesAt_marker, hnone] at hmarker
    simp at hmarker

/-- The calls refuse every token whose entry names another account exactly if no skipped
entry after a kept one names another account last. -/
theorem refusesOthers_iff (hfile : cfg.rosterFile ≠ "")
    (h : load parseIso8601Utc cfg (.parsed doc) = .ok r) :
    RefusesOthers parseIso8601Utc doc r ↔ LaterAgree parseIso8601Utc doc := by
  constructor
  · intro hrefuses idx entry later account hread hname other hother
    by_contra hne
    have hemail := emails_of_readFrom parseIso8601Utc hfile h hread hname
    rw [hother, Option.getD_some] at hemail
    -- the call for the account named last gets the token
    obtain ⟨e, he⟩ := (hrefuses idx entry later account other hread hname (Ne.symm hne)).1
    obtain ⟨⟨token, htoken⟩, -⟩ := tokens_of_readFrom parseIso8601Utc hfile h hread
    simp [rosterSession, htoken, emailRefusal, hemail] at he
  · intro hagree idx entry later account email hread hname hne
    have hemail : r.emails idx = some account := by
      rw [emails_of_readFrom parseIso8601Utc hfile h hread hname]
      cases hlast : lastWrite named idx later with
      | none => rfl
      | some other => rw [hagree idx entry later account hread hname other hlast, Option.getD_some]
    obtain ⟨⟨token, htoken⟩, happ⟩ := tokens_of_readFrom parseIso8601Utc hfile h hread
    refine ⟨⟨_, by simp [rosterSession, htoken, emailRefusal, hemail, hne, refuse]; rfl⟩,
      fun hk => ?_⟩
    obtain ⟨at', hat⟩ := happ hk
    exact ⟨_, by simp [rosterAppToken, hat, emailRefusal, hemail, hne, refuse]; rfl⟩

/-- A token comes from an entry that names no account or the one derived, and otherwise the
call throws. -/
structure ChecksAccounts (doc : Json K) (r : Roster) : Prop where
  session : ∀ idx email token, r.rosterSession idx email = .ok token → token ≠ "" →
    ∃ entry later,
      ReadFrom parseIso8601Utc (declaresAppTokens doc) (sessionEntries doc) idx entry later ∧
        keptSession parseIso8601Utc (declaresAppTokens doc) entry = some (idx, token) ∧
        ∀ account, entry.strField? "email" = some account → account = email
  appToken : ∀ idx email at', r.rosterAppToken idx email = .ok (some at') →
    ∃ entry later,
      ReadFrom parseIso8601Utc (declaresAppTokens doc) (sessionEntries doc) idx entry later ∧
        keptAppToken parseIso8601Utc (declaresAppTokens doc) entry = some (idx, at') ∧
        ∀ account, entry.strField? "email" = some account → account = email
  refuses : RefusesOthers parseIso8601Utc doc r

/-- **Tokens of other accounts.** A loaded roster gives out no token of another account
exactly if no skipped entry after a kept one names another account last. -/
theorem checksAccounts_iff (hfile : cfg.rosterFile ≠ "")
    (h : load parseIso8601Utc cfg (.parsed doc) = .ok r) :
    ChecksAccounts parseIso8601Utc doc r ↔ LaterAgree parseIso8601Utc doc := by
  rw [← refusesOthers_iff parseIso8601Utc hfile h]
  refine ⟨ChecksAccounts.refuses, fun hrefuses => ⟨?_, ?_, hrefuses⟩⟩
  · intro idx email token hcall htoken
    obtain ⟨entry, later, hread, hkept⟩ := session_readFrom parseIso8601Utc hfile h hcall htoken
    refine ⟨entry, later, hread, hkept, fun account hname => ?_⟩
    by_contra hne
    obtain ⟨e, he⟩ := (hrefuses idx entry later account email hread hname hne).1
    simp [hcall] at he
  · intro idx email at' hcall
    obtain ⟨entry, later, hread, hkept⟩ := appToken_readFrom parseIso8601Utc hfile h hcall
    refine ⟨entry, later, hread, hkept, fun account hname => ?_⟩
    by_contra hne
    have hkind : declaresAppTokens doc = true := by
      by_contra hk
      simp [keptAppToken, hk] at hkept
    obtain ⟨e, he⟩ := (hrefuses idx entry later account email hread hname hne).2 hkind
    simp [hcall] at he

/-- A roster of sessions skips no entry that names an account. -/
theorem laterAgree_of_sessions (hkind : declaresAppTokens doc = false) :
    LaterAgree parseIso8601Utc doc := by
  intro idx entry later account hread _ other hother
  obtain ⟨earlier, e, rest, rfl, he, -⟩ := lastWrite_eq_some.mp hother
  have hnone := hread.last e (by simp)
  cases hkey : entryKey e with
  | none => simp [named, hkey] at he
  | some key =>
    have hi : key.1 = idx := by
      simp only [named, hkey, Option.bind_some, Option.map_eq_some_iff] at he
      obtain ⟨_, _, hpair⟩ := he
      exact congrArg Prod.fst hpair
    simp [writesAt, keptSession, hkind, hkey, hi] at hnone

end Loaded

namespace Sample

def cfg : Config ℚ :=
  { Config.smallFleet "{local}+lt-{index}@{domain}" with
    rosterFile := "roster.json", rosterRequired := true }

def appTokenOf (account token : String) : Json ℚ :=
  .obj [("index", .int 0), ("token", .str token), ("gameTokenId", .str "7"),
    ("email", .str account)]

def foreign : Json ℚ :=
  appTokenOf "bots+lt-0000@other.example"
    "0123456789abcdef0123456789abcdef0123456789abcdef0123456789abcdef"

def truncated : Json ℚ := appTokenOf "bots+lt-0000@studio.example" "0123456789abcdef"

def whole : Json ℚ :=
  appTokenOf "bots+lt-0000@studio.example"
    "0123456789abcdef0123456789abcdef0123456789abcdef0123456789abcdef"

/-- The entry of the run's own account, and a truncated one of the same account after it. -/
def own : Json ℚ :=
  .obj [("kind", .str "app-token"), ("sessions", .arr [whole, truncated])]

/-- Two slices merged: the entry of another account, and a truncated one of the run's own. -/
def merged : Json ℚ :=
  .obj [("kind", .str "app-token"), ("sessions", .arr [foreign, truncated])]

theorem truncated_not_kept :
    keptSession (fun _ => 0) (declaresAppTokens own) truncated = none := by
  decide +kernel

/-- An entry of the run's own account that is followed by a skipped one. -/
theorem own_readFrom :
    ReadFrom (fun _ => 0) (declaresAppTokens own) (sessionEntries own) 0 whole [truncated] where
  split := ⟨[], rfl⟩
  kept := ⟨"app-token", by decide +kernel⟩
  last := by
    intro e he
    obtain rfl := List.mem_singleton.mp he
    rw [writesAt, truncated_not_kept, Option.bind_none]

theorem merged_readFrom :
    ReadFrom (fun _ => 0) (declaresAppTokens merged) (sessionEntries merged) 0 foreign
      [truncated] where
  split := ⟨[], rfl⟩
  kept := ⟨"app-token", by decide +kernel⟩
  last := by
    intro e he
    obtain rfl := List.mem_singleton.mp he
    decide +kernel

theorem exists_loaded (doc : Json ℚ)
    (h : (load (fun _ => 0) cfg (.parsed doc)).toBool = true) :
    ∃ r, load (fun _ => 0) cfg (.parsed doc) = .ok r := by
  cases hl : load (fun _ => 0) cfg (.parsed doc) with
  | error e => simp [hl, Except.toBool] at h
  | ok r => exact ⟨r, rfl⟩

end Sample

/-- The skipped entry names the account of the kept one, which is the one derived. -/
theorem own_checksAccounts :
    (ReadFrom (fun _ => 0) (declaresAppTokens Sample.own) (sessionEntries Sample.own) 0
        Sample.whole [Sample.truncated] ∧
      lastWrite named 0 [Sample.truncated] = some (Sample.cfg.derivedEmail 0)) ∧
    ∃ r, load (fun _ => 0) Sample.cfg (.parsed Sample.own) = .ok r ∧
      ChecksAccounts (fun _ => 0) Sample.own r := by
  refine ⟨⟨Sample.own_readFrom, by decide +kernel⟩, ?_⟩
  obtain ⟨r, hr⟩ := Sample.exists_loaded Sample.own (by decide +kernel)
  refine ⟨r, hr, (checksAccounts_iff (fun _ => 0) (by decide) hr).mpr ?_⟩
  intro idx entry later account hread hname other hother
  obtain ⟨earlier, hsplit⟩ := hread.split
  have hentries : [Sample.whole, Sample.truncated] = earlier ++ entry :: later := hsplit
  cases earlier with
  | nil =>
    obtain ⟨rfl, rfl⟩ := List.cons.inj hentries
    obtain ⟨_, e, _, hlater, hwrites, -⟩ := lastWrite_eq_some.mp hother
    obtain rfl : e = Sample.truncated := by
      have hmem : e ∈ [Sample.truncated] := by rw [hlater]; simp
      exact List.mem_singleton.mp hmem
    have hnamed : named Sample.truncated = some (0, "bots+lt-0000@studio.example") := by
      decide +kernel
    have haccount : some account = some "bots+lt-0000@studio.example" :=
      hname.symm.trans (by decide +kernel)
    rw [Option.some.inj haccount]
    exact congrArg Prod.snd (Option.some.inj (hwrites.symm.trans hnamed))
  | cons first rest =>
    -- the truncated entry is not kept
    have htail : [Sample.truncated] = rest ++ entry :: later := (List.cons.inj hentries).2
    obtain rfl : entry = Sample.truncated := by
      have hmem : entry ∈ [Sample.truncated] := by rw [htail]; simp
      exact List.mem_singleton.mp hmem
    obtain ⟨token, hkept⟩ := hread.kept
    rw [Sample.truncated_not_kept] at hkept
    exact absurd hkept (by simp)

/-- The check is made against the truncated entry, and the token is the other one's. -/
theorem merged_gives_foreign : Sample.cfg.Accepted ∧
    (∃ r, load (fun _ => 0) Sample.cfg (.parsed Sample.merged) = .ok r ∧
      ¬ ChecksAccounts (fun _ => 0) Sample.merged r) ∧
    ((load (fun _ => 0) Sample.cfg (.parsed Sample.merged)).bind fun r =>
      r.rosterAppToken 0 (Sample.cfg.derivedEmail 0)) = .ok (some
        { token := octets "0123456789abcdef0123456789abcdef0123456789abcdef0123456789abcdef"
          gameTokenId := 7 }) := by
  refine ⟨?_, ?_, by decide +kernel⟩
  · show Config.validate _ = _
    decide +kernel
  · obtain ⟨r, hr⟩ := Sample.exists_loaded Sample.merged (by decide +kernel)
    refine ⟨r, hr, fun hchecks => ?_⟩
    have hagree := (refusesOthers_iff (fun _ => 0) (by decide) hr).mp hchecks.refuses 0 _ _
      "bots+lt-0000@other.example" Sample.merged_readFrom (by decide +kernel)
      "bots+lt-0000@studio.example" (by decide +kernel)
    exact absurd hagree (by decide)

end Roster

end CksLoadtest
