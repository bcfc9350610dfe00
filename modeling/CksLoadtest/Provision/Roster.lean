import Mathlib.Logic.Function.Basic
import CksLoadtest.Control.Api
import CksLoadtest.Lib.Json
import CksLoadtest.Provision.Email

/-!
# The roster

What the constructor of `Provisioner` makes of the roster file, and how a client's
entry is read from it. The file is an input, and so is `parseIso8601Utc`, which no
statement looks into.
-/
namespace CksLoadtest

open Lib Lib.Buffer

/-- `RosterAppToken`. -/
structure RosterAppToken where
  token : Bytes := []
  gameTokenId : Int64 := 0
  expiresAt : Int := 0
  deriving DecidableEq

/-- The maps the constructor fills, by global index. -/
structure Roster where
  kindAppToken : Bool := false
  gameApiUrl : String := ""
  sessions : Int → Option String := fun _ => none
  emails : Int → Option String := fun _ => none
  appTokens : Int → Option RosterAppToken := fun _ => none

/-- What the file stream answers. -/
inductive RosterFile (R : Type*) where
  | missing
  | malformed (what : String)
  | parsed (doc : Json R)

def octets (s : String) : Bytes := s.toUTF8.toList

/-- `trimSlash`. -/
def trimSlash (s : String) : String :=
  String.ofList (s.toList.reverse.dropWhile (· = '/')).reverse

namespace Roster

variable {K : Type*} [Ring K] [LinearOrder K] [FloorRing K]

/-- An exception that is not a GraphQL error. -/
def get {α : Type*} (x : Option α) : Except Thrown α :=
  match x with
  | some a => .ok a
  | none => .error .decode

def refuse {α : Type*} (message : String) : Except Thrown α := .error (.graphql { message })

/-- An app-token entry; `none` for one that is skipped. -/
def appTokenEntry (parseIso8601Utc : String → Int) (entry : Json K) (token : String) :
    Except Thrown (Option RosterAppToken) := do
  let id ← match entry.strField? "gameTokenId" with
    | some s => get (stoll s.toList)
    | none => .ok 0
  let expiresAt := ((entry.strField? "expiresAt").map parseIso8601Utc).getD 0
  let at' : RosterAppToken := { token := octets token, gameTokenId := id, expiresAt := expiresAt }
  return if at'.token.length ≠ Hmac.TOKEN_OCTETS ∨ id = 0 then none else some at'

/-- The account an entry is for, where it names one. -/
def nameEntry (r : Roster) (idx : Int) (entry : Json K) : Roster :=
  match entry.strField? "email" with
  | some email => { r with emails := Function.update r.emails idx (some email) }
  | none => r

/-- One turn of the constructor's loop over `sessions`. -/
def loadEntry (parseIso8601Utc : String → Int) (r : Roster) (entry : Json K) :
    Except Thrown Roster :=
  match entry.field? "index", entry.field? "token" with
  | some index, some token => do
    let idx := int32 (← get index.asInt?)
    let token ← get token.asStr?
    if token = "" then return r
    let r := r.nameEntry idx entry
    if r.kindAppToken then
      match ← appTokenEntry parseIso8601Utc entry token with
      | none => return r
      | some at' =>
        return { r with
          appTokens := Function.update r.appTokens idx (some at')
          sessions := Function.update r.sessions idx (some "app-token") }
    else return { r with sessions := Function.update r.sessions idx (some token) }
  | _, _ => .ok r

def loadEntries (parseIso8601Utc : String → Int) : Roster → List (Json K) → Except Thrown Roster
  | r, [] => .ok r
  | r, entry :: entries => do
    loadEntries parseIso8601Utc (← loadEntry parseIso8601Utc r entry) entries

/-- The roster names the origin it was minted against. -/
def originRefusal (cfg : Config K) (doc : Json K) : Option String :=
  (doc.strField? "origin").bind fun origin =>
    if trimSlash origin = trimSlash cfg.managementApiUrl then none
    else
      some ("LT_ROSTER_FILE was minted against '" ++ trimSlash origin ++
        "' but this run targets '" ++ trimSlash cfg.managementApiUrl ++
        "'. A session is only valid on the origin that issued it; re-provision the roster for " ++
        "this origin rather than pointing the harness at the other one.")

def loadDocument (parseIso8601Utc : String → Int) (cfg : Config K) (doc : Json K) :
    Except Thrown Roster :=
  match originRefusal cfg doc with
  | some message => refuse message
  | none => do
    let kind ← get (doc.strOr? "kind" "session")
    let appToken : Bool := kind = "app-token"
    let url := if appToken then ((doc.strField? "gameApiUrl").map trimSlash).getD "" else ""
    -- reading the kind has thrown unless the document is an object
    loadEntries parseIso8601Utc { kindAppToken := appToken, gameApiUrl := url }
      ((doc.field? "sessions").getD (.arr [])).elements

/-- The constructor of `Provisioner`. A file that cannot be read is a refusal. -/
def load (parseIso8601Utc : String → Int) (cfg : Config K) (file : RosterFile K) :
    Except Thrown Roster :=
  if cfg.rosterFile = "" then .ok {}
  else
    match file with
    | .missing =>
      refuse ("cannot open LT_ROSTER_FILE '" ++ cfg.rosterFile ++
        "'. A roster that cannot be read is a refusal, not an empty roster: continuing would " ++
        "sign every client in and quietly measure bcrypt.")
    | .malformed what =>
      refuse ("LT_ROSTER_FILE '" ++ cfg.rosterFile ++ "' is not valid JSON: " ++ what)
    | .parsed doc => loadDocument parseIso8601Utc cfg doc

/-- The refusal of an entry that names another account. -/
def emailRefusal (r : Roster) (index : Int) (email : String) : Option String :=
  (r.emails index).bind fun e =>
    if e = email then none
    else
      some ("LT_ROSTER_FILE entry " ++ toString index ++ " is for '" ++ e ++
        "' but this run derives '" ++ email ++ "' from LT_EMAIL/LT_EMAIL_PATTERN. The roster " ++
        "belongs to a different bot population; regenerate it or fix the pattern.")

/-- `rosterAppToken`; `none` when the index has no entry. -/
def rosterAppToken (r : Roster) (index : Int) (email : String) :
    Except Thrown (Option RosterAppToken) :=
  match r.appTokens index with
  | none => .ok none
  | some at' =>
    match emailRefusal r index email with
    | some message => refuse message
    | none => .ok (some at')

/-- `rosterSession`; empty when the index has no entry. -/
def rosterSession (r : Roster) (index : Int) (email : String) : Except Thrown String :=
  match r.sessions index with
  | none => .ok ""
  | some token =>
    match emailRefusal r index email with
    | some message => refuse message
    | none => .ok token

end Roster

end CksLoadtest
