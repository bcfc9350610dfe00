import Mathlib.Algebra.Order.Field.Rat
import CksLoadtest.Stats.Json

/-!
# The final summary

`printFinalSummary` as the list of lines it prints. A line keeps the values it was given;
`text` is what the terminal gets of it. The breakdown of the UNAUTHORIZED refusals is the part
`errorsJson` renders as well.
-/
namespace CksLoadtest

open Lib

inductive SummaryLine (K : Type*) where
  | title
  | replayLogging (summary : String)
  | signIn (mintedDuring mintedBefore reused : Int)
  | signInWarning
  | tx (packets bytes sendErrors : Nat)
  | rx (datagrams bytes bundles notifications : Nat)
  | control (refreshes kept reassignments failures : Nat)
  | hmacFailures (n : Nat)
  | latencyTitle
  | latency (samples : Nat) (avg : K) (max : Nat) (p50 p95 p99 : K)
  | bucket (label : String) (n : Nat) (percent : K)
  | errorTitle
  | errorCode (code : Nat) (name : String) (n : Nat)
  | firstContact (n : Nat)
  | windowReload (n : Nat) (radiusChunks : Int)
  | unexplained (n : Nat)
  | rule

namespace SummaryLine

/-- `%-10s`. -/
def padded (s : String) : String := s.pushn ' ' (10 - s.length)

/-- The printed line; `fixed1` is `%.1f`. -/
def text {K : Type*} (fixed1 : K → String) : SummaryLine K → String
  | title => "\n===== load test summary =====\n"
  | replayLogging summary => summary
  | signIn during before reused =>
    "sign-in: " ++ toString during ++ " session(s) minted DURING the run, " ++ toString before ++
      " before the ramp, " ++ toString reused ++ " reused from the roster\n"
  | signInWarning =>
    "  WARNING: a session minted during the run costs 0.4-1.4s of API bcrypt, so the " ++
      "steady-state numbers below include it.\n"
  | tx packets bytes sendErrors =>
    "tx: " ++ toString packets ++ " packets, " ++ toString bytes ++ " bytes (" ++
      toString sendErrors ++ " send errors)\n"
  | rx datagrams bytes bundles notifications =>
    "rx: " ++ toString datagrams ++ " datagrams, " ++ toString bytes ++ " bytes, " ++
      toString bundles ++ " bundles, " ++ toString notifications ++ " actor notifications\n"
  | control refreshes kept reassignments failures =>
    "control: " ++ toString refreshes ++ " token refreshes (" ++ toString kept ++
      " kept their server), " ++ toString reassignments ++ " reassignments, " ++
      toString failures ++ " failures\n"
  | hmacFailures n => "HMAC verification failures: " ++ toString n ++ "\n"
  | latencyTitle =>
    "one-way latency estimate (server epoch vs local clock; includes clock skew):\n"
  | latency samples avg max p50 p95 p99 =>
    "  samples=" ++ toString samples ++ " avg=" ++ fixed1 avg ++ "ms max=" ++ toString max ++
      "ms  p50=" ++ fixed1 p50 ++ " p95=" ++ fixed1 p95 ++ " p99=" ++ fixed1 p99 ++ "\n"
  | bucket label n percent =>
    "  " ++ padded label ++ " " ++ toString n ++ " (" ++ fixed1 percent ++ "%)\n"
  | errorTitle => "server error messages by code:\n"
  | errorCode code name n =>
    "  code " ++ toString code ++ " (" ++ name ++ "): " ++ toString n ++ "\n"
  | firstContact n =>
    "  of which EXPECTED: " ++ toString n ++ " on first contact with a Buddy, within 2s of an " ++
      "assignment. Buddy loads the permission window lazily and the client's own first packet " ++
      "triggers it, so roughly one per client is normal and not a fault.\n"
  | windowReload n radiusChunks =>
    "  of which EXPECTED: " ++ toString n ++ " on crossing out of the server's cached " ++
      "grid-permission box (assumed radius " ++ toString radiusChunks ++ " chunks). The same " ++
      "lazy load as first contact: the box is centred where the last lookup ran, so a walking " ++
      "client leaves it and the packet crossing the edge is refused while the re-query is in " ++
      "flight. Onset scales as 1/walk speed, so it is geometry rather than a timeout -- expect " ++
      "MORE of these the faster or further your clients walk, and none at all if they stand " ++
      "still.\n"
  | unexplained n =>
    "  UNEXPLAINED: " ++ toString n ++ " UNAUTHORIZED arrived while the client was neither " ++
      "newly assigned NOR outside the modelled permission box. These are the ones worth " ++
      "chasing: check the granted tier carries runtime permissions, and a steady stream means " ++
      "sessions are wedged. If the count is large and your clients roam far, check " ++
      "LT_PERMISSION_WINDOW_RADIUS_CHUNKS matches the server's before reading it as a fault.\n"
  | rule => "=============================\n"

end SummaryLine

section Lines

variable {K : Type*} [Field K] [LinearOrder K]

def signInLines (reused mintedBefore mintedDuring : Int) : List (SummaryLine K) :=
  if 0 ≤ mintedDuring then
    .signIn mintedDuring mintedBefore reused ::
      if 0 < mintedDuring then [.signInWarning] else []
  else []

def bucketLines (s : CounterSnap) : List (SummaryLine K) :=
  (List.finRange LATENCY_BUCKETS).filterMap fun i : Fin LATENCY_BUCKETS =>
    let n := getElem s.latencyHist i i.isLt
    if n = 0 then none else some (.bucket (bucketLabel i) n (100 * n / s.latencySamples))

def latencyLines (s : CounterSnap) : List (SummaryLine K) :=
  if s.latencySamples = 0 then []
  else
    [.latencyTitle,
     .latency s.latencySamples (s.latencySumMs / s.latencySamples) s.latencyMaxMs
       (percentileMs s (50 / 100)) (percentileMs s (95 / 100)) (percentileMs s (99 / 100))] ++
      bucketLines s

/-- The loop over the codes; its title goes before the first row. -/
def errorCodeLines (s : CounterSnap) : Bool → List (Fin 256) → List (SummaryLine K)
  | _, [] => []
  | anyErr, c :: rest =>
    let n := getElem s.errorCodes c (code_lt c)
    if n = 0 then errorCodeLines s anyErr rest
    else
      (if anyErr then [] else [.errorTitle]) ++
        .errorCode c (errorCodeName c) n :: errorCodeLines s true rest

/-- Both other lines are printed only below the one for first contact. -/
def unauthorizedLines (s : CounterSnap) (permWindowRadiusChunks : Int) : List (SummaryLine K) :=
  let firstContact := s.unauthorizedFirstContact
  let windowReload := s.unauthorizedWindowReload
  if firstContact ≠ 0 then
    let unauth := getElem s.errorCodes (7 : Fin 256) unauthorized_lt
    .firstContact firstContact ::
      ((if windowReload ≠ 0 then [.windowReload windowReload permWindowRadiusChunks] else []) ++
        if firstContact + windowReload < unauth then
          [.unexplained (unauth - firstContact - windowReload)]
        else [])
  else []

def printFinalSummary (s : CounterSnap)
    (permWindowRadiusChunks reused mintedBefore mintedDuring : Int) (replayLogging : String) :
    List (SummaryLine K) :=
  [.title] ++ (if replayLogging.isEmpty then [] else [.replayLogging replayLogging]) ++
    signInLines reused mintedBefore mintedDuring ++
    [.tx s.txPackets s.txBytes s.txSendErrors,
     .rx s.rxDatagrams s.rxBytes s.rxBundles s.rxActorNotifications,
     .control s.tokenRefreshes s.refreshesKeptServer s.reassignments s.controlFailures] ++
    (if s.rxHmacFailures ≠ 0 then [.hmacFailures s.rxHmacFailures] else []) ++
    latencyLines s ++ errorCodeLines s false (List.finRange 256) ++
    unauthorizedLines s permWindowRadiusChunks ++ [.rule]

end Lines

/-- The three parts of the UNAUTHORIZED refusals. -/
inductive UnauthorizedPart where
  | firstContact
  | windowReload
  | unexplained
  deriving DecidableEq

namespace UnauthorizedPart

/-- The member of `errorsJson` that holds a part. -/
def key : UnauthorizedPart → String
  | firstContact => "unauthorized_first_contact"
  | windowReload => "unauthorized_window_reload"
  | unexplained => "unauthorized_unexplained"

/-- The value a line reports for a part. -/
def read {K : Type*} : UnauthorizedPart → SummaryLine K → Option Nat
  | firstContact, .firstContact n => some n
  | windowReload, .windowReload n _ => some n
  | unexplained, .unexplained n => some n
  | _, _ => none

def count (s : CounterSnap) : UnauthorizedPart → Nat
  | firstContact => s.unauthorizedFirstContact
  | windowReload => s.unauthorizedWindowReload
  | unexplained =>
    getElem s.errorCodes (7 : Fin 256) unauthorized_lt - s.unauthorizedFirstContact -
      s.unauthorizedWindowReload

end UnauthorizedPart

section Reports

variable {K : Type*} [Field K] [LinearOrder K] (s : CounterSnap) (part : UnauthorizedPart)

omit [Field K] [LinearOrder K] in
theorem errorsJson_part : (errorsJson K s).field? part.key = some (.int (part.count s)) := by
  cases part <;> rfl

omit [Field K] [LinearOrder K] in
theorem signInLines_silent (reused mintedBefore mintedDuring : Int) :
    ∀ line ∈ signInLines (K := K) reused mintedBefore mintedDuring, part.read line = none := by
  intro line hline
  unfold signInLines at hline
  split at hline
  · rcases List.mem_cons.mp hline with rfl | hline
    · cases part <;> rfl
    · split at hline
      · rw [List.mem_singleton.mp hline]
        cases part <;> rfl
      · cases hline
  · cases hline

theorem latencyLines_silent :
    ∀ line ∈ latencyLines (K := K) s, part.read line = none := by
  intro line hline
  unfold latencyLines at hline
  split at hline
  · cases hline
  · rcases List.mem_append.mp hline with hline | hline
    · simp only [List.mem_cons, List.not_mem_nil, or_false] at hline
      rcases hline with rfl | rfl
      · cases part <;> rfl
      · cases part <;> rfl
    · obtain ⟨i, -, hi⟩ := List.mem_filterMap.mp hline
      dsimp only at hi
      split at hi
      · cases hi
      · obtain rfl := Option.some.inj hi
        cases part <;> rfl

omit [Field K] [LinearOrder K] in
theorem errorCodeLines_silent (anyErr : Bool) (codes : List (Fin 256)) :
    ∀ line ∈ errorCodeLines (K := K) s anyErr codes, part.read line = none := by
  induction codes generalizing anyErr with
  | nil => simp [errorCodeLines]
  | cons c rest ih =>
    intro line hline
    rw [errorCodeLines] at hline
    split at hline
    · exact ih anyErr line hline
    · rcases List.mem_append.mp hline with hline | hline
      · cases anyErr with
        | false =>
          rw [List.mem_singleton.mp hline]
          cases part <;> rfl
        | true => cases hline
      · rcases List.mem_cons.mp hline with rfl | hline
        · cases part <;> rfl
        · exact ih true line hline

omit [Field K] [LinearOrder K] in
/-- A part is reported only below the line for first contact. -/
theorem unauthorizedLines_report (permWindowRadiusChunks : Int) :
    (unauthorizedLines (K := K) s permWindowRadiusChunks).filterMap part.read =
      if s.unauthorizedFirstContact = 0 ∨ part.count s = 0 then [] else [part.count s] := by
  unfold unauthorizedLines
  by_cases hfirst : s.unauthorizedFirstContact = 0
  · rw [if_neg (not_not.mpr hfirst), if_pos (.inl hfirst)]
    rfl
  simp only [ne_eq, hfirst, not_false_eq_true, if_true, false_or]
  cases part with
  | firstContact =>
    show _ = if s.unauthorizedFirstContact = 0 then [] else [s.unauthorizedFirstContact]
    rw [if_neg hfirst]
    split <;> split <;> rfl
  | windowReload =>
    show _ = if s.unauthorizedWindowReload = 0 then [] else [s.unauthorizedWindowReload]
    by_cases hreload : s.unauthorizedWindowReload = 0
    · rw [if_neg (not_not.mpr hreload), if_pos hreload]
      split <;> rfl
    · rw [if_pos hreload, if_neg hreload]
      split <;> rfl
  | unexplained =>
    have hleft : s.unauthorizedFirstContact + s.unauthorizedWindowReload <
        getElem s.errorCodes (7 : Fin 256) unauthorized_lt ↔
          UnauthorizedPart.unexplained.count s ≠ 0 := by
      show _ ↔ _ - _ - _ ≠ 0
      omega
    by_cases hcount : UnauthorizedPart.unexplained.count s = 0
    · have hright : ¬ UnauthorizedPart.unexplained.count s ≠ 0 := not_not.mpr hcount
      rw [if_neg (mt hleft.mp hright), if_pos hcount]
      split <;> rfl
    · rw [if_pos (hleft.mpr hcount), if_neg hcount]
      split <;> rfl

/-- What the whole summary reports of a part. -/
theorem printFinalSummary_report
    (permWindowRadiusChunks reused mintedBefore mintedDuring : Int) (replayLogging : String) :
    (printFinalSummary (K := K) s permWindowRadiusChunks reused mintedBefore mintedDuring
      replayLogging).filterMap part.read =
      if s.unauthorizedFirstContact = 0 ∨ part.count s = 0 then [] else [part.count s] := by
  have hlog : (if replayLogging.isEmpty then []
      else [SummaryLine.replayLogging (K := K) replayLogging]).filterMap part.read = [] := by
    split
    · rfl
    · cases part <;> rfl
  have hcounts : [SummaryLine.tx (K := K) s.txPackets s.txBytes s.txSendErrors,
      .rx s.rxDatagrams s.rxBytes s.rxBundles s.rxActorNotifications,
      .control s.tokenRefreshes s.refreshesKeptServer s.reassignments
        s.controlFailures].filterMap part.read = [] := by
    cases part <;> rfl
  have hhmac : (if s.rxHmacFailures ≠ 0 then [SummaryLine.hmacFailures (K := K) s.rxHmacFailures]
      else []).filterMap part.read = [] := by
    split
    · cases part <;> rfl
    · rfl
  have htitle : [SummaryLine.title (K := K)].filterMap part.read = [] := by cases part <;> rfl
  have hrule : [SummaryLine.rule (K := K)].filterMap part.read = [] := by cases part <;> rfl
  have hsignIn := List.filterMap_eq_nil_iff.mpr
    (signInLines_silent (K := K) part reused mintedBefore mintedDuring)
  have hlatency := List.filterMap_eq_nil_iff.mpr (latencyLines_silent (K := K) s part)
  have hcodes := List.filterMap_eq_nil_iff.mpr
    (errorCodeLines_silent (K := K) s part false (List.finRange 256))
  unfold printFinalSummary
  simp only [List.filterMap_append, htitle, hlog, hcounts, hhmac, hrule, hsignIn, hlatency, hcodes,
    List.nil_append, List.append_nil]
  exact unauthorizedLines_report s part permWindowRadiusChunks

end Reports

/-- The summary reports every part with the value the JSON gives it, and leaves a line out
exactly when that value is zero. -/
def SummaryAgrees (K : Type*) [Field K] [LinearOrder K] (s : CounterSnap)
    (permWindowRadiusChunks reused mintedBefore mintedDuring : Int) (replayLogging : String) :
    Prop :=
  ∀ part : UnauthorizedPart, ∃ n : Nat,
    (errorsJson K s).field? part.key = some (.int n) ∧
      (printFinalSummary (K := K) s permWindowRadiusChunks reused mintedBefore mintedDuring
        replayLogging).filterMap part.read = if n = 0 then [] else [n]

/-- **When the two renderings agree**: some refusal came on first contact, or there was none at
all to explain. -/
theorem summaryAgrees_iff {K : Type*} [Field K] [LinearOrder K] (s : CounterSnap)
    (permWindowRadiusChunks reused mintedBefore mintedDuring : Int) (replayLogging : String) :
    SummaryAgrees K s permWindowRadiusChunks reused mintedBefore mintedDuring replayLogging ↔
      0 < s.unauthorizedFirstContact ∨
        (s.unauthorizedWindowReload = 0 ∧
          getElem s.errorCodes (7 : Fin 256) unauthorized_lt = 0) := by
  have hreport := fun part => printFinalSummary_report (K := K) s part permWindowRadiusChunks
    reused mintedBefore mintedDuring replayLogging
  constructor
  · intro hagrees
    by_contra hnone
    obtain ⟨hfirst, hsome⟩ := not_or.mp hnone
    have hfirst : s.unauthorizedFirstContact = 0 := Nat.eq_zero_of_not_pos hfirst
    -- nothing is reported, so every part is zero
    have hzero : ∀ part : UnauthorizedPart, part.count s = 0 := by
      intro part
      obtain ⟨n, hjson, hlines⟩ := hagrees part
      rw [errorsJson_part, Option.some.injEq, Json.int.injEq, Int.ofNat_inj] at hjson
      rw [hreport, if_pos (.inl hfirst)] at hlines
      by_contra hn
      rw [if_neg (hjson ▸ hn)] at hlines
      cases hlines
    have hreload : s.unauthorizedWindowReload = 0 := hzero .windowReload
    have hrest := hzero .unexplained
    simp only [UnauthorizedPart.count, hfirst, hreload, Nat.sub_zero] at hrest
    exact hsome ⟨hreload, hrest⟩
  · intro hcond part
    refine ⟨part.count s, errorsJson_part s part, ?_⟩
    rw [hreport]
    rcases hcond with hfirst | ⟨hreload, hunauth⟩
    · simp [hfirst.ne']
    · by_cases hfirst : s.unauthorizedFirstContact = 0
      · have hcount : part.count s = 0 := by
          cases part <;> simp [UnauthorizedPart.count, hfirst, hreload, hunauth]
        rw [if_pos (.inl hfirst), if_pos hcount]
      · simp [hfirst]

/-- Thirty-seven refusals, none of them on first contact. -/
def wedgedSnap : CounterSnap := { errorCodes := (Vector.replicate 256 0).set 7 37 }

theorem wedged_disagrees :
    (errorsJson ℚ wedgedSnap).field? "unauthorized_unexplained" = some (.int 37) ∧
      (printFinalSummary (K := ℚ) wedgedSnap 8 0 0 0 "").filterMap
        UnauthorizedPart.unexplained.read = [] ∧
      ¬ SummaryAgrees ℚ wedgedSnap 8 0 0 0 "" := by
  refine ⟨rfl, ?_, ?_⟩
  · rw [printFinalSummary_report]
    rfl
  · intro h
    obtain ⟨n, hjson, hlines⟩ := h .unexplained
    rw [errorsJson_part, Option.some.injEq, Json.int.injEq, Int.ofNat_inj] at hjson
    rw [printFinalSummary_report, ← hjson] at hlines
    exact absurd hlines (by decide)

end CksLoadtest
