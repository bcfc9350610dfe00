import CksLoadtest.Lib.Transition
import CksLoadtest.Stats.Json

/-!
# Rung files and the end reading

`closeRung` and `recordReplayLoggingAtEnd`, with one event for each mutex-protected section and
each file write. Close requests follow one another; the end of the run, taken once, may fall
anywhere in the last of them. A path leads to some file, two paths perhaps to the same one, and a
write may fail. Fields called history are read by no step.
-/
namespace CksLoadtest

open Lib Lib.Transition

def replayLoggingLabel : Option Bool → String
  | none => "unknown"
  | some on => if on then "on" else "off"

def rungPath (statsDir id : String) : String := statsDir ++ "/rung-" ++ id ++ ".json"

/-- What the end reading is stored under. -/
def AT_END : String := "replay_logging_at_end"

/-- How a file write went. -/
inductive WriteOutcome where
  /-- The stream did not open: a warning, and the file is as it was. -/
  | unopened
  /-- The stream opened and emptied the file, but not all of the document got there. -/
  | cutShort
  | whole
  deriving DecidableEq

section Bodies

variable {K F : Type*}

/-- What `statsJson` reads, the end reading apart. -/
structure StatsReading (K : Type*) where
  snapshot : SnapshotMeta K
  lifetime : CounterSnap
  window : CounterSnap
  interval : IntervalRates K

def StatsReading.body [Field K] [LinearOrder K] (r : StatsReading K) (atEnd : String) : Json K :=
  buildStatsJson { r.snapshot with replayLoggingAtEnd := atEnd } r.lifetime r.window r.interval

/-- `body.value("rung_id", std::string())`; a body always holds a string there. -/
def bodyRungId (body : Json K) : String := (body.strOr? "rung_id" "").getD ""

/-- The end reading a document carries. -/
def AtEndIs (atEnd : String) (body : Json K) : Prop := body.field? AT_END = some (.str atEnd)

/-- What was dumped to a file: a document, or part of it. -/
structure Content (K : Type*) where
  body : Json K
  whole : Bool

/-- The contents of the files a path can lead to, after one more write. -/
def writeRungFile [DecidableEq F] (file : String → F) (statsDir id : String) (body : Json K)
    (o : WriteOutcome) (files : F → Option (Content K)) : F → Option (Content K) :=
  if statsDir = "" then files
  else
    match o with
    | .unopened => files
    | .cutShort => Function.update files (file (rungPath statsDir id)) (some ⟨body, false⟩)
    | .whole => Function.update files (file (rungPath statsDir id)) (some ⟨body, true⟩)

theorem rungPath_injective (statsDir : String) : Function.Injective (rungPath statsDir) := by
  intro id id' h
  have hlist := congrArg String.toList h
  simp only [rungPath, String.toList_append] at hlist
  exact String.toList_injective (List.append_cancel_left (List.append_cancel_right hlist))

theorem body_atEndIs [Field K] [LinearOrder K] (r : StatsReading K) (atEnd : String) :
    AtEndIs atEnd (r.body atEnd) := by
  simp [AtEndIs, AT_END, StatsReading.body, buildStatsJson, Json.field?, List.lookup_cons]

theorem exists_atEndIs (atEnd : String) : ∃ body : Json K, AtEndIs atEnd body :=
  ⟨.obj [(AT_END, .str atEnd)], rfl⟩

theorem AtEndIs.isObj {a : String} {body : Json K} (h : AtEndIs a body) : body.IsObj := by
  cases body with
  | obj fields => exact ⟨fields, rfl⟩
  | _ => cases h

theorem AtEndIs.set {a : String} {body : Json K} (h : AtEndIs a body) (b : String) :
    AtEndIs b (body.set AT_END (.str b)) :=
  Json.field?_set h.isObj AT_END _

theorem AtEndIs.bodyRungId_set {a : String} {body : Json K} (h : AtEndIs a body) (b : String) :
    bodyRungId (body.set AT_END (.str b)) = bodyRungId body := by
  unfold bodyRungId Json.strOr?
  rw [Json.value?_eq (h.isObj.set _ _), Json.value?_eq h.isObj,
    Json.field?_set_of_ne (by decide)]

theorem AtEndIs.strField? {a : String} {body : Json K} (h : AtEndIs a body) :
    body.strField? AT_END = some a := by
  rw [Json.strField?, h]
  rfl

theorem AtEndIs.unique {a b : String} {body : Json K} (ha : AtEndIs a body) (hb : AtEndIs b body) :
    a = b :=
  Json.str.inj (Option.some.inj (ha.symm.trans hb))

end Bodies

theorem replayLoggingLabel_ne (on : Option Bool) : replayLoggingLabel on ≠ "" := by
  cases on with
  | none => decide
  | some on => cases on <;> decide

namespace RungFiles

/-- Where a close request stands. -/
inductive Closing (K : Type*) where
  | requested
  /-- `statsJson` has left its section. -/
  | reading (atEnd : String)
  | writing (id : String) (body : Json K)
  | remembering (id : String) (body : Json K)
  | finished

/-- Where the end of the run stands. -/
inductive Recording (K : Type*) where
  | pending
  | writing (id : String) (body : Json K)
  | finished

def Closing.isFinished {K : Type*} : Closing K → Bool
  | .finished => true
  | _ => false

def Recording.isFinished {K : Type*} : Recording K → Bool
  | .finished => true
  | _ => false

theorem Closing.finished_of {K : Type*} {c : Closing K} (h : c.isFinished = true) :
    c = .finished := by
  cases c <;> first | rfl | cases h

theorem Recording.finished_of {K : Type*} {r : Recording K} (h : r.isFinished = true) :
    r = .finished := by
  cases r <;> first | rfl | cases h

/-- The close request has its copy of the end reading. -/
def Closing.copied {K : Type*} : Closing K → Bool
  | .requested => false
  | _ => true

/-- A write that opened its file. -/
structure Entry (K : Type*) where
  id : String
  content : Content K
  /-- It was the write of `recordReplayLoggingAtEnd`. -/
  ending : Bool

/-- The entry of a write, if the file was opened. -/
def entry {K : Type*} (id : String) (body : Json K) (ending : Bool) :
    WriteOutcome → List (Entry K)
  | .unopened => []
  | .cutShort => [⟨id, ⟨body, false⟩, ending⟩]
  | .whole => [⟨id, ⟨body, true⟩, ending⟩]

/-- The moment the end reading was stored, and what came of its file. -/
structure Cut where
  /-- The latest close request had copied the end reading. -/
  copied : Bool
  lastRungId : String
  written : WriteOutcome := .unopened
  /-- It was written after that request had opened its own file. -/
  late : Bool := false

inductive Event (K : Type*) where
  /-- A close request arrives, after the one before it was answered. -/
  | request
  | readEnd
  | build (r : StatsReading K)
  | writeClosed (o : WriteOutcome)
  | remember
  | storeEnd (on : Option Bool)
  | writeEnd (o : WriteOutcome)

end RungFiles

open RungFiles in
/-- The files, and what the harness keeps about them. -/
structure RungFiles (K F : Type*) where
  files : F → Option (Content K) := fun _ => none
  lastRungId : String := ""
  lastRungBody : Json K := .null
  replayLoggingAtEnd : String := ""
  closing : Closing K := .finished
  recording : Recording K := .pending
  /-- History: the rung of the latest close request; empty when none was open. -/
  rungId : String := ""
  /-- History: how that request's file write went; not opened until then. -/
  written : WriteOutcome := .unopened
  /-- History: the closed rungs, the latest first. -/
  closed : List String := []
  /-- History: the writes that opened their files, the latest first. -/
  writes : List (Entry K) := []
  /-- History. -/
  cut : Option Cut := none

namespace RungFiles

variable {K F : Type*}

/-- The section of `recordReplayLoggingAtEnd`. -/
def storeEnd (s : RungFiles K F) (on : Option Bool) : RungFiles K F :=
  { s with
    replayLoggingAtEnd := replayLoggingLabel on
    recording := if s.lastRungId = "" then .finished else .writing s.lastRungId s.lastRungBody
    cut := some { copied := s.closing.copied, lastRungId := s.lastRungId } }

/-- Without LT_STATS_DIR no file is opened. -/
def outcome (statsDir : String) (o : WriteOutcome) : WriteOutcome :=
  if statsDir = "" then .unopened else o

section Step

variable [Field K] [LinearOrder K] [DecidableEq F] (file : String → F) (statsDir : String)

def step (s : RungFiles K F) : Event K → Option (RungFiles K F)
  | .request =>
    match s.closing, s.recording with
    | .finished, .pending =>
      some { s with closing := .requested, rungId := "", written := .unopened }
    | _, _ => none
  | .readEnd =>
    match s.closing with
    | .requested => some { s with closing := .reading s.replayLoggingAtEnd }
    | _ => none
  | .build r =>
    match s.closing with
    | .reading atEnd =>
      let body := r.body atEnd
      let id := bodyRungId body
      if id = "" then some { s with closing := .finished }
      else some { s with closing := .writing id body, rungId := id }
    | _ => none
  | .writeClosed o =>
    match s.closing with
    | .writing id body =>
      some { s with
        closing := .remembering id body
        files := writeRungFile file statsDir id body o s.files
        written := outcome statsDir o
        closed := id :: s.closed
        writes := entry id body false (outcome statsDir o) ++ s.writes }
    | _ => none
  | .remember =>
    match s.closing with
    | .remembering id body =>
      some { s with closing := .finished, lastRungId := id, lastRungBody := body }
    | _ => none
  | .storeEnd on =>
    match s.recording with
    | .pending => some (s.storeEnd on)
    | _ => none
  | .writeEnd o =>
    match s.recording with
    | .writing id body =>
      let body := body.set AT_END (.str s.replayLoggingAtEnd)
      some { s with
        recording := .finished
        files := writeRungFile file statsDir id body o s.files
        writes := entry id body true (outcome statsDir o) ++ s.writes
        cut := s.cut.map fun c =>
          { c with written := outcome statsDir o, late := s.written ≠ .unopened } }
    | _ => none

variable {file statsDir}

/-- The steps, each with its guard. -/
inductive Steps (file : String → F) (statsDir : String) (s : RungFiles K F) :
    Event K → RungFiles K F → Prop
  | request (hc : s.closing = .finished) (hr : s.recording = .pending) :
      Steps file statsDir s .request
        { s with closing := .requested, rungId := "", written := .unopened }
  | readEnd (hc : s.closing = .requested) :
      Steps file statsDir s .readEnd { s with closing := .reading s.replayLoggingAtEnd }
  | unopened {r : StatsReading K} {atEnd : String} (hc : s.closing = .reading atEnd) :
      Steps file statsDir s (.build r) { s with closing := .finished }
  | build {r : StatsReading K} {atEnd : String} (hc : s.closing = .reading atEnd) :
      Steps file statsDir s (.build r)
        { s with
          closing := .writing (bodyRungId (r.body atEnd)) (r.body atEnd)
          rungId := bodyRungId (r.body atEnd) }
  | writeClosed {o : WriteOutcome} {id : String} {body : Json K}
      (hc : s.closing = .writing id body) :
      Steps file statsDir s (.writeClosed o)
        { s with
          closing := .remembering id body
          files := writeRungFile file statsDir id body o s.files
          written := outcome statsDir o
          closed := id :: s.closed
          writes := entry id body false (outcome statsDir o) ++ s.writes }
  | remember {id : String} {body : Json K} (hc : s.closing = .remembering id body) :
      Steps file statsDir s .remember
        { s with closing := .finished, lastRungId := id, lastRungBody := body }
  | storeEnd {on : Option Bool} (hr : s.recording = .pending) :
      Steps file statsDir s (.storeEnd on) (s.storeEnd on)
  | writeEnd {o : WriteOutcome} {id : String} {body : Json K}
      (hr : s.recording = .writing id body) :
      Steps file statsDir s (.writeEnd o)
        { s with
          recording := .finished
          files := writeRungFile file statsDir id (body.set AT_END (.str s.replayLoggingAtEnd)) o
            s.files
          writes := entry id (body.set AT_END (.str s.replayLoggingAtEnd)) true
            (outcome statsDir o) ++ s.writes
          cut := s.cut.map fun c =>
            { c with written := outcome statsDir o, late := s.written ≠ .unopened } }

/-- **What a step can do.** -/
theorem step_cases {s s' : RungFiles K F} {e : Event K} (hs : s.step file statsDir e = some s') :
    Steps file statsDir s e s' := by
  cases e with
  | request =>
    simp only [step] at hs
    split at hs
    · rename_i hc hr
      exact Option.some.inj hs ▸ .request hc hr
    · cases hs
  | readEnd =>
    simp only [step] at hs
    split at hs
    · rename_i hc
      exact Option.some.inj hs ▸ .readEnd hc
    · cases hs
  | build r =>
    simp only [step] at hs
    split at hs
    · rename_i atEnd hc
      split at hs
      · exact Option.some.inj hs ▸ .unopened hc
      · exact Option.some.inj hs ▸ .build hc
    · cases hs
  | writeClosed o =>
    simp only [step] at hs
    split at hs
    · rename_i id body hc
      exact Option.some.inj hs ▸ .writeClosed hc
    · cases hs
  | remember =>
    simp only [step] at hs
    split at hs
    · rename_i id body hc
      exact Option.some.inj hs ▸ .remember hc
    · cases hs
  | storeEnd on =>
    simp only [step] at hs
    split at hs
    · rename_i hr
      exact Option.some.inj hs ▸ .storeEnd hr
    · cases hs
  | writeEnd o =>
    simp only [step] at hs
    split at hs
    · rename_i id body hr
      exact Option.some.inj hs ▸ .writeEnd hr
    · cases hs

end Step

/-- What a path leads to holds what the last write into it left there. -/
def lastInto [DecidableEq F] (file : String → F) (statsDir : String) (s : RungFiles K F) (f : F) :
    Option (Entry K) :=
  s.writes.find? fun w => file (rungPath statsDir w.id) = f

/-- A document of this rung. -/
def Titled (id : String) (body : Json K) : Prop := bodyRungId body = id ∧ ∃ a, AtEndIs a body

/-- A close wrote it before there was an end reading. -/
def Entry.Plain (w : Entry K) : Prop := w.ending = false ∧ AtEndIs "" w.content.body

/-- The closed rungs the harness remembers. -/
def remembered (s : RungFiles K F) : List String :=
  match s.closing with
  | .remembering .. => s.closed.tail
  | _ => s.closed

/-- What is known of the files and the rungs in every state. -/
structure Logged [DecidableEq F] (file : String → F) (statsDir : String) (s : RungFiles K F) :
    Prop where
  files : ∀ f, s.files f = (s.lastInto file statsDir f).map Entry.content
  titled : ∀ w ∈ s.writes, bodyRungId w.content.body = w.id
  last : s.lastRungId ≠ "" → Titled s.lastRungId s.lastRungBody
  closed : s.written ≠ .unopened → s.closed.head? = some s.rungId
  tip : s.lastRungId = s.remembered.head?.getD ""
  closing : match s.closing with
    | .requested | .reading _ => s.written = .unopened
    | .writing id body => Titled id body ∧ s.rungId = id ∧ s.written = .unopened
    | .remembering id body => Titled id body ∧ s.closed.head? = some id
    | .finished => True
  recording : match s.recording with
    | .writing id body => Titled id body
    | _ => True

/-- The copy of the end reading that the close request under way works with. -/
def Copied (s : RungFiles K F) (atEnd : String) : Prop :=
  match s.closing with
  | .reading a => a = atEnd
  | .writing _ body => AtEndIs atEnd body
  | _ => True

/-- Before the end of the run. -/
structure Running (s : RungFiles K F) : Prop where
  recording : s.recording = .pending
  atEnd : s.replayLoggingAtEnd = ""
  copied : s.Copied ""
  writes : ∃ body rest, (∀ w ∈ rest, w.Plain) ∧ AtEndIs "" body ∧
    s.writes = entry s.rungId body false s.written ++ rest

/-- What a reading taken on this side of the cut finds. -/
def Cut.read (c : Cut) (atEnd : String) : String := if c.copied then "" else atEnd

/-- From the end of the run on there are at most two more writes, in one order or the other. -/
structure Ended (s : RungFiles K F) (c : Cut) : Prop where
  cut : s.cut = some c
  atEnd : s.replayLoggingAtEnd ≠ ""
  copied : s.Copied (c.read s.replayLoggingAtEnd)
  requested : s.closing = .requested → c.copied = false
  recording : match s.recording with
    | .pending => False
    | .writing id _ => id = c.lastRungId ∧ c.written = .unopened ∧ c.late = false
    | .finished => True
  late : c.late = true → s.written ≠ .unopened
  writes : ∃ closed ended rest, AtEndIs (c.read s.replayLoggingAtEnd) closed ∧
    AtEndIs s.replayLoggingAtEnd ended ∧ (∀ w ∈ rest, w.Plain) ∧
    s.writes =
      (if c.late then
        entry c.lastRungId ended true c.written ++ entry s.rungId closed false s.written
      else entry s.rungId closed false s.written ++ entry c.lastRungId ended true c.written) ++ rest

variable {file : String → F} {statsDir : String} {s s' : RungFiles K F} {c : Cut}

theorem mem_entry {id : String} {body : Json K} {ending : Bool} {o : WriteOutcome} {w : Entry K}
    (h : w ∈ entry id body ending o) :
    w.id = id ∧ w.ending = ending ∧ w.content.body = body ∧ o ≠ .unopened := by
  cases o with
  | unopened => cases h
  | cutShort | whole =>
    obtain rfl := List.mem_singleton.mp h
    exact ⟨rfl, rfl, rfl, nofun⟩

theorem entry_plain {id : String} {body : Json K} (h : AtEndIs "" body) (o : WriteOutcome) :
    ∀ w ∈ entry id body false o, w.Plain := by
  intro w hw
  obtain ⟨-, hending, hbody, -⟩ := mem_entry hw
  exact ⟨hending, hbody ▸ h⟩

section Files

variable [DecidableEq F]

/-- One more write, and the file holds what it left. -/
theorem writeRungFile_find? (id : String) (body : Json K) (ending : Bool) (o : WriteOutcome)
    {files : F → Option (Content K)} {writes : List (Entry K)} {f : F}
    (h : files f = (writes.find? fun w => file (rungPath statsDir w.id) = f).map Entry.content) :
    writeRungFile file statsDir id body o files f =
      ((entry id body ending (outcome statsDir o) ++ writes).find?
        fun w => file (rungPath statsDir w.id) = f).map Entry.content := by
  unfold writeRungFile outcome
  split
  · exact h
  · cases o with
    | unopened => exact h
    | cutShort | whole =>
      show Function.update files _ _ f = (List.find? _ (_ :: writes)).map _
      by_cases hf : file (rungPath statsDir id) = f
      · rw [List.find?_cons_of_pos (by simpa using hf), ← hf, Function.update_self]
        rfl
      · rw [List.find?_cons_of_neg (by simpa using hf), Function.update_of_ne (Ne.symm hf)]
        exact h

/-- The end reading is stored. -/
theorem Running.stored (h : Running s) (hlog : Logged file statsDir s) (on : Option Bool) :
    Ended (s.storeEnd on) { copied := s.closing.copied, lastRungId := s.lastRungId } := by
  obtain ⟨body, rest, hrest, hbody, hwrites⟩ := h.writes
  refine
    { cut := rfl
      atEnd := replayLoggingLabel_ne on
      copied := ?_
      requested := fun hc => ?_
      recording := ?_
      late := nofun
      writes := ?_ }
  · have hcopied := h.copied
    unfold Copied Cut.read storeEnd at *
    cases hc : s.closing with
    | requested | remembering | finished => trivial
    | reading a | writing id body =>
      rw [hc] at hcopied
      exact hcopied
  · have hc : s.closing = .requested := hc
    rw [hc]
    rfl
  · unfold storeEnd
    by_cases hlast : s.lastRungId = ""
    · rw [if_pos hlast]
      trivial
    · rw [if_neg hlast]
      exact ⟨rfl, rfl, rfl⟩
  · obtain ⟨ended, hended⟩ := exists_atEndIs (K := K) (replayLoggingLabel on)
    obtain ⟨closed, hclosed, hentry⟩ : ∃ closed : Json K,
        AtEndIs (Cut.read ⟨s.closing.copied, s.lastRungId, .unopened, false⟩
          (replayLoggingLabel on)) closed ∧
          entry s.rungId closed false s.written = entry s.rungId body false s.written := by
      unfold Cut.read
      cases hc : s.closing with
      | requested =>
        -- the request has written nothing yet
        have hclosing := hlog.closing
        simp only [hc] at hclosing
        rw [hclosing]
        exact ⟨ended, hended, rfl⟩
      | reading | writing | remembering | finished => exact ⟨body, hbody, rfl⟩
    refine ⟨closed, ended, rest, hclosed, hended, hrest, hwrites.trans ?_⟩
    rw [← hentry]
    exact congrArg (· ++ rest) (List.append_nil _).symm

variable [Field K] [LinearOrder K]

theorem Logged.step (h : Logged file statsDir s) {e : Event K}
    (hs : s.step file statsDir e = some s') : Logged file statsDir s' := by
  have hclosing := h.closing
  have hrecording := h.recording
  have htip := h.tip
  cases step_cases hs with
  | request hc _ =>
    simp only [remembered, hc] at htip
    exact { h with closed := fun hne => absurd rfl hne, tip := htip, closing := rfl }
  | readEnd hc =>
    simp only [remembered, hc] at htip hclosing
    exact { h with tip := htip, closing := hclosing }
  | unopened hc =>
    simp only [remembered, hc] at htip
    exact { h with tip := htip, closing := trivial }
  | @build r atEnd hc =>
    simp only [remembered, hc] at htip hclosing
    refine { h with
      closed := fun hne => absurd hclosing hne
      tip := htip
      closing := ⟨⟨rfl, atEnd, body_atEndIs r atEnd⟩, rfl, hclosing⟩ }
  | @writeClosed o id body hc =>
    simp only [remembered, hc] at htip hclosing
    obtain ⟨htitled, hrung, -⟩ := hclosing
    refine { h with
      files := fun f => writeRungFile_find? id body false o (h.files f)
      titled := fun w hw => ?_
      closed := fun _ => congrArg some hrung.symm
      tip := htip
      closing := ⟨htitled, rfl⟩ }
    rcases List.mem_append.mp hw with hnew | hold
    · obtain ⟨hid, -, hbody, -⟩ := mem_entry hnew
      rw [hbody, hid]
      exact htitled.1
    · exact h.titled w hold
  | remember hc =>
    simp only [hc] at hclosing
    obtain ⟨htitled, hhead⟩ := hclosing
    refine { h with last := fun _ => htitled, tip := ?_, closing := trivial }
    simp only [remembered, hhead, Option.getD_some]
  | storeEnd hr =>
    refine { h with recording := ?_ }
    unfold storeEnd
    by_cases hlast : s.lastRungId = ""
    · rw [if_pos hlast]
      trivial
    · rw [if_neg hlast]
      exact h.last hlast
  | @writeEnd o id body hr =>
    simp only [hr] at hrecording
    obtain ⟨hid, a, hatEnd⟩ := hrecording
    refine { h with
      files := fun f => writeRungFile_find? id _ true o (h.files f)
      titled := fun w hw => ?_
      recording := trivial }
    rcases List.mem_append.mp hw with hnew | hold
    · obtain ⟨hname, -, hbody, -⟩ := mem_entry hnew
      rw [hbody, hname, hatEnd.bodyRungId_set]
      exact hid
    · exact h.titled w hold

/-- A close request goes on before the end of the run. -/
theorem Running.step (h : Running s) (hlog : Logged file statsDir s) {e : Event K}
    (hs : s.step file statsDir e = some s') : Running s' ∨ ∃ c, Ended s' c := by
  have hclosing := hlog.closing
  have hcopied := h.copied
  obtain ⟨body, rest, hrest, hbody, hwrites⟩ := h.writes
  have hplain : ∀ w ∈ s.writes, w.Plain := by
    rw [hwrites]
    exact fun w hw => (List.mem_append.mp hw).elim (entry_plain hbody _ w) (hrest w)
  cases step_cases hs with
  | request hc _ =>
    exact .inl { h with copied := trivial, writes := ⟨body, s.writes, hplain, hbody, rfl⟩ }
  | readEnd hc => exact .inl { h with copied := h.atEnd }
  | unopened hc => exact .inl { h with copied := trivial }
  | @build r atEnd hc =>
    simp only [Copied, hc] at hcopied hclosing
    subst hcopied
    refine .inl { h with copied := body_atEndIs r _, writes := ⟨body, s.writes, hplain, hbody, ?_⟩ }
    dsimp only
    rw [hclosing]
    rfl
  | @writeClosed o id doc hc =>
    simp only [Copied, hc] at hcopied hclosing
    obtain ⟨-, rfl, -⟩ := hclosing
    exact .inl { h with copied := trivial, writes := ⟨doc, s.writes, hplain, hcopied, rfl⟩ }
  | remember hc => exact .inl { h with copied := trivial }
  | storeEnd _ => exact .inr ⟨_, h.stored hlog _⟩
  | writeEnd hr => cases h.recording.symm.trans hr

/-- Once the end reading is stored, only the close request and the second file write go on. -/
theorem Ended.step (h : Ended s c) (hlog : Logged file statsDir s) {e : Event K}
    (hs : s.step file statsDir e = some s') : ∃ c', Ended s' c' := by
  have hclosing := hlog.closing
  have hcopied := h.copied
  have hrec := h.recording
  obtain ⟨closed, ended, rest, hclosed, hended, hrest, hwrites⟩ := h.writes
  have hpending : s.recording ≠ .pending := by
    intro hpending
    simp only [hpending] at hrec
  cases step_cases hs with
  | request _ hr => exact absurd hr hpending
  | storeEnd hr => exact absurd hr hpending
  | readEnd hc =>
    refine ⟨c, { h with copied := ?_, requested := nofun }⟩
    show s.replayLoggingAtEnd = c.read s.replayLoggingAtEnd
    rw [Cut.read, h.requested hc]
    rfl
  | unopened hc => exact ⟨c, { h with copied := trivial, requested := nofun }⟩
  | @build r atEnd hc =>
    simp only [Copied, hc] at hcopied hclosing
    subst hcopied
    refine ⟨c, { h with copied := body_atEndIs r _, requested := nofun, writes := ?_ }⟩
    refine ⟨closed, ended, rest, hclosed, hended, hrest, hwrites.trans ?_⟩
    dsimp only
    rw [hclosing]
    rfl
  | @writeClosed o id doc hc =>
    simp only [Copied, hc] at hcopied hclosing
    obtain ⟨-, rfl, hunwritten⟩ := hclosing
    have hlate : c.late = false := by
      rw [Bool.eq_false_iff]
      exact fun hlate => h.late hlate hunwritten
    rw [hunwritten, hlate] at hwrites
    refine ⟨c, { h with
      copied := trivial
      requested := nofun
      late := fun hl => absurd (hlate.symm.trans hl) nofun
      writes := ⟨doc, ended, rest, hcopied, hended, hrest, ?_⟩ }⟩
    dsimp only
    rw [hwrites, hlate]
    exact (List.append_assoc ..).symm
  | remember hc => exact ⟨c, { h with copied := trivial, requested := nofun }⟩
  | @writeEnd o id body hr =>
    simp only [hr] at hrec
    obtain ⟨rfl, hunwritten, hlate⟩ := hrec
    have htitled := hlog.recording
    simp only [hr] at htitled
    obtain ⟨-, a, hbody⟩ := htitled
    rw [hunwritten, hlate] at hwrites
    refine ⟨{ c with written := outcome statsDir o, late := s.written ≠ .unopened }, { h with
      cut := by rw [h.cut]; rfl
      recording := trivial
      late := fun hl => of_decide_eq_true hl
      writes := ⟨closed, _, rest, hclosed, hbody.set _, hrest, ?_⟩ }⟩
    have hwrites : s.writes = entry s.rungId closed false s.written ++ rest :=
      hwrites.trans (congrArg (· ++ rest) (List.append_nil _))
    dsimp only
    rw [hwrites]
    by_cases hopened : s.written = .unopened
    · rw [hopened]
      rfl
    · rw [if_pos (decide_eq_true hopened)]
      exact (List.append_assoc ..).symm

end Files

end RungFiles

end CksLoadtest
