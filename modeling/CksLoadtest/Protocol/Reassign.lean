import CksLoadtest.Protocol.Lives
import CksLoadtest.Worker.Thresholds

/-!
# Reassignments are earned on the current assignment

What a client counts against its assignment is as old as the assignment, in runs whose
activations all find the counts at zero. Nothing resets them, so a run can carry refusals of one
assignment over to the next.
-/
namespace CksLoadtest.Protocol

open Lib.Buffer Lib.Transition
open Worker (FindsCountsClear ReassignEarned)

variable {K : Type*} {n : Nat} [Field K] [LinearOrder K] [FloorRing K] {P : Platform K}
  {cfg : Config K}

/-- **Reassignments.** In a run whose activations all find a client's counts at zero, whatever
event comes next: it asks for a reassignment because of refusals only with five seconds' worth of
them since the client's latest activation, and because of failed sends only with three seconds'
worth of consecutive ones since then. -/
theorem reassign_earned {x : Tracked K n}
    (h : (tracked P cfg n).GReach (Tracked.AtTurn FindsCountsClear) x) (e : Event K n) :
    x.AtTurn (ReassignEarned P cfg) e := by
  intro p _ l hl
  exact (Worker.lives_counted (Tracked.life_reach h hl)).reassign p.2.2

namespace Sample

/-- One update a second: five refusals end an assignment. -/
def slow : Config ℚ :=
  { config with
    email := "bot@example.com", password := "password"
    managementApiUrl := "https://api.example.com", appId := 1
    clients := 1, indexLimit := 1, updateHz := 1 }

def refused : Bytes := [Wire.GENERIC_ERROR_MESSAGE, 0, Wire.ERR_UNAUTHORIZED]

/-- So many refusals, one a datagram. -/
def refusals (k : Nat) : List (Event ℚ 1) := (List.replicate k (receives refused)).flatten

/-- The client is given a new token and a server, and becomes ACTIVE there. -/
def replaced : List (Event ℚ 1) :=
  [.pop, refresh fresh, place, .post] ++ applies 1 ++
    [.tick 0 1000000000000 1000000000000, .activate 0 0 draws ⟨true, true, true, true⟩]

/-- A refusal after the second activation. -/
def refusedLater : List (Event ℚ 1) := [.rxBegin 0 0 1000000000001 0 refused]

def refusedMember : Event ℚ 1 := .rxMember 0 ⟨1000000000002, 1000000000002⟩

end Sample

/-- The fifth refusal is about to be handled. -/
theorem reassign_earned_sample : ∃ x : Tracked ℚ 1,
    (x.life 0 0).map (·.since.refusals.length) = some 4 ∧
      x.AtTurn (ReassignEarned Sample.platform Sample.slow) (.rxMember 0 ⟨3, 3⟩) := by
  have hrun : ((System.exec (System.checked (fun x e => decide (x.AtTurn FindsCountsClear e))
      (Tracked.step Sample.platform Sample.slow)) {}
        (Sample.started ++ Sample.refusals 4 ++ (Sample.receives Sample.refused).take 1)).map
          fun x : Tracked ℚ 1 => (x.life 0 0).map (·.since.refusals.length)) =
      some (some 4) := by decide +kernel
  obtain ⟨x, hx, hm⟩ := Option.map_eq_some_iff.mp hrun
  have hr : (tracked Sample.platform Sample.slow 1).GReach
      (Tracked.AtTurn FindsCountsClear) x :=
    System.GReach.exec (fun _ _ => of_decide_eq_true) (.init rfl) hx
  exact ⟨x, hm, reassign_earned hr _⟩

/-- Four refusals and a rejected token end one assignment, and the first refusal of the next one
ends that, too. -/
theorem refusals_carried_over : Sample.slow.Accepted ∧
    ∃ (x x' : Tracked ℚ 1) (e : Event ℚ 1), (tracked Sample.platform Sample.slow 1).Reach x ∧
      x.step Sample.platform Sample.slow e = some x' ∧
      ¬ x.AtTurn (ReassignEarned Sample.platform Sample.slow) e := by
  refine ⟨by show Config.validate _ = _; decide +kernel, ?_⟩
  have hrun : ((System.exec (Tracked.step Sample.platform Sample.slow) {}
      (Sample.started ++ Sample.refusals 4 ++ Sample.receives Sample.tokenError ++
        Sample.replaced ++ Sample.refusedLater)).bind fun x : Tracked ℚ 1 =>
          (x.step Sample.platform Sample.slow Sample.refusedMember).map fun _ =>
            decide (x.AtTurn (ReassignEarned Sample.platform Sample.slow)
              Sample.refusedMember)) = some false := by
    decide +kernel
  obtain ⟨x, hx, hm⟩ := Option.bind_eq_some_iff.mp hrun
  obtain ⟨x', hs, hno⟩ := Option.map_eq_some_iff.mp hm
  exact ⟨x, x', _, System.Reach.exec (.init rfl) hx, hs, of_decide_eq_false hno⟩

end CksLoadtest.Protocol
