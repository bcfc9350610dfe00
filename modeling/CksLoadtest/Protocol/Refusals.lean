import CksLoadtest.Protocol.Reassign
import CksLoadtest.Worker.Episodes

/-!
# Refusals are explained by the current assignment

In runs whose activations find no reload that is still young after the first-contact window,
every refusal is counted by what happened on its own assignment. Nothing clears the time of the
last reload, so a run can absorb a refusal that the current assignment does not explain.
-/
namespace CksLoadtest.Protocol

open Lib.Buffer Lib.Transition
open Worker (EpisodesOver RefusalExplained)

variable {K : Type*} {n : Nat} [Field K] [LinearOrder K] [FloorRing K] {P : Platform K}
  {cfg : Config K}

/-- **Refusals.** In a run whose activations leave the episodes of earlier assignments behind,
whatever event comes next: a refusal is put down to first contact exactly when it comes within two
seconds of the client's latest activation, to a reload only when it comes later and the client is
outside the box of this assignment or was refused outside it within the reload grace; and it stays
unexplained exactly when it is later, inside that box and in no episode of this assignment. -/
theorem refusals_explained {x : Tracked K n}
    (h : (tracked P cfg n).GReach (Tracked.AtTurn (EpisodesOver cfg)) x) {e : Event K n}
    (he : x.AtTurn (EpisodesOver cfg) e) : x.AtTurn (RefusalExplained P cfg) e := by
  intro p hp l hl
  exact (Worker.lives_known (Tracked.life_reach h hl)).explained (he p hp l hl)

namespace Sample

/-- A permission box of two chunks, and the reload grace of five seconds. -/
def boxed : Config ℚ := { slow with permWindowRadiusChunks := 2 }

/-- The client walks for a minute, out of its box, and asks for a refresh; a datagram comes. -/
def walksOut : List (Event ℚ 1) :=
  started ++ [.tick 0 60000000000 60000000000, sends, .rxBegin 0 0 60000000001 0 refused]

/-- The refusal it holds. -/
def refusedOutside : Event ℚ 1 := .rxMember 0 ⟨60000000002, 60000000002⟩

/-- One second later the client is ACTIVE on its next assignment, and three and a half seconds
after the first refusal a second one comes. -/
def movesOn : List (Event ℚ 1) :=
  [.rxEnd 0, .pop, refresh fresh, place, .post] ++ applies 1 ++
    [.tick 0 61000000000 61000000000, .activate 0 0 draws ⟨true, true, true, true⟩,
      .rxBegin 0 0 63500000000 0 refused]

def refusedInside : Event ℚ 1 := .rxMember 0 ⟨63500000000, 63500000000⟩

end Sample

theorem refusals_explained_sample : ∃ x : Tracked ℚ 1,
    (x.life 0 0).map (decide <| Worker.OutsideBox Sample.boxed ·) = some true ∧
      x.AtTurn (RefusalExplained Sample.platform Sample.boxed) Sample.refusedOutside := by
  have hrun : ((System.exec (System.checked
      (fun x e => decide (x.AtTurn (EpisodesOver Sample.boxed) e))
        (Tracked.step Sample.platform Sample.boxed)) {} Sample.walksOut).map fun x =>
          ((x.life 0 0).map (decide <| Worker.OutsideBox Sample.boxed ·),
            decide (x.AtTurn (EpisodesOver Sample.boxed) Sample.refusedOutside))) =
      some (some true, true) := by decide +kernel
  obtain ⟨x, hx, hm⟩ := Option.map_eq_some_iff.mp hrun
  obtain ⟨hleft, hover⟩ := Prod.mk.inj hm
  have hr : (tracked Sample.platform Sample.boxed 1).GReach
      (Tracked.AtTurn (EpisodesOver Sample.boxed)) x :=
    System.GReach.exec (fun _ _ => of_decide_eq_true) (.init rfl) hx
  exact ⟨x, hleft, refusals_explained hr (of_decide_eq_true hover)⟩

/-- The episode of one assignment absorbs a refusal of the next one. -/
theorem refusal_absorbed : Sample.boxed.Accepted ∧
    ∃ x x' : Tracked ℚ 1, (tracked Sample.platform Sample.boxed 1).Reach x ∧
      x.step Sample.platform Sample.boxed Sample.refusedInside = some x' ∧
      (x.life 0 0).map (decide <| Worker.OutsideBox Sample.boxed ·) = some false ∧
      (x.life 0 0).map (·.since.refusals.length) = some 0 ∧
      x'.sys.stats.unauthorizedWindowReload = x.sys.stats.unauthorizedWindowReload + 1 ∧
      ¬ x.AtTurn (RefusalExplained Sample.platform Sample.boxed) Sample.refusedInside := by
  refine ⟨by show Config.validate _ = _; decide +kernel, ?_⟩
  have hrun : ((System.exec (Tracked.step Sample.platform Sample.boxed) {}
      (Sample.walksOut ++ Sample.refusedOutside :: Sample.movesOn)).bind fun x : Tracked ℚ 1 =>
          (x.step Sample.platform Sample.boxed Sample.refusedInside).map fun x' =>
            decide ((x.life 0 0).map (decide <| Worker.OutsideBox Sample.boxed ·) = some false ∧
              (x.life 0 0).map (·.since.refusals.length) = some 0 ∧
              x'.sys.stats.unauthorizedWindowReload = x.sys.stats.unauthorizedWindowReload + 1 ∧
              ¬ x.AtTurn (RefusalExplained Sample.platform Sample.boxed)
                Sample.refusedInside)) = some true := by
    decide +kernel
  obtain ⟨x, hx, hm⟩ := Option.bind_eq_some_iff.mp hrun
  obtain ⟨x', hs, hbad⟩ := Option.map_eq_some_iff.mp hm
  exact ⟨x, x', System.Reach.exec (.init rfl) hx, hs, of_decide_eq_true hbad⟩

end CksLoadtest.Protocol
