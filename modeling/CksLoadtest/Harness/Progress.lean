import CksLoadtest.Harness.Growth
import CksLoadtest.Lib.Work
import CksLoadtest.Provision.Progress

/-!
# Loading and adding come to their ends

What `start` and the add threads have still to do is bounded, and every section of theirs does
some of it. As long as something is left, one of them can go on, so that `busy_` does not stay set.
-/
namespace CksLoadtest.Harness

open Lib Lib.Transition

variable {K : Type*}

/-- Sections the add thread has still to go through, at most: its provisioning, the join, one for
each client, and the last one. -/
def AddPhase.left : AddPhase → Nat
  | .provisioning r => r.left + r.out.length + 2
  | .failed => 1
  | .distributing todo => todo.length + 1

def AddPhase.working : AddPhase → Nat
  | .provisioning r => r.working
  | _ => 0

/-- The same of `start`. -/
def MainPhase.left : MainPhase → Nat
  | .provisioning r => r.left + r.out.length + 2
  | .distributing todo => todo.length + 1
  | _ => 0

def MainPhase.working : MainPhase → Nat
  | .provisioning r => r.working
  | _ => 0

namespace Event

/-- A section of `start` or of an add thread, after it has begun. -/
def work : Event K → Bool
  | .startStep _ | .startJoin | .startGive | .addStep .. | .addJoin _ | .addGive _ | .addEnd _ =>
    true
  | _ => false

/-- It provisions a client. -/
def provisions : Event K → Bool
  | .startStep e | .addStep _ e => e.provisions
  | _ => false

/-- Where it provisions a client, the API answers with `api`. -/
def Uses (api : ClientApi) : Event K → Prop
  | .startStep e | .addStep _ e => e.Uses api
  | _ => True

end Event

namespace Fleet

def leftIn : List Add → Nat
  | [] => 0
  | a :: as => a.phase.left + leftIn as

def workingIn : List Add → Nat
  | [] => 0
  | a :: as => a.phase.working + workingIn as

/-- Sections of provisioning and distribution left. -/
def left (s : Fleet) : Nat := s.main.left + leftIn s.adds

/-- Clients inside `provisionClient`. -/
def working (s : Fleet) : Nat := s.main.working + workingIn s.adds

/-- The sections that loading or adding `count` clients takes. -/
def sections (cfg : Config K) (count : Int) : Nat := Range.size cfg count + count.toNat + 2

/-- What an event begins. -/
def begun (cfg : Config K) (s : Fleet) : Event K → Nat
  | .start .. => sections cfg cfg.clients
  | .requestAdd count => if s.requestAddError cfg count = "" then sections cfg count else 0
  | _ => 0

theorem leftIn_append (as bs : List Add) : leftIn (as ++ bs) = leftIn as + leftIn bs := by
  induction as with
  | nil => exact (Nat.zero_add _).symm
  | cons a as ih => rw [List.cons_append, leftIn, leftIn, ih, Nat.add_assoc]

theorem workingIn_append (as bs : List Add) :
    workingIn (as ++ bs) = workingIn as + workingIn bs := by
  induction as with
  | nil => exact (Nat.zero_add _).symm
  | cons a as ih => rw [List.cons_append, workingIn, workingIn, ih, Nat.add_assoc]

theorem leftIn_set {as : List Add} {k : Nat} {a b : Add} (h : as[k]? = some a) :
    leftIn (as.set k b) + a.phase.left = leftIn as + b.phase.left ∧
      workingIn (as.set k b) + a.phase.working = workingIn as + b.phase.working := by
  induction as generalizing k with
  | nil => cases h
  | cons c as ih =>
    cases k with
    | zero =>
      obtain rfl := Option.some.inj h
      simp only [List.set_cons_zero, leftIn, workingIn]
      omega
    | succ k =>
      have hrest := ih (k := k) h
      simp only [List.set_cons_succ, leftIn, workingIn]
      omega

theorem leftIn_eraseIdx {as : List Add} {k : Nat} {a : Add} (h : as[k]? = some a) :
    leftIn (as.eraseIdx k) + a.phase.left = leftIn as ∧
      workingIn (as.eraseIdx k) + a.phase.working = workingIn as := by
  induction as generalizing k with
  | nil => cases h
  | cons c as ih =>
    cases k with
    | zero =>
      obtain rfl := Option.some.inj h
      simp only [List.eraseIdx_cons_zero, leftIn, workingIn]
      omega
    | succ k =>
      have hrest := ih (k := k) h
      simp only [List.eraseIdx_cons_succ, leftIn, workingIn]
      omega

theorem left_pos (p : AddPhase) : 1 ≤ p.left := by
  cases p <;> simp only [AddPhase.left] <;> omega

theorem result_length (r : Range) (stop : Bool) : (r.result stop).length ≤ r.out.length := by
  unfold Range.result
  split
  · exact Nat.zero_le _
  · exact le_rfl

variable [Ring K] [LinearOrder K] [FloorRing K] (parseIso8601Utc : String → Int) (cfg : Config K)
  {s s' : Fleet} {e : Event K}

theorem start_left (hm : s.main = .notStarted) (file : RosterFile K) (api : ReplayApi) :
    (s.start parseIso8601Utc cfg file api).left ≤ s.left + sections cfg cfg.clients ∧
      (s.start parseIso8601Utc cfg file api).working = s.working := by
  have hnone : s.left = leftIn s.adds ∧ s.working = workingIn s.adds := by
    unfold left working
    rw [hm]
    exact ⟨Nat.zero_add _, Nat.zero_add _⟩
  rw [hnone.1, hnone.2]
  rcases s.start_cases parseIso8601Utc cfg file api with
    ⟨_, -, hs⟩ | ⟨roster, main, ops, -, hs, -, hmain⟩
  · rw [hs]
    exact ⟨by show 0 + leftIn s.adds ≤ _; omega, Nat.zero_add _⟩
  · rw [hs]
    rcases hmain with rfl | rfl | ⟨r, rfl, hr⟩
    · exact ⟨by show 0 + leftIn s.adds ≤ _; omega, Nat.zero_add _⟩
    · exact ⟨by show 0 + leftIn s.adds ≤ _; omega, Nat.zero_add _⟩
    · obtain ⟨hleft, hlength, hworking⟩ := Range.start_left hr
      constructor
      · show r.left + r.out.length + 2 + leftIn s.adds ≤ _
        unfold sections
        omega
      · show r.working + workingIn s.adds = _
        omega

omit [Ring K] [LinearOrder K] [FloorRing K] in
theorem acceptAdd_left (roster : Roster) (count : Int) :
    (s.acceptAdd cfg roster count).left ≤ s.left + sections cfg count ∧
      (s.acceptAdd cfg roster count).working = s.working := by
  obtain ⟨phase, hadds, hleft, hworking⟩ : ∃ phase : AddPhase,
      (s.acceptAdd cfg roster count).adds =
        s.adds ++ [⟨count, int32 (cfg.indexBase + s.used), phase⟩] ∧
      phase.left ≤ sections cfg count ∧ phase.working = 0 := by
    unfold sections
    refine ⟨_, rfl, ?_⟩
    split
    · rename_i r hr
      obtain ⟨hleft, hlength, hworking⟩ := Range.start_left hr
      refine ⟨?_, hworking⟩
      simp only [AddPhase.left]
      omega
    · refine ⟨?_, rfl⟩
      simp only [AddPhase.left]
      omega
  have hmain : (s.acceptAdd cfg roster count).main = s.main := rfl
  unfold left working
  rw [hmain, hadds, leftIn_append, workingIn_append]
  simp only [leftIn, workingIn]
  omega

variable {parseIso8601Utc} {cfg}

/-- **Step lemma.** -/
theorem step_left (hs : s.step parseIso8601Utc cfg e = some s') :
    (if e.work then 1 else 0) + s'.left ≤ s.left + s.begun cfg e := by
  have hsame {t : Fleet} {e : Event K} (ht : t.left = s.left) (he : e.work = false) :
      (if e.work then 1 else 0) + t.left ≤ s.left + s.begun cfg e := by
    rw [he, ht]
    simp only [Bool.false_eq_true, if_false]
    omega
  have hmain {t : Fleet} {e : Event K} (ha : t.adds = s.adds) (ht : t.main.left < s.main.left)
      (he : e.work = true) : (if e.work then 1 else 0) + t.left ≤ s.left + s.begun cfg e := by
    unfold left
    rw [he, ha, if_pos rfl]
    omega
  have hadd {t : Fleet} {e : Event K} {k : Nat} {a b : Add} (hm : t.main = s.main)
      (hk : s.adds[k]? = some a) (ha : t.adds = s.adds.set k b)
      (ht : b.phase.left < a.phase.left) (he : e.work = true) :
      (if e.work then 1 else 0) + t.left ≤ s.left + s.begun cfg e := by
    have hset := (leftIn_set (b := b) hk).1
    unfold left
    rw [he, hm, ha, if_pos rfl]
    omega
  cases step_cases parseIso8601Utc cfg hs with
  | @start file api hm =>
    have hle := (start_left parseIso8601Utc cfg hm file api).1
    simp only [Event.work, Bool.false_eq_true, if_false, begun]
    omega
  | @startStep e r r' roster ops hm _ hr =>
    have hlt := Range.step_left hr
    have hlength := Range.step_length hr
    refine hmain rfl ?_ rfl
    rw [hm]
    show r'.left + r'.out.length + 2 < r.left + r.out.length + 2
    omega
  | @startFailed r hm =>
    refine hmain rfl ?_ rfl
    rw [hm]
    simp only [MainPhase.left]
    omega
  | @startJoined r hm =>
    have hle := result_length r s.stop
    refine hmain rfl ?_ rfl
    rw [hm]
    simp only [MainPhase.left]
    omega
  | startDone hm =>
    refine hmain rfl ?_ rfl
    rw [hm]
    exact Nat.zero_lt_one
  | startGive hm =>
    refine hmain rfl ?_ rfl
    rw [hm]
    exact Nat.lt_succ_self _
  | addRefused | control | signal | endSeen | observeEnd => exact hsame rfl rfl
  | @addAccepted count roster _ _ he =>
    have hle := (acceptAdd_left cfg (s := s) roster count).1
    simp only [Event.work, Bool.false_eq_true, if_false, begun, if_pos he]
    omega
  | @addStep k e count globalStart r r' roster ops hk _ hr =>
    have hlt := Range.step_left hr
    have hlength := Range.step_length hr
    refine hadd (b := ⟨count, globalStart, .provisioning r'⟩) rfl hk rfl ?_ rfl
    show r'.left + r'.out.length + 2 < r.left + r.out.length + 2
    omega
  | @addJoin k count globalStart r hk =>
    have hle := result_length r s.stop
    refine hadd rfl hk rfl ?_ rfl
    dsimp only
    split <;> simp only [AddPhase.left] <;> omega
  | @addGive k count globalStart c todo hk =>
    refine hadd (b := ⟨count, globalStart, .distributing todo⟩) rfl hk rfl ?_ rfl
    exact Nat.lt_succ_self _
  | @addEnd k a s' hk hend =>
    obtain ⟨hm, ha, -⟩ := endAdd_erases hend
    have herase := (leftIn_eraseIdx hk).1
    have hpos := left_pos a.phase
    unfold left
    rw [hm, ha]
    simp only [Event.work, if_true]
    omega
  | httpStop hm =>
    refine hsame ?_ rfl
    unfold left
    rw [hm]
    rfl

/-- **Step lemma.** Once `stop` is raised, a client that is provisioned was begun before. -/
theorem step_working (hstop : s.stop = true) (hs : s.step parseIso8601Utc cfg e = some s') :
    (if e.provisions then 1 else 0) + s'.working ≤ s.working := by
  have hsame {t : Fleet} {e : Event K} (ht : t.working = s.working) (he : e.provisions = false) :
      (if e.provisions then 1 else 0) + t.working ≤ s.working := by
    rw [he, ht]
    exact (Nat.zero_add _).le
  have hmain {t : Fleet} {e : Event K} (ha : t.adds = s.adds)
      (ht : (if e.provisions then 1 else 0) + t.main.working ≤ s.main.working) :
      (if e.provisions then 1 else 0) + t.working ≤ s.working := by
    unfold working
    rw [ha]
    omega
  have hadd {t : Fleet} {e : Event K} {k : Nat} {a b : Add} (hm : t.main = s.main)
      (hk : s.adds[k]? = some a) (ha : t.adds = s.adds.set k b)
      (ht : (if e.provisions then 1 else 0) + b.phase.working ≤ a.phase.working) :
      (if e.provisions then 1 else 0) + t.working ≤ s.working := by
    have hset := (leftIn_set (b := b) hk).2
    unfold working
    rw [hm, ha]
    omega
  cases step_cases parseIso8601Utc cfg hs with
  | @start file api hm => exact hsame (start_left parseIso8601Utc cfg hm file api).2 rfl
  | @startStep e r r' roster ops hm _ hr =>
    rw [hstop] at hr
    refine hmain rfl ?_
    rw [hm]
    exact Range.step_working hr
  | startFailed | startJoined => exact hmain rfl (Nat.zero_le _)
  | startDone hm | startGive hm =>
    refine hmain rfl ?_
    rw [hm]
    exact le_rfl
  | addRefused | control | signal | endSeen | observeEnd => exact hsame rfl rfl
  | @addAccepted count roster => exact hsame (acceptAdd_left cfg roster count).2 rfl
  | @addStep k e count globalStart r r' roster ops hk _ hr =>
    rw [hstop] at hr
    exact hadd (b := ⟨count, globalStart, .provisioning r'⟩) rfl hk rfl (Range.step_working hr)
  | @addJoin k count globalStart r hk =>
    have hnone : (if r.result s.stop = [] then AddPhase.failed
        else .distributing (r.result s.stop)).working = 0 := by split <;> rfl
    refine hadd rfl hk rfl ?_
    show 0 + (if r.result s.stop = [] then _ else _ : AddPhase).working ≤ _
    omega
  | @addGive k count globalStart c todo hk =>
    exact hadd (b := ⟨count, globalStart, .distributing todo⟩) rfl hk rfl le_rfl
  | @addEnd k a s' hk hend =>
    obtain ⟨hm, ha, -⟩ := endAdd_erases hend
    have herase := (leftIn_eraseIdx hk).2
    refine Eq.trans_le (Nat.zero_add _) ?_
    unfold working
    rw [hm, ha]
    omega
  | httpStop hm =>
    refine hsame ?_ rfl
    unfold working
    rw [hm]
    rfl

/-- A stop flag is never cleared. -/
theorem step_stop (hstop : s.stop = true) (hs : s.step parseIso8601Utc cfg e = some s') :
    s'.stop = true := by
  cases step_cases parseIso8601Utc cfg hs with
  | @start file api =>
    rcases s.start_cases parseIso8601Utc cfg file api with ⟨_, -, hs⟩ | ⟨_, _, _, -, hs, -⟩
    · rw [hs]
      exact hstop
    · rw [hs]
      exact hstop
  | signal => rfl
  | addEnd _ hend => exact (endAdd_erases hend).2.2.2.1.trans hstop
  | _ => exact hstop

/-- What is being provisioned has a provisioner. -/
def Loaded (s : Fleet) : Prop :=
  s.provisioner.isSome ∨ ((s.main = .notStarted ∨ s.main = .refused) ∧ s.adds = [])

theorem loaded_step (h : s.Loaded) (hs : s.step parseIso8601Utc cfg e = some s') : s'.Loaded := by
  have hsome {t : Fleet} (hm : s.main ≠ .notStarted ∧ s.main ≠ .refused)
      (ht : t.provisioner = s.provisioner) : t.Loaded := by
    rcases h with h | ⟨hm' | hm', -⟩
    · exact .inl (ht ▸ h)
    · exact absurd hm' hm.1
    · exact absurd hm' hm.2
  have hadds {t : Fleet} {k : Nat} {a : Add} (hk : s.adds[k]? = some a)
      (ht : t.provisioner = s.provisioner) : t.Loaded := by
    rcases h with h | ⟨-, ha⟩
    · exact .inl (ht ▸ h)
    · rw [ha] at hk
      cases hk
  have hup {m : MainPhase} (hm : m = .running ∨ m = .stopping) :
      m ≠ .notStarted ∧ m ≠ .refused := by
    rcases hm with rfl | rfl <;> exact ⟨MainPhase.noConfusion, MainPhase.noConfusion⟩
  cases step_cases parseIso8601Utc cfg hs with
  | @start file api hm =>
    rcases s.start_cases parseIso8601Utc cfg file api with ⟨_, -, hs⟩ | ⟨_, _, _, -, hs, -⟩
    · rw [hs]
      rcases h with h | ⟨-, ha⟩
      · exact .inl h
      · exact .inr ⟨.inr rfl, ha⟩
    · rw [hs]
      exact .inl rfl
  | startStep _ hroster | addAccepted _ hroster =>
    exact .inl (Option.isSome_of_eq_some hroster)
  | startFailed hm | startJoined hm | startDone hm | startGive hm =>
    refine hsome ?_ rfl
    rw [hm]
    exact ⟨MainPhase.noConfusion, MainPhase.noConfusion⟩
  | addStep _ hroster => exact .inl (Option.isSome_of_eq_some hroster)
  | addJoin hk | addGive hk => exact hadds hk rfl
  | addEnd hk hend => exact hadds hk (endAdd_erases hend).2.2.1
  | addRefused | signal => exact h
  | control hm | endSeen hm | observeEnd hm => exact hsome (hup hm) rfl
  | httpStop hm => exact hsome (hup (.inl hm)) rfl

theorem loaded_of_reach (h : (system parseIso8601Utc cfg).Reach s) : s.Loaded := by
  refine System.Reach.inv (I := Loaded) ?_ ?_ h
  · rintro _ rfl
    exact .inr ⟨.inl rfl, rfl⟩
  · intro s e s' _ hi hs
    have hstep : s.step parseIso8601Utc cfg e = some s' := hs
    exact loaded_step hi hstep

variable (parseIso8601Utc) (cfg)

/-- An add can go on. -/
theorem add_enabled {roster : Roster} (hp : s.provisioner = some roster) {k : Nat} {a : Add}
    (hk : s.adds[k]? = some a) (api : ClientApi) :
    ∃ e : Event K, e.work ∧ e.Uses api ∧ (s.step parseIso8601Utc cfg e).isSome := by
  obtain ⟨count, globalStart, phase⟩ := a
  cases phase with
  | provisioning r =>
    cases hj : r.joined with
    | true =>
      refine ⟨.addJoin k, rfl, trivial, ?_⟩
      simp only [step, hk, hj, if_true, Option.isSome_some]
    | false =>
      obtain ⟨e, huses, hsome⟩ := Range.step_enabled cfg roster s.stop hj api
      refine ⟨.addStep k e, rfl, huses, ?_⟩
      simp only [step, hk, hp, Option.isSome_map]
      exact hsome
  | failed =>
    refine ⟨.addEnd k, rfl, trivial, ?_⟩
    simp only [step, hk, endAdd, Option.isSome_some]
  | distributing todo =>
    cases todo with
    | nil =>
      refine ⟨.addEnd k, rfl, trivial, ?_⟩
      simp only [step, hk, endAdd, Option.isSome_some]
    | cons c todo =>
      refine ⟨.addGive k, rfl, trivial, ?_⟩
      simp only [step, hk, Option.isSome_some]

/-- **Nothing is stuck.** -/
theorem enabled (h : s.Loaded) (hleft : 0 < s.left) (api : ClientApi) :
    ∃ e : Event K, e.work ∧ e.Uses api ∧ (s.step parseIso8601Utc cfg e).isSome := by
  have hroster (hm : s.main ≠ .notStarted ∧ s.main ≠ .refused) :
      ∃ roster, s.provisioner = some roster := by
    rcases h with h | ⟨hm' | hm', -⟩
    · exact Option.isSome_iff_exists.mp h
    · exact absurd hm' hm.1
    · exact absurd hm' hm.2
  have hadd (hmain : s.main.left = 0) :
      ∃ e : Event K, e.work ∧ e.Uses api ∧ (s.step parseIso8601Utc cfg e).isSome := by
    rcases hadds : s.adds with _ | ⟨a, as⟩
    · unfold left at hleft
      rw [hmain, hadds] at hleft
      exact absurd hleft (lt_irrefl 0)
    · rcases h with h | ⟨-, ha⟩
      · obtain ⟨roster, hp⟩ := Option.isSome_iff_exists.mp h
        have hk : s.adds[0]? = some a := by
          rw [hadds]
          rfl
        exact add_enabled parseIso8601Utc cfg hp hk api
      · rw [hadds] at ha
        cases ha
  rcases hm : s.main with _ | _ | r | todo | _ | _
  · exact hadd (by rw [hm]; rfl)
  · exact hadd (by rw [hm]; rfl)
  · obtain ⟨roster, hp⟩ := hroster (by
      rw [hm]
      exact ⟨MainPhase.noConfusion, MainPhase.noConfusion⟩)
    cases hj : r.joined with
    | true =>
      refine ⟨.startJoin, rfl, trivial, ?_⟩
      simp only [step, hm, hj, if_true]
      split <;> rfl
    | false =>
      obtain ⟨e, huses, hsome⟩ := Range.step_enabled cfg roster s.stop hj api
      refine ⟨.startStep e, rfl, huses, ?_⟩
      simp only [step, hm, hp, Option.isSome_map]
      exact hsome
  · refine ⟨.startGive, rfl, trivial, ?_⟩
    cases todo <;> simp only [step, hm, Option.isSome_some]
  · exact hadd (by rw [hm]; rfl)
  · exact hadd (by rw [hm]; rfl)

/-- Provisioning and distributing end. -/
structure Ends (s : Fleet) : Prop where
  /-- Whatever the API answers next, one of the threads can go on. -/
  progress : 0 < s.left → ∀ api : ClientApi,
    ∃ e : Event K, e.work ∧ e.Uses api ∧ (s.step parseIso8601Utc cfg e).isSome
  /-- And they only do what was left and what is begun meanwhile. -/
  bounded : ∀ (es : List (Event K)) t, System.exec (step parseIso8601Utc cfg) s es = some t →
    es.countP Event.work + t.left ≤
      s.left + Work.allowance (step parseIso8601Utc cfg) (begun cfg) s es
  /-- With nothing left, the next add is not refused as busy. -/
  done : s.left = 0 → s.busy = false ∧ s.adds = [] ∧
    (s.main = .notStarted ∨ s.main = .refused ∨ s.main = .running ∨ s.main = .stopping)
  /-- After `stop` only the clients in the making are still provisioned. -/
  stopped : s.stop = true → ∀ (es : List (Event K)) t,
    System.exec (step parseIso8601Utc cfg) s es = some t →
      es.countP Event.provisions + t.working ≤ s.working

/-- **Everything that is begun ends.** -/
theorem ends (h : (system parseIso8601Utc cfg).Reach s) : Ends parseIso8601Utc cfg s := by
  refine ⟨fun hleft => enabled parseIso8601Utc cfg (loaded_of_reach h) hleft, fun es t hr => ?_,
    fun hleft => ?_, fun hstop es t hr => ?_⟩
  · exact Work.exec_work (I := fun _ => True) (fun _ _ _ _ _ => trivial)
      (fun _ _ _ _ hs => step_left hs) trivial hr
  · have hadds : s.adds = [] := by
      rcases hadds : s.adds with _ | ⟨a, as⟩
      · rfl
      · have hpos := left_pos a.phase
        unfold left at hleft
        rw [hadds, leftIn] at hleft
        omega
    refine ⟨?_, hadds, ?_⟩
    · rcases serial_of_reach h with ⟨hbusy, -⟩ | ⟨-, count, hone⟩
      · exact hbusy
      · unfold counts at hone
        rw [hadds] at hone
        cases hone
    · rcases hm : s.main with _ | _ | r | todo | _ | _
      · exact .inl rfl
      · exact .inr (.inl rfl)
      · unfold left at hleft
        rw [hm, MainPhase.left] at hleft
        omega
      · unfold left at hleft
        rw [hm, MainPhase.left] at hleft
        omega
      · exact .inr (.inr (.inl rfl))
      · exact .inr (.inr (.inr rfl))
  · have hrun : es.countP Event.provisions + t.working ≤ s.working +
        Work.allowance (step parseIso8601Utc cfg) (fun _ _ => 0) s es :=
      Work.exec_work (I := fun s => s.stop = true) (fun _ _ _ hi hs => step_stop hi hs)
        (fun _ _ _ hi hs => step_working hi hs) hstop hr
    rwa [Work.allowance_none] at hrun

end Fleet

/-- An add of one client is stopped inside `provisionClient`: one client is still provisioned. -/
theorem ends_stopped_add : ∃ s : Fleet, s.working = 1 ∧ s.busy = true ∧
    Fleet.Ends (fun _ => 0) Sample.config s := by
  have hrun : ((System.exec (Fleet.step (fun _ => 0) Sample.config) {}
      (Sample.loads .missing 1 ++ [.requestAdd 1, .addStep 0 (.claim 0), .addStep 0 (.check 0),
        .signal])).map fun s : Fleet => (s.working, s.busy)) = some (1, true) := by decide +kernel
  obtain ⟨s, hs, hm⟩ := Option.map_eq_some_iff.mp hrun
  have hr : (system (fun _ => 0) Sample.config).Reach s := System.Reach.exec (.init rfl) hs
  exact ⟨s, congrArg Prod.fst hm, congrArg Prod.snd hm, Fleet.ends _ _ hr⟩

end CksLoadtest.Harness
