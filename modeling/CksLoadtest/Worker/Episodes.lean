import CksLoadtest.Worker.Life

/-!
# How refusals are explained

A refusal is put down to first contact or to a reload of the permission box. What explains it
belongs to the client's current assignment, as long as every activation finds no episode that
outlasts the first-contact window: none clears the time of the last reload.
-/
namespace CksLoadtest.Worker

open Lib.Buffer Lib.Transition

variable {K : Type*}

/-- The explanations of refusals among the effects. -/
def explanations (es : List (Effect K)) : List Counter :=
  es.filterMap fun
    | .count .unauthorizedFirstContact _ => some .unauthorizedFirstContact
    | .count .unauthorizedWindowReload _ => some .unauthorizedWindowReload
    | _ => none

theorem explanations_append (es fs : List (Effect K)) :
    explanations (es ++ fs) = explanations es ++ explanations fs := List.filterMap_append

/-- A chunk that is more than the radius away from a centre, on some axis. -/
def Beyond (cfg : Config K) (center chunk : Vec Int) : Prop :=
  cfg.permWindowRadiusChunks < |chunk.x - center.x| ∨
    cfg.permWindowRadiusChunks < |chunk.y - center.y| ∨
    cfg.permWindowRadiusChunks < |chunk.z - center.z|

instance (cfg : Config K) (center chunk : Vec Int) : Decidable (Beyond cfg center chunk) :=
  inferInstanceAs (Decidable (_ ∨ _ ∨ _))

theorem leftPermWindow_iff (cfg : Config K) (c : SimClient K) :
    leftPermWindow cfg c = true ↔ Beyond cfg c.permWindowCenter c.chunk := by
  simp only [leftPermWindow, Beyond, Bool.or_eq_true, decide_eq_true_iff, or_assoc]

/-- The box of an assignment: where its permissions were last looked up, and the refusal that
asked for it, if it was not the activation. -/
structure PermWindow where
  center : Vec Int
  opened : Option Refusal := none

/-- The episode of the last lookup is still running. -/
def PermWindow.Running (cfg : Config K) (b : PermWindow) (t : Readings) : Prop :=
  ∃ r ∈ b.opened, t.reload - r.times.reload < cfg.permReloadGraceMs * 1000000

instance (cfg : Config K) (b : PermWindow) (t : Readings) : Decidable (b.Running cfg t) :=
  inferInstanceAs (Decidable (∃ r ∈ b.opened, _))

namespace Activation

/-- The reply comes within two seconds of the activation. -/
def Contact (a : Activation) (t : Readings) : Prop :=
  t.contact - a.time < FIRST_CONTACT_GRACE_MS * 1000000

instance (a : Activation) (t : Readings) : Decidable (a.Contact t) :=
  inferInstanceAs (Decidable (_ < _))

variable (cfg : Config K) (a : Activation)

/-- The box after the refusals of an assignment, the latest first. It lies about the chunk of the
activation; a refusal from outside it that comes later than first contact and in no running
episode begins an episode and moves it. -/
def window : List Refusal → PermWindow
  | [] => { center := a.chunk }
  | r :: earlier =>
    let b := window earlier
    if ¬ a.Contact r.times ∧ ¬ b.Running cfg r.times ∧ Beyond cfg b.center r.chunk then
      ⟨r.chunk, some r⟩
    else b

variable {cfg a} in
theorem window_stays {r : Refusal} {rs : List Refusal}
    (h : a.Contact r.times ∨ (a.window cfg rs).Running cfg r.times ∨
      ¬ Beyond cfg (a.window cfg rs).center r.chunk) :
    a.window cfg (r :: rs) = a.window cfg rs := by
  refine if_neg ?_
  rintro ⟨hlate, hover, hbeyond⟩
  rcases h with hcontact | hrunning | hinside
  · exact hlate hcontact
  · exact hover hrunning
  · exact hinside hbeyond

/-- The refusals that came from outside the box of their moment. -/
def strayed : List Refusal → List Refusal
  | [] => []
  | r :: earlier =>
    if Beyond cfg (a.window cfg earlier).center r.chunk then r :: strayed earlier
    else strayed earlier

/-- An episode is begun from outside the box. -/
theorem window_opened {rs : List Refusal} {r : Refusal} (h : r ∈ (a.window cfg rs).opened) :
    r ∈ a.strayed cfg rs := by
  induction rs with
  | nil => cases h
  | cons q earlier ih =>
    unfold window at h
    unfold strayed
    dsimp only at h
    split at h
    · rename_i hmoves
      obtain rfl := Option.some.inj h
      rw [if_pos hmoves.2.2]
      exact List.mem_cons_self ..
    · split
      · exact List.mem_cons_of_mem _ (ih h)
      · exact ih h

end Activation

section Explanation

variable (cfg : Config K) (l : Life K) (t : Readings)

/-- The reply comes within two seconds of the latest activation. -/
def AtFirstContact : Prop := ∃ a ∈ l.since.activated, a.Contact t

/-- The client is outside the box of its assignment. -/
def OutsideBox : Prop :=
  ∃ a ∈ l.since.activated, Beyond cfg (a.window cfg l.since.refusals).center l.client.chunk

/-- The reply comes in an episode of the assignment. -/
def InEpisode : Prop :=
  ∃ a ∈ l.since.activated, (a.window cfg l.since.refusals).Running cfg t

/-- An earlier refusal of the assignment, from outside the box, is younger than the grace. -/
def RefusedOutside : Prop :=
  ∃ a ∈ l.since.activated, ∃ r ∈ a.strayed cfg l.since.refusals,
    t.reload - r.times.reload < cfg.permReloadGraceMs * 1000000

instance : Decidable (AtFirstContact l t) :=
  inferInstanceAs (Decidable (∃ a ∈ l.since.activated, _))

instance : Decidable (OutsideBox cfg l) :=
  inferInstanceAs (Decidable (∃ a ∈ l.since.activated, _))

instance : Decidable (InEpisode cfg l t) :=
  inferInstanceAs (Decidable (∃ a ∈ l.since.activated, _))

instance : Decidable (RefusedOutside cfg l t) :=
  inferInstanceAs (Decidable (∃ a ∈ l.since.activated, ∃ r ∈ a.strayed cfg l.since.refusals, _))

variable {cfg l t}

theorem InEpisode.refusedOutside (h : InEpisode cfg l t) : RefusedOutside cfg l t := by
  obtain ⟨a, ha, r, hr, hyoung⟩ := h
  exact ⟨a, ha, r, a.window_opened cfg hr, hyoung⟩

end Explanation

/-- The clock of an activation has left its epoch and finds no episode that outlasts the
first-contact window; the two readings of one refusal are in order and past the epoch. -/
def EpisodesOver (cfg : Config K) (l : Life K) : Turn K → Prop
  | .activate now _ _ _ => Due now l.client → now ≠ 0 ∧ (l.client.permReloadAt = 0 ∨
      l.client.permReloadAt + cfg.permReloadGraceMs * 1000000 ≤
        now + FIRST_CONTACT_GRACE_MS * 1000000)
  | .rxMember _ _ t m => isRefusal m = true → t.contact ≤ t.reload ∧ t.reload ≠ 0
  | _ => True

instance (cfg : Config K) (l : Life K) : (t : Turn K) → Decidable (EpisodesOver cfg l t)
  | .activate .. | .rxMember .. => inferInstanceAs (Decidable (_ → _))
  | .update _ | .send .. | .rxBegin .. | .rxEnd _ => inferInstanceAs (Decidable True)

/-- The contact time, the box and the last reload are those of the assignment; a reload that is
not, is over when first contact is. -/
structure EpisodeKnown (cfg : Config K) (l : Life K) : Prop where
  activated : l.client.activatedAt = l.since.activated.elim 0 Activation.time
  valid : l.client.permWindowValid = l.since.activated.isSome
  left : ∀ a ∈ l.since.activated, a.time ≠ 0
  center : ∀ a ∈ l.since.activated,
    l.client.permWindowCenter = (a.window cfg l.since.refusals).center
  opened : ∀ a ∈ l.since.activated, ∀ r ∈ (a.window cfg l.since.refusals).opened,
    l.client.permReloadAt = r.times.reload ∧ r.times.reload ≠ 0
  past : ∀ a ∈ l.since.activated, (a.window cfg l.since.refusals).opened = none →
    l.client.permReloadAt = 0 ∨ l.client.permReloadAt + cfg.permReloadGraceMs * 1000000 ≤
      a.time + FIRST_CONTACT_GRACE_MS * 1000000

namespace EpisodeKnown

variable {cfg : Config K} {l : Life K} {a : Activation} {t : Readings}

theorem of_marks {c : SimClient K} (h : EpisodeKnown cfg l)
    (ha : c.activatedAt = l.client.activatedAt)
    (hv : c.permWindowValid = l.client.permWindowValid)
    (hc : c.permWindowCenter = l.client.permWindowCenter)
    (hr : c.permReloadAt = l.client.permReloadAt) : EpisodeKnown cfg ⟨c, l.since⟩ where
  activated := ha.trans h.activated
  valid := hv.trans h.valid
  left := h.left
  center a hm := hc.trans (h.center a hm)
  opened a hm r hopen := ⟨hr.trans (h.opened a hm r hopen).1, (h.opened a hm r hopen).2⟩
  past a hm hnone := by
    dsimp only
    rw [hr]
    exact h.past a hm hnone

/-- A refusal that leaves the box of the assignment where it is. -/
theorem stays (h : EpisodeKnown cfg l) (r : Refusal)
    (hstays : ∀ a ∈ l.since.activated,
      a.window cfg (r :: l.since.refusals) = a.window cfg l.since.refusals) :
    EpisodeKnown cfg ⟨l.client, { l.since with refusals := r :: l.since.refusals }⟩ where
  activated := h.activated
  valid := h.valid
  left := h.left
  center a ha := by
    dsimp only
    rw [hstays a ha]
    exact h.center a ha
  opened a ha := by
    dsimp only
    rw [hstays a ha]
    exact h.opened a ha
  past a ha := by
    dsimp only
    rw [hstays a ha]
    exact h.past a ha

theorem firstContact_iff (h : EpisodeKnown cfg l) (t : Readings) :
    FirstContact t l.client ↔ AtFirstContact l t := by
  unfold FirstContact AtFirstContact
  rw [h.activated]
  cases ha : l.since.activated with
  | none =>
    constructor
    · rintro ⟨hne, -⟩
      exact absurd rfl hne
    · rintro ⟨a, hm, -⟩
      cases hm
  | some a =>
    have hne : a.time ≠ 0 := h.left a ha
    constructor
    · rintro ⟨-, hlt⟩
      exact ⟨a, rfl, hlt⟩
    · rintro ⟨b, hb, hlt⟩
      obtain rfl := Option.some.inj hb
      exact ⟨hne, hlt⟩

/-- Later than first contact, the code's episode is the one of the assignment. -/
theorem running_iff (h : EpisodeKnown cfg l) (ha : a ∈ l.since.activated)
    (ht : t.contact ≤ t.reload) (hlate : ¬ a.Contact t) :
    SameEpisode cfg t l.client ↔ (a.window cfg l.since.refusals).Running cfg t := by
  unfold SameEpisode PermWindow.Running
  cases hopened : (a.window cfg l.since.refusals).opened with
  | none =>
    have hover := h.past a ha hopened
    refine iff_of_false ?_ ?_
    · rintro ⟨hne, hyoung⟩
      rcases hover with hzero | hpast
      · exact hne hzero
      · unfold Activation.Contact at hlate
        omega
    · rintro ⟨r, hr, -⟩
      cases hr
  | some r =>
    obtain ⟨htime, hne⟩ := h.opened a ha r hopened
    rw [htime]
    constructor
    · rintro ⟨-, hyoung⟩
      exact ⟨r, rfl, hyoung⟩
    · rintro ⟨q, hq, hyoung⟩
      obtain rfl := Option.some.inj hq
      exact ⟨hne, hyoung⟩

/-- The code's box is the one of the assignment. -/
theorem left_iff (h : EpisodeKnown cfg l) (ha : a ∈ l.since.activated) :
    leftPermWindow cfg l.client = true ↔
      Beyond cfg (a.window cfg l.since.refusals).center l.client.chunk := by
  rw [leftPermWindow_iff, h.center a ha]

theorem inEpisode_iff (h : EpisodeKnown cfg l) (ht : t.contact ≤ t.reload)
    (hlate : ¬ AtFirstContact l t) :
    (l.client.permWindowValid = true ∧ SameEpisode cfg t l.client) ↔ InEpisode cfg l t := by
  rw [h.valid, Option.isSome_iff_exists]
  constructor
  · rintro ⟨⟨a, ha⟩, hsame⟩
    exact ⟨a, ha, (h.running_iff ha ht fun hc => hlate ⟨a, ha, hc⟩).mp hsame⟩
  · rintro ⟨a, ha, hrunning⟩
    exact ⟨⟨a, ha⟩, (h.running_iff ha ht fun hc => hlate ⟨a, ha, hc⟩).mpr hrunning⟩

theorem outsideBox_iff (h : EpisodeKnown cfg l) :
    (l.client.permWindowValid = true ∧ leftPermWindow cfg l.client = true) ↔
      OutsideBox cfg l := by
  rw [h.valid, Option.isSome_iff_exists]
  constructor
  · rintro ⟨⟨a, ha⟩, hleft⟩
    exact ⟨a, ha, (h.left_iff ha).mp hleft⟩
  · rintro ⟨a, ha, hbeyond⟩
    exact ⟨⟨a, ha⟩, (h.left_iff ha).mpr hbeyond⟩

end EpisodeKnown

section Refusals

variable (P : Platform K) (cfg : Config K)

theorem suspendClient_explanations (kind : Kind) (c : SimClient K) :
    explanations (suspendClient kind c).2 = [] := by
  have hclose : explanations (closeSocket c).2 = [] := by
    unfold closeSocket
    split <;> rfl
  unfold suspendClient
  split
  · rfl
  · show explanations ((closeSocket c).2 ++ _ ++ _) = []
    rw [explanations_append, explanations_append, hclose]
    split <;> rfl

/-- A refusal is explained by its classification alone. -/
theorem handleMember_explanations {m : Bytes} (h : isRefusal m = true) (signedBundle : Bool)
    (nowMs : Int) (t : Readings) (c : SimClient K) :
    explanations (handleMember P cfg signedBundle nowMs t m c).2 =
      explanations (classifyRefusal cfg t Wire.ERR_UNAUTHORIZED c).1.2 := by
  obtain ⟨es, hes, ho⟩ := handleMember_refusal P cfg h signedBundle nowMs t c
  have hnone : explanations es = [] := by
    refine List.filterMap_eq_nil_iff.mpr fun e he => ?_
    rcases hes e he with rfl | rfl | rfl <;> rfl
  have hreact (d : SimClient K) :
      explanations (reactToError cfg Wire.ERR_UNAUTHORIZED d).2 = [] := by
    unfold reactToError
    split
    · exact suspendClient_explanations _ _
    · rw [if_pos rfl]
      dsimp only
      split
      · exact suspendClient_explanations _ _
      · rfl
  rw [ho]
  show explanations (es ++ (_ ++ _)) = _
  rw [explanations_append, explanations_append, hnone, hreact, List.nil_append, List.append_nil]

/-- A refusal is put down to first contact exactly when it comes within two seconds of the latest
activation, and to a reload only later, with the client outside the box of its assignment or
refused outside it within the grace before; and it stays unexplained exactly when it is none of
first contact, outside the box and in an episode of the assignment. -/
def RefusalExplained (l : Life K) : Turn K → Prop
  | .rxMember signedBundle nowMs t m =>
    isRefusal m = true →
      let es := explanations (handleMember P cfg signedBundle nowMs t m l.client).2
      (Counter.unauthorizedFirstContact ∈ es ↔ AtFirstContact l t) ∧
        (Counter.unauthorizedWindowReload ∈ es →
          ¬ AtFirstContact l t ∧ (OutsideBox cfg l ∨ RefusedOutside cfg l t)) ∧
        (es = [] ↔ ¬ AtFirstContact l t ∧ ¬ OutsideBox cfg l ∧ ¬ InEpisode cfg l t)
  | _ => True

instance (l : Life K) : (t : Turn K) → Decidable (RefusalExplained P cfg l t)
  | .rxMember .. => inferInstanceAs (Decidable (_ → _ ∧ _ ∧ _))
  | .update _ | .activate .. | .send .. | .rxBegin .. | .rxEnd _ =>
    inferInstanceAs (Decidable True)

variable {P} {cfg}

theorem EpisodeKnown.explained {l : Life K} (h : EpisodeKnown cfg l) {t : Turn K}
    (ht : EpisodesOver cfg l t) : RefusalExplained P cfg l t := by
  cases t with
  | update | activate | send | rxBegin | rxEnd => trivial
  | rxMember signedBundle nowMs r m =>
    intro hr es
    have hes : es = explanations (classifyRefusal cfg r Wire.ERR_UNAUTHORIZED l.client).1.2 :=
      handleMember_explanations P cfg hr signedBundle nowMs r l.client
    clear_value es
    have hcontact := h.firstContact_iff r
    rcases classifyRefusal_cases cfg r l.client with ⟨hfirst, ho⟩ | ⟨hlate, hcases⟩
    · have hfirst := hcontact.mp hfirst
      have hes : es = [.unauthorizedFirstContact] := by rw [hes, ho]; rfl
      rw [hes]
      refine ⟨iff_of_true (List.mem_singleton.mpr rfl) hfirst, ?_, ?_⟩
      · intro hm
        exact absurd (List.mem_singleton.mp hm) nofun
      · exact iff_of_false nofun fun hno => hno.1 hfirst
    have hlate := mt hcontact.mpr hlate
    have hin := h.inEpisode_iff (ht hr).1 hlate
    have hout := h.outsideBox_iff
    rcases hcases with ⟨hep, ho⟩ | ⟨⟨hvalid, -, hleft⟩, ho⟩ | ⟨hinside, ho⟩
    · have hep := hin.mp hep
      have hes : es = [.unauthorizedWindowReload] := by rw [hes, ho]; rfl
      rw [hes]
      refine ⟨iff_of_false (fun hm => absurd (List.mem_singleton.mp hm) nofun) hlate, ?_, ?_⟩
      · exact fun _ => ⟨hlate, .inr hep.refusedOutside⟩
      · exact iff_of_false nofun fun hno => hno.2.2 hep
    · have houtside := hout.mp ⟨hvalid, hleft⟩
      have hes : es = [.unauthorizedWindowReload] := by rw [hes, ho]; rfl
      rw [hes]
      refine ⟨iff_of_false (fun hm => absurd (List.mem_singleton.mp hm) nofun) hlate, ?_, ?_⟩
      · exact fun _ => ⟨hlate, .inl houtside⟩
      · exact iff_of_false nofun fun hno => hno.2.1 houtside
    · have hes : es = [] := by rw [hes, ho]; rfl
      rw [hes]
      refine ⟨iff_of_false List.not_mem_nil hlate, fun hm => absurd hm List.not_mem_nil, ?_⟩
      refine iff_of_true rfl ⟨hlate, fun hb => ?_, fun he => ?_⟩
      · obtain ⟨hvalid, hleft⟩ := hout.mpr hb
        exact absurd (hleft.symm.trans (hinside hvalid).2) nofun
      · obtain ⟨hvalid, hsame⟩ := hin.mpr he
        exact (hinside hvalid).1 hsame

/-- A refusal moves the code's box exactly when it moves the one of the assignment. -/
theorem EpisodeKnown.classified {l : Life K} (h : EpisodeKnown cfg l) {t : Readings}
    (ht : t.contact ≤ t.reload ∧ t.reload ≠ 0) :
    EpisodeKnown cfg ⟨(classifyRefusal cfg t Wire.ERR_UNAUTHORIZED l.client).1.1,
      { l.since with refusals := ⟨t, l.client.chunk⟩ :: l.since.refusals }⟩ := by
  have hcontact := h.firstContact_iff t
  rcases classifyRefusal_cases cfg t l.client with ⟨hfirst, ho⟩ | ⟨hlate, hcases⟩
  · rw [ho]
    refine h.stays _ fun a ha => Activation.window_stays (.inl ?_)
    obtain ⟨b, hb, hsoon⟩ := hcontact.mp hfirst
    obtain rfl := Option.mem_unique ha hb
    exact hsoon
  have hlate {a : Activation} (ha : a ∈ l.since.activated) : ¬ a.Contact t :=
    fun hsoon => hlate (hcontact.mpr ⟨a, ha, hsoon⟩)
  rcases hcases with ⟨⟨-, hsame⟩, ho⟩ | ⟨⟨-, hover, hleft⟩, ho⟩ | ⟨hinside, ho⟩
  · rw [ho]
    exact h.stays _ fun a ha => Activation.window_stays
      (.inr (.inl ((h.running_iff ha ht.1 (hlate ha)).mp hsame)))
  · rw [ho]
    have hmoves (a : Activation) (ha : a ∈ l.since.activated) :
        a.window cfg (⟨t, l.client.chunk⟩ :: l.since.refusals) =
          ⟨l.client.chunk, some ⟨t, l.client.chunk⟩⟩ :=
      if_pos ⟨hlate ha, mt (h.running_iff ha ht.1 (hlate ha)).mpr hover, (h.left_iff ha).mp hleft⟩
    refine ⟨h.activated, h.valid, h.left, fun a ha => ?_, fun a ha r hr => ?_, fun a ha hn => ?_⟩
    · rw [hmoves a ha]
    · rw [hmoves a ha] at hr
      obtain rfl := Option.some.inj hr
      exact ⟨rfl, ht.2⟩
    · rw [hmoves a ha] at hn
      cases hn
  · rw [ho]
    refine h.stays _ fun a ha => Activation.window_stays (.inr (.inr fun hbeyond => ?_))
    have hvalid : l.client.permWindowValid = true := by
      rw [h.valid, ha]
      rfl
    exact absurd (((h.left_iff ha).mpr hbeyond).symm.trans (hinside hvalid).2) nofun

end Refusals

section Lives

variable [Field K] [LinearOrder K] [FloorRing K] {P : Platform K} {cfg : Config K}

/-- **Step lemma.** -/
theorem episode_turn {l : Life K} {t : Turn K} (h : EpisodeKnown cfg l)
    (hover : EpisodesOver cfg l t) : EpisodeKnown cfg (l.turn P cfg t) := by
  have hmarks {c : SimClient K} (hm : marks c = marks l.client) : EpisodeKnown cfg ⟨c, l.since⟩ :=
    h.of_marks (congrArg Marks.activatedAt hm) (congrArg Marks.permWindowValid hm)
      (congrArg Marks.permWindowCenter hm) (congrArg Marks.permReloadAt hm)
  cases t with
  | update u => exact hmarks (applyUpdate_marks cfg u l.client).1
  | rxBegin rxNs nowMs data => exact hmarks (beginDatagram_marks P rxNs nowMs data l.client).1
  | rxEnd ok => exact hmarks rfl
  | activate now nowSec draws outcome =>
    unfold Life.turn Since.next Turn.run
    dsimp only
    by_cases hd : Due now l.client
    · obtain ⟨hnow, hclosed⟩ := hover hd
      have hm := (activateDueClient_due P cfg hd nowSec draws outcome).1.trans
        (resume_marks P cfg now nowSec draws l.client).2
      have hchunk := activateDueClient_chunk P cfg hd nowSec draws outcome
      have hreload : (activateDueClient P cfg now nowSec draws outcome l.client).1.permReloadAt =
          l.client.permReloadAt := congrArg Marks.permReloadAt hm
      rw [if_pos hd]
      refine ⟨congrArg Marks.activatedAt hm, congrArg Marks.permWindowValid hm, ?_, ?_, ?_, ?_⟩
      · intro a ha
        obtain rfl := Option.some.inj ha
        exact hnow
      · intro a ha
        obtain rfl := Option.some.inj ha
        exact (congrArg Marks.permWindowCenter hm).trans hchunk.symm
      · intro a ha r hr
        cases hr
      · intro a ha _
        obtain rfl := Option.some.inj ha
        dsimp only
        rw [hreload]
        exact hclosed
    · rw [if_neg hd, activateDueClient_idle P cfg hd]
      exact h
  | rxMember signedBundle nowMs r m =>
    unfold Life.turn Since.next Turn.run
    dsimp only
    cases hr : isRefusal m with
    | false => exact hmarks (handleMember_marks P cfg hr signedBundle nowMs r l.client)
    | true =>
      obtain ⟨hm, -⟩ := handleMember_refusal_marks P cfg hr signedBundle nowMs r l.client
      rw [if_pos rfl]
      exact (h.classified (hover hr)).of_marks (congrArg Marks.activatedAt hm)
        (congrArg Marks.permWindowValid hm) (congrArg Marks.permWindowCenter hm)
        (congrArg Marks.permReloadAt hm)
  | send nowSec inputs =>
    obtain ⟨n, s, hm⟩ : ∃ n s, marks (sendDueUpdate P cfg nowSec inputs l.client).1 =
        { marks l.client with consecutiveSendErrors := n, lastSendTime := s } := by
      by_cases hslot : TakesSlot cfg nowSec l.client
      · exact ⟨_, _, (sendDueUpdate_slot P cfg hslot inputs).1⟩
      · exact ⟨_, _, (sendDueUpdate_idle P cfg hslot inputs).1⟩
    have hnext := h.of_marks (congrArg Marks.activatedAt hm) (congrArg Marks.permWindowValid hm)
      (congrArg Marks.permWindowCenter hm) (congrArg Marks.permReloadAt hm)
    unfold Life.turn Since.next Turn.run
    dsimp only
    -- only the failures of the history change
    rcases sendResult P cfg nowSec inputs l.client with _ | _ | _
    · exact hnext
    · exact ⟨hnext.activated, hnext.valid, hnext.left, hnext.center, hnext.opened, hnext.past⟩
    · exact ⟨hnext.activated, hnext.valid, hnext.left, hnext.center, hnext.opened, hnext.past⟩

/-- **Whole lives.** -/
theorem lives_known {l : Life K} (h : (lives P cfg).GReach (EpisodesOver cfg) l) :
    EpisodeKnown cfg l := by
  refine System.GReach.inv (I := EpisodeKnown cfg) ?_ ?_ h
  · rintro _ ⟨creds, activateAt, rfl⟩
    exact ⟨rfl, rfl, fun _ ha => absurd ha nofun, fun _ ha => absurd ha nofun,
      fun _ ha => absurd ha nofun, fun _ ha => absurd ha nofun⟩
  · rintro l t _ - hl hover rfl
    exact episode_turn hl hover

end Lives

end CksLoadtest.Worker
