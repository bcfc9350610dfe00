import CksLoadtest.Lib.Framing
import CksLoadtest.Wire.Inbound

/-!
# The bundle grammar

`forEachMessage` and the two bundle forms, in both directions: what a list of members
encodes to is delivered as that list, and what is delivered re-encodes to the datagram, or
to the front of its member octets up to the first defect.
-/
namespace CksLoadtest.Wire

open Lib.Buffer Lib.Framing

/-- `[2]{[2B len LE][msg]}...` -/
def bundle (ms : List Bytes) : Bytes := MESSAGE_BUNDLE :: frames 2 ms

/-- The signed form, with the tag after the members. -/
def signedBundle (ms : List Bytes) (tag : Bytes) : Bytes :=
  MESSAGE_BUNDLE_SIGNED :: (frames 2 ms ++ tag)

/-- The octets of a bundle that its members are read from. -/
def memberOctets (data : Bytes) : Bytes :=
  if type data = MESSAGE_BUNDLE_SIGNED then data.tail.take (data.tail.length - Hmac.TAG_SIZE)
  else data.tail

/-- One turn of the member loop takes one frame off. -/
theorem walkMembers_eq (data : Bytes) : walkMembers data =
    match unframe 2 data with
    | some (m, rest) => (m :: (walkMembers rest).1, (walkMembers rest).2)
    | none => ([], data.isEmpty) := by
  match data with
  | [] => simp [walkMembers, unframe]
  | [_] => simp [walkMembers, unframe]
  | a :: b :: rest =>
    rw [walkMembers, unframe]
    simp only [List.take_succ_cons, List.take_zero, List.drop_succ_cons, List.drop_zero,
      List.length_cons, show ¬ rest.length + 1 + 1 < 2 by omega, false_or]
    split <;> rfl

theorem walkMembers_frames {ms : List Bytes} (h : Fits 2 ms) :
    walkMembers (frames 2 ms) = (ms, true) := by
  induction ms with
  | nil => simp [walkMembers]
  | cons m ms ih =>
    rw [walkMembers_eq, frames_cons, unframe_frame (h m (.head _))]
    simp only [ih h.tail]

/-- What the loop delivers is at the front of its octets, and nothing more comes off after
it. The loop returns true exactly if nothing is left. -/
theorem walkMembers_spec (data : Bytes) : ∃ rest,
    data = frames 2 (walkMembers data).1 ++ rest ∧ Fits 2 (walkMembers data).1 ∧
      unframe 2 rest = none ∧ ((walkMembers data).2 = true ↔ rest = []) := by
  induction hn : data.length using Nat.strongRecOn generalizing data with
  | _ n ih =>
    subst hn
    rw [walkMembers_eq]
    cases hu : unframe 2 data with
    | none => exact ⟨data, rfl, fun m hm => (List.not_mem_nil hm).elim, hu, List.isEmpty_iff⟩
    | some p =>
      obtain ⟨m, rest⟩ := p
      obtain ⟨hdata, hm⟩ := unframe_eq_some hu
      have hlt : rest.length < data.length := by
        rw [hdata, frame]
        simp
        omega
      obtain ⟨left, hrest, hfits, hnone, htrue⟩ := ih _ hlt rest rfl
      refine ⟨left, ?_, ?_, hnone, htrue⟩
      · rw [frames_cons, List.append_assoc, ← hrest]
        exact hdata
      · rintro n (_ | ⟨_, hn⟩)
        exacts [hm, hfits n hn]

theorem forEachMessage_of_type {data : Bytes}
    (h : type data = MESSAGE_BUNDLE ∨ type data = MESSAGE_BUNDLE_SIGNED) :
    (forEachMessage data).1 = (walkMembers (memberOctets data)).1 ∧
      ((forEachMessage data).2 = true ↔ (walkMembers (memberOctets data)).2 = true ∧
        (type data = MESSAGE_BUNDLE_SIGNED → Hmac.TAG_SIZE + 1 < data.length)) := by
  cases data with
  | nil => exact absurd h (by decide)
  | cons t body =>
    rcases h with rfl | rfl
    · simp [forEachMessage, memberOctets, type, MESSAGE_BUNDLE, MESSAGE_BUNDLE_SIGNED]
    · simp only [forEachMessage, memberOctets, type, if_true, List.tail_cons, forall_const]
      split
      · rename_i hlen
        have hshort : body.length - Hmac.TAG_SIZE = 0 := by
          rw [List.length_cons] at hlen
          omega
        rw [hshort, List.take_zero, show walkMembers [] = ([], true) by simp [walkMembers]]
        exact ⟨rfl, by simp, fun h => absurd h.2 (Nat.not_lt.mpr hlen)⟩
      · exact ⟨rfl, fun h => ⟨h, Nat.not_le.mp ‹_›⟩, And.left⟩

theorem forEachMessage_bundle {ms : List Bytes} (h : Fits 2 ms) :
    forEachMessage (bundle ms) = (ms, true) := by
  simpa [forEachMessage, bundle, MESSAGE_BUNDLE, MESSAGE_BUNDLE_SIGNED] using
    walkMembers_frames h

theorem forEachMessage_signedBundle {ms : List Bytes} {tag : Bytes} (h : Fits 2 ms)
    (hne : ms ≠ []) (htag : tag.length = Hmac.TAG_SIZE) :
    forEachMessage (signedBundle ms tag) = (ms, true) := by
  obtain ⟨m, t, rfl⟩ := List.exists_cons_of_ne_nil hne
  have hpos : 0 < (frames 2 (m :: t)).length := by
    rw [frames_cons, frame, List.length_append, List.length_append, length_leBytes]
    omega
  have hlen : ¬ (signedBundle (m :: t) tag).length ≤ Hmac.TAG_SIZE + 1 := by
    rw [signedBundle, List.length_cons, List.length_append, htag]
    omega
  have htake : (frames 2 (m :: t) ++ tag).take
      ((frames 2 (m :: t) ++ tag).length - Hmac.TAG_SIZE) = frames 2 (m :: t) := by
    rw [List.length_append, htag, Nat.add_sub_cancel, List.take_left' rfl]
  rw [signedBundle] at hlen ⊢
  rw [forEachMessage, if_pos rfl, if_neg hlen, htake, walkMembers_frames h]

/-- What is delivered from an accepted bundle encodes to its member octets. -/
theorem frames_of_accepted {data : Bytes}
    (h : type data = MESSAGE_BUNDLE ∨ type data = MESSAGE_BUNDLE_SIGNED)
    (ht : (forEachMessage data).2 = true) :
    frames 2 (forEachMessage data).1 = memberOctets data := by
  obtain ⟨hms, hflag⟩ := forEachMessage_of_type h
  obtain ⟨rest, hdata, -, -, hrest⟩ := walkMembers_spec (memberOctets data)
  rw [hrest.mp (hflag.mp ht).1, List.append_nil] at hdata
  rw [hms, ← hdata]

/-- The members a bundle can be read as, up to the first defect. -/
structure LongestRun (ms : List Bytes) (octets : Bytes) : Prop where
  fits : Fits 2 ms
  complete : frames 2 ms <+: octets
  longest : ∀ ms', Fits 2 ms' → frames 2 ms' <+: octets → ms' <+: ms

theorem longestRun_forEachMessage {data : Bytes}
    (h : type data = MESSAGE_BUNDLE ∨ type data = MESSAGE_BUNDLE_SIGNED) :
    LongestRun (forEachMessage data).1 (memberOctets data) := by
  rw [(forEachMessage_of_type h).1]
  obtain ⟨rest, hdata, hfits, hnone, -⟩ := walkMembers_spec (memberOctets data)
  exact ⟨hfits, ⟨rest, hdata.symm⟩,
    fun ms' hms' hp => frames_prefix hfits hms' hnone (hdata ▸ hp)⟩

theorem length_walkMembers (data : Bytes) : (walkMembers data).1.length ≤ data.length := by
  obtain ⟨rest, hdata, -, -, -⟩ := walkMembers_spec data
  have hle : ∀ ms : List Bytes, ms.length ≤ (frames 2 ms).length := by
    intro ms
    induction ms with
    | nil => exact Nat.le_refl 0
    | cons m ms ih =>
      rw [frames_cons, List.length_cons, List.length_append, frame, List.length_append,
        length_leBytes]
      omega
  have := congrArg List.length hdata
  rw [List.length_append] at this
  have := hle (walkMembers data).1
  omega

/-- **The bundle grammar.** Encoded lists of members are delivered as they are; what is
delivered from an accepted datagram encodes to it; from a refused one it is the longest run
of complete members; everything else is delivered whole. No datagram has more turns than
octets. -/
theorem forEachMessage_grammar :
    (∀ ms, Fits 2 ms → forEachMessage (bundle ms) = (ms, true)) ∧
    (∀ ms tag, Fits 2 ms → ms ≠ [] → tag.length = Hmac.TAG_SIZE →
      forEachMessage (signedBundle ms tag) = (ms, true)) ∧
    (∀ data, type data = MESSAGE_BUNDLE → (forEachMessage data).2 = true →
      bundle (forEachMessage data).1 = data) ∧
    (∀ data, type data = MESSAGE_BUNDLE_SIGNED → (forEachMessage data).2 = true →
      (forEachMessage data).1 ≠ [] ∧
        (data.drop (data.length - Hmac.TAG_SIZE)).length = Hmac.TAG_SIZE ∧
        signedBundle (forEachMessage data).1 (data.drop (data.length - Hmac.TAG_SIZE)) = data) ∧
    (∀ data, type data = MESSAGE_BUNDLE ∨ type data = MESSAGE_BUNDLE_SIGNED →
      (forEachMessage data).2 = false → LongestRun (forEachMessage data).1 (memberOctets data)) ∧
    (∀ data, data ≠ [] → type data ≠ MESSAGE_BUNDLE → type data ≠ MESSAGE_BUNDLE_SIGNED →
      forEachMessage data = ([data], true)) ∧
    ∀ data, (forEachMessage data).1.length ≤ data.length := by
  refine ⟨fun _ => forEachMessage_bundle, fun _ _ => forEachMessage_signedBundle, ?_, ?_,
    fun data h _ => longestRun_forEachMessage h, ?_, ?_⟩
  · intro data h ht
    have hframes := frames_of_accepted (.inl h) ht
    cases data with
    | nil => exact absurd h (by decide)
    | cons t body =>
      obtain rfl : t = MESSAGE_BUNDLE := h
      rw [bundle, hframes]
      rfl
  · intro data h ht
    have hframes := frames_of_accepted (.inr h) ht
    have hlen := ((forEachMessage_of_type (.inr h)).2.mp ht).2 h
    cases data with
    | nil => exact absurd h (by decide)
    | cons t body =>
      obtain rfl : t = MESSAGE_BUNDLE_SIGNED := h
      rw [List.length_cons] at hlen
      have hcut : (MESSAGE_BUNDLE_SIGNED :: body).drop
          ((MESSAGE_BUNDLE_SIGNED :: body).length - Hmac.TAG_SIZE) =
          body.drop (body.length - Hmac.TAG_SIZE) := by
        rw [List.length_cons, show body.length + 1 - Hmac.TAG_SIZE =
          body.length - Hmac.TAG_SIZE + 1 by omega, List.drop_succ_cons]
      have hoctets : memberOctets (MESSAGE_BUNDLE_SIGNED :: body) =
          body.take (body.length - Hmac.TAG_SIZE) := rfl
      refine ⟨?_, ?_, ?_⟩
      · intro hnil
        rw [hnil, hoctets, frames_nil] at hframes
        have := congrArg List.length hframes
        rw [List.length_take, List.length_nil] at this
        omega
      · rw [hcut, List.length_drop]
        omega
      · rw [signedBundle, hframes, hcut, hoctets, List.take_append_drop]
  · intro data hne h2 h30
    cases data with
    | nil => exact absurd rfl hne
    | cons t body => simp [forEachMessage, show t ≠ _ from h2, show t ≠ _ from h30]
  · intro data
    by_cases h : type data = MESSAGE_BUNDLE ∨ type data = MESSAGE_BUNDLE_SIGNED
    · rw [(forEachMessage_of_type h).1]
      refine Nat.le_trans (length_walkMembers _) ?_
      unfold memberOctets
      split
      · rw [List.length_take, List.length_tail]
        omega
      · simp
    · obtain ⟨h2, h30⟩ := not_or.mp h
      cases data with
      | nil => simp [forEachMessage]
      | cons t body => simp [forEachMessage, show t ≠ _ from h2, show t ≠ _ from h30]

end CksLoadtest.Wire
