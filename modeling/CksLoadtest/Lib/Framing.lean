import CksLoadtest.Lib.Buffer

/-!
# Length-prefixed frames

A sequence of byte strings, each after its length in `w` octets. Frames are
self-delimiting: what can be taken off the front of a byte string is determined, so the
frames at its front are one longest sequence, of which all others are beginnings.
-/
namespace CksLoadtest.Lib.Framing

open Buffer

variable {w : Nat}

def frame (w : Nat) (m : Bytes) : Bytes := leBytes w m.length ++ m

def frames (w : Nat) (ms : List Bytes) : Bytes := ms.flatMap (frame w)

/-- Every length is one the prefix can hold. -/
def Fits (w : Nat) (ms : List Bytes) : Prop := ∀ m ∈ ms, m.length < 256 ^ w

/-- Take one frame off. -/
def unframe (w : Nat) (data : Bytes) : Option (Bytes × Bytes) :=
  let msgLen := leNat (data.take w)
  if data.length < w ∨ (data.drop w).length < msgLen then none
  else some ((data.drop w).take msgLen, (data.drop w).drop msgLen)

@[simp] theorem frames_nil : frames w [] = [] := rfl

@[simp] theorem frames_cons (m : Bytes) (ms : List Bytes) :
    frames w (m :: ms) = frame w m ++ frames w ms := rfl

theorem Fits.tail {m : Bytes} {ms : List Bytes} (h : Fits w (m :: ms)) : Fits w ms :=
  fun n hn => h n (.tail m hn)

theorem unframe_frame {m : Bytes} (h : m.length < 256 ^ w) (rest : Bytes) :
    unframe w (frame w m ++ rest) = some (m, rest) := by
  have hl : (leBytes w m.length).length = w := length_leBytes ..
  have hlen : leNat ((frame w m ++ rest).take w) = m.length := by
    rw [frame, List.append_assoc, List.take_left' hl, leNat_leBytes, Nat.mod_eq_of_lt h]
  have hdrop : (frame w m ++ rest).drop w = m ++ rest := by
    rw [frame, List.append_assoc, List.drop_left' hl]
  have hw : ¬ (frame w m ++ rest).length < w := by
    rw [frame, List.append_assoc, List.length_append, hl]
    omega
  simp only [unframe, hlen, hdrop]
  rw [if_neg (not_or.mpr ⟨hw, by simp⟩), List.take_left' rfl, List.drop_left' rfl]

theorem unframe_eq_some {data m rest : Bytes} (h : unframe w data = some (m, rest)) :
    data = frame w m ++ rest ∧ m.length < 256 ^ w := by
  simp only [unframe] at h
  split at h
  · cases h
  · rename_i hn
    obtain ⟨hw, hm⟩ := not_or.mp hn
    obtain ⟨rfl, rfl⟩ := Prod.mk.inj (Option.some.inj h)
    have hlen : ((data.drop w).take (leNat (data.take w))).length = leNat (data.take w) := by
      rw [List.length_take]
      omega
    have htake : (data.take w).length = w := by
      rw [List.length_take]
      omega
    refine ⟨?_, ?_⟩
    · have hfront : leBytes w (leNat (data.take w)) = data.take w := by
        have := leBytes_leNat (data.take w)
        rwa [htake] at this
      rw [frame, hlen, hfront, List.append_assoc, List.take_append_drop, List.take_append_drop]
    · have := leNat_lt (data.take w)
      rwa [htake, ← hlen] at this

/-- **Longest run.** When nothing more comes off after some frames, every sequence of
frames at the front of the data is a beginning of theirs. -/
theorem frames_prefix {ms ms' : List Bytes} {rest : Bytes} (hms : Fits w ms)
    (hms' : Fits w ms') (hrest : unframe w rest = none)
    (h : frames w ms' <+: frames w ms ++ rest) : ms' <+: ms := by
  induction ms' generalizing ms with
  | nil => exact List.nil_prefix
  | cons m' ms' ih =>
    obtain ⟨tail, ht⟩ := h
    rw [frames_cons, List.append_assoc] at ht
    have hfirst := unframe_frame (hms' m' (.head _)) (frames w ms' ++ tail)
    cases ms with
    | nil =>
      rw [ht, frames_nil, List.nil_append, hrest] at hfirst
      cases hfirst
    | cons m ms =>
      rw [ht, frames_cons, List.append_assoc, unframe_frame (hms m (.head _))] at hfirst
      obtain ⟨rfl, hrests⟩ := Prod.mk.inj (Option.some.inj hfirst)
      have := ih hms.tail hms'.tail ⟨tail, hrests.symm⟩
      exact List.cons_prefix_cons.mpr ⟨rfl, this⟩

end CksLoadtest.Lib.Framing
