import Mathlib.Data.List.Infix
import CksLoadtest.Provision.Email

/-!
# Replacing a placeholder

What `replaceAll` does to a text, by the number of matches it replaces: the length it
leaves, how often a character occurs, and which words can stand in for the placeholder.
-/
namespace CksLoadtest

/-- The matches `replaceAll` replaces. -/
def replacements (old : List Char) (skip : Nat) : List Char → Nat
  | [] => 0
  | c :: cs =>
    if 0 < skip then replacements old (skip - 1) cs
    else if old.isPrefixOf (c :: cs) then replacements old (old.length - 1) cs + 1
    else replacements old 0 cs

variable {old new : List Char}

/-- What is left to pass over of a match lies in the text. -/
theorem tail_prefix {c : Char} {cs : List Char} (hne : old ≠ [])
    (h : old.isPrefixOf (c :: cs) = true) :
    ∃ t, old = c :: t ∧ t <+: cs ∧ old.length - 1 = t.length := by
  obtain ⟨d, t, rfl⟩ := List.exists_cons_of_ne_nil hne
  obtain ⟨hd, ht⟩ := List.cons_prefix_cons.mp (List.isPrefixOf_iff_prefix.mp h)
  exact ⟨t, by rw [hd], ht, by simp⟩

theorem replaceAll_skip (new : List Char) {skip : Nat} {s : List Char} (h : skip ≤ s.length) :
    replaceAll old new skip s = replaceAll old new 0 (s.drop skip) ∧
      replacements old skip s = replacements old 0 (s.drop skip) := by
  induction skip generalizing s with
  | zero => exact ⟨rfl, rfl⟩
  | succ skip ih =>
    cases s with
    | nil => simp at h
    | cons c cs =>
      rw [replaceAll, replacements, if_pos (Nat.succ_pos _), if_pos (Nat.succ_pos _)]
      exact ih (by simpa using h)

/-- **One pass.** The text ends, a match is replaced, or a character is kept. -/
theorem replaceAll_cons (new : List Char) (hne : old ≠ []) (c : Char) (cs : List Char) :
    (∃ t, c :: cs = old ++ t ∧ replaceAll old new 0 (c :: cs) = new ++ replaceAll old new 0 t ∧
      replacements old 0 (c :: cs) = replacements old 0 t + 1) ∨
    (¬ old <+: c :: cs ∧ replaceAll old new 0 (c :: cs) = c :: replaceAll old new 0 cs ∧
      replacements old 0 (c :: cs) = replacements old 0 cs) := by
  by_cases h : old.isPrefixOf (c :: cs) = true
  · obtain ⟨t, rfl, ⟨u, rfl⟩, hlen⟩ := tail_prefix hne h
    have hskip : t.length ≤ (t ++ u).length := by simp
    obtain ⟨hr, hn⟩ := replaceAll_skip new hskip
    refine .inl ⟨u, rfl, ?_, ?_⟩
    · rw [replaceAll, if_neg (lt_irrefl 0), if_pos h, hlen, hr, List.drop_left' rfl]
    · rw [replacements, if_neg (lt_irrefl 0), if_pos h, hlen, hn, List.drop_left' rfl]
  · refine .inr ⟨fun hp => h (List.isPrefixOf_iff_prefix.mpr hp), ?_, ?_⟩
    · rw [replaceAll, if_neg (lt_irrefl 0), if_neg h]
    · rw [replacements, if_neg (lt_irrefl 0), if_neg h]

/-- Texts taken apart the way `replaceAll` does. -/
theorem replaceAll_induction (hne : old ≠ []) {P : List Char → Prop} (nil : P [])
    (hit : ∀ t, P t → P (old ++ t)) (keep : ∀ c cs, ¬ old <+: c :: cs → P cs → P (c :: cs))
    (s : List Char) : P s := by
  induction hn : s.length using Nat.strongRecOn generalizing s with
  | _ n ih =>
    subst hn
    cases s with
    | nil => exact nil
    | cons c cs =>
      by_cases h : old <+: c :: cs
      · obtain ⟨t, ht⟩ := h
        have hlen : t.length < (c :: cs).length := by
          rw [← ht, List.length_append]
          have := List.length_pos_iff.mpr hne
          omega
        exact ht ▸ hit t (ih _ hlen t rfl)
      · exact keep c cs h (ih _ (by simp) cs rfl)

theorem replaceAll_hit (new : List Char) (hne : old ≠ []) (t : List Char) :
    replaceAll old new 0 (old ++ t) = new ++ replaceAll old new 0 t ∧
      replacements old 0 (old ++ t) = replacements old 0 t + 1 := by
  obtain ⟨c, u, rfl⟩ := List.exists_cons_of_ne_nil hne
  rcases replaceAll_cons new hne c (u ++ t) with ⟨t', ht, h⟩ | ⟨h, -⟩
  · obtain rfl := List.append_cancel_left (show (c :: u) ++ t = (c :: u) ++ t' from ht)
    exact h
  · exact absurd ⟨t, rfl⟩ h

theorem replaceAll_keep (new : List Char) (hne : old ≠ []) {c : Char} {cs : List Char}
    (h : ¬ old <+: c :: cs) :
    replaceAll old new 0 (c :: cs) = c :: replaceAll old new 0 cs ∧
      replacements old 0 (c :: cs) = replacements old 0 cs := by
  rcases replaceAll_cons new hne c cs with ⟨t, ht, -⟩ | ⟨-, h⟩
  · exact absurd ⟨t, ht.symm⟩ h
  · exact h

/-- Nothing is replaced exactly if the placeholder does not occur. -/
theorem replacements_eq_zero (hne : old ≠ []) (s : List Char) :
    replacements old 0 s = 0 ↔ ¬ old <:+: s := by
  induction s using replaceAll_induction hne with
  | nil => simpa [replacements] using hne
  | hit t _ =>
    rw [(replaceAll_hit [] hne t).2]
    exact iff_of_false (Nat.succ_ne_zero _) (not_not_intro ⟨[], t, rfl⟩)
  | keep c cs h ih =>
    rw [(replaceAll_keep [] hne h).2, ih, List.infix_cons_iff]
    simp [h]

theorem replaceAll_eq_self (hne : old ≠ []) {s : List Char} (h : ¬ old <:+: s) :
    replaceAll old new 0 s = s := by
  induction s using replaceAll_induction hne with
  | nil => rfl
  | hit t _ => exact absurd ⟨[], t, rfl⟩ h
  | keep c cs hc ih =>
    rw [(replaceAll_keep new hne hc).1, ih fun hi => h (List.infix_cons_iff.mpr (.inr hi))]

theorem length_replaceAll (new : List Char) (hne : old ≠ []) (s : List Char) :
    (replaceAll old new 0 s).length + replacements old 0 s * old.length =
      s.length + replacements old 0 s * new.length := by
  induction s using replaceAll_induction hne with
  | nil => simp [replaceAll, replacements]
  | hit t ih =>
    obtain ⟨hr, hn⟩ := replaceAll_hit new hne t
    rw [hr, hn, List.length_append, List.length_append, Nat.succ_mul, Nat.succ_mul]
    omega
  | keep c cs h ih =>
    obtain ⟨hr, hn⟩ := replaceAll_keep new hne h
    rw [hr, hn, List.length_cons, List.length_cons]
    omega

/-- A character the placeholder does not have. -/
theorem count_replaceAll (hne : old ≠ []) {a : Char} (ha : a ∉ old) (s : List Char) :
    (replaceAll old new 0 s).count a = s.count a + replacements old 0 s * new.count a := by
  induction s using replaceAll_induction hne with
  | nil => simp [replaceAll, replacements]
  | hit t ih =>
    obtain ⟨hr, hn⟩ := replaceAll_hit new hne t
    rw [hr, hn, List.count_append, List.count_append, ih, List.count_eq_zero.mpr ha, Nat.succ_mul]
    omega
  | keep c cs h ih =>
    obtain ⟨hr, hn⟩ := replaceAll_keep new hne h
    rw [hr, hn, List.count_cons, List.count_cons, ih]
    omega

/-- **Words that stand in for a placeholder.** Where it occurs, different words give
different texts. -/
theorem replaceAll_injective (hne : old ≠ []) {s : List Char} (h : old <:+: s) {v w : List Char}
    (he : replaceAll old v 0 s = replaceAll old w 0 s) : v = w := by
  have hpos : 0 < replacements old 0 s :=
    Nat.pos_of_ne_zero fun h0 => (replacements_eq_zero hne s).mp h0 h
  have hlen : v.length = w.length := by
    have hv := length_replaceAll v hne s
    have hw := length_replaceAll w hne s
    rw [he] at hv
    exact Nat.eq_of_mul_eq_mul_left hpos (by omega)
  clear h
  induction s using replaceAll_induction hne with
  | nil => simp [replacements] at hpos
  | hit t _ =>
    rw [(replaceAll_hit v hne t).1, (replaceAll_hit w hne t).1] at he
    exact (List.append_inj he hlen).1
  | keep c cs hc ih =>
    rw [(replaceAll_keep v hne hc).1, (replaceAll_keep w hne hc).1] at he
    rw [(replaceAll_keep [] hne hc).2] at hpos
    exact ih (List.cons.inj he).2 hpos

end CksLoadtest
