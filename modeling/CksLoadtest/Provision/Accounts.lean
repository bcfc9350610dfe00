import Mathlib.Data.Rat.Floor
import Mathlib.Data.Set.Function
import Mathlib.Data.Set.Subsingleton
import Mathlib.Data.List.TakeWhile
import CksLoadtest.Provision.Substitution

/-!
# Which accounts a fleet uses

When the derived accounts of a fleet are different, and when the two scripts derive the
accounts the harness derives. The scripts read the options of the harness from the same
environment; their replacements are literal.
-/
namespace CksLoadtest

/-- The placeholders replaced one after the other. -/
def fillPattern (localPart domain idx pattern : List Char) : List Char :=
  replaceAll "{index}".toList idx 0
    (replaceAll "{domain}".toList domain 0 (replaceAll "{local}".toList localPart 0 pattern))

namespace Shell

/-- `${s%@*}` -/
def removeShortestSuffix (s : List Char) : List Char :=
  match s.reverse.dropWhile (· ≠ '@') with
  | [] => s
  | _ :: rest => rest.reverse

/-- `${s%%@*}` -/
def removeLongestSuffix (s : List Char) : List Char := s.takeWhile (· ≠ '@')

/-- `${s#*@}` -/
def removeShortestPrefix (s : List Char) : List Char :=
  match s.dropWhile (· ≠ '@') with
  | [] => s
  | _ :: rest => rest

/-- `${s##*@}` -/
def removeLongestPrefix (s : List Char) : List Char := (s.reverse.takeWhile (· ≠ '@')).reverse

end Shell

variable {K : Type*}

/-- `PATTERN` of both scripts. -/
def scriptPattern (cfg : Config K) : List Char :=
  if cfg.emailPattern = "" then "{local}+lt-{index}@{domain}".toList else cfg.emailPattern.toList

/-- `derived_email` of `provision-roster.sh`. -/
def ProvisionRoster.derivedEmail (cfg : Config K) (idx : Int) : String :=
  let email := cfg.email.toList
  String.ofList (fillPattern (Shell.removeShortestSuffix email) (Shell.removeShortestPrefix email)
    (cfg.formatIndex idx) (scriptPattern cfg))

/-- The derivation in the loop of `grant-access.sh`. -/
def GrantAccess.derivedEmail (cfg : Config K) (idx : Int) : String :=
  let email := cfg.email.toList
  String.ofList (fillPattern (Shell.removeLongestSuffix email) (Shell.removeLongestPrefix email)
    (cfg.formatIndex idx) (scriptPattern cfg))

namespace Config

variable (cfg : Config K)

/-- The pattern after its `{local}` and `{domain}` substitutions. -/
def accountTemplate : List Char :=
  let email := cfg.email.toList
  replaceAll "{domain}".toList ((email.dropWhile (· ≠ '@')).drop 1) 0
    (replaceAll "{local}".toList (email.takeWhile (· ≠ '@')) 0 cfg.emailPattern.toList)

theorem derivedEmail_eq (i : Int) : cfg.derivedEmail i =
    String.ofList (replaceAll "{index}".toList (cfg.formatIndex i) 0 cfg.accountTemplate) := rfl

/-- A padded index is the index in decimal. -/
theorem formatIndex_value {i : Int} (h : 0 ≤ i) :
    Nat.ofDigitChars 10 (cfg.formatIndex i) 0 = i.toNat := by
  have hsign : ¬ i < 0 := by omega
  simp only [formatIndex, if_neg hsign, List.nil_append, Nat.ofDigitChars_append,
    Nat.ofDigitChars_replicate_zero, Nat.mul_zero, Nat.ofDigitChars_ten_toDigits]
  omega

theorem formatIndex_injective {i j : Int} (hi : 0 ≤ i) (hj : 0 ≤ j)
    (h : cfg.formatIndex i = cfg.formatIndex j) : i = j := by
  have := cfg.formatIndex_value hi
  rw [h, cfg.formatIndex_value hj] at this
  omega

/-- Without a placeholder the index is not in the account. -/
theorem derivedEmail_const (h : ¬ "{index}".toList <:+: cfg.accountTemplate) (i : Int) :
    cfg.derivedEmail i = String.ofList cfg.accountTemplate := by
  rw [derivedEmail_eq, replaceAll_eq_self (by decide) h]

/-- **Distinct accounts.** The clients of a fleet of two or more have accounts of their own
exactly if the pattern still has an `{index}` when the other two placeholders are filled. -/
theorem derivedEmail_injOn_iff (s : Set Int) (hs : ∀ i ∈ s, 0 ≤ i) (hmore : s.Nontrivial) :
    Set.InjOn cfg.derivedEmail s ↔ "{index}".toList <:+: cfg.accountTemplate := by
  constructor
  · intro hinj
    obtain ⟨i, hi, j, hj, hne⟩ := hmore
    by_contra hno
    have hsame : cfg.derivedEmail i = cfg.derivedEmail j := by
      rw [cfg.derivedEmail_const hno i, cfg.derivedEmail_const hno j]
    exact hne (hinj hi hj hsame)
  · intro hin i hi j hj h
    rw [derivedEmail_eq, derivedEmail_eq, String.ofList_inj] at h
    exact cfg.formatIndex_injective (hs i hi) (hs j hj) (replaceAll_injective (by decide) hin h)

/-- The options of a small fleet, with a pattern. -/
def smallFleet (emailPattern : String) : Config ℚ :=
  { walkSpeed := -1, chunkSizeUnits := -1
    email := "bots@studio.example", password := "hunter22"
    managementApiUrl := "https://api.example", appId := 7
    clients := 2, indexLimit := 2, emailPattern := emailPattern }

theorem smallFleet_accounts :
    Set.InjOn (smallFleet "{local}+lt-{index}@{domain}").derivedEmail {i | 0 ≤ i ∧ i < 2} :=
  ((smallFleet _).derivedEmail_injOn_iff _ (fun _ h => h.1)
    ⟨0, by decide, 1, by decide, by decide⟩).mpr (by decide +kernel)

/-- Both clients of an accepted configuration share an account. -/
theorem shared_account :
    (smallFleet "{local}@{domain}").Accepted ∧
      ¬ "{index}".toList <:+: (smallFleet "{local}@{domain}").accountTemplate ∧
      (smallFleet "{local}@{domain}").derivedEmail 0 = "bots@studio.example" ∧
      (smallFleet "{local}@{domain}").derivedEmail 1 = "bots@studio.example" := by
  refine ⟨?_, by decide +kernel, by decide +kernel, by decide +kernel⟩
  show Config.validate _ = _
  decide +kernel

end Config

/-! ### The scripts -/

/-- A text that has an `@`, taken apart at the first one. -/
theorem at_first {s : List Char} (h : '@' ∈ s) :
    s = s.takeWhile (· ≠ '@') ++ '@' :: (s.dropWhile (· ≠ '@')).drop 1 := by
  induction s with
  | nil => simp at h
  | cons c s ih =>
    by_cases hc : c = '@'
    · simp [hc]
    · rw [List.takeWhile_cons_of_pos (by simpa using hc),
        List.dropWhile_cons_of_pos (by simpa using hc), List.cons_append,
        ← ih (by simpa [Ne.symm hc] using h)]

theorem count_before (s : List Char) : (s.takeWhile (· ≠ '@')).count '@' = 0 := by
  rw [List.count_eq_zero]
  intro h
  simpa using List.mem_takeWhile_imp h

theorem count_after {s : List Char} (h : '@' ∈ s) :
    ((s.dropWhile (· ≠ '@')).drop 1).count '@' + 1 = s.count '@' := by
  have hc := congrArg (List.count '@') (at_first h)
  rw [List.count_append, count_before, List.count_cons_self] at hc
  omega

/-- Nothing before the first `@` is the text itself only if there is none. -/
theorem dropWhile_ne_nil {s : List Char} (h : '@' ∈ s) : s.dropWhile (· ≠ '@') ≠ [] := by
  intro hd
  simpa using List.dropWhile_eq_nil_iff.mp hd '@' h

namespace Shell

variable {s : List Char}

theorem removeShortestPrefix_eq (h : '@' ∈ s) :
    removeShortestPrefix s = (s.dropWhile (· ≠ '@')).drop 1 := by
  unfold removeShortestPrefix
  cases hd : s.dropWhile (· ≠ '@') with
  | nil => exact absurd hd (dropWhile_ne_nil h)
  | cons c rest => rfl

theorem removeShortestSuffix_eq (h : '@' ∈ s) :
    removeShortestSuffix s = ((s.reverse.dropWhile (· ≠ '@')).drop 1).reverse := by
  unfold removeShortestSuffix
  cases hd : s.reverse.dropWhile (· ≠ '@') with
  | nil => exact absurd hd (dropWhile_ne_nil (List.mem_reverse.mpr h))
  | cons c rest => rfl

theorem count_removeShortestPrefix (h : '@' ∈ s) :
    (removeShortestPrefix s).count '@' + 1 = s.count '@' := by
  rw [removeShortestPrefix_eq h, count_after h]

theorem count_removeShortestSuffix (h : '@' ∈ s) :
    (removeShortestSuffix s).count '@' + 1 = s.count '@' := by
  rw [removeShortestSuffix_eq h, List.count_reverse, count_after (List.mem_reverse.mpr h),
    List.count_reverse]

theorem count_removeLongestPrefix (s : List Char) : (removeLongestPrefix s).count '@' = 0 := by
  rw [removeLongestPrefix, List.count_reverse, count_before]

/-- A text that has an `@`, taken apart at the last one. -/
theorem at_last (h : '@' ∈ s) : s = removeShortestSuffix s ++ '@' :: removeLongestPrefix s := by
  rw [removeShortestSuffix_eq h, removeLongestPrefix]
  have hrev := congrArg List.reverse (at_first (List.mem_reverse.mpr h))
  rw [List.reverse_reverse, List.reverse_append, List.reverse_cons, List.append_assoc] at hrev
  exact hrev

/-- Where there is one `@`, the first and the last are the same. -/
theorem halves_alike (hone : s.count '@' = 1) :
    removeShortestSuffix s = removeLongestSuffix s ∧
      removeLongestPrefix s = removeShortestPrefix s := by
  have h : '@' ∈ s := List.count_pos_iff.mp (by omega)
  have hlast := count_removeShortestSuffix h
  have hsplit := (at_last h).symm.trans (at_first h)
  rw [← removeShortestPrefix_eq h] at hsplit
  obtain ⟨hl, -, hd⟩ := (List.append_cons_inj_of_notMem (List.count_eq_zero.mp (by omega))
    (List.count_eq_zero.mp (count_removeLongestPrefix s))).mp hsplit
  exact ⟨hl, hd⟩

end Shell

theorem at_notMem_formatIndex (cfg : Config K) (i : Int) : '@' ∉ cfg.formatIndex i := by
  intro h
  simp only [Config.formatIndex, List.mem_append, List.mem_replicate] at h
  rcases h with (h | h) | h
  · split at h <;> simp at h
  · exact absurd h.2 (by decide)
  · exact absurd (Nat.isDigit_of_mem_toDigits (by decide) (by decide) h) (by decide)

/-- The `@`s of a filled pattern. -/
theorem count_fillPattern (localPart domain pattern : List Char) (cfg : Config K) (i : Int) :
    (fillPattern localPart domain (cfg.formatIndex i) pattern).count '@' =
      pattern.count '@' + replacements "{local}".toList 0 pattern * localPart.count '@' +
        replacements "{domain}".toList 0 (replaceAll "{local}".toList localPart 0 pattern) *
          domain.count '@' := by
  rw [fillPattern, count_replaceAll (by decide) (by decide),
    count_replaceAll (by decide) (by decide), count_replaceAll (by decide) (by decide),
    List.count_eq_zero.mpr (at_notMem_formatIndex cfg i),
    Nat.mul_zero, Nat.add_zero]

namespace Config

variable (cfg : Config K)

theorem derivedEmail_fill (i : Int) : cfg.derivedEmail i =
    String.ofList (fillPattern (Shell.removeLongestSuffix cfg.email.toList)
      ((cfg.email.toList.dropWhile (· ≠ '@')).drop 1) (cfg.formatIndex i)
      cfg.emailPattern.toList) :=
  rfl

/-- **The scripts and the harness.** The three derivations give the same account exactly if
the base account has one `@`, or the pattern does not use the parts around it. -/
theorem scripts_agree_iff (hat : '@' ∈ cfg.email.toList) (hpat : cfg.emailPattern ≠ "") (i : Int) :
    ProvisionRoster.derivedEmail cfg i = cfg.derivedEmail i ∧
        GrantAccess.derivedEmail cfg i = cfg.derivedEmail i ↔
      cfg.email.toList.count '@' = 1 ∨
        (¬ "{local}".toList <:+: cfg.emailPattern.toList ∧
          ¬ "{domain}".toList <:+: cfg.emailPattern.toList) := by
  rw [derivedEmail_fill, ← Shell.removeShortestPrefix_eq hat]
  simp only [ProvisionRoster.derivedEmail, GrantAccess.derivedEmail, scriptPattern, if_neg hpat,
    String.ofList_inj]
  constructor
  · rintro ⟨hroster, hgrant⟩
    by_cases hone : cfg.email.toList.count '@' = 1
    · exact .inl hone
    · right
      -- the parts the scripts and the harness substitute have different numbers of `@`
      have hr := congrArg (List.count '@') hroster
      have hg := congrArg (List.count '@') hgrant
      have hpos := List.count_pos_iff.mpr hat
      have hlocal := Shell.count_removeShortestSuffix hat
      have hdomain := Shell.count_removeShortestPrefix hat
      rw [count_fillPattern, count_fillPattern, Shell.removeLongestSuffix, count_before,
        ← Shell.removeLongestSuffix] at hr hg
      rw [Shell.count_removeLongestPrefix] at hg
      have hd := Nat.mul_eq_zero.mp
        (show replacements "{domain}".toList 0 (replaceAll "{local}".toList
            (Shell.removeLongestSuffix cfg.email.toList) 0 cfg.emailPattern.toList) *
          (Shell.removeShortestPrefix cfg.email.toList).count '@' = 0 by omega)
      have hl := Nat.mul_eq_zero.mp
        (show replacements "{local}".toList 0 cfg.emailPattern.toList *
          (Shell.removeShortestSuffix cfg.email.toList).count '@' = 0 by omega)
      have hno : ¬ "{local}".toList <:+: cfg.emailPattern.toList :=
        (replacements_eq_zero (by decide) _).mp (hl.resolve_right (by omega))
      rw [replaceAll_eq_self (by decide) hno] at hd
      exact ⟨hno, (replacements_eq_zero (by decide) _).mp (hd.resolve_right (by omega))⟩
  · rintro (hone | ⟨hl, hd⟩)
    · obtain ⟨h₁, h₂⟩ := Shell.halves_alike hone
      rw [h₁, h₂]
      exact ⟨rfl, rfl⟩
    · have hfree : ∀ localPart domain, fillPattern localPart domain (cfg.formatIndex i)
          cfg.emailPattern.toList =
          replaceAll "{index}".toList (cfg.formatIndex i) 0 cfg.emailPattern.toList := by
        intro localPart domain
        rw [fillPattern, replaceAll_eq_self (by decide) hl, replaceAll_eq_self (by decide) hd]
      rw [hfree, hfree, hfree]
      exact ⟨rfl, rfl⟩

theorem smallFleet_scripts :
    ProvisionRoster.derivedEmail (smallFleet "{local}+lt-{index}@{domain}") 12 =
        (smallFleet "{local}+lt-{index}@{domain}").derivedEmail 12 ∧
      GrantAccess.derivedEmail (smallFleet "{local}+lt-{index}@{domain}") 12 =
        (smallFleet "{local}+lt-{index}@{domain}").derivedEmail 12 :=
  ((smallFleet _).scripts_agree_iff (by decide +kernel) (by decide +kernel) 12).mpr
    (.inl (by decide +kernel))

/-- `LT_EMAIL` with a second `@`, which `validate` lets through. -/
def quotedFleet : Config ℚ :=
  { smallFleet "{local}+lt-{index}@{domain}" with email := "\"a@b\"@studio.example" }

theorem quotedFleet_scripts :
    quotedFleet.Accepted ∧
      quotedFleet.derivedEmail 0 = "\"a+lt-0000@b\"@studio.example" ∧
      ProvisionRoster.derivedEmail quotedFleet 0 = "\"a@b\"+lt-0000@b\"@studio.example" ∧
      GrantAccess.derivedEmail quotedFleet 0 = "\"a+lt-0000@studio.example" := by
  refine ⟨?_, by decide +kernel, by decide +kernel, by decide +kernel⟩
  show Config.validate _ = _
  decide +kernel

end Config

end CksLoadtest
