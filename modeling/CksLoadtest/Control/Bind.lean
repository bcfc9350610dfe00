import Mathlib.Data.List.TakeWhile
import Mathlib.Data.Rat.Floor
import CksLoadtest.Config

/-!
# The control server's bind

`parseControlBind` has one exit per shape of the text. All of them set the flags from the host
they parsed, but the one for a bracket that is never closed, which keeps the defaults.
-/
namespace CksLoadtest

/-- A host only the machine itself reaches. -/
def LoopbackHost (host : List Char) : Prop :=
  host = "127.0.0.1".toList ∨ host = "::1".toList ∨ host = "localhost".toList

instance (host : List Char) : Decidable (LoopbackHost host) :=
  inferInstanceAs (Decidable (_ ∨ _ ∨ _))

/-- A bracket that is never closed. -/
def Unclosed (s : List Char) : Prop := s.head? = some '[' ∧ ']' ∉ s

instance (s : List Char) : Decidable (Unclosed s) := inferInstanceAs (Decidable (_ ∧ _))

namespace ControlBind

theorem finish_loopback (host : List Char) (port : Int) :
    (finish host port).loopback = true ↔ LoopbackHost (finish host port).host := by
  unfold finish LoopbackHost
  generalize (if host = [] then "0.0.0.0".toList else host) = h
  rw [Bool.or_eq_true, Bool.or_eq_true, decide_eq_true_iff, decide_eq_true_iff,
    decide_eq_true_iff, or_assoc]

theorem finish_disabled (host : List Char) (port : Int) : (finish host port).disabled = false := rfl

end ControlBind

/-- **The exits.** The control server is off, the flags follow the host, or a bracket is open
and the bind is the default one with the text for its host. -/
theorem parseControlBind_cases {spec : List Char} {b : ControlBind}
    (h : parseControlBind spec = some b) :
    b.disabled = true ∧ ¬ Unclosed (trim spec) ∨
      (∃ host port, b = ControlBind.finish host port) ∧ ¬ Unclosed (trim spec) ∨
      b = { host := trim spec } ∧ Unclosed (trim spec) := by
  unfold parseControlBind at h
  generalize hs : trim spec = s at h ⊢
  dsimp only at h
  split at h
  · rename_i hoff
    obtain rfl := Option.some.inj h
    refine .inl ⟨rfl, ?_⟩
    rcases hoff with rfl | rfl | rfl | rfl <;> decide
  · split at h
    · rename_i t _
      split at h
      · rename_i hopen
        obtain rfl := Option.some.inj h
        refine .inr (.inr ⟨rfl, rfl, fun hm => ?_⟩)
        have ht : ']' ∈ t := by simpa using hm
        simpa using List.dropWhile_eq_nil_iff.mp hopen ']' ht
      · rename_i c rest hclosed
        have hno : ¬ Unclosed ('[' :: t) := by
          rintro ⟨-, hm⟩
          have hnil : t.dropWhile (· ≠ ']') = [] := List.dropWhile_eq_nil_iff.mpr fun x hx => by
            simpa using ne_of_mem_of_not_mem (List.mem_cons_of_mem _ hx) hm
          exact absurd (hclosed.symm.trans hnil) (List.cons_ne_nil c rest)
        split at h
        · obtain ⟨port, -, rfl⟩ := Option.map_eq_some_iff.mp h
          exact .inr (.inl ⟨⟨_, _, rfl⟩, hno⟩)
        · obtain rfl := Option.some.inj h
          exact .inr (.inl ⟨⟨_, _, rfl⟩, hno⟩)
    · rename_i hbare
      have hno : ¬ Unclosed s := by
        rintro ⟨hhead, -⟩
        obtain ⟨t, ht⟩ := List.head?_eq_some_iff.mp hhead
        exact hbare t ht
      split at h
      · obtain rfl := Option.some.inj h
        exact .inr (.inl ⟨⟨_, _, rfl⟩, hno⟩)
      · obtain ⟨port, -, rfl⟩ := Option.map_eq_some_iff.mp h
        exact .inr (.inl ⟨⟨_, _, rfl⟩, hno⟩)

/-- A text with an open bracket is no loopback host. -/
theorem Unclosed.not_loopback {s : List Char} (h : Unclosed s) : ¬ LoopbackHost s := by
  rintro (rfl | rfl | rfl) <;> exact absurd h (by decide)

namespace Config

variable {K : Type*} {cfg : Config K}

theorem Accepted.bind_passes (hacc : cfg.Accepted) :
    ∃ b, cfg.parsedBind = some b ∧ ∀ c ∈ cfg.bindChecks b, c.fails = false := by
  have hfields := (firstError_eq_empty _).mpr hacc.passes
  rw [Accepted, validate] at hacc
  simp only [hfields, ne_eq, not_true_eq_false, if_false] at hacc
  obtain ⟨b, hb, hnone⟩ := Option.map_eq_some_iff.mp hacc
  exact ⟨b, hb, (firstError_eq_empty _).mp hnone⟩

/-- Without a token, a server that is on is flagged as loopback. -/
theorem Accepted.flagged {b : ControlBind} (hacc : cfg.Accepted) (htoken : cfg.controlToken = "")
    (hb : cfg.parsedBind = some b) : b.disabled = true ∨ b.loopback = true := by
  obtain ⟨b', hb', hpass⟩ := hacc.bind_passes
  obtain rfl : b = b' := Option.some.inj (hb.symm.trans hb')
  by_contra hno
  rw [not_or] at hno
  unfold bindChecks at hpass
  split at hpass
  · exact hno.1 ‹_›
  · have hcheck : (!b.loopback && decide (cfg.controlToken = "")) = false :=
      hpass _ (List.mem_append_left _ (.tail _ (.head _)))
    simp [hno.2, htoken] at hcheck

/-- **An open server.** Without a token, an accepted configuration has the control server
off or on a loopback host exactly if its text does not leave a bracket open. -/
theorem bind_loopback_iff (hacc : cfg.Accepted) (htoken : cfg.controlToken = "") :
    (∃ b, cfg.parsedBind = some b ∧ (b.disabled = true ∨ LoopbackHost b.host)) ↔
      ¬ Unclosed (trim cfg.controlBind.toList) := by
  obtain ⟨b, hb, -⟩ := hacc.bind_passes
  have hflag := hacc.flagged htoken hb
  rcases parseControlBind_cases hb with ⟨hoff, hno⟩ | ⟨⟨host, port, rfl⟩, hno⟩ | ⟨rfl, hopen⟩
  · exact iff_of_true ⟨b, hb, .inl hoff⟩ hno
  · have hloop := hflag.resolve_left (by simp [ControlBind.finish_disabled])
    exact iff_of_true ⟨_, hb, .inr ((ControlBind.finish_loopback host port).mp hloop)⟩ hno
  · refine iff_of_false ?_ (not_not_intro hopen)
    rintro ⟨b, hb', hoff | hloop⟩
    · obtain rfl := Option.some.inj (hb.symm.trans hb')
      simp at hoff
    · obtain rfl := Option.some.inj (hb.symm.trans hb')
      exact hopen.not_loopback hloop

end Config

namespace Sample

/-- A configuration with the default control port, at a bind. -/
def boundTo (controlBind : String) : Config ℚ :=
  { walkSpeed := -1, chunkSizeUnits := -1
    email := "bots@studio.example", password := "hunter22"
    managementApiUrl := "https://api.example", appId := 7
    clients := 0, indexLimit := 1, controlBind := controlBind }

end Sample

theorem default_bind_loopback :
    ∃ b, (Sample.boundTo "127.0.0.1:9109").parsedBind = some b ∧
      (b.disabled = true ∨ LoopbackHost b.host) :=
  (Config.bind_loopback_iff
    (show (Sample.boundTo "127.0.0.1:9109").validate = some "" by decide +kernel) rfl).mpr
      (by decide +kernel)

/-- Every interface, taken for loopback. -/
theorem open_bracket_accepted :
    (Sample.boundTo "[0.0.0.0").Accepted ∧ (Sample.boundTo "[0.0.0.0").controlToken = "" ∧
      ∃ b, (Sample.boundTo "[0.0.0.0").parsedBind = some b ∧ b.disabled = false ∧
        b.loopback = true ∧ ¬ LoopbackHost b.host :=
  ⟨show Config.validate _ = _ by decide +kernel, rfl, _, rfl, rfl, rfl, by decide +kernel⟩

end CksLoadtest
