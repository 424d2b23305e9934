import Mathlib.Data.List.Infix
import ServiceRecovery.L2Scheduler.Bounds

/-!
# Is DISABLE final?

`RecoveryState::DISABLE` is documented as taking the peer offline with no further recovery attempt,
and the changelog has it collapse the action ring so that later failures do not restart the
service. `onServiceFailure` stores it like any other action: the cursor stays, and the next failure
moves on.

`DisableFinal s tr` is the documented property of a run. `disable_final_iff` gives the exact
condition, on the policies and the numbers of failures of the run: within one life of the entry the
ring never reaches a RESTART after a DISABLE (`DisableLast`). The default policy breaks it at the
fifth failure (`disable_not_final`).

* `later_visit_iff`: when the ring visits one position after another;
* `history_append`, `failureAt_of_lt`: the failures of one life of an entry, as points of the run.
-/
namespace ServiceRecovery

open RecoveryState SServiceRecoveryInfo ServiceRecovery.Ring

/-- The failure of `s` that leads from `m` to `m'` stores the action `a`. -/
structure Selects (s : String) (m m' : Registry) (a : RecoveryState) : Prop where
  step : calls.step m (.onServiceFailure s) m'
  stored : ∃ info', m'.lookups s = some info' ∧ info'.currentRecoveryState = a

/-- No failure of `s` in the run selects RESTART after an earlier one selected DISABLE, unless `s`
was unregistered in between. -/
def DisableFinal (s : String) (tr : List Call) : Prop :=
  ∀ t₁ t₂ t₃ a b c d, tr = t₁ ++ .onServiceFailure s :: t₂ ++ .onServiceFailure s :: t₃ →
    calls.Run .empty t₁ a → Selects s a b DISABLE → calls.Run b t₂ c →
    .onUnregisterService s ∉ t₂ → ¬ Selects s c d RESTART

/-- The number of positions after which the cursor is back at 0. -/
def ringLen (n : Nat) : Nat := if wraps n then n % 256 else n

/-- In `k` failures under the policy `P` no RESTART comes after a DISABLE: for each position `p` of
a DISABLE and `r` of a RESTART, the first visit of `r` after that of `p` is not among them. -/
def DisableLast (P : List RecoveryState) (k : Nat) : Prop :=
  ∀ p < ringLen P.length, ∀ r < ringLen P.length,
    P[p]? = some DISABLE → P[r]? = some RESTART → k ≤ if p < r then r else r + ringLen P.length

instance (P : List RecoveryState) (k : Nat) : Decidable (DisableLast P k) :=
  inferInstanceAs (Decidable (∀ p < _, ∀ r < _, _ → _ → _))

/-! ## Laps of the ring -/

theorem ringLen_pos {n : Nat} (hn : 0 < n) : 0 < ringLen n := by
  unfold ringLen
  split
  · rename_i hw; exact hw.1
  · exact hn

/-- A position that is inside the policy is the number of advances modulo a lap. -/
theorem ringPos_lap {n j : Nat} (hn : 0 < n) (h : wraps n ∨ j < 128) :
    ringPos n j = j % ringLen n := by
  unfold ringLen
  by_cases hw : wraps n
  · rw [if_pos hw, ringPos_wraps hw]
  · have hj : j < 128 := h.resolve_left hw
    rw [if_neg hw, ringPos_straight hw, Nat.mod_eq_of_lt]
    unfold wraps at hw; omega

/-- With `m` positions, `r` is visited after `p` within the first `k` advances exactly when the
first such visit is: in the same lap when `p < r`, and in the next one otherwise. -/
theorem later_visit_iff {m p r k : Nat} (hp : p < m) (hr : r < m) :
    (∃ j j', j < j' ∧ j' < k ∧ j % m = p ∧ j' % m = r) ↔ (if p < r then r else r + m) < k := by
  constructor
  · intro hv
    obtain ⟨j, j', hjj', hk, rfl, rfl⟩ := hv
    have hle := Nat.mod_le j' m
    split
    · omega
    · rename_i hpr
      -- in the first lap `j'` would be its own position, and `j` before it
      have hlap : m ≤ j' := by
        by_contra hlt
        rw [Nat.mod_eq_of_lt (by omega), Nat.mod_eq_of_lt (by omega)] at hpr
        omega
      have := Nat.mod_add_div j' m
      have := Nat.le_mul_of_pos_right m (Nat.div_pos hlap (by omega))
      omega
  · intro hk
    split at hk
    · exact ⟨p, r, ‹_›, hk, Nat.mod_eq_of_lt hp, Nat.mod_eq_of_lt hr⟩
    · exact ⟨p, r + m, by omega, hk, Nat.mod_eq_of_lt hp,
        by rw [Nat.add_mod_right, Nat.mod_eq_of_lt hr]⟩

theorem disableLast_iff {P : List RecoveryState} {k : Nat} (hP : 0 < P.length) :
    DisableLast P k ↔ ∀ j j', j < j' → j' < k → P[j % ringLen P.length]? = some DISABLE →
      P[j' % ringLen P.length]? ≠ some RESTART := by
  have hm := ringLen_pos hP
  constructor
  · intro hl j j' hjj' hk hd hr
    have := hl _ (Nat.mod_lt j hm) _ (Nat.mod_lt j' hm) hd hr
    have := (later_visit_iff (Nat.mod_lt j hm) (Nat.mod_lt j' hm)).mp
      ⟨j, j', hjj', hk, rfl, rfl⟩
    omega
  · intro hall p hp r hr hd hres
    by_contra hlt
    obtain ⟨j, j', hjj', hk, rfl, rfl⟩ := (later_visit_iff hp hr).mpr (Nat.not_le.mp hlt)
    exact hall j j' hjj' hk hd hres

/-! ## One life of an entry -/

section
variable {s : String} {t u h : List Call}

theorem history_append (hh : history s t = some h) (hu : .onUnregisterService s ∉ u) :
    history s (t ++ u) = some (h ++ u.filter (Call.names s)) := by
  induction u using List.reverseRecOn with
  | nil => simpa using hh
  | append_singleton u c ih =>
    simp only [List.mem_append, List.mem_singleton, not_or] at hu
    have ih := ih hu.1
    rw [← List.append_assoc]
    by_cases hc : c.serviceName = s
    · have he : c.erases = false := by
        cases c with
        | onUnregisterService s' => exact absurd (congrArg _ hc.symm) hu.2
        | _ => rfl
      rw [history_snoc hc, ih]
      simp [nextEpisode, he, Call.names, hc]
    · rw [history_snoc_other hc, ih]
      simp [Call.names, hc]

/-- The run `t` at the failure of `s` that came after `j` others under the policy `P`, in the life
that is the current one at the end of `t`. -/
def FailureAt (s : String) (t : List Call) (P : List RecoveryState) (j : Nat) : Prop :=
  ∃ t₁ t₂ h, t = t₁ ++ .onServiceFailure s :: t₂ ∧ history s t₁ = some h ∧ policyOf h = P ∧
    failures h = j ∧ .onUnregisterService s ∉ t₂

theorem FailureAt.snoc {P : List RecoveryState} {j : Nat} {c : Call} (hf : FailureAt s t P j)
    (hc : c ≠ .onUnregisterService s) : FailureAt s (t ++ [c]) P j := by
  obtain ⟨t₁, t₂, h, rfl, hh, hp, hj, ht₂⟩ := hf
  exact ⟨t₁, t₂ ++ [c], h, by simp, hh, hp, hj, by simp [ht₂, Ne.symm hc]⟩

/-- Each failure of the current life is a point of the run. -/
theorem failureAt_of_lt {j : Nat} (hh : history s t = some h) (hj : j < failures h) :
    FailureAt s t (policyOf h) j := by
  induction t using List.reverseRecOn generalizing h with
  | nil => cases hh
  | append_singleton t c ih =>
    by_cases hc : c.serviceName = s
    · rw [history_snoc hc] at hh
      cases hp : history s t with
      | none =>
        rw [hp] at hh
        cases c with
        | onRegisterService s' acts ivl pid =>
          simp only [nextEpisode] at hh
          split at hh
          · cases hh
            simp [failures, Call.isFailure] at hj
          · cases hh
        | _ => cases hh
      | some h₀ =>
        rw [hp] at hh
        have hne := history_ne_nil hp
        cases c with
        | onUnregisterService s' => cases hh
        | onServiceFailure s' =>
          obtain rfl : s' = s := hc
          cases hh
          rw [policyOf_snoc _ hne]
          simp only [failures_snoc, Call.isFailure, if_true] at hj
          rcases Nat.lt_or_ge j (failures h₀) with hlt | hge
          · exact (ih hp hlt).snoc (by simp)
          · exact ⟨t, [], h₀, rfl, hp, rfl, by omega, by simp⟩
        | _ =>
          cases hh
          rw [policyOf_snoc _ hne]
          refine (ih hp ?_).snoc (by simp)
          simpa [failures_snoc, Call.isFailure] using hj
    · rw [history_snoc_other hc] at hh
      refine (ih hh hj).snoc ?_
      intro he
      subst he
      exact hc rfl

/-! ## What a failure selects -/

variable {tr : List Call} {m m' : Registry} {a : RecoveryState}

theorem failure_stores (hr : calls.Run .empty t m) (hh : history s t = some h)
    (hst : calls.step m (.onServiceFailure s) m') : ∃ info', m'.lookups s = some info' ∧
      (policyOf h)[failures h % ringLen (policyOf h).length]? =
        some info'.currentRecoveryState := by
  obtain ⟨info, hi, ht⟩ := tracks_of_history hr hh
  obtain ⟨info', hi', ha⟩ := failure_step hst hi
  have hlt := (List.getElem?_eq_some_iff.mp ha).1
  refine ⟨info', hi', ?_⟩
  rw [← ringPos_lap ht.pos (ht.nextIndex_lt_iff.mp hlt), ← ht.nextIndex_eq hlt, ← ht.actions, ha]

theorem selects_of_history (hr : calls.Run .empty t m) (hh : history s t = some h)
    (hst : calls.step m (.onServiceFailure s) m')
    (ha : (policyOf h)[failures h % ringLen (policyOf h).length]? = some a) :
    Selects s m m' a := by
  obtain ⟨info', hi', ha'⟩ := failure_stores hr hh hst
  exact ⟨hst, info', hi', Option.some.inj (ha'.symm.trans ha)⟩

/-- A failure that selects anything is one of a registered service. -/
theorem Selects.history (hs : Selects s m m' a) (hr : calls.Run .empty t m) :
    ∃ h, history s t = some h ∧
      (policyOf h)[failures h % ringLen (policyOf h).length]? = some a := by
  obtain ⟨hst, info', hi', rfl⟩ := hs
  have hreg := (registered_iff (hr.snoc hst) s).mp (Option.isSome_of_eq_some hi')
  rw [history_snoc (s := s) rfl] at hreg
  cases hh : ServiceRecovery.history s t with
  | none => simp [hh, nextEpisode, Call.creates] at hreg
  | some h =>
    obtain ⟨info₁, hi₁, ha⟩ := failure_stores hr hh hst
    obtain rfl : info' = info₁ := Option.some.inj (hi'.symm.trans hi₁)
    exact ⟨h, rfl, ha⟩

/-! ## Both directions -/

theorem disableFinal_of_disableLast
    (hall : ∀ t h, t <+: tr → history s t = some h → DisableLast (policyOf h) (failures h)) :
    DisableFinal s tr := by
  intro t₁ t₂ t₃ a b c d he hr₁ hd hr₂ hu hres
  obtain ⟨h₁, hh₁, ha₁⟩ := hd.history hr₁
  obtain ⟨h₂, hh₂, ha₂⟩ := hres.history (hr₁.append (.cons hd.step hr₂))
  have hext := history_append hh₁ (u := .onServiceFailure s :: t₂) (by simp [hu])
  obtain rfl : h₂ = _ := Option.some.inj (hh₂.symm.trans hext)
  have hpre : t₁ ++ .onServiceFailure s :: t₂ ++ [.onServiceFailure s] <+: tr := by
    rw [he]; exact ⟨t₃, by simp⟩
  have hl := hall _ _ hpre (by rw [history_snoc (s := s) rfl, hh₂]; rfl)
  rw [policyOf_snoc _ (history_ne_nil hh₂)] at hl
  rw [policyOf_append (history_ne_nil hh₁)] at hl ha₂
  refine (disableLast_iff ?_).mp hl (failures h₁) _ ?_ ?_ ha₁ ha₂
  · exact Nat.zero_lt_of_lt (List.getElem?_eq_some_iff.mp ha₁).1
  · simp [failures, Call.names, Call.serviceName, Call.isFailure, List.countP_append]
  · rw [failures_snoc]
    simp [Call.isFailure]

theorem DisableFinal.disableLast (hf : DisableFinal s tr) (hr : calls.Run .empty tr m)
    (ht : t <+: tr) (hh : history s t = some h) : DisableLast (policyOf h) (failures h) := by
  obtain ⟨w, rfl⟩ := ht
  obtain ⟨m₁, hr₁, -⟩ := LTS.run_append_iff.mp hr
  obtain ⟨info, -, hT⟩ := tracks_of_history hr₁ hh
  rw [disableLast_iff hT.pos]
  intro j j' hjj' hk hd hres
  obtain ⟨u, u', h', rfl, hh', hp', rfl, -⟩ := failureAt_of_lt hh hk
  obtain ⟨t₁, t₂, h₁, rfl, hh₁, hp₁, rfl, hu⟩ := failureAt_of_lt hh' hjj'
  obtain ⟨c, hrc, hrc'⟩ := LTS.run_append_iff.mp hr₁
  obtain ⟨a, hra, hra'⟩ := LTS.run_append_iff.mp hrc
  obtain ⟨b, hab, hbc⟩ := LTS.run_cons_iff.mp hra'
  obtain ⟨d, hcd, -⟩ := LTS.run_cons_iff.mp hrc'
  rw [← hp', ← hp₁] at hd
  rw [← hp'] at hres
  exact hf t₁ t₂ (u' ++ w) a b c d (by simp) hra (selects_of_history hra hh₁ hab hd) hbc hu
    (selects_of_history hrc hh' hcd hres)

end

/-- **DISABLE.** In every run: no failure of `s` selects RESTART after one has selected DISABLE,
with no unregistration of `s` in between, iff in each life of its entry, with the policy `P` and `k`
failures so far, the ring has not come to a RESTART of `P` after a DISABLE. -/
theorem disable_final_iff {tr : List Call} {m : Registry} (hr : calls.Run .empty tr m)
    (s : String) : DisableFinal s tr ↔
      ∀ t h, t <+: tr → history s t = some h → DisableLast (policyOf h) (failures h) :=
  ⟨fun hf _ _ ht hh => hf.disableLast hr ht hh, disableFinal_of_disableLast⟩

/-- The default policy: the fourth failure selects DISABLE and the fifth RESTART. -/
theorem disable_not_final : ¬ ∀ (tr : List Call) (m : Registry), calls.Run .empty tr m →
    ∀ s, DisableFinal s tr := by
  intro hall
  obtain ⟨m, -, hm, -⟩ := crashRun_exists ⟨[], by decide⟩ (show 5 ≤ 128 by decide)
  have hl := (hall _ m hm "AppA").disableLast hm (List.prefix_refl _) (history_crashRun ..)
  rw [failures_crashRun, policyOf_crashRun] at hl
  revert hl; decide

/-- Under the same policy the first four failures are safe. -/
theorem disable_final_first_lap : ∃ m, calls.Run .empty (crashRun ⟨[], by decide⟩ 4) m ∧
    DisableFinal "AppA" (crashRun ⟨[], by decide⟩ 4) := by
  obtain ⟨m, -, hm, -⟩ := crashRun_exists ⟨[], by decide⟩ (show 4 ≤ 128 by decide)
  refine ⟨m, hm, (disable_final_iff hm "AppA").mpr ?_⟩
  intro t h ht hh
  have hsafe : ∀ t ∈ (crashRun ⟨[], by decide⟩ 4).inits, ∀ h ∈ history "AppA" t,
      DisableLast (policyOf h) (failures h) := by decide
  exact hsafe t ((List.mem_inits _ _).mpr ht) h hh

end ServiceRecovery
