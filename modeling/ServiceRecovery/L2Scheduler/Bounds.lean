import ServiceRecovery.L2Scheduler.History

/-!
# Policies of any length

`onRegisterService` stores a policy of whatever length the client sends, and the cursor compares
its length only after a cast to `int8_t`. Two things go wrong for long policies:

* a length whose remainder mod 256 is 0 or above 128 never closes the ring, so after 128 failures
  the next one reads outside the vector (`next_failure_in_policy_iff`);
* a length whose remainder mod 256 is 0 or above 127 makes the preview of `getServiceState` show
  the first action whatever the cursor is (`preview_true_iff`).

Both results are exact, over all runs and all lengths.
-/
namespace ServiceRecovery

open RecoveryState SServiceRecoveryInfo ServiceRecovery.Ring

/-! ## The next failure's index -/

/-- **Bounds.** In every run, the next failure of a registered service reads inside its policy of
`n` actions iff `1 ≤ n mod 256 ≤ 128` or fewer than 128 failures happened since its entry was
created. -/
theorem next_failure_in_policy_iff {tr : List Call} {m : Registry} {s : String}
    {info : SServiceRecoveryInfo} {h : List Call} (hr : calls.Run .empty tr m)
    (hi : m.lookups s = some info) (hh : history s tr = some h) :
    info.nextIndex < info.recoveryActions.length ↔
      (1 ≤ info.recoveryActions.length % 256 ∧ info.recoveryActions.length % 256 ≤ 128) ∨
        failures h < 128 := by
  have ht := tracks_of_run hr hi hh
  rw [ht.nextIndex_lt_iff, ht.actions]
  rfl

/-- One registration of the policy `acts` and `k` failures. -/
def crashRun (acts : Vec RecoveryState) (k : Nat) : List Call :=
  .onRegisterService "AppA" acts (-1) (-1) :: List.replicate k (.onServiceFailure "AppA")

section
variable (acts : Vec RecoveryState)

theorem crashRun_succ (k : Nat) :
    crashRun acts (k + 1) = crashRun acts k ++ [.onServiceFailure "AppA"] := by
  simp [crashRun, List.replicate_succ']

theorem history_crashRun (k : Nat) : history "AppA" (crashRun acts k) = some (crashRun acts k) := by
  induction k with
  | zero => rfl
  | succ k ih =>
    rw [crashRun_succ, history_snoc (s := "AppA") rfl, ih]
    rfl

theorem failures_crashRun (k : Nat) : failures (crashRun acts k) = k := by
  simp [failures, crashRun, List.countP_replicate, Call.isFailure]

theorem policyOf_crashRun (k : Nat) : policyOf (crashRun acts k) = policy acts := rfl

/-- Up to 128 failures are defined whatever the policy. -/
theorem crashRun_exists {k : Nat} (hk : k ≤ 128) :
    ∃ m info, calls.Run .empty (crashRun acts k) m ∧ m.lookups "AppA" = some info ∧
      Tracks (crashRun acts k) info := by
  induction k with
  | zero =>
    obtain ⟨m, hm⟩ := step_exists (m := .empty)
      (c := .onRegisterService "AppA" acts (-1) (-1)) rfl
    obtain ⟨info, hi, ht⟩ := tracks_of_history (.single hm) (history_crashRun acts 0)
    exact ⟨m, info, .single hm, hi, ht⟩
  | succ k ih =>
    obtain ⟨m, info, hm, hi, ht⟩ := ih (by omega)
    obtain ⟨cell, hc⟩ := apply_defined (c := .onServiceFailure "AppA")
      (show TracksCell (some _) (some info) from ht) fun h hh _ => by
        cases hh
        rw [failures_crashRun]
        exact .inr (by omega)
    obtain ⟨m', hst⟩ := step_exists (m := m) (c := .onServiceFailure "AppA") (hi ▸ hc)
    have hrun := crashRun_succ acts k ▸ hm.snoc hst
    obtain ⟨info', hi', ht'⟩ := tracks_of_history hrun (history_crashRun acts (k + 1))
    exact ⟨m', info', hrun, hi', ht'⟩

end

/-- A policy of 129 actions and 128 failures: the next failure reads outside the vector. -/
theorem next_failure_out_of_policy :
    ¬ ∀ (tr : List Call) (m : Registry), calls.Run .empty tr m → ∀ s info,
      m.lookups s = some info → info.nextIndex < info.recoveryActions.length := by
  intro hall
  obtain ⟨m, info, hm, hi, ht⟩ :=
    crashRun_exists ⟨List.replicate 129 RESTART, by simp⟩ (Nat.le_refl 128)
  have hin := ht.nextIndex_lt_iff.mp (hall _ m hm _ info hi)
  have hlen : (policy ⟨List.replicate 129 RESTART, by simp⟩).length = 129 :=
    List.length_replicate ..
  rw [failures_crashRun, policyOf_crashRun, hlen] at hin
  revert hin; decide

/-- The last failure that the same policy allows. -/
theorem next_failure_in_policy_last : ∃ m info,
    calls.Run .empty (crashRun ⟨List.replicate 129 RESTART, by simp⟩ 127) m ∧
      m.lookups "AppA" = some info ∧ info.nextIndex < info.recoveryActions.length := by
  obtain ⟨m, info, hm, hi, -⟩ :=
    crashRun_exists ⟨List.replicate 129 RESTART, by simp⟩ (show 127 ≤ 128 by decide)
  exact ⟨m, info, hm, hi, (next_failure_in_policy_iff hm hi (history_crashRun ..)).mpr
    (.inr (by rw [failures_crashRun]; decide))⟩

/-! ## The preview -/

/-- Calls that neither fail nor unregister `s`. -/
def Call.spares (s : String) (c : Call) : Prop :=
  c ≠ .onServiceFailure s ∧ c ≠ .onUnregisterService s

/-- The preview tells the truth: the next failure of `s` stores the action that the snapshot
shows, whatever calls come in between that neither fail nor unregister `s`. -/
def PreviewTrue (m : Registry) (s : String) : Prop :=
  ∃ snap, getServiceState m s = some snap ∧
    ∀ cs m₁ m₂, calls.Run m cs m₁ → (∀ c ∈ cs, c.spares s) →
      calls.step m₁ (.onServiceFailure s) m₂ →
      ∃ info₂, m₂.lookups s = some info₂ ∧ snap.nextAction = info₂.currentRecoveryState

theorem spare_step {m m' : Registry} {c : Call} {s : String} {info : SServiceRecoveryInfo}
    (hst : calls.step m c m') (hs : c.spares s) (hi : m.lookups s = some info) :
    ∃ info', m'.lookups s = some info' ∧ info'.recoveryActions = info.recoveryActions ∧
      info'.recoveryActionCount = info.recoveryActionCount := by
  obtain ⟨cell, hc, hl⟩ := step_lookups hst
  by_cases hn : c.serviceName = s
  · rw [hn] at hl hc
    rw [hl, Function.update_self]
    rw [hi] at hc
    cases c with
    | onServiceFailure s' => exact absurd (congrArg Call.onServiceFailure hn) hs.1
    | onUnregisterService s' => exact absurd (congrArg Call.onUnregisterService hn) hs.2
    | onRegisterService s' acts ivl pid => cases hc; exact ⟨_, rfl, rfl, rfl⟩
    | onReportServiceState s' cur last =>
      cases hc
      refine ⟨_, rfl, ?_, ?_⟩ <;> unfold SServiceRecoveryInfo.report <;> split <;> rfl
    | getServiceState s' =>
      simp only [Cell.apply, Option.map_eq_some_iff] at hc
      obtain ⟨snap, -, rfl⟩ := hc
      exact ⟨_, rfl, rfl, rfl⟩
  · rw [hl, Function.update_of_ne (Ne.symm hn)]
    exact ⟨info, hi, rfl, rfl⟩

/-- Calls that spare `s` keep its policy and its cursor. -/
theorem spare_run {m m₁ : Registry} {cs : List Call} {s : String} {info : SServiceRecoveryInfo}
    (hr : calls.Run m cs m₁) (hs : ∀ c ∈ cs, c.spares s) (hi : m.lookups s = some info) :
    ∃ info₁, m₁.lookups s = some info₁ ∧ info₁.recoveryActions = info.recoveryActions ∧
      info₁.recoveryActionCount = info.recoveryActionCount := by
  induction hr generalizing info with
  | nil => exact ⟨info, hi, rfl, rfl⟩
  | cons hst _ ih =>
    obtain ⟨info', hi', ha, hn⟩ := spare_step hst (hs _ List.mem_cons_self) hi
    obtain ⟨info₁, hi₁, ha₁, hn₁⟩ := ih (fun c hc => hs c (List.mem_cons_of_mem _ hc)) hi'
    exact ⟨info₁, hi₁, ha₁.trans ha, hn₁.trans hn⟩

/-- What a failure step stores. -/
theorem failure_step {m m' : Registry} {s : String} {info : SServiceRecoveryInfo}
    (hst : calls.step m (.onServiceFailure s) m') (hi : m.lookups s = some info) :
    ∃ info', m'.lookups s = some info' ∧
      info.recoveryActions[info.nextIndex]? = some info'.currentRecoveryState := by
  obtain ⟨cell, hc, hl⟩ := step_lookups hst
  simp only [Call.serviceName, hi, Cell.apply, Cell.failure, Option.map_eq_some_iff] at hc hl
  obtain ⟨info', hf, rfl⟩ := hc
  obtain ⟨a, ha, rfl⟩ := failure_eq_some.mp hf
  exact ⟨_, by rw [hl, Function.update_self], ha⟩

/-- The preview is right iff the two successors point at the same action. -/
theorem Tracks.previewTrue_iff {m : Registry} {s : String} {info : SServiceRecoveryInfo}
    {h : List Call} (ht : Tracks h info) (hi : m.lookups s = some info)
    (hin : info.nextIndex < info.recoveryActions.length) :
    PreviewTrue m s ↔
      (policyOf h)[ringPos (policyOf h).length (failures h)]? =
        (policyOf h)[peekPos (policyOf h).length (failures h)]? := by
  obtain ⟨a, ha, hsnap⟩ := ht.snapshot
  have hg := (getServiceState_eq m s).trans (hi ▸ hsnap)
  rw [ha, ← ht.nextIndex_eq hin, ← ht.actions]
  constructor
  · intro hp
    obtain ⟨snap, hsn, hall⟩ := hp
    obtain ⟨cell, hc⟩ := apply_defined (c := .onServiceFailure s)
      (show TracksCell (some h) (some info) from ht) fun _ hh' _ => by
        cases hh'; exact ht.nextIndex_lt_iff.mp hin
    obtain ⟨m₂, hst⟩ := step_exists (m := m) (c := .onServiceFailure s) (hi ▸ hc)
    obtain ⟨info₂, hi₂, heq⟩ := hall [] m m₂ (.nil m) (by simp) hst
    obtain ⟨info', hi', hact⟩ := failure_step hst hi
    rw [hi₂] at hi'; cases hi'
    rw [hsn] at hg; cases hg
    rw [hact, ← heq]
  · intro hact
    refine ⟨_, hg, ?_⟩
    intro cs m₁ m₂ hcs hsp hst
    obtain ⟨info₁, hi₁, ha₁, hn₁⟩ := spare_run hcs hsp hi
    obtain ⟨info₂, hi₂, hact₂⟩ := failure_step hst hi₁
    refine ⟨info₂, hi₂, ?_⟩
    have hnext : info₁.nextIndex = info.nextIndex := by unfold nextIndex; rw [ha₁, hn₁]
    rw [hnext, ha₁, hact] at hact₂
    exact Option.some.inj hact₂

/-- **The preview.** For a registered service whose next failure reads inside its policy `P` of
`n` actions, after `k` failures: the preview tells the truth iff `1 ≤ n mod 256 ≤ 127`, or `P`
has the same action at positions `k mod 128` and 0. -/
theorem preview_true_iff {tr : List Call} {m : Registry} {s : String}
    {info : SServiceRecoveryInfo} {h : List Call} (hr : calls.Run .empty tr m)
    (hi : m.lookups s = some info) (hh : history s tr = some h)
    (hin : info.nextIndex < info.recoveryActions.length) :
    PreviewTrue m s ↔
      (1 ≤ info.recoveryActions.length % 256 ∧ info.recoveryActions.length % 256 ≤ 127) ∨
        info.recoveryActions[failures h % 128]? = info.recoveryActions[0]? := by
  have ht := tracks_of_run hr hi hh
  rw [ht.previewTrue_iff hi hin, ht.actions]
  by_cases hs : 1 ≤ (policyOf h).length % 256 ∧ (policyOf h).length % 256 ≤ 127
  · rw [peekPos_eq hs]
    simp [hs]
  · rw [peekPos_zero hs, ringPos_mod hs (ht.nextIndex_lt_iff.mp hin)]
    simp only [hs, false_or]

/-- A policy of 200 actions, `RESTART` and then only `STOP`, after one failure: the preview shows
`RESTART` and the next failure stores `STOP`. -/
theorem preview_wrong :
    ¬ ∀ (tr : List Call) (m : Registry), calls.Run .empty tr m → ∀ s info,
      m.lookups s = some info → info.nextIndex < info.recoveryActions.length →
        PreviewTrue m s := by
  intro hall
  obtain ⟨m, info, hm, hi, ht⟩ :=
    crashRun_exists ⟨RESTART :: List.replicate 199 STOP, by
      rw [List.length_cons, List.length_replicate]; decide⟩ (show 1 ≤ 128 by decide)
  have hin := ht.nextIndex_lt_iff.mpr (.inr (by rw [failures_crashRun]; decide))
  have hp := (ht.previewTrue_iff hi hin).mp (hall _ m hm _ info hi hin)
  have hP : ∀ h, policy ⟨RESTART :: List.replicate 199 STOP, h⟩ =
      RESTART :: List.replicate 199 STOP := fun _ => rfl
  have hring : ringPos (199 + 1) 1 = 1 := by decide
  have hpeek : peekPos (199 + 1) 1 = 0 := by decide
  rw [failures_crashRun, policyOf_crashRun, hP, List.length_cons, List.length_replicate, hring,
    hpeek, List.getElem?_cons_succ, List.getElem?_replicate, List.getElem?_cons_zero] at hp
  cases hp

/-- A two-action policy after one failure. -/
theorem preview_true_short : ∃ m,
    calls.Run .empty (crashRun ⟨[RESTART, STOP], by simp⟩ 1) m ∧ PreviewTrue m "AppA" := by
  obtain ⟨m, info, hm, hi, ht⟩ :=
    crashRun_exists ⟨[RESTART, STOP], by simp⟩ (show 1 ≤ 128 by decide)
  have hin := ht.nextIndex_lt_iff.mpr (.inl (by decide))
  refine ⟨m, hm, (preview_true_iff hm hi (history_crashRun ..) hin).mpr (.inl ?_)⟩
  rw [ht.actions]
  decide

end ServiceRecovery
