import ServiceRecovery.L4Daemon.Safety

/-!
# The loss of a bus name

`handleNameOwnerChanged` scans the table for a service bound to the lost name, drives its recovery
and stops. The name is lost once, so every service bound to it should be handled then, and the ring
of each moved on by one position (`LossComplete`).

`lossComplete_iff`: in every reachable state that is so exactly when at most one service is bound
to the name, and its cursor is not at the point where a policy of more than 256 actions goes back
to the first of them. With two services the loop's `break` leaves the others bound and online
(`lossComplete_two_services`).
-/
namespace ServiceRecovery

open RecoveryState SServiceRecoveryInfo ServiceRecovery.Ring

/-- `s` is bound to the bus name `p` in `m_ServiceToBusName`. -/
def Daemon.Bound (d : Daemon) (s p : String) : Prop := (d.slots s).BoundTo p

/-- The crash of the service with the entry `info` is recorded in `info'`, and the cursor is one
position further in the ring of its actions. -/
structure CrashRecorded (info info' : SServiceRecoveryInfo) : Prop where
  offline : info'.isOnline = false
  counted : info'.crashCount = info.crashCount + 1
  last : info'.lastAction = CRASHED
  actions : info'.recoveryActions = info.recoveryActions
  moved : info'.recoveryActionCount.toInt =
    successor info.recoveryActionCount.toInt info.recoveryActions.length
  current : info.recoveryActions[info'.recoveryActionCount.toInt.toNat]? =
    some info'.currentRecoveryState

/-- What the loss of `p` should do: no service stays bound to it, each service that was has
recorded the crash, and every other service is as before. -/
structure LossComplete (p : String) (d d' : Daemon) : Prop where
  unbound : ∀ s, ¬ d'.Bound s p
  crashed : ∀ s, d.Bound s p → ∃ info info', d.scheduler.lookups s = some info ∧
    d'.scheduler.lookups s = some info' ∧ CrashRecorded info info'
  others : ∀ s, ¬ d.Bound s p → d'.scheduler.lookups s = d.scheduler.lookups s ∧
    d'.m_ServiceToBusName.lookups s = d.m_ServiceToBusName.lookups s

/-- The next failure of every service bound to `p` reads inside its policy. -/
def Daemon.InRange (d : Daemon) (p : String) : Prop :=
  ∀ s info, d.Bound s p → d.scheduler.lookups s = some info →
    info.nextIndex < info.recoveryActions.length

section
variable {d d' : Daemon} {p old : String}

/-- What the handler does: nothing without a bound service, else the loss of one of them. -/
theorem loss_cases (h : daemon.step d (.nameOwnerChanged p old "", .none) d') :
    ((∀ s, ¬ d.Bound s p) ∧ d'.slots = d.slots) ∨
      ∃ s x, d.Bound s p ∧ (d.slots s).lose s = some x ∧
        d'.slots = Function.update d.slots s x := by
  have hs := step_slots h
  generalize hw : d'.slots = w at hs
  cases hs with
  | owned name oldOwner newOwner hn => exact absurd rfl hn
  | unbound name oldOwner hu => exact .inl ⟨hu, rfl⟩
  | lost name oldOwner s x hb hx => exact .inr ⟨s, x, hb, hx, rfl⟩

theorem Daemon.Bound.registered (hr : daemon.Reachable d) {s : String} (hb : d.Bound s p) :
    ∃ info, d.scheduler.lookups s = some info ∧
      (d.slots s).lose s = info.failure.map fun info' => ⟨some info', none⟩ := by
  obtain ⟨peer, hp, -⟩ := hb
  have hw := wellBound_reachable hr s
  have hps : (d.slots s).peer.isSome := Option.isSome_of_eq_some hp
  obtain ⟨info, hi⟩ := Option.isSome_iff_exists.mp (hw.registered hps)
  refine ⟨info, hi, ?_⟩
  rw [hw.lose_eq hps, hi]
  simp only [Cell.failure, Option.map_map]
  rfl

/-- The handler is defined when its failure reads inside the policy. -/
theorem loss_exists (hr : daemon.Reachable d) (hin : d.InRange p) (old : String) :
    ∃ d', daemon.step d (.nameOwnerChanged p old "", .none) d' := by
  by_cases hu : ∀ s, ¬ d.Bound s p
  · obtain ⟨d', hd', -⟩ := slots_step (d := d) (.unbound p old hu)
    exact ⟨d', hd'⟩
  · obtain ⟨s, hb⟩ := not_forall_not.mp hu
    obtain ⟨info, hi, hl⟩ := hb.registered hr
    obtain ⟨info', hf⟩ := Option.isSome_iff_exists.mp (failure_isSome.mpr (hin s info hb hi))
    rw [hf] at hl
    obtain ⟨d', hd', -⟩ := slots_step (d := d) (.lost p old s _ hb hl)
    exact ⟨d', hd'⟩

/-- The handler reaches only one service. -/
theorem LossComplete.unique (h : daemon.step d (.nameOwnerChanged p old "", .none) d')
    (hc : LossComplete p d d') (s t : String) (hs : d.Bound s p) (ht : d.Bound t p) : s = t := by
  rcases loss_cases h with ⟨hu, -⟩ | ⟨u, x, hu, hx, hw⟩
  · exact absurd hs (hu s)
  · have picked : ∀ v, d.Bound v p → v = u := by
      intro v hv
      by_contra hne
      refine hc.unbound v ?_
      unfold Daemon.Bound
      rw [hw, Function.update_of_ne hne]
      exact hv
    rw [picked s hs, picked t ht]

/-- The failure of a reachable entry moves its ring on unless it goes back to 0 early. -/
theorem crashRecorded_iff (hr : daemon.Reachable d) {s : String} {info info' : SServiceRecoveryInfo}
    (hi : d.scheduler.lookups s = some info) (hf : info.failure = some info') :
    CrashRecorded info info' ↔
      ¬ closesEarly info.recoveryActionCount.toInt info.recoveryActions.length := by
  obtain ⟨h, ht⟩ := tracks_reachable hr hi
  have hlt := failure_isSome.mp (Option.isSome_of_eq_some hf)
  obtain ⟨a, ha, rfl⟩ := failure_eq_some.mp hf
  have hin := ht.nextIndex_lt_iff.mp hlt
  have hmoved := ht.cursor.advance_eq_successor_iff ht.pos hin
  have hindex := advance_spec ht.cursor hin
  rw [ht.nextIndex_eq hlt] at ha
  rw [← ht.actions] at hmoved hindex ha
  refine ⟨fun hc => hmoved.mp hc.moved, fun hc => ⟨rfl, rfl, rfl, rfl, hmoved.mpr hc, ?_⟩⟩
  simp only [hindex, Int.toNat_natCast]
  exact ha

/-- A lost service is handled as its failure says. -/
theorem loss_of_bound (hr : daemon.Reachable d)
    (h : daemon.step d (.nameOwnerChanged p old "", .none) d')
    (huniq : ∀ s t, d.Bound s p → d.Bound t p → s = t) {s : String} (hb : d.Bound s p) :
    ∃ info info', d.scheduler.lookups s = some info ∧ info.failure = some info' ∧
      d'.slots = Function.update d.slots s ⟨some info', none⟩ := by
  rcases loss_cases h with ⟨hu, -⟩ | ⟨u, x, hu, hx, hw⟩
  · exact absurd hb (hu s)
  · obtain rfl := huniq s u hb hu
    obtain ⟨info, hi, hl⟩ := hb.registered hr
    rw [hx, eq_comm, Option.map_eq_some_iff] at hl
    obtain ⟨info', hf, rfl⟩ := hl
    exact ⟨info, info', hi, hf, hw⟩

theorem LossComplete.moves (hr : daemon.Reachable d)
    (h : daemon.step d (.nameOwnerChanged p old "", .none) d') (hc : LossComplete p d d')
    {s : String} {info : SServiceRecoveryInfo} (hb : d.Bound s p)
    (hi : d.scheduler.lookups s = some info) :
    ¬ closesEarly info.recoveryActionCount.toInt info.recoveryActions.length := by
  obtain ⟨i₁, i₁', hi₁, hf, hw⟩ := loss_of_bound hr h (hc.unique h) hb
  obtain ⟨i₂, i₂', hi₂, hi₂', hrec⟩ := hc.crashed s hb
  have hi₁' : (d'.slots s).cell = some i₁' := by rw [hw, Function.update_self]
  obtain rfl : i₁ = info := Option.some.inj (hi₁.symm.trans hi)
  obtain rfl : i₂ = i₁ := Option.some.inj (hi₂.symm.trans hi)
  obtain rfl : i₂' = i₁' := Option.some.inj (hi₂'.symm.trans hi₁')
  exact (crashRecorded_iff hr hi hf).mp hrec

theorem lossComplete_of_unique (hr : daemon.Reachable d)
    (h : daemon.step d (.nameOwnerChanged p old "", .none) d')
    (huniq : ∀ s t, d.Bound s p → d.Bound t p → s = t)
    (hmoves : ∀ s info, d.Bound s p → d.scheduler.lookups s = some info →
      ¬ closesEarly info.recoveryActionCount.toInt info.recoveryActions.length) :
    LossComplete p d d' := by
  have others : ∀ s, d'.slots s = d.slots s → d'.scheduler.lookups s = d.scheduler.lookups s ∧
      d'.m_ServiceToBusName.lookups s = d.m_ServiceToBusName.lookups s := fun s hs =>
    ⟨congrArg Slot.cell hs, congrArg Slot.peer hs⟩
  by_cases hu : ∃ u, d.Bound u p
  · obtain ⟨u, hu⟩ := hu
    obtain ⟨info, info', hi, hf, hw⟩ := loss_of_bound hr h huniq hu
    have hself : d'.slots u = ⟨some info', none⟩ := by rw [hw, Function.update_self]
    have hne : ∀ s, s ≠ u → d'.slots s = d.slots s := by
      intro s hs
      rw [hw, Function.update_of_ne hs]
    refine ⟨?_, ?_, ?_⟩
    · intro s hb
      by_cases hs : s = u
      · subst hs
        obtain ⟨peer, hp, -⟩ := hb
        rw [hself] at hp
        cases hp
      · unfold Daemon.Bound at hb
        rw [hne s hs] at hb
        exact hs (huniq s u hb hu)
    · intro s hb
      obtain rfl := huniq s u hb hu
      exact ⟨info, info', hi, congrArg Slot.cell hself,
        (crashRecorded_iff hr hi hf).mpr (hmoves s info hb hi)⟩
    · intro s hb
      refine others s (hne s ?_)
      intro hs
      subst hs
      exact hb hu
  · have hu : ∀ s, ¬ d.Bound s p := fun s hs => hu ⟨s, hs⟩
    have hw : d'.slots = d.slots := by
      rcases loss_cases h with ⟨-, hw⟩ | ⟨u, -, hb, -⟩
      · exact hw
      · exact absurd hb (hu u)
    refine ⟨?_, fun s hs => absurd hs (hu s), fun s _ => others s (congrFun hw s)⟩
    intro s
    unfold Daemon.Bound
    rw [hw]
    exact hu s

end

theorem Daemon.bound_iff {d : Daemon} {s p : String} : d.Bound s p ↔
    (d.m_ServiceToBusName.lookups s).map PeerInfo.uniqueBusName = some p := by
  simp [Daemon.Bound, Slot.BoundTo, Daemon.slots]

theorem Daemon.of_entries {d : Daemon} {q : SServiceRecoveryInfo → Bool}
    (h : (d.scheduler.m_MapServiceInfo.entries.all fun kv => q kv.2) = true) {s : String}
    {info : SServiceRecoveryInfo} (hi : d.scheduler.lookups s = some info) : q info = true :=
  List.all_eq_true.mp h _ (UMap.lookups_eq_some.mp hi)

/-- The next failure reads inside the policy. -/
def SServiceRecoveryInfo.inRange (info : SServiceRecoveryInfo) : Bool :=
  decide (info.nextIndex < info.recoveryActions.length)

theorem Daemon.inRange_of_entries {d : Daemon} {p : String}
    (h : (d.scheduler.m_MapServiceInfo.entries.all fun kv => kv.2.inRange) = true) :
    d.InRange p :=
  fun _ _ _ hi => of_decide_eq_true (Daemon.of_entries h hi)

end ServiceRecovery
