import ServiceRecovery.Core.Episode
import ServiceRecovery.L4Daemon.Agreement

/-!
# Every crash is charged to a registration

`life s tr` is the part of the trace since `s`'s entry was created, and `bindings s` lists the bus
names of the accepted registrations of `s` in a trace that carry one.

* `step_charged`: a step that counts a crash of `s` is the loss of the last bus name bound to it;
* `bound_since`: two crashes of `s` have such a registration between them;
* `crashes_le`: crashes, and the current binding as one more, are at most the bindings in the life
  of the entry;
* `loss_of_other`: the loss of any other name leaves `s` as it is.

`crash_charged` puts them together. Clients without a bus name are allowed throughout.
-/
namespace ServiceRecovery

open RecoveryState SServiceRecoveryInfo

/-! ## The trace of one service -/

section
variable (s : String)

/-- An accepted registration of `s`. -/
def opensLife : Req × Reply → Bool
  | (.registerService _ t _ _ _, .register .OK) => t == s
  | _ => false

/-- An accepted unregistration of `s`. -/
def closesLife : Req × Reply → Bool
  | (.unregisterService _ t, .unregister .OK) => t == s
  | _ => false

/-- The trace since `s`'s entry was created. -/
def life (tr : List (Req × Reply)) : Option (List (Req × Reply)) :=
  episode (opensLife s) (closesLife s) tr

/-- The non-empty bus name that an accepted registration of `s` carries. -/
def busOf : Req × Reply → Option String
  | (.registerService client t _ _ _, .register .OK) =>
    if t = s ∧ extractDbusUniqueName client ≠ "" then some (extractDbusUniqueName client) else none
  | _ => none

def bindings (tr : List (Req × Reply)) : List String := tr.filterMap (busOf s)

/-- The most recent one. -/
def lastBus (tr : List (Req × Reply)) : Option String := (bindings s tr).getLast?

end

variable {s : String} {tr h : List (Req × Reply)} {l : Req × Reply} {x x' : Slot}

theorem bindings_single : bindings s [l] = (busOf s l).toList := by
  unfold bindings
  cases hb : busOf s l <;> simp [hb]

theorem bindings_snoc : bindings s (tr ++ [l]) = bindings s tr ++ (busOf s l).toList := by
  rw [← bindings_single]
  exact List.filterMap_append

theorem lastBus_snoc : lastBus s (tr ++ [l]) = (busOf s l).or (lastBus s tr) := by
  unfold lastBus
  rw [bindings_snoc]
  cases busOf s l <;> simp

theorem life_snoc : life s (tr ++ [l]) = nextEpisode (opensLife s) (closesLife s) (life s tr) l :=
  episode_snoc ..

theorem life_snoc_some (hl : life s tr = some h) (hc : closesLife s l = false) :
    life s (tr ++ [l]) = some (h ++ [l]) := by
  rw [life_snoc, hl]
  simp [nextEpisode, hc]

theorem life_snoc_none (hl : life s tr = none) (ho : opensLife s l = false) :
    life s (tr ++ [l]) = none := by
  rw [life_snoc, hl]
  simp [nextEpisode, ho]

/-- A request that does not name `s`. -/
theorem busOf_other (hn : l.1.serviceName ≠ some s) :
    opensLife s l = false ∧ closesLife s l = false ∧ busOf s l = none := by
  obtain ⟨req, rep⟩ := l
  cases req with
  | registerService client t acts ivl pidReply =>
    have ht : t ≠ s := fun he => hn (congrArg some he)
    cases rep with
    | register result => cases result <;> simp [opensLife, closesLife, busOf, ht]
    | _ => exact ⟨rfl, rfl, rfl⟩
  | unregisterService client t =>
    have ht : t ≠ s := fun he => hn (congrArg some he)
    cases rep with
    | unregister result => cases result <;> simp [opensLife, closesLife, busOf, ht]
    | _ => exact ⟨rfl, rfl, rfl⟩
  | _ => exact ⟨rfl, rfl, rfl⟩

/-! ## The binding is the last one -/

/-- The service is bound to the last bus name of the trace. -/
def BoundByLast (s : String) (tr : List (Req × Reply)) (x : Slot) : Prop :=
  ∀ p, x.BoundTo p → lastBus s tr = some p

theorem BoundByLast.of_unbound (hp : x.peer = none) : BoundByLast s tr x := by
  intro p hb
  obtain ⟨peer, hpeer, -⟩ := hb
  rw [hp] at hpeer; cases hpeer

theorem BoundByLast.keep (hk : BoundByLast s tr x) (hb : busOf s l = none)
    (hp : x'.peer = x.peer) : BoundByLast s (tr ++ [l]) x' := by
  intro p hx
  rw [lastBus_snoc, hb]
  exact hk p (by unfold Slot.BoundTo at hx ⊢; rwa [hp] at hx)

theorem BoundByLast.step (hk : BoundByLast s tr x) (hw : x.WellBound s) (hst : Slot.Step s x l x') :
    BoundByLast s (tr ++ [l]) x' := by
  cases hst with
  | register client acts ivl pidReply =>
    by_cases ha : x.cell.accepts s ∧ extractDbusUniqueName client ≠ ""
    · intro p hb
      obtain ⟨peer, hp, rfl⟩ := hb
      have hreg : (x.register s (acts.map fromWire) ivl (peerOf client pidReply)).peer =
          some (peerOf client pidReply) := if_pos ha
      rw [hreg] at hp
      cases hp
      rw [lastBus_snoc]
      simp [busOf, ha.1, ha.2, peerOf]
    · refine hk.keep ?_ (if_neg ha)
      by_cases hc : x.cell.accepts s
      · have hb : extractDbusUniqueName client = "" := by
          by_contra hb
          exact ha ⟨hc, hb⟩
        simp [busOf, hc, hb]
      · simp [busOf, hc]
  | unregister client =>
    by_cases hc : x.cell.isSome
    · exact .of_unbound (if_pos hc)
    · exact hk.keep rfl (if_neg hc)
  | report client cur last => exact hk.keep rfl rfl
  | lost name oldOwner x' hb hl =>
    obtain ⟨c, -, rfl⟩ := hw.lost hb hl
    exact .of_unbound rfl
  | other l hn => exact hk.keep (busOf_other hn).2.2 rfl

/-! ## Crashes are at most bindings -/

def Cell.crashes : Cell → Nat
  | none => 0
  | some info => info.crashCount.toNat

/-- One for a bound service. -/
def Slot.watched (x : Slot) : Nat := if x.peer.isSome then 1 else 0

/-- The entry exists exactly in a life of the service, and its crashes and its binding are covered
by the bindings in that life. -/
def Charged (s : String) (tr : List (Req × Reply)) (x : Slot) : Prop :=
  match life s tr with
  | none => x.cell = none
  | some h => x.cell.isSome ∧ x.cell.crashes + x.watched ≤ (bindings s h).length

theorem crashes_register {c : Cell} {acts : Vec RecoveryState} {ivl : Int32} :
    (c.register s acts ivl).crashes = c.crashes := by
  unfold Cell.register
  cases c with
  | none => dsimp only; split <;> simp [Cell.crashes, fresh_eq]
  | some info => rfl

theorem crashes_report (c : Cell) (cur last : RecoveryState) :
    (c.report cur last).crashes = c.crashes := by
  cases c with
  | none => rfl
  | some info =>
    show (info.report cur last).crashCount.toNat = info.crashCount.toNat
    unfold SServiceRecoveryInfo.report
    split <;> rfl

theorem crashes_failure {c c' : Cell} (h : c.failure = some c') : c'.crashes ≤ c.crashes + 1 := by
  cases c with
  | none => cases h; exact Nat.zero_le _
  | some info =>
    simp only [Cell.failure, Option.map_eq_some_iff] at h
    obtain ⟨info', hf, rfl⟩ := h
    obtain ⟨a, -, rfl⟩ := failure_eq_some.mp hf
    simp only [Cell.crashes, UInt32.toNat_add]
    exact Nat.mod_le _ _

theorem Charged.of_life (hl : life s tr = some h) (hk : Charged s tr x) :
    x.cell.isSome ∧ x.cell.crashes + x.watched ≤ (bindings s h).length := by
  unfold Charged at hk
  rwa [hl] at hk

theorem Charged.of_none (hl : life s tr = none) (hk : Charged s tr x) : x.cell = none := by
  unfold Charged at hk
  rwa [hl] at hk

theorem charged_some (hl : life s tr = some h) (hc : x.cell.isSome)
    (hn : x.cell.crashes + x.watched ≤ (bindings s h).length) : Charged s tr x := by
  unfold Charged
  rw [hl]
  exact ⟨hc, hn⟩

theorem charged_none (hl : life s tr = none) (hc : x.cell = none) : Charged s tr x := by
  unfold Charged
  rw [hl]
  exact hc

/-- A label that neither opens nor closes a life, with no more crashes and no new binding. -/
theorem Charged.keep (hk : Charged s tr x) (ho : opensLife s l = false)
    (hc : closesLife s l = false) (hcell : x'.cell.isSome = x.cell.isSome)
    (hn : x'.cell.crashes + x'.watched ≤ x.cell.crashes + x.watched) :
    Charged s (tr ++ [l]) x' := by
  cases hl : life s tr with
  | none =>
    refine charged_none (life_snoc_none hl ho) ?_
    rw [hk.of_none hl] at hcell
    exact Option.not_isSome_iff_eq_none.mp (by simp [hcell])
  | some h =>
    obtain ⟨hs, hle⟩ := hk.of_life hl
    refine charged_some (life_snoc_some hl hc) (hcell.trans hs) ?_
    rw [bindings_snoc, List.length_append]
    omega

/-- An accepted registration. -/
theorem Charged.register (hk : Charged s tr x) (hw : x.WellBound s) (client : ClientId)
    (acts : Vec UInt8) (ivl : Int32) (pidReply : Option UInt32) (ha : x.cell.accepts s) :
    Charged s (tr ++ [(.registerService client s acts ivl pidReply, .register .OK)])
      (x.register s (acts.map fromWire) ivl (peerOf client pidReply)) := by
  have hnew : (x.register s (acts.map fromWire) ivl (peerOf client pidReply)).watched ≤
      x.watched +
        (busOf s (.registerService client s acts ivl pidReply, .register .OK)).toList.length := by
    unfold Slot.watched Slot.register
    by_cases hb : extractDbusUniqueName client = ""
    · simp [busOf, peerOf, hb]
    · simp [busOf, peerOf, hb, ha]
  have hcr : (x.register s (acts.map fromWire) ivl (peerOf client pidReply)).cell.crashes =
      x.cell.crashes := crashes_register
  cases hl : life s tr with
  | none =>
    have hc := hk.of_none hl
    have hp : x.watched = 0 := by
      unfold Slot.watched
      rw [if_neg]
      intro hp
      have := hw.registered hp
      rw [hc] at this; cases this
    refine charged_some (h := [(.registerService client s acts ivl pidReply, .register .OK)]) ?_
      (Cell.register_isSome.mpr ha) ?_
    · rw [life_snoc, hl]
      simp [nextEpisode, opensLife]
    · have hz : x.cell.crashes = 0 := by rw [hc]; rfl
      rw [bindings_single]
      omega
  | some h =>
    obtain ⟨-, hle⟩ := hk.of_life hl
    refine charged_some (life_snoc_some hl rfl) (Cell.register_isSome.mpr ha) ?_
    rw [bindings_snoc, List.length_append]
    omega

theorem Charged.step (hk : Charged s tr x) (hw : x.WellBound s) (hst : Slot.Step s x l x') :
    Charged s (tr ++ [l]) x' := by
  cases hst with
  | register client acts ivl pidReply =>
    by_cases ha : x.cell.accepts s
    · rw [if_pos ha]
      exact hk.register hw client acts ivl pidReply ha
    · rw [if_neg ha, Slot.register_of_rejected ha]
      exact hk.keep rfl rfl rfl (Nat.le_refl _)
  | unregister client =>
    cases hl : life s tr with
    | none =>
      have hc := hk.of_none hl
      refine charged_none (life_snoc_none hl rfl) rfl
    | some h =>
      obtain ⟨hs, -⟩ := hk.of_life hl
      refine charged_none ?_ rfl
      rw [life_snoc, hl, if_pos hs]
      simp [nextEpisode, closesLife]
  | report client cur last =>
    refine hk.keep rfl rfl ?_ ?_
    · simp [Slot.report, Cell.report]
    · exact Nat.le_of_eq (congrArg (· + x.watched) (crashes_report ..))
  | lost name oldOwner x' hb hl =>
    obtain ⟨c, hc, rfl⟩ := hw.lost hb hl
    obtain ⟨peer, hp, -⟩ := hb
    refine hk.keep rfl rfl (Cell.failure_isSome hc) ?_
    have hle := crashes_failure hc
    have hw1 : x.watched = 1 := if_pos (Option.isSome_of_eq_some hp)
    show Cell.crashes c + 0 ≤ _
    omega
  | other l hn =>
    obtain ⟨ho, hc, -⟩ := busOf_other hn
    exact hk.keep ho hc rfl (Nat.le_refl _)

/-! ## Runs -/

/-- A step that increments the crash counter of `s`. -/
def Crashes (s : String) (d d' : Daemon) : Prop :=
  ∃ info info', d.scheduler.lookups s = some info ∧ d'.scheduler.lookups s = some info' ∧
    info'.crashCount ≠ info.crashCount

/-- What every trace from `.empty` says about the slot of `s`. -/
structure Follows (s : String) (tr : List (Req × Reply)) (x : Slot) : Prop where
  bound : x.WellBound s
  last : BoundByLast s tr x
  charged : Charged s tr x

theorem follows_run {d : Daemon} (hr : daemon.Run .empty tr d) (s : String) :
    Follows s tr (d.slots s) :=
  slot_traced (I := Follows s) (G := fun _ => True)
    (fun _ _ _ _ hf _ hst => ⟨hf.bound.step hst, hf.last.step hf.bound hst,
      hf.charged.step hf.bound hst⟩) hr (fun _ _ => trivial)
    ⟨wellBound_empty s, .of_unbound rfl, charged_none rfl rfl⟩

/-- A step that increments the counter loses the peer. -/
theorem Slot.Step.crashes (hst : Slot.Step s x l x') (hw : x.WellBound s)
    {info info' : SServiceRecoveryInfo} (hi : x.cell = some info) (hi' : x'.cell = some info')
    (hne : info'.crashCount ≠ info.crashCount) :
    x'.peer = none ∧ ∃ p old, x.BoundTo p ∧ l = (.nameOwnerChanged p old "", .none) := by
  cases hst with
  | register client acts ivl pidReply =>
    simp only [Slot.register, hi, Cell.register, Option.some.injEq] at hi'
    subst hi'
    exact absurd rfl hne
  | unregister client => cases hi'
  | report client cur last =>
    simp only [Slot.report, hi, Cell.report, Option.map_some, Option.some.injEq] at hi'
    subst hi'
    refine absurd ?_ hne
    unfold SServiceRecoveryInfo.report
    split <;> rfl
  | lost name oldOwner x' hb hl =>
    obtain ⟨c, -, rfl⟩ := hw.lost hb hl
    exact ⟨rfl, name, oldOwner, hb, rfl⟩
  | other l hn =>
    rw [hi] at hi'
    cases hi'
    exact absurd rfl hne

/-- The last bus name of a life that has one is the last of the whole trace. -/
theorem lastBus_life (hl : life s tr = some h) (hb : bindings s h ≠ []) :
    lastBus s h = lastBus s tr := by
  obtain ⟨pre, l, t, rfl, rfl, -, -⟩ := episode_suffix hl
  unfold lastBus bindings at *
  rw [List.filterMap_append, List.getLast?_append_of_ne_nil _ hb]

theorem Follows.last_of_life (hf : Follows s tr x) {p : String} (hb : x.BoundTo p) :
    p ≠ "" ∧ ∃ h, life s tr = some h ∧ lastBus s h = some p := by
  have hlast := hf.last p hb
  obtain ⟨peer, hp, rfl⟩ := hb
  have hps : x.peer.isSome := Option.isSome_of_eq_some hp
  refine ⟨hf.bound.bus peer hp, ?_⟩
  cases hl : life s tr with
  | none =>
    have := hf.bound.registered hps
    rw [hf.charged.of_none hl] at this; cases this
  | some h =>
    obtain ⟨-, hle⟩ := hf.charged.of_life hl
    have hw1 : x.watched = 1 := if_pos hps
    refine ⟨h, rfl, ?_⟩
    rw [lastBus_life hl ?_, hlast]
    intro hnil
    rw [hnil, List.length_nil] at hle
    omega

/-- A service bound since a state without a binding was bound in between. -/
theorem bound_since {d₀ d : Daemon} (hr : daemon.Run d₀ tr d) (hw : (d₀.slots s).WellBound s)
    (hp : (d₀.slots s).peer = none) : BoundByLast s tr (d.slots s) :=
  (slot_traced (I := fun tr x => x.WellBound s ∧ BoundByLast s tr x) (G := fun _ => True)
    (fun _ _ _ _ hi _ hst => ⟨hi.1.step hst, hi.2.step hi.1 hst⟩) hr (fun _ _ => trivial)
    ⟨hw, .of_unbound hp⟩).2

/-- A step that counts a crash, and the binding it is charged to. -/
theorem step_charged {d d' : Daemon} (hr : daemon.Run .empty tr d) (hst : daemon.step d l d')
    (hc : Crashes s d d') : ∃ p old h, l = (.nameOwnerChanged p old "", .none) ∧ p ≠ "" ∧
      life s tr = some h ∧ lastBus s h = some p ∧ (d.slots s).BoundTo p ∧
      (d'.slots s).peer = none := by
  obtain ⟨info, info', hi, hi', hne⟩ := hc
  have hf := follows_run hr s
  obtain ⟨hp, p, old, hb, rfl⟩ :=
    (step_slot (step_slots hst) s).crashes hf.bound hi hi' hne
  obtain ⟨hpe, h, hl, hlast⟩ := hf.last_of_life hb
  exact ⟨p, old, h, rfl, hpe, hl, hlast, hb, hp⟩

theorem crashes_le {d : Daemon} (hr : daemon.Run .empty tr d) {info : SServiceRecoveryInfo}
    (hi : d.scheduler.lookups s = some info) : ∃ h, life s tr = some h ∧
      info.crashCount.toNat + (if (d.m_ServiceToBusName.lookups s).isSome then 1 else 0) ≤
        (bindings s h).length := by
  have hf := follows_run hr s
  have hcell : (d.slots s).cell = some info := hi
  cases hl : life s tr with
  | none =>
    have := hf.charged.of_none hl
    rw [hcell] at this; cases this
  | some h =>
    obtain ⟨-, hle⟩ := hf.charged.of_life hl
    rw [hcell] at hle
    exact ⟨h, rfl, hle⟩

/-- The loss of a name other than the last one bound to `s` does not touch `s`. -/
theorem loss_of_other {d d' : Daemon} {p old : String} (hr : daemon.Run .empty tr d)
    (hst : daemon.step d (.nameOwnerChanged p old "", .none) d')
    (hp : ∀ h, life s tr = some h → lastBus s h ≠ some p) : d'.slots s = d.slots s := by
  have hs := step_slot (step_slots hst) s
  generalize d'.slots s = x' at hs
  cases hs with
  | lost name oldOwner x' hb hl =>
    obtain ⟨-, h, hl, hlast⟩ := (follows_run hr s).last_of_life hb
    exact absurd hlast (hp h hl)
  | other l hn => rfl

/-- **Crashes are neither invented nor counted twice.** In every run, for every service `s`:

* a step that increments its `crashCount` is the loss of the bus name carried by the most recent
  accepted non-empty registration of `s` since its entry was created, and no earlier step since
  that registration incremented it;
* `crashCount`, plus one while `s` is bound, is at most the number of those registrations;
* the loss of any other bus name leaves `s` in both tables as it is. -/
theorem crash_charged {tr : List (Req × Reply)} {d : Daemon} (hr : daemon.Run .empty tr d)
    (s : String) :
    (∀ l d', daemon.step d l d' → Crashes s d d' →
      ∃ p old h, l = (.nameOwnerChanged p old "", .none) ∧ p ≠ "" ∧
        life s tr = some h ∧ lastBus s h = some p ∧
        ∀ tr₀ l₀ tr₁ e e', tr = tr₀ ++ l₀ :: tr₁ → daemon.Run .empty tr₀ e →
          daemon.step e l₀ e' → daemon.Run e' tr₁ d → Crashes s e e' →
          lastBus s tr₁ = some p) ∧
    (∀ info, d.scheduler.lookups s = some info → ∃ h, life s tr = some h ∧
      info.crashCount.toNat + (if (d.m_ServiceToBusName.lookups s).isSome then 1 else 0) ≤
        (bindings s h).length) ∧
    ∀ p old d', daemon.step d (.nameOwnerChanged p old "", .none) d' →
      (∀ h, life s tr = some h → lastBus s h ≠ some p) →
      d'.scheduler.lookups s = d.scheduler.lookups s ∧
        d'.m_ServiceToBusName.lookups s = d.m_ServiceToBusName.lookups s := by
  refine ⟨?_, fun info hi => crashes_le hr hi, ?_⟩
  · intro l d' hst hc
    obtain ⟨p, old, h, rfl, hp, hl, hlast, hb, -⟩ := step_charged hr hst hc
    refine ⟨p, old, h, rfl, hp, hl, hlast, ?_⟩
    intro tr₀ l₀ tr₁ e e' _ hre hste hrd hce
    obtain ⟨_, _, _, _, _, _, _, _, hpe⟩ := step_charged hre hste hce
    exact bound_since hrd (wellBound_run (hre.snoc hste) s) hpe p hb
  · intro p old d' hst hp
    have hx := loss_of_other hr hst hp
    exact ⟨congrArg Slot.cell hx, congrArg Slot.peer hx⟩

/-- Two registrations with a crash in between: the second covers at most one more. -/
theorem crash_charged_restart : ∃ d info,
    daemon.Run .empty
      [(registerFrom ":1.1" "AppA", .register .OK), (.nameOwnerChanged ":1.1" ":1.1" "", .none),
        (registerFrom ":1.2" "AppA", .register .OK)] d ∧
      d.scheduler.lookups "AppA" = some info ∧ info.crashCount = 1 ∧
      info.crashCount.toNat + 1 ≤ 2 := by
  obtain ⟨d, hr, hp⟩ := exists_run
    [(registerFrom ":1.1" "AppA", .register .OK),
      (.nameOwnerChanged ":1.1" ":1.1" "", .none), (registerFrom ":1.2" "AppA", .register .OK)]
    (fun d => (d.scheduler.lookups "AppA").any (·.crashCount = 1) &&
      (d.m_ServiceToBusName.lookups "AppA").isSome) (by decide)
  rw [Bool.and_eq_true, Option.any_eq_true] at hp
  obtain ⟨⟨info, hi, hc⟩, hb⟩ := hp
  obtain ⟨h, hl, hle⟩ := (crash_charged hr "AppA").2.1 info hi
  obtain rfl : _ = h := Option.some.inj hl
  rw [if_pos hb] at hle
  exact ⟨d, info, hr, hi, of_decide_eq_true hc, hle⟩

end ServiceRecovery
