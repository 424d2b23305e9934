import ServiceRecovery.L4Daemon.CrashTrace

/-!
# Replies

The reply of a handler is decided in the scheduler, and both tables change only on the branch that
replies OK. `RepliesFaithful d` says what the replies given in the state `d` mean and what a
request leaves behind; `replies_faithful`: it holds in every reachable state.

* `register_reply`, `unregister_reply`, `report_reply`: which requests are answered OK;
* `refused_step`: a request that is not leaves both tables as they are;
* `unregister_absent`, `absent_run`: after an unregistration, whatever the reply, the service is in
  neither table until it is registered again, so no lost bus name is taken for its failure.
-/
namespace ServiceRecovery

open RecoveryState SServiceRecoveryInfo

/-- The request is answered, but not with OK. -/
def Reply.refuses : Reply → Bool
  | .register result => decide (result ≠ .OK)
  | .unregister result => decide (result ≠ .OK)
  | .query result => decide (result ≠ .OK)
  | .none => false

namespace Daemon

/-- `s` is in neither table. -/
def Absent (d : Daemon) (s : String) : Prop :=
  d.scheduler.lookups s = none ∧ d.m_ServiceToBusName.lookups s = none

/-- In some iteration order the handler for the loss of `name` calls `onServiceFailure(s)`. -/
def Reports (d : Daemon) (name s : String) : Prop :=
  ∃ d₁, d.Shuffle d₁ ∧ (d₁.findAndErase name).1 = s ∧ s ≠ ""

end Daemon

structure RepliesFaithful (d : Daemon) : Prop where
  /-- A name of the catalogue is registered, whether or not it is already. -/
  register : ∀ client s acts ivl pidReply rep d',
    daemon.step d (.registerService client s acts ivl pidReply, rep) d' →
      (rep = .register .OK ↔ InCatalogue s)
  unregister : ∀ client s rep d', daemon.step d (.unregisterService client s, rep) d' →
    (rep = .unregister .OK ↔ (d.scheduler.lookups s).isSome)
  report : ∀ client s cur last rep d',
    daemon.step d (.reportServiceState client s cur last, rep) d' →
      (rep = .query .OK ↔ (d.scheduler.lookups s).isSome)
  answered : ∀ req : Req, req.serviceName.isSome → ∃ rep d', daemon.step d (req, rep) d'
  refused : ∀ l d', daemon.step d l d' → l.2.refuses = true →
    d'.scheduler.lookups = d.scheduler.lookups ∧
      d'.m_ServiceToBusName.lookups = d.m_ServiceToBusName.lookups
  /-- Whatever the reply. `opensLife s` marks the accepted registrations of `s`. -/
  gone : ∀ client s rep d', daemon.step d (.unregisterService client s, rep) d' →
    d'.Absent s ∧ ∀ tr d'', daemon.Run d' tr d'' → (∀ l ∈ tr, opensLife s l = false) →
      d''.Absent s ∧ ∀ name, ¬ d''.Reports name s

section
variable {d d' : Daemon} {client : ClientId} {s : String} {rep : Reply}

theorem Daemon.absent_iff : d.Absent s ↔ d.slots s = .empty := by
  unfold Daemon.Absent Slot.empty Daemon.slots
  rw [Slot.mk.injEq]

/-! ## Which requests are answered OK -/

/-- In a reachable state no service outside the catalogue has an entry. -/
theorem accepts_iff (hw : (d.slots s).WellBound s) :
    (d.slots s).cell.accepts s ↔ InCatalogue s := by
  constructor
  · intro ha
    rcases ha with hc | hc
    · exact hw.catalogue hc
    · exact hc
  · intro hc
    exact .inr hc

theorem register_reply {acts : Vec UInt8} {ivl : Int32} {pidReply : Option UInt32}
    (hw : (d.slots s).WellBound s)
    (h : daemon.step d (.registerService client s acts ivl pidReply, rep) d') :
    rep = .register .OK ↔ InCatalogue s := by
  rw [← accepts_iff hw]
  have hst := step_slot (step_slots h) s
  generalize d'.slots s = x' at hst
  cases hst with
  | register client acts ivl pidReply => simp
  | other l hn => exact absurd rfl hn

theorem unregister_reply (h : daemon.step d (.unregisterService client s, rep) d') :
    rep = .unregister .OK ↔ (d.scheduler.lookups s).isSome := by
  rw [← Daemon.slots_cell]
  have hst := step_slot (step_slots h) s
  generalize d'.slots s = x' at hst
  cases hst with
  | unregister client => simp [Option.isSome_iff_ne_none]
  | other l hn => exact absurd rfl hn

theorem report_reply {cur last : UInt8}
    (h : daemon.step d (.reportServiceState client s cur last, rep) d') :
    rep = .query .OK ↔ (d.scheduler.lookups s).isSome := by
  rw [← Daemon.slots_cell]
  have hst := step_slot (step_slots h) s
  generalize d'.slots s = x' at hst
  cases hst with
  | report client cur last => simp [Option.isSome_iff_ne_none]
  | other l hn => exact absurd rfl hn

theorem request_answered {req : Req} (hreq : req.serviceName.isSome) :
    ∃ rep d', daemon.step d (req, rep) d' := by
  cases req with
  | registerService client s acts ivl pidReply =>
    obtain ⟨d', hst, -⟩ := slots_step (d := d) (.register client s acts ivl pidReply)
    exact ⟨_, d', hst⟩
  | unregisterService client s =>
    obtain ⟨d', hst, -⟩ := slots_step (d := d) (.unregister client s)
    exact ⟨_, d', hst⟩
  | reportServiceState client s cur last =>
    obtain ⟨d', hst, -⟩ := slots_step (d := d) (.report client s cur last)
    exact ⟨_, d', hst⟩
  | nameOwnerChanged name oldOwner newOwner => cases hreq

/-! ## Refused requests -/

theorem Slot.unregister_of_absent {x : Slot} (hc : ¬ x.cell.isSome) : x.unregister = x := by
  obtain ⟨cell, peer⟩ := x
  obtain rfl := Option.not_isSome_iff_eq_none.mp hc
  rfl

theorem Slot.report_of_absent {x : Slot} {cur last : RecoveryState} (hc : ¬ x.cell.isSome) :
    x.report cur last = x := by
  obtain ⟨cell, peer⟩ := x
  obtain rfl := Option.not_isSome_iff_eq_none.mp hc
  rfl

theorem refused_slots {w w' : Slots} {l : Req × Reply} (h : slots.step w l w')
    (hrep : l.2.refuses = true) : w' = w := by
  cases h with
  | register client s acts ivl pidReply =>
    have ha : ¬ (w s).cell.accepts s := by
      intro ha
      simp [Reply.refuses, ha] at hrep
    rw [Slot.register_of_rejected ha, Function.update_eq_self]
  | unregister client s =>
    have hc : ¬ (w s).cell.isSome := by
      intro hc
      simp [Reply.refuses, hc] at hrep
    rw [Slot.unregister_of_absent hc, Function.update_eq_self]
  | report client s cur last =>
    have hc : ¬ (w s).cell.isSome := by
      intro hc
      simp [Reply.refuses, hc] at hrep
    rw [Slot.report_of_absent hc, Function.update_eq_self]
  | owned name oldOwner newOwner hn => cases hrep
  | unbound name oldOwner hu => cases hrep
  | lost name oldOwner s x hb hx => cases hrep

theorem refused_step {l : Req × Reply} (h : daemon.step d l d') (hrep : l.2.refuses = true) :
    d'.scheduler.lookups = d.scheduler.lookups ∧
      d'.m_ServiceToBusName.lookups = d.m_ServiceToBusName.lookups := by
  have hw := refused_slots (step_slots h) hrep
  refine ⟨?_, ?_⟩
  · funext s
    exact congrArg Slot.cell (congrFun hw s)
  · funext s
    exact congrArg Slot.peer (congrFun hw s)

/-! ## After an unregistration -/

/-- A service without an entry is not bound, so it has nothing to lose. -/
theorem unregister_absent (hw : (d.slots s).WellBound s)
    (h : daemon.step d (.unregisterService client s, rep) d') : d'.Absent s := by
  have hst := step_slot (step_slots h) s
  have hw' := hw.step hst
  have hc : (d'.slots s).cell = none := by
    generalize d'.slots s = x' at hst
    cases hst with
    | unregister client => rfl
    | other l hn => exact absurd rfl hn
  refine ⟨hc, Option.not_isSome_iff_eq_none.mp ?_⟩
  intro hp
  have := hw'.registered hp
  rw [hc] at this; cases this

theorem empty_step {x' : Slot} {l : Req × Reply} (hst : Slot.Step s .empty l x')
    (hl : opensLife s l = false) : x' = .empty := by
  cases hst with
  | register client acts ivl pidReply =>
    refine Slot.register_of_rejected ?_
    intro ha
    rw [if_pos ha] at hl
    simp [opensLife] at hl
  | unregister client => rfl
  | report client cur last => rfl
  | lost name oldOwner x' hb hx =>
    obtain ⟨peer, hp, -⟩ := hb
    cases hp
  | other l hn => rfl

/-- An absent service stays absent until it is registered. -/
theorem absent_run {tr : List (Req × Reply)} (hr : daemon.Run d tr d')
    (htr : ∀ l ∈ tr, opensLife s l = false) (ha : d.Absent s) : d'.Absent s := by
  rw [Daemon.absent_iff] at ha ⊢
  refine slot_traced (I := fun _ x => x = .empty) ?_ hr htr ha
  intro tr x l x' hx hl hst
  subst hx
  exact empty_step hst hl

theorem Daemon.Absent.not_reports (ha : d.Absent s) (name : String) : ¬ d.Reports name s := by
  intro hrep
  obtain ⟨d₁, hsh, hs, hne⟩ := hrep
  rcases findAndErase_slots d₁ name with ⟨-, hf⟩ | ⟨t, hb, hf⟩
  · rw [hf] at hs
    exact hne hs.symm
  · rw [hf] at hs
    obtain rfl : t = s := hs
    rw [← hsh.slots, Daemon.absent_iff.mp ha] at hb
    obtain ⟨peer, hp, -⟩ := hb
    cases hp

end

/-- **Replies.** In every reachable state, for all clients: a registration is answered OK iff its
name is in the catalogue, an unregistration or a report iff its service is in the registry; a
refused request leaves both tables as they are; and after an unregistration the service is in
neither table, and no lost name is reported as its failure, until it is registered again. -/
theorem replies_faithful {d : Daemon} (hr : daemon.Reachable d) : RepliesFaithful d where
  register := fun _ s _ _ _ _ _ h => register_reply (wellBound_reachable hr s) h
  unregister := fun _ _ _ _ h => unregister_reply h
  report := fun _ _ _ _ _ _ h => report_reply h
  answered := fun _ hreq => request_answered hreq
  refused := fun _ _ h hrep => refused_step h hrep
  gone := by
    intro client s rep d' h
    have ha := unregister_absent (wellBound_reachable hr s) h
    refine ⟨ha, ?_⟩
    intro tr d'' hrun htr
    have ha' := absent_run hrun htr ha
    exact ⟨ha', ha'.not_reports⟩

/-- A client without a bus name registers `AppA`, and any further registration of it is accepted. -/
theorem replies_faithful_unnamed : ∃ d,
    daemon.Run .empty
      [(.registerService .other "AppA" ⟨[], by decide⟩ (-1) none, .register .OK)] d ∧
      ∀ rep d', daemon.step d (registerFrom ":1.1" "AppA", rep) d' → rep = .register .OK := by
  obtain ⟨d, hr, -⟩ := exists_run
    [(.registerService .other "AppA" ⟨[], by decide⟩ (-1) none, .register .OK)]
    (fun _ => true) (by decide)
  refine ⟨d, hr, ?_⟩
  intro rep d' h
  exact ((replies_faithful ⟨_, _, rfl, hr⟩).register _ _ _ _ _ rep d' h).mpr (by decide)

end ServiceRecovery
