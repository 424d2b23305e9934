import ServiceRecovery.L4Daemon.Slots

/-!
# The two tables agree

`Slot.Step s` is a step of the daemon as the service `s` sees it, and `slot_traced` the induction
rule it gives: a relation between the trace and one slot that every step keeps holds along every
run.

* `wellBound_run`: in every run a bound service is registered and online, a registered one is in
  the catalogue, and no empty bus name is recorded;
* `tables_agree`: when every registering client has a non-empty bus name, a service is bound
  exactly when it is online.
-/
namespace ServiceRecovery

open RecoveryState SServiceRecoveryInfo

/-- The service that a request names. -/
def Req.serviceName : Req → Option String
  | .registerService _ s _ _ _ => some s
  | .unregisterService _ s => some s
  | .reportServiceState _ s _ _ => some s
  | .nameOwnerChanged _ _ _ => none

/-- A step as the service `s` sees it. -/
inductive Slot.Step (s : String) (x : Slot) : Req × Reply → Slot → Prop
  | register (client : ClientId) (acts : Vec UInt8) (ivl : Int32) (pidReply : Option UInt32) :
      Step s x (.registerService client s acts ivl pidReply,
          .register (if x.cell.accepts s then .OK else .INVALID_NAME))
        (x.register s (acts.map fromWire) ivl (peerOf client pidReply))
  | unregister (client : ClientId) :
      Step s x (.unregisterService client s,
        .unregister (if x.cell.isSome then .OK else .NOT_FOUND)) x.unregister
  | report (client : ClientId) (cur last : UInt8) :
      Step s x (.reportServiceState client s cur last,
          .query (if x.cell.isSome then .OK else .NOT_FOUND))
        (x.report (fromWire cur) (fromWire last))
  | lost (name oldOwner : String) (x' : Slot) : x.BoundTo name → x.lose s = some x' →
      Step s x (.nameOwnerChanged name oldOwner "", .none) x'
  | other (l : Req × Reply) : l.1.serviceName ≠ some s → Step s x l x

theorem step_slot {w w' : Slots} {l : Req × Reply} (h : slots.step w l w') (s : String) :
    Slot.Step s (w s) l (w' s) := by
  have named : ∀ {t : String} {x : Slot}, l.1.serviceName = some t →
      (s = t → Slot.Step t (w t) l x) → Slot.Step s (w s) l (Function.update w t x s) := by
    intro t x hl hx
    by_cases hs : s = t
    · subst hs
      rw [Function.update_self]
      exact hx rfl
    · rw [Function.update_of_ne hs]
      refine .other l ?_
      rw [hl]
      intro he
      exact hs (Option.some.inj he).symm
  cases h with
  | register client t acts ivl pidReply =>
    exact named rfl fun _ => .register client acts ivl pidReply
  | unregister client t => exact named rfl fun _ => .unregister client
  | report client t cur last => exact named rfl fun _ => .report client cur last
  | owned name oldOwner newOwner hn => exact .other _ (by simp [Req.serviceName])
  | unbound name oldOwner hu => exact .other _ (by simp [Req.serviceName])
  | lost name oldOwner t x hb hx =>
    by_cases hs : s = t
    · subst hs
      rw [Function.update_self]
      exact .lost name oldOwner x hb hx
    · rw [Function.update_of_ne hs]
      exact .other _ (by simp [Req.serviceName])

/-- The induction rule for one service: `I` relates the trace so far to its slot. -/
theorem slot_traced {s : String} {I : List (Req × Reply) → Slot → Prop} {G : Req × Reply → Prop}
    (hs : ∀ tr x l x', I tr x → G l → Slot.Step s x l x' → I (tr ++ [l]) x')
    {d₀ d : Daemon} {tr : List (Req × Reply)} (hr : daemon.Run d₀ tr d) (hG : ∀ l ∈ tr, G l)
    (h0 : I [] (d₀.slots s)) : I tr (d.slots s) := by
  have ht : (daemon.restrict fun _ l _ => G l).Traced fun tr d => I tr (d.slots s) :=
    fun tr d l d' ih hst => hs tr _ l _ ih hst.2 (step_slot (step_slots hst.1) s)
  exact ht.run h0 (LTS.run_restrict_iff.mpr ⟨hr, hG⟩)

/-! ## The invariant of a slot -/

def Cell.online : Cell → Bool
  | none => false
  | some info => info.isOnline

@[simp] theorem Cell.online_none : Cell.online none = false := rfl

@[simp] theorem Cell.online_some (info : SServiceRecoveryInfo) :
    Cell.online (some info) = info.isOnline := rfl

theorem Cell.online_iff {c : Cell} :
    c.online = true ↔ ∃ info, c = some info ∧ info.isOnline = true := by
  cases c <;> simp

theorem Cell.online_register {c : Cell} {s : String} {acts : Vec RecoveryState} {ivl : Int32}
    (h : c.accepts s) : (c.register s acts ivl).online = true := by
  unfold Cell.register
  cases c with
  | none =>
    have hc : InCatalogue s := h.resolve_left (by simp)
    simp [hc, fresh_eq]
  | some info => rfl

theorem Cell.online_report (c : Cell) (cur last : RecoveryState) :
    (c.report cur last).online = c.online := by
  cases c with
  | none => rfl
  | some info =>
    show (info.report cur last).isOnline = info.isOnline
    unfold SServiceRecoveryInfo.report
    split <;> rfl

theorem Cell.online_failure {c c' : Cell} (h : c.failure = some c') : c'.online = false := by
  cases c with
  | none => cases h; rfl
  | some info =>
    simp only [Cell.failure, Option.map_eq_some_iff] at h
    obtain ⟨info', hf, rfl⟩ := h
    obtain ⟨a, -, rfl⟩ := failure_eq_some.mp hf
    rfl

theorem Slot.register_of_rejected {s : String} {x : Slot} {acts : Vec RecoveryState} {ivl : Int32}
    {peer : PeerInfo} (h : ¬ x.cell.accepts s) : x.register s acts ivl peer = x := by
  unfold Slot.register
  rw [Cell.register_of_rejected h, if_neg fun hp => h hp.1]

/-- What every reachable slot satisfies. -/
structure Slot.WellBound (s : String) (x : Slot) : Prop where
  online : x.peer.isSome → x.cell.online = true
  catalogue : x.cell.isSome → InCatalogue s
  bus : ∀ peer, x.peer = some peer → peer.uniqueBusName ≠ ""

namespace Slot.WellBound

variable {s : String} {x x' : Slot}

theorem registered (h : x.WellBound s) (hp : x.peer.isSome) : x.cell.isSome := by
  obtain ⟨info, hi, -⟩ := Cell.online_iff.mp (h.online hp)
  rw [hi]; rfl

/-- The guard of the peer-loss handler never holds back a bound service. -/
theorem ne_empty (h : x.WellBound s) (hp : x.peer.isSome) : s ≠ "" := by
  intro hs
  subst hs
  exact empty_not_inCatalogue (h.catalogue (h.registered hp))

theorem lose_eq (h : x.WellBound s) (hp : x.peer.isSome) :
    x.lose s = x.cell.failure.map fun c => ⟨c, none⟩ := if_neg (h.ne_empty hp)

theorem lost {p : String} (h : x.WellBound s) (hb : x.BoundTo p) (hl : x.lose s = some x') :
    ∃ c, x.cell.failure = some c ∧ x' = ⟨c, none⟩ := by
  obtain ⟨peer, hp, -⟩ := hb
  rw [h.lose_eq (Option.isSome_of_eq_some hp), Option.map_eq_some_iff] at hl
  obtain ⟨c, hc, rfl⟩ := hl
  exact ⟨c, hc, rfl⟩

theorem step {l : Req × Reply} (h : x.WellBound s) (hs : Slot.Step s x l x') :
    x'.WellBound s := by
  cases hs with
  | register client acts ivl pidReply =>
    by_cases ha : x.cell.accepts s
    · refine ⟨fun _ => Cell.online_register ha, fun _ => ?_, ?_⟩
      · exact ha.elim h.catalogue id
      · intro peer hp
        simp only [Slot.register] at hp
        split at hp
        · rename_i hb
          cases hp
          exact hb.2
        · exact h.bus peer hp
    · rw [Slot.register_of_rejected ha]
      exact h
  | unregister client =>
    have hp : (Slot.unregister x).peer = none := by
      unfold Slot.unregister
      dsimp only
      split
      · rfl
      · rename_i hc
        exact Option.not_isSome_iff_eq_none.mp (mt h.registered hc)
    exact ⟨by rw [hp]; simp, by simp [Slot.unregister], by rw [hp]; simp⟩
  | report client cur last =>
    refine ⟨?_, ?_, h.bus⟩
    · intro hp
      exact (Cell.online_report ..).trans (h.online hp)
    · intro hc
      exact h.catalogue (by simpa [Slot.report, Cell.report] using hc)
  | lost name oldOwner x' hb hl =>
    obtain ⟨c, hc, rfl⟩ := h.lost hb hl
    refine ⟨by simp, fun hs => h.catalogue ?_, by simp⟩
    rw [← Cell.failure_isSome hc]
    exact hs
  | other l hl => exact h

end Slot.WellBound

theorem wellBound_empty (s : String) : Slot.WellBound s .empty :=
  ⟨by simp [Slot.empty], by simp [Slot.empty], by simp [Slot.empty]⟩

theorem wellBound_inductive : daemon.Inductive fun d => ∀ s, (d.slots s).WellBound s where
  init := by
    intro d h0 s
    cases h0
    exact wellBound_empty s
  step := fun d l d' h hst s => (h s).step (step_slot (step_slots hst) s)

theorem wellBound_reachable {d : Daemon} (hr : daemon.Reachable d) (s : String) :
    Slot.WellBound s (d.slots s) := wellBound_inductive.reachable d hr s

theorem wellBound_run {tr : List (Req × Reply)} {d : Daemon} (hr : daemon.Run .empty tr d)
    (s : String) : Slot.WellBound s (d.slots s) := wellBound_reachable ⟨_, tr, rfl, hr⟩ s

/-! ## Online means watched -/

/-- A registering client has a non-empty D-Bus unique name. -/
def Req.clientNamed : Req → Prop
  | .registerService client _ _ _ _ => extractDbusUniqueName client ≠ ""
  | _ => True

theorem Slot.Step.watched {s : String} {x x' : Slot} {l : Req × Reply} (hst : Slot.Step s x l x')
    (hl : l.1.clientNamed) (hw : x.WellBound s) (h : x.cell.online = true → x.peer.isSome) :
    x'.cell.online = true → x'.peer.isSome := by
  cases hst with
  | register client acts ivl pidReply =>
    intro ho
    by_cases ha : x.cell.accepts s
    · have hb : (peerOf client pidReply).uniqueBusName ≠ "" := hl
      simp [Slot.register, ha, hb]
    · rw [Slot.register_of_rejected ha] at ho ⊢
      exact h ho
  | unregister client => intro ho; cases ho
  | report client cur last =>
    intro ho
    exact h ((Cell.online_report ..).symm.trans ho)
  | lost name oldOwner x' hb hl =>
    obtain ⟨c, hc, rfl⟩ := hw.lost hb hl
    intro ho
    rw [show c.online = false from Cell.online_failure hc] at ho
    cases ho
  | other l hl => exact h

/-- **The tables agree.** In every run in which the registering clients have bus names, after every
step, a service is bound in `m_ServiceToBusName` iff `m_MapServiceInfo` has it online, and both
tables stay inside the catalogue. -/
theorem tables_agree {tr : List (Req × Reply)} {d : Daemon} (hr : daemon.Run .empty tr d)
    (hnamed : ∀ l ∈ tr, l.1.clientNamed) (s : String) :
    ((d.m_ServiceToBusName.lookups s).isSome ↔
        ∃ info, d.scheduler.lookups s = some info ∧ info.isOnline = true) ∧
      ((d.m_ServiceToBusName.lookups s).isSome → InCatalogue s) ∧
      ((d.scheduler.lookups s).isSome → InCatalogue s) := by
  have hw := wellBound_run hr s
  have ho := slot_traced (s := s)
    (I := fun _ x => x.WellBound s ∧ (x.cell.online = true → x.peer.isSome))
    (fun _ _ _ _ h hl hst => ⟨h.1.step hst, hst.watched hl h.1 h.2⟩)
    hr hnamed ⟨wellBound_empty s, by intro ho; cases ho⟩
  refine ⟨⟨fun hp => Cell.online_iff.mp (hw.online hp), fun hi => ho.2 (Cell.online_iff.mpr hi)⟩,
    fun hp => hw.catalogue (hw.registered hp), hw.catalogue⟩

/-- To exhibit a run, serve the requests without reordering the maps. -/
theorem exists_run (tr : List (Req × Reply)) (P : Daemon → Bool)
    (h : (LTS.runFn Daemon.answer .empty tr).any P = true) :
    ∃ d, daemon.Run .empty tr d ∧ P d = true := LTS.exists_run_ofFn .refl P h

/-- A registration over the connection `bus` with the default policy. -/
def registerFrom (bus serviceName : String) : Req :=
  .registerService (.dbus (some bus)) serviceName ⟨[], by decide⟩ (-1) none

/-- A restart: the service is bound again and online again. -/
theorem tables_agree_restart : ∃ d,
    daemon.Run .empty
      [(registerFrom ":1.1" "AppA", .register .OK), (.nameOwnerChanged ":1.1" ":1.1" "", .none),
        (registerFrom ":1.2" "AppA", .register .OK)] d ∧
      ∃ info, d.scheduler.lookups "AppA" = some info ∧ info.isOnline = true := by
  obtain ⟨d, hr, hp⟩ := exists_run
    [(registerFrom ":1.1" "AppA", .register .OK),
      (.nameOwnerChanged ":1.1" ":1.1" "", .none), (registerFrom ":1.2" "AppA", .register .OK)]
    (fun d => (d.m_ServiceToBusName.lookups "AppA").isSome) (by decide)
  exact ⟨d, hr, (tables_agree hr (by simp [registerFrom, Req.clientNamed, extractDbusUniqueName])
    "AppA").1.mp hp⟩

end ServiceRecovery
