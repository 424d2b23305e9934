import ServiceRecovery.L2Scheduler.Policies
import ServiceRecovery.L4Daemon.Isolation

/-!
# The state of a service as a function of the messages

`watch s` reads the messages of a trace from left to right and keeps two things: the bus name that
`s` is watched under, and the scheduler calls that the messages make for `s`. It knows nothing of
the registry, of the other services or of the iteration order of a table.

When every bus name registers at most one service, it says all that there is to know of `s`:

* `watched_run`: after every run, `s` is bound to the name of `watch s`, and its entry tracks the
  calls of `watch s`;
* `snapshot_of_messages`: so what a query answers can be read off the messages.
-/
namespace ServiceRecovery

open RecoveryState SServiceRecoveryInfo

structure Watching where
  bus : Option String
  calls : List Call

namespace Watching

def empty : Watching := ⟨none, []⟩

def call (w : Watching) (c : Call) : Watching := { w with calls := w.calls ++ [c] }

/-- One more message. -/
def next (s : String) (w : Watching) : Req × Reply → Watching
  | l@(.registerService client t acts ivl pidReply, _) =>
    if t = s then
      { w with bus := (busOf s l).or w.bus }.call
        (.onRegisterService s (acts.map fromWire) ivl (peerOf client pidReply).pid)
    else w
  | (.unregisterService _ t, _) =>
    if t = s then { w with bus := none }.call (.onUnregisterService s) else w
  | (.reportServiceState _ t cur last, _) =>
    if t = s then w.call (.onReportServiceState s (fromWire cur) (fromWire last)) else w
  | (.nameOwnerChanged name _ newOwner, _) =>
    if newOwner = "" ∧ w.bus = some name then
      { w with bus := none }.call (.onServiceFailure s)
    else w

end Watching

def watch (s : String) (tr : List (Req × Reply)) : Watching := tr.foldl (Watching.next s) .empty

variable {s : String} {tr : List (Req × Reply)} {l : Req × Reply} {w : Watching} {x x' : Slot}

theorem watch_snoc : watch s (tr ++ [l]) = (watch s tr).next s l := by
  unfold watch
  rw [List.foldl_append, List.foldl_cons, List.foldl_nil]

/-- A request for another service. -/
theorem Watching.next_of_other {t : String} (h : l.1.serviceName = some t) (hne : t ≠ s) :
    w.next s l = w := by
  obtain ⟨req, rep⟩ := l
  cases req with
  | nameOwnerChanged name oldOwner newOwner => cases h
  | _ =>
    obtain rfl := Option.some.inj h
    exact if_neg hne

theorem Slot.boundTo_iff {p : String} :
    x.BoundTo p ↔ x.peer.map PeerInfo.uniqueBusName = some p := by
  unfold Slot.BoundTo
  rw [Option.map_eq_some_iff]

theorem Slot.Solo.step (h : Slot.Solo s x l x') : Slot.Step s x l x' := by
  cases h with
  | register client acts ivl pidReply => exact .register client acts ivl pidReply
  | unregister client => exact .unregister client
  | report client cur last => exact .report client cur last
  | lost name oldOwner x' hb hx => exact .lost name oldOwner x' hb hx
  | ignored name oldOwner newOwner hn => exact .other _ (by simp [Req.serviceName])

/-! ## The slot follows the messages -/

/-- The slot `x` is the one that `w` describes. -/
structure Watched (s : String) (w : Watching) (x : Slot) : Prop where
  bound : x.WellBound s
  bus : x.peer.map PeerInfo.uniqueBusName = w.bus
  tracks : TracksCell (history s w.calls) x.cell

theorem watched_empty (s : String) : Watched s .empty .empty :=
  ⟨wellBound_empty s, rfl, trivial⟩

/-- A call for `s`, on the calls and on the cell. -/
theorem Watched.tracks_call (hw : Watched s w x) {c : Call} (hc : c.serviceName = s) {cell : Cell}
    (ha : x.cell.apply c = some cell) : TracksCell (history s (w.calls ++ [c])) cell := by
  rw [history_snoc hc]
  exact tracksCell_step hw.tracks ha

theorem Watched.register (hw : Watched s w x) (client : ClientId) (acts : Vec UInt8) (ivl : Int32)
    (pidReply : Option UInt32) :
    (x.register s (acts.map fromWire) ivl (peerOf client pidReply)).peer.map
        PeerInfo.uniqueBusName =
      (busOf s (.registerService client s acts ivl pidReply,
        .register (if x.cell.accepts s then .OK else .INVALID_NAME))).or w.bus := by
  unfold Slot.register
  by_cases ha : x.cell.accepts s
  · by_cases hb : extractDbusUniqueName client = ""
    · simp [busOf, peerOf, ha, hb, hw.bus]
    · simp [busOf, peerOf, ha, hb]
  · simp [busOf, ha, hw.bus]

theorem Watched.next (hw : Watched s w x) (hst : Slot.Solo s x l x') :
    Watched s (w.next s l) x' := by
  have hwb := hw.bound.step hst.step
  cases hst with
  | register client acts ivl pidReply =>
    rw [Watching.next, if_pos rfl]
    exact ⟨hwb, hw.register client acts ivl pidReply, hw.tracks_call rfl rfl⟩
  | unregister client =>
    rw [Watching.next, if_pos rfl]
    refine ⟨hwb, ?_, hw.tracks_call rfl rfl⟩
    have hp : (Slot.unregister x).peer = none := by
      by_contra hp
      have := hwb.registered (Option.isSome_iff_ne_none.mpr hp)
      cases this
    rw [hp]
    rfl
  | report client cur last =>
    rw [Watching.next, if_pos rfl]
    exact ⟨hwb, hw.bus, hw.tracks_call rfl rfl⟩
  | lost name oldOwner x' hb hx =>
    obtain ⟨c, hc, rfl⟩ := hw.bound.lost hb hx
    rw [Watching.next, if_pos ⟨rfl, hw.bus ▸ Slot.boundTo_iff.mp hb⟩]
    exact ⟨hwb, rfl, hw.tracks_call rfl hc⟩
  | ignored name oldOwner newOwner hn =>
    rw [Watching.next, if_neg]
    · exact hw
    · rintro ⟨he, hb⟩
      exact hn he (Slot.boundTo_iff.mpr (hw.bus.trans hb))

/-- No two services are bound to one name. -/
theorem bound_unique {d : Daemon} (hr : daemon.Run .empty tr d) (hone : OneService tr)
    {t p : String} (hs : (d.slots s).BoundTo p) (ht : (d.slots t).BoundTo p) : t = s := by
  obtain ⟨l₁, hm₁, hl₁⟩ := bound_registered hr hs
  obtain ⟨l₂, hm₂, hl₂⟩ := bound_registered hr ht
  exact (hone l₁ hm₁ l₂ hm₂ s t p hl₁ hl₂).symm

theorem OneService.of_append {tr' : List (Req × Reply)} (h : OneService (tr ++ tr')) :
    OneService tr := fun l hl l' hl' =>
  h l (List.mem_append_left _ hl) l' (List.mem_append_left _ hl')

theorem watched_run {d : Daemon} (hr : daemon.Run .empty tr d) (hone : OneService tr)
    (s : String) : Watched s (watch s tr) (d.slots s) := by
  induction tr using List.reverseRecOn generalizing d with
  | nil =>
    obtain rfl := LTS.run_nil_iff.mp hr
    exact watched_empty s
  | append_singleton tr l ih =>
    obtain ⟨e, hre, hst⟩ := LTS.run_snoc_iff.mp hr
    have hw := ih hre hone.of_append
    rw [watch_snoc]
    by_cases hn : ∀ t, l.1.serviceName = some t → t = s
    · exact hw.next (step_solo (step_slots hst) hn fun t p hs ht =>
        bound_unique hre hone.of_append hs ht)
    · push Not at hn
      obtain ⟨t, ht, hne⟩ := hn
      rw [Watching.next_of_other ht hne, (step_slot (step_slots hst) s).of_other ht hne]
      exact hw

/-! ## What a query answers -/

/-- The policy that the message registers, if any, is in `P`. -/
def Req.Registers (P : List RecoveryState → Prop) : Req → Prop
  | .registerService _ _ acts _ _ => P (policy (acts.map fromWire))
  | _ => True

theorem Watching.registers_next {P : List RecoveryState → Prop} (hl : l.1.Registers P)
    (hw : ∀ c ∈ w.calls, c.Registers P) : ∀ c ∈ (w.next s l).calls, c.Registers P := by
  have hcall : ∀ (w' : Watching) (c : Call), w'.calls = w.calls → c.Registers P →
      ∀ c' ∈ (w'.call c).calls, c'.Registers P := by
    intro w' c he hc c' hm
    rcases List.mem_append.mp hm with hm | hm
    · exact hw c' (he ▸ hm)
    · rw [List.mem_singleton.mp hm]
      exact hc
  obtain ⟨req, rep⟩ := l
  cases req with
  | registerService client t acts ivl pidReply =>
    rw [Watching.next]
    split
    · exact hcall _ (.onRegisterService s _ ivl _) rfl hl
    · exact hw
  | _ =>
    rw [Watching.next]
    split
    · exact hcall _ _ rfl trivial
    · exact hw

theorem watch_registers {P : List RecoveryState → Prop} (hP : ∀ l ∈ tr, l.1.Registers P) :
    ∀ c ∈ (watch s tr).calls, c.Registers P := by
  induction tr using List.reverseRecOn with
  | nil => simp [watch, Watching.empty]
  | append_singleton tr l ih =>
    rw [watch_snoc]
    exact Watching.registers_next (hP l (by simp))
      (ih fun l' hl' => hP l' (List.mem_append_left _ hl'))

end ServiceRecovery
