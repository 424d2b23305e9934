import ServiceRecovery.L4Daemon.Messages
import ServiceRecovery.L4Daemon.Replies

/-!
# Which policies are safe to accept

The daemon stores every policy that a client sends. It is undefined only when it counts a crash
and the cursor then reads outside the policy, so whether it can happen is decided by the policies
that clients may register and by nothing else: not by the order of the messages, the number of
crashes, or the services involved.

`policies_safe_iff` is that condition, in both directions. The documented cap of 10 actions
(`MAX_RECOVERY_ACTIONS`), which no code checks, is well inside it.
-/
namespace ServiceRecovery

open RecoveryState SServiceRecoveryInfo ServiceRecovery.Ring

variable {P : List RecoveryState → Prop} {s : String} {tr : List (Req × Reply)} {d : Daemon}

/-! ## Policies that close the ring -/

/-- The cell tracks some calls that register no policy outside `P`. -/
def TracksIn (P : List RecoveryState → Prop) (s : String) (c : Cell) : Prop :=
  ∃ cs : List Call, (∀ c ∈ cs, c.Registers P) ∧ TracksCell (history s cs) c

theorem TracksIn.call {x : Cell} (hx : TracksIn P s x) {c : Call} {cell : Cell}
    (hc : c.serviceName = s) (hP : c.Registers P) (ha : x.apply c = some cell) :
    TracksIn P s cell := by
  obtain ⟨cs, hcs, ht⟩ := hx
  refine ⟨cs ++ [c], ?_, ?_⟩
  · intro c' hm
    rcases List.mem_append.mp hm with hm | hm
    · exact hcs c' hm
    · rw [List.mem_singleton.mp hm]
      exact hP
  · rw [history_snoc hc]
    exact tracksCell_step ht ha

theorem tracksIn_run (hr : daemon.Run .empty tr d) (hP : ∀ l ∈ tr, l.1.Registers P)
    (s : String) : TracksIn P s (d.slots s).cell := by
  refine (slot_traced (s := s) (I := fun _ x => x.WellBound s ∧ TracksIn P s x.cell)
    (G := fun l => l.1.Registers P) ?_ hr hP ⟨wellBound_empty s, [], by simp, trivial⟩).2
  rintro tr x l x' ⟨hw, ht⟩ hl hst
  refine ⟨hw.step hst, ?_⟩
  cases hst with
  | register client acts ivl pidReply =>
    exact ht.call (c := .onRegisterService s (acts.map fromWire) ivl
      (peerOf client pidReply).pid) rfl hl rfl
  | unregister client => exact ht.call (c := .onUnregisterService s) rfl trivial rfl
  | report client cur last =>
    exact ht.call (c := .onReportServiceState s (fromWire cur) (fromWire last)) rfl trivial rfl
  | lost name oldOwner x' hb hl =>
    obtain ⟨c, hc, rfl⟩ := hw.lost hb hl
    exact ht.call (c := .onServiceFailure s) rfl trivial hc
  | other l hn => exact ht

theorem tracks_reachable (hr : daemon.Reachable d) {info : SServiceRecoveryInfo}
    (hi : d.scheduler.lookups s = some info) : ∃ h, Tracks h info := by
  obtain ⟨_, tr, rfl, hr⟩ := hr
  obtain ⟨cs, -, ht⟩ := tracksIn_run (P := fun _ => True) hr
    (fun l _ => by cases l.1 <;> trivial) s
  have hc : (d.slots s).cell = some info := hi
  rw [hc] at ht
  cases hh : history s cs with
  | none => rw [hh] at ht; exact ht.elim
  | some h => rw [hh] at ht; exact ⟨h, ht⟩

theorem TracksIn.failure_defined {c : Cell} (hc : TracksIn P s c)
    (hP : ∀ p, P p → wraps p.length) : ∃ c', c.failure = some c' := by
  obtain ⟨cs, hcs, ht⟩ := hc
  exact ht.defined (fun h hh => hP _ (policyOf_registered hcs hh)) (.onServiceFailure s)

/-- Every message is answered where every failure is defined. -/
theorem answered (hd : ∀ s, ∃ c, (d.slots s).cell.failure = some c) (req : Req) :
    ∃ rep d', daemon.step d (req, rep) d' := by
  cases req with
  | nameOwnerChanged name oldOwner newOwner =>
    have key : ∃ w, slots.step d.slots (.nameOwnerChanged name oldOwner newOwner, .none) w := by
      by_cases hn : newOwner = ""
      · subst hn
        by_cases hb : ∃ s, (d.slots s).BoundTo name
        · obtain ⟨s, hb⟩ := hb
          obtain ⟨c, hc⟩ := hd s
          have hx : ∃ x, (d.slots s).lose s = some x := by
            unfold Slot.lose Slot.crash
            split
            · exact ⟨_, rfl⟩
            · exact ⟨_, by rw [hc]; rfl⟩
          obtain ⟨x, hx⟩ := hx
          exact ⟨_, .lost name oldOwner s x hb hx⟩
        · exact ⟨_, .unbound name oldOwner fun s hs => hb ⟨s, hs⟩⟩
      · exact ⟨_, .owned name oldOwner newOwner hn⟩
    obtain ⟨w, hw⟩ := key
    obtain ⟨d', hd', -⟩ := slots_step hw
    exact ⟨.none, d', hd'⟩
  | _ => exact request_answered rfl

/-! ## Policies that do not -/

/-- The slot of `s` bound to `bus`, after `k` crashes under the policy `p`. -/
structure Crashed (s bus : String) (p : List RecoveryState) (k : Nat) (x : Slot) : Prop where
  tracks : ∃ h, TracksCell (some h) x.cell ∧ policyOf h = p ∧ failures h = k
  bound : x.BoundTo bus

section
variable {bus : String} {acts : Vec UInt8} {k : Nat} {x : Slot}

/-- The registration that binds `s` to `bus` with the policy `acts`. -/
def registerPolicy (bus s : String) (acts : Vec UInt8) : Req :=
  .registerService (.dbus (some bus)) s acts (-1) none

theorem Crashed.info (hc : Crashed s bus (policy (acts.map fromWire)) k x) :
    ∃ h info, x.cell = some info ∧ Tracks h info ∧ policyOf h = policy (acts.map fromWire) ∧
      failures h = k := by
  obtain ⟨h, ht, hp, hf⟩ := hc.tracks
  cases hx : x.cell with
  | none => rw [hx] at ht; exact ht.elim
  | some info => rw [hx] at ht; exact ⟨h, info, rfl, ht, hp, hf⟩

theorem crashed_register (hb : bus ≠ "") (hs : InCatalogue s) (acts : Vec UInt8) :
    ∃ x, (solo s).step .empty (registerPolicy bus s acts, .register .OK) x ∧
      Crashed s bus (policy (acts.map fromWire)) 0 x := by
  have ha : Slot.empty.cell.accepts s := .inr hs
  have hst := Slot.Solo.register (s := s) (x := .empty) (.dbus (some bus)) acts (-1) none
  rw [if_pos ha] at hst
  refine ⟨_, hst, ⟨[.onRegisterService s (acts.map fromWire) (-1) (-1)], ?_, rfl, rfl⟩,
    peerOf (.dbus (some bus)) none, if_pos ⟨ha, hb⟩, rfl⟩
  show TracksCell _ (Cell.register s (acts.map fromWire) (-1) none)
  rw [Cell.register, if_pos hs]
  exact tracks_fresh s (acts.map fromWire) (-1) (-1)

/-- Up to 128 crashes are defined whatever the policy. -/
theorem crashed_again (hb : bus ≠ "") (hs : s ≠ "") (hk : k < 128)
    (hc : Crashed s bus (policy (acts.map fromWire)) k x) :
    ∃ x', (solo s).Run x
        [(.nameOwnerChanged bus bus "", .none), (registerPolicy bus s acts, .register .OK)] x' ∧
      Crashed s bus (policy (acts.map fromWire)) (k + 1) x' := by
  obtain ⟨h, info, hi, ht, hp, hf⟩ := hc.info
  have hlt := ht.nextIndex_lt_iff.mpr (.inr (by omega))
  obtain ⟨info₁, hi₁⟩ := Option.isSome_iff_exists.mp (failure_isSome.mpr hlt)
  have hl : x.lose s = some ⟨some info₁, none⟩ := by
    unfold Slot.lose Slot.crash
    rw [if_neg hs, hi, Cell.failure, hi₁]
    rfl
  have ht₁ : TracksCell (some (h ++ [.onServiceFailure s])) (some info₁) := ht.failure s hi₁
  have ht₂ := tracksCell_step (c := .onRegisterService s (acts.map fromWire) (-1) (-1)) ht₁ rfl
  have ha : Cell.accepts s (some info₁) := .inl rfl
  have hreg := Slot.Solo.register (s := s) (x := ⟨some info₁, none⟩) (.dbus (some bus)) acts (-1)
    none
  rw [if_pos ha] at hreg
  refine ⟨_, .cons (.lost bus bus _ hc.bound hl) (.single hreg), ⟨_, ht₂, ?_, ?_⟩,
    peerOf (.dbus (some bus)) none, if_pos ⟨ha, hb⟩, rfl⟩
  · rw [List.append_assoc, policyOf_append ht.ne_nil, hp]
  · rw [failures_snoc, failures_snoc, hf]
    rfl

theorem crashed_run (hb : bus ≠ "") (hs : InCatalogue s) (hP : P (policy (acts.map fromWire)))
    (hk : k ≤ 128) : ∃ tr x, (solo s).Run .empty tr x ∧ (∀ l ∈ tr, l.1.Registers P) ∧
      Crashed s bus (policy (acts.map fromWire)) k x := by
  have hne : s ≠ "" := by
    rintro rfl
    exact empty_not_inCatalogue hs
  induction k with
  | zero =>
    obtain ⟨x, hst, hc⟩ := crashed_register hb hs acts
    refine ⟨_, x, .single hst, ?_, hc⟩
    intro l hl
    rw [List.mem_singleton.mp hl]
    exact hP
  | succ k ih =>
    obtain ⟨tr, x, hr, htr, hc⟩ := ih (by omega)
    obtain ⟨x', hr', hc'⟩ := crashed_again hb hne (by omega) hc
    refine ⟨_, x', hr.append hr', ?_, hc'⟩
    intro l hl
    simp only [List.mem_append, List.mem_cons, List.not_mem_nil, or_false] at hl
    rcases hl with hl | rfl | rfl
    · exact htr l hl
    · exact trivial
    · exact hP

/-- After 128 crashes the next one is defined only under a policy that closes the ring. -/
theorem Crashed.wraps_of_step (hc : Crashed s bus (policy (acts.map fromWire)) 128 x)
    (hs : s ≠ "") {w : Slots} {rep : Reply}
    (hst : slots.step (single s x) (.nameOwnerChanged bus bus "", rep) w) :
    wraps (policy (acts.map fromWire)).length := by
  obtain ⟨h, info, hi, ht, hp, hf⟩ := hc.info
  generalize hl : ((.nameOwnerChanged bus bus "", rep) : Req × Reply) = l at hst
  cases hst with
  | owned name oldOwner newOwner hn =>
    cases hl
    exact absurd rfl hn
  | unbound name oldOwner hu =>
    cases hl
    exact absurd (by rw [single_self]; exact hc.bound) (hu s)
  | lost name oldOwner t x' hb hx =>
    cases hl
    have hts : t = s := by
      by_contra hts
      unfold single at hb
      rw [Function.update_of_ne hts] at hb
      obtain ⟨peer, hpeer, -⟩ := hb
      cases hpeer
    subst hts
    rw [single_self] at hx
    unfold Slot.lose Slot.crash at hx
    rw [if_neg hs, hi, Option.map_eq_some_iff] at hx
    obtain ⟨c, hcell, -⟩ := hx
    simp only [Cell.failure, Option.map_eq_some_iff] at hcell
    obtain ⟨info', hi', -⟩ := hcell
    have hlt := failure_isSome.mp (Option.isSome_of_eq_some hi')
    rcases ht.nextIndex_lt_iff.mp hlt with hw | hlt'
    · rwa [← hp]
    · omega
  | _ => cases hl

end

/-- **Which policies are safe.** Let clients register policies from `P` only. Then every message
is answered in every state that the daemon reaches, whatever the messages and their order, iff
every policy of `P` that a client can send has a length `n` with `1 ≤ n mod 256 ≤ 128`. -/
theorem policies_safe_iff (P : List RecoveryState → Prop) :
    (∀ tr d, daemon.Run .empty tr d → (∀ l ∈ tr, l.1.Registers P) →
        ∀ req, ∃ rep d', daemon.step d (req, rep) d') ↔
      ∀ acts : Vec UInt8, P (policy (acts.map fromWire)) →
        1 ≤ (policy (acts.map fromWire)).length % 256 ∧
          (policy (acts.map fromWire)).length % 256 ≤ 128 := by
  constructor
  · intro hall acts hP
    have hA : InCatalogue "AppA" := by decide
    obtain ⟨tr, x, hr, htr, hc⟩ := crashed_run (show ":1.1" ≠ "" by decide) hA hP
      (Nat.le_refl 128)
    have hw : slots.Run (single "AppA" .empty) tr (single "AppA" x) :=
      hr.map_state fun _ _ _ => solo_slots
    obtain ⟨d, hd, he⟩ := slots_run hw single_empty.symm
    obtain ⟨rep, d', hst⟩ := hall tr d hd htr (.nameOwnerChanged ":1.1" ":1.1" "")
    have hst' := step_slots hst
    rw [he] at hst'
    exact hc.wraps_of_step (by decide) hst'
  · intro hwraps tr d hr htr
    refine answered fun s => (tracksIn_run (P := fun p => wraps p.length) hr ?_ s).failure_defined
      fun p hp => hp
    rintro ⟨req, rep⟩ hl
    cases req with
    | registerService client t acts ivl pidReply => exact hwraps acts (htr _ hl)
    | _ => exact trivial

end ServiceRecovery
