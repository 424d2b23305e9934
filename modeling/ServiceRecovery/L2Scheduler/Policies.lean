import ServiceRecovery.L2Scheduler.History

/-!
# Policies from a given set

`Registers P` says that a call registers no policy outside `P`. Two sets matter:

* the policies that `wraps` admits: no call is ever undefined on them (`TracksCell.defined`);
* the policies of at most 127 actions: the snapshot is the one that the history `Describes`
  (`TracksCell.snapshot`).
-/
namespace ServiceRecovery

open RecoveryState SServiceRecoveryInfo ServiceRecovery.Ring

/-- The policy that the call registers, if any, is in `P`. -/
def Call.Registers (P : List RecoveryState → Prop) : Call → Prop
  | .onRegisterService _ acts _ _ => P (policy acts)
  | _ => True

variable {P : List RecoveryState → Prop} {s : String} {tr : List Call} {h : Option (List Call)}
  {cell : Cell} {c : Call}

theorem policyOf_registered {h : List Call} (hP : ∀ c ∈ tr, c.Registers P)
    (hh : history s tr = some h) : P (policyOf h) := by
  obtain ⟨pre, c, t, he, rfl, hc, -⟩ := episode_suffix hh
  have hm : c ∈ tr := (List.mem_filter.mp (he ▸ (by simp : c ∈ pre ++ c :: t))).1
  have hPc := hP c hm
  cases c with
  | onRegisterService s' acts ivl pid => exact hPc
  | _ => cases hc

theorem TracksCell.pos (ht : TracksCell h cell) {h' : List Call} (hh : h = some h') :
    0 < (policyOf h').length := by
  subst hh
  cases cell with
  | none => exact ht.elim
  | some info => exact Tracks.pos ht

/-- With policies that close the ring no call is undefined. -/
theorem TracksCell.defined (ht : TracksCell h cell)
    (hw : ∀ h', h = some h' → wraps (policyOf h').length) (c : Call) :
    ∃ cell', cell.apply c = some cell' :=
  apply_defined ht fun h' hh _ => .inl (hw h' hh)

/-- The snapshot that the history of a service describes; `none` for one without an entry. -/
def Describes : Option (List Call) → SServiceSnapshot → Prop
  | none, snap => snap = {}
  | some h, snap => snap.found = true ∧
      (failures h < 2 ^ 31 → snap.attemptCount.toInt = failures h) ∧
      (policyOf h)[failures h % (policyOf h).length]? = some snap.nextAction ∧
      snap.isOnline = onlineOf h ∧ snap.lastAction = lastOf h ∧
      snap.currentAction = currentOf (fun j => j % (policyOf h).length) h

theorem Tracks.describes {h : List Call} {info : SServiceRecoveryInfo} (ht : Tracks h info)
    (hlen : (policyOf h).length ≤ 127) :
    ∃ snap, Cell.snapshot (some info) = some snap ∧ Describes (some h) snap := by
  obtain ⟨a, ha, hsnap⟩ := ht.snapshot
  have hring := ringPos_short ht.pos hlen
  have hpeek : peekPos (policyOf h).length (failures h) =
      failures h % (policyOf h).length := by
    have := ht.pos
    rw [peekPos_eq (by omega), hring]
  rw [hpeek] at ha
  exact ⟨_, hsnap, rfl, ht.attempts, ha, ht.online, ht.last, hring ▸ ht.current⟩

theorem TracksCell.snapshot (ht : TracksCell h cell)
    (hlen : ∀ h', h = some h' → (policyOf h').length ≤ 127) :
    ∃ snap, cell.snapshot = some snap ∧ Describes h snap := by
  cases h with
  | none =>
    cases cell with
    | none => exact ⟨{}, rfl, rfl⟩
    | some info => exact ht.elim
  | some h =>
    cases cell with
    | none => exact ht.elim
    | some info => exact Tracks.describes ht (hlen h rfl)

end ServiceRecovery
