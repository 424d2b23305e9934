import ServiceRecovery.Core.Decimal
import ServiceRecovery.Core.Delimited
import ServiceRecovery.L2Scheduler.Scheduler

/-!
# What the console prints

`snapshotLine` is the message that `printSnapshot` logs. `snapshotLine_inj` says what an operator
can read off it: for one name, two messages are equal exactly when the snapshots agree on all
fields, up to bytes of the wire that are no enumerator (`toString` prints nothing for them).
-/
namespace ServiceRecovery

open RecoveryState

/-- mirrors lib_srs/inc/Common.hpp:53-75 -/
def RecoveryState.toString : RecoveryState → String
  | RESTART => "RESTART"
  | STOP => "STOP"
  | DISABLE => "DISABLE"
  | CRASHED => "CRASHED"
  | UNKNOWN => "UNKNOWN"
  | other _ _ => ""

/-- mirrors main.cpp:17-28 -/
def snapshotLine (name : String) (lSnap : SServiceSnapshot) : String :=
  if lSnap.found then
    "name=" ++ name ++ " liveness=" ++ (if lSnap.isOnline then "ONLINE" else "CRASHED") ++
      " last=" ++ lSnap.lastAction.toString ++ " current=" ++ lSnap.currentAction.toString ++
      " next=" ++ lSnap.nextAction.toString ++ " attempts=" ++
      .ofList (intText lSnap.attemptCount.toInt)
  else "name=" ++ name ++ " not registered"

/-- The byte is an enumerator of `RecoveryState`. -/
def RecoveryState.Listed : RecoveryState → Prop
  | other _ _ => False
  | _ => True

/-- The two print the same. -/
def RecoveryState.Alike (a b : RecoveryState) : Prop := a = b ∨ ¬ a.Listed ∧ ¬ b.Listed

theorem toString_inj {a b : RecoveryState} : a.toString = b.toString ↔ a.Alike b := by
  constructor
  · intro h
    cases a <;> cases b <;>
      first
      | exact .inl rfl
      | exact .inr ⟨id, id⟩
      | simp [RecoveryState.toString] at h
  · rintro (rfl | ⟨ha, hb⟩)
    · rfl
    · cases a with
      | other code h =>
        cases b with
        | other code' h' => rfl
        | _ => exact absurd trivial hb
      | _ => exact absurd trivial ha

theorem toString_no_blank (a : RecoveryState) : ' ' ∉ a.toString.toList := by
  cases a <;> simp [RecoveryState.toString]

/-- The words of the message. -/
theorem snapshotLine_found {name : String} {a : SServiceSnapshot} (h : a.found = true) :
    (snapshotLine name a).toList = ("name=" ++ name).toList ++ ' ' :: ("liveness=".toList ++
      ((if a.isOnline then "ONLINE" else "CRASHED").toList ++ ' ' :: ("last=".toList ++
      (a.lastAction.toString.toList ++ ' ' :: ("current=".toList ++
      (a.currentAction.toString.toList ++ ' ' :: ("next=".toList ++
      (a.nextAction.toString.toList ++ ' ' :: ("attempts=".toList ++
      intText a.attemptCount.toInt))))))))) := by
  simp [snapshotLine, h]

theorem snapshotLine_missing {name : String} {a : SServiceSnapshot} (h : a.found = false) :
    (snapshotLine name a).toList = ("name=" ++ name).toList ++ " not registered".toList := by
  simp [snapshotLine, h]

theorem liveness_inj {b b' : Bool} :
    (if b then "ONLINE" else "CRASHED").toList = (if b' then "ONLINE" else "CRASHED").toList ↔
      b = b' := by
  cases b <;> cases b' <;> decide

/-- **The message of a snapshot.** For one name, two messages are equal iff both say that the
service is not registered, or the snapshots agree on every field. -/
theorem snapshotLine_inj (name : String) (a b : SServiceSnapshot) :
    snapshotLine name a = snapshotLine name b ↔
      a.found = b.found ∧ (a.found = true → a.isOnline = b.isOnline ∧
        a.lastAction.Alike b.lastAction ∧ a.currentAction.Alike b.currentAction ∧
        a.nextAction.Alike b.nextAction ∧ a.attemptCount = b.attemptCount) := by
  have hword : ∀ (c c' : RecoveryState) (u v : List Char),
      c.toString.toList ++ ' ' :: u = c'.toString.toList ++ ' ' :: v ↔ c.Alike c' ∧ u = v := by
    intro c c' u v
    rw [field_inj (toString_no_blank c) (toString_no_blank c'), String.toList_inj, toString_inj]
  have hlive : ∀ (l l' : Bool) (u v : List Char),
      (if l then "ONLINE" else "CRASHED").toList ++ ' ' :: u =
          (if l' then "ONLINE" else "CRASHED").toList ++ ' ' :: v ↔ l = l' ∧ u = v := by
    intro l l' u v
    rw [field_inj (by cases l <;> decide) (by cases l' <;> decide), liveness_inj]
  rw [← String.toList_inj]
  cases ha : a.found with
  | true =>
    cases hb : b.found with
    | true =>
      rw [snapshotLine_found ha, snapshotLine_found hb]
      simp only [List.append_right_inj, List.cons.injEq, true_and, hlive, hword, intText_inj,
        Int32.toInt_inj, forall_const]
    | false =>
      rw [snapshotLine_found ha, snapshotLine_missing hb]
      simp
  | false =>
    cases hb : b.found with
    | true =>
      rw [snapshotLine_missing ha, snapshotLine_found hb]
      simp
    | false =>
      rw [snapshotLine_missing ha, snapshotLine_missing hb]
      simp

end ServiceRecovery
