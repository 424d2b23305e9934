import ServiceRecovery.Core.Episode
import ServiceRecovery.L2Scheduler.Calls

/-!
# The snapshot as a function of the service's history

`history s tr` is the list of calls naming `s` since the registration that created its entry. The
functions `policyOf`, `failures`, `onlineOf`, `lastOf` and `currentOf` read from it what the
documentation of the entry's fields promises; none of them mentions the `int8_t` cursor, the
counters or the map.

`Tracks h info` says that the entry `info` is the one that `h` describes. Every call keeps it
(`tracksCell_step`), so in every run each service's entry tracks its history (`tracks_run`), and the
snapshot follows (`snapshot_of_history`). The policies may have any length here as long as no
failure reads outside its policy; with at most 127 actions that is so in every run
(`run_exists_short`).
-/
namespace ServiceRecovery

open RecoveryState SServiceRecoveryInfo ServiceRecovery.Ring

/-! ## Histories -/

def Call.names (s : String) (c : Call) : Bool := c.serviceName == s

/-- A call that creates the entry of a service without one. -/
def Call.creates : Call → Bool
  | .onRegisterService s _ _ _ => decide (InCatalogue s)
  | _ => false

def Call.erases : Call → Bool
  | .onUnregisterService _ => true
  | _ => false

/-- The calls naming `s` since the registration that created its entry. -/
def history (s : String) (tr : List Call) : Option (List Call) :=
  episode Call.creates Call.erases (tr.filter (Call.names s))

def Call.isFailure : Call → Bool
  | .onServiceFailure _ => true
  | _ => false

def failures (h : List Call) : Nat := h.countP Call.isFailure

/-- The policy of the registration that created the entry. -/
def policyOf : List Call → List RecoveryState
  | .onRegisterService _ acts _ _ :: _ => policy acts
  | _ => []

def onlineEvent : Call → Option Bool
  | .onRegisterService _ _ _ _ => some true
  | .onServiceFailure _ => some false
  | _ => none

/-- The latest registration or failure is a registration. -/
def onlineOf (h : List Call) : Bool := (h.filterMap onlineEvent).getLast? == some true

def lastWrite : Call → Option RecoveryState
  | .onServiceFailure _ => some CRASHED
  | .onReportServiceState _ _ last => if last = UNKNOWN then none else some last
  | _ => none

/-- The latest value written to `lastAction`. -/
def lastOf (h : List Call) : RecoveryState := ((h.filterMap lastWrite).getLast?).getD UNKNOWN

/-- The values written to `currentRecoveryState`, in order, when `j` failures came before; the
`j`-th failure (from 0) writes the action at position `pos j`. -/
def currentWrites (P : List RecoveryState) (pos : Nat → Nat) : Nat → List Call → List RecoveryState
  | _, [] => []
  | j, .onServiceFailure _ :: h => P.getD (pos j) UNKNOWN :: currentWrites P pos (j + 1) h
  | j, .onReportServiceState _ cur _ :: h => cur :: currentWrites P pos j h
  | j, _ :: h => currentWrites P pos j h

/-- The latest value written to `currentRecoveryState`. -/
def currentOf (pos : Nat → Nat) (h : List Call) : RecoveryState :=
  ((currentWrites (policyOf h) pos 0 h).getLast?).getD UNKNOWN

/-! ## One more call -/

theorem history_snoc_other {s : String} {tr : List Call} {c : Call} (h : c.serviceName ≠ s) :
    history s (tr ++ [c]) = history s tr := by
  simp [history, Call.names, h]

theorem history_snoc {s : String} {tr : List Call} {c : Call} (h : c.serviceName = s) :
    history s (tr ++ [c]) = nextEpisode Call.creates Call.erases (history s tr) c := by
  simp [history, Call.names, h, episode_snoc]

theorem history_ne_nil {s : String} {tr h : List Call} (hh : history s tr = some h) : h ≠ [] := by
  obtain ⟨_, _, _, -, rfl, -⟩ := episode_suffix hh
  exact List.cons_ne_nil _ _

theorem policyOf_append {h u : List Call} (hne : h ≠ []) : policyOf (h ++ u) = policyOf h := by
  cases h with
  | nil => exact absurd rfl hne
  | cons x h => cases x <;> rfl

theorem policyOf_snoc {h : List Call} (c : Call) (hne : h ≠ []) :
    policyOf (h ++ [c]) = policyOf h := policyOf_append hne

theorem failures_append (h u : List Call) : failures (h ++ u) = failures h + failures u :=
  List.countP_append

theorem failures_snoc (h : List Call) (c : Call) :
    failures (h ++ [c]) = failures h + if c.isFailure then 1 else 0 := by
  rw [failures_append]
  simp [failures, List.countP_singleton]

theorem onlineOf_snoc (h : List Call) (c : Call) :
    onlineOf (h ++ [c]) = (onlineEvent c).getD (onlineOf h) := by
  unfold onlineOf
  rw [List.filterMap_append]
  cases hc : onlineEvent c with
  | none => simp [hc]
  | some b => cases b <;> simp [hc]

theorem lastOf_snoc (h : List Call) (c : Call) :
    lastOf (h ++ [c]) = (lastWrite c).getD (lastOf h) := by
  unfold lastOf
  rw [List.filterMap_append]
  cases hc : lastWrite c <;> simp [hc]

theorem currentWrites_append (P : List RecoveryState) (pos : Nat → Nat) (j : Nat)
    (h : List Call) (c : Call) :
    currentWrites P pos j (h ++ [c]) =
      currentWrites P pos j h ++ currentWrites P pos (j + failures h) [c] := by
  induction h generalizing j with
  | nil => rfl
  | cons x h ih =>
    have hf : failures (x :: h) = (if x.isFailure then 1 else 0) + failures h := by
      simp [failures, List.countP_cons, Nat.add_comm]
    cases x <;> simp [currentWrites, ih, hf, Call.isFailure, Nat.add_assoc]

theorem currentOf_snoc (pos : Nat → Nat) {h : List Call} (c : Call) (hne : h ≠ []) :
    currentOf pos (h ++ [c]) =
      match c with
      | .onServiceFailure _ => (policyOf h).getD (pos (failures h)) UNKNOWN
      | .onReportServiceState _ cur _ => cur
      | _ => currentOf pos h := by
  unfold currentOf
  rw [policyOf_snoc c hne, currentWrites_append]
  cases c <;> simp [currentWrites]

/-! ## The entry tracks the history -/

/-- `info` is the entry that the history `h` describes. -/
structure Tracks (h : List Call) (info : SServiceRecoveryInfo) : Prop where
  actions : info.recoveryActions = policyOf h
  pos : 0 < (policyOf h).length
  max : (policyOf h).length < 2 ^ 63
  cursor : CursorAt (policyOf h).length (failures h) info.recoveryActionCount
  crash : info.crashCount = UInt32.ofNat (failures h)
  online : info.isOnline = onlineOf h
  last : info.lastAction = lastOf h
  current : info.currentRecoveryState = currentOf (ringPos (policyOf h).length) h

/-- The same for services without an entry. -/
def TracksCell : Option (List Call) → Cell → Prop
  | none, none => True
  | some h, some info => Tracks h info
  | _, _ => False

theorem Tracks.ne_nil {h : List Call} {info : SServiceRecoveryInfo} (ht : Tracks h info) :
    h ≠ [] := by
  intro he
  have := ht.pos
  rw [he] at this; cases this

theorem tracks_fresh (s : String) (acts : Vec RecoveryState) (ivl pid : Int32) :
    Tracks [.onRegisterService s acts ivl pid] (fresh s acts ivl) := by
  rw [fresh_eq]
  exact ⟨rfl, policy_pos acts, policy_lt acts, cursorAt_zero _, rfl, rfl, rfl, rfl⟩

/-- The index of the next failure, in terms of the history. -/
theorem Tracks.nextIndex_lt_iff {h : List Call} {info : SServiceRecoveryInfo} (ht : Tracks h info) :
    info.nextIndex < info.recoveryActions.length ↔
      wraps (policyOf h).length ∨ failures h < 128 := by
  unfold nextIndex
  rw [ht.actions]
  exact index_advance_lt_iff ht.cursor ht.pos ht.max

theorem Tracks.nextIndex_eq {h : List Call} {info : SServiceRecoveryInfo} (ht : Tracks h info)
    (hi : info.nextIndex < info.recoveryActions.length) :
    info.nextIndex = ringPos (policyOf h).length (failures h) := by
  have hin := ht.nextIndex_lt_iff.mp hi
  unfold nextIndex
  rw [ht.actions]
  exact index_advance_eq ht.cursor hin

theorem Tracks.failure {h : List Call} {info info' : SServiceRecoveryInfo} (s : String)
    (ht : Tracks h info) (hf : info.failure = some info') :
    Tracks (h ++ [.onServiceFailure s]) info' := by
  have hlt := failure_isSome.mp (Option.isSome_of_eq_some hf)
  obtain ⟨a, ha, rfl⟩ := failure_eq_some.mp hf
  rw [ht.nextIndex_eq hlt, ht.actions] at ha
  have hin := ht.nextIndex_lt_iff.mp hlt
  have hp := policyOf_snoc (.onServiceFailure s) ht.ne_nil
  refine ⟨by rw [hp]; exact ht.actions, by rw [hp]; exact ht.pos, by rw [hp]; exact ht.max,
    ?_, ?_, ?_, ?_, ?_⟩
  · rw [hp, failures_snoc]
    have hc := ht.cursor.advance hin
    rw [← ht.actions] at hc ⊢
    exact hc
  · simp [failures_snoc, Call.isFailure, ht.crash, UInt32.ofNat_add]
  · simp [onlineOf_snoc, onlineEvent]
  · simp [lastOf_snoc, lastWrite]
  · rw [hp, currentOf_snoc _ _ ht.ne_nil]
    simp [List.getD_eq_getElem?_getD, ha]

/-- A call that is no failure keeps the policy, the cursor and the counter; the other fields are
the latest values written. -/
theorem Tracks.keep {h : List Call} {info info' : SServiceRecoveryInfo} {c : Call}
    (ht : Tracks h info) (hc : c.isFailure = false)
    (ha : info'.recoveryActions = info.recoveryActions)
    (hn : info'.recoveryActionCount = info.recoveryActionCount)
    (hk : info'.crashCount = info.crashCount)
    (ho : info'.isOnline = (onlineEvent c).getD info.isOnline)
    (hl : info'.lastAction = (lastWrite c).getD info.lastAction)
    (hw : info'.currentRecoveryState = match c with
      | .onReportServiceState _ cur _ => cur
      | _ => info.currentRecoveryState) : Tracks (h ++ [c]) info' := by
  have hp := policyOf_snoc c ht.ne_nil
  have hf : failures (h ++ [c]) = failures h := by simp [failures_snoc, hc]
  refine ⟨by rw [ha, hp, ht.actions], by rw [hp]; exact ht.pos, by rw [hp]; exact ht.max,
    by rw [hp, hf, hn]; exact ht.cursor, by rw [hf, hk]; exact ht.crash,
    by rw [ho, onlineOf_snoc, ht.online], by rw [hl, lastOf_snoc, ht.last], ?_⟩
  rw [hw, hp, currentOf_snoc _ _ ht.ne_nil]
  cases c with
  | onServiceFailure s => cases hc
  | onReportServiceState s cur last => rfl
  | onRegisterService s acts ivl pid => exact ht.current
  | onUnregisterService s => exact ht.current
  | getServiceState s => exact ht.current

theorem Tracks.report {h : List Call} {info : SServiceRecoveryInfo} (s : String)
    (cur last : RecoveryState) (ht : Tracks h info) :
    Tracks (h ++ [.onReportServiceState s cur last]) (info.report cur last) := by
  unfold SServiceRecoveryInfo.report
  by_cases hu : last = UNKNOWN
  · simp only [hu, ne_eq, not_true_eq_false, if_false]
    exact ht.keep rfl rfl rfl rfl rfl (by simp [lastWrite]) rfl
  · simp only [ne_eq, hu, not_false_eq_true, if_true]
    exact ht.keep rfl rfl rfl rfl rfl (by simp [lastWrite, hu]) rfl

/-- Every call keeps the relation, on the cell of the service it names. -/
theorem tracksCell_step {h : Option (List Call)} {cell cell' : Cell} {c : Call}
    (ht : TracksCell h cell) (ha : cell.apply c = some cell') :
    TracksCell (nextEpisode Call.creates Call.erases h c) cell' := by
  cases h with
  | none =>
    cases cell with
    | some info => exact ht.elim
    | none =>
      cases c with
      | onRegisterService s acts ivl pid =>
        cases ha
        by_cases hc : InCatalogue s
        · simp only [nextEpisode, Call.creates, Cell.register, hc, decide_true, if_true]
          exact tracks_fresh s acts ivl pid
        · simp [nextEpisode, Call.creates, Cell.register, hc, TracksCell]
      | _ => cases ha; exact trivial
  | some h =>
    cases cell with
    | none => exact ht.elim
    | some info =>
      replace ht : Tracks h info := ht
      cases c with
      | onServiceFailure s =>
        simp only [Cell.apply, Cell.failure, Option.map_eq_some_iff] at ha
        obtain ⟨info', hf, rfl⟩ := ha
        exact ht.failure s hf
      | onRegisterService s acts ivl pid => cases ha; exact ht.keep rfl rfl rfl rfl rfl rfl rfl
      | onUnregisterService s => cases ha; exact trivial
      | onReportServiceState s cur last => cases ha; exact ht.report s cur last
      | getServiceState s =>
        simp only [Cell.apply, Option.map_eq_some_iff] at ha
        obtain ⟨snap, -, rfl⟩ := ha
        exact ht.keep rfl rfl rfl rfl rfl rfl rfl

/-- Each service's entry tracks its history. -/
theorem tracks_traced :
    calls.Traced fun tr m => ∀ s, TracksCell (history s tr) (m.lookups s) := by
  intro tr m c m' ih hs s
  obtain ⟨cell, hc, hl⟩ := step_lookups hs
  by_cases hn : c.serviceName = s
  · subst hn
    rw [history_snoc rfl, hl, Function.update_self]
    exact tracksCell_step (ih _) hc
  · rw [history_snoc_other hn, hl, Function.update_of_ne (Ne.symm hn)]
    exact ih s

theorem tracks_run {tr : List Call} {m : Registry} (hr : calls.Run .empty tr m) (s : String) :
    TracksCell (history s tr) (m.lookups s) := by
  refine tracks_traced.run ?_ hr s
  intro s
  exact trivial

theorem tracks_of_run {tr : List Call} {m : Registry} (hr : calls.Run .empty tr m) {s : String}
    {info : SServiceRecoveryInfo} {h : List Call} (hi : m.lookups s = some info)
    (hh : history s tr = some h) : Tracks h info := by
  have ht := tracks_run hr s
  rw [hi, hh] at ht
  exact ht

theorem registered_iff {tr : List Call} {m : Registry} (hr : calls.Run .empty tr m) (s : String) :
    (m.lookups s).isSome ↔ (history s tr).isSome := by
  have ht := tracks_run hr s
  cases hh : history s tr <;> cases hl : m.lookups s <;> rw [hh, hl] at ht <;>
    first | exact ht.elim | simp

/-- A registered service has a history that its entry tracks. -/
theorem tracks_of_lookups {tr : List Call} {m : Registry} (hr : calls.Run .empty tr m)
    {s : String} {info : SServiceRecoveryInfo} (hi : m.lookups s = some info) :
    ∃ h, history s tr = some h ∧ Tracks h info := by
  obtain ⟨h, hh⟩ := Option.isSome_iff_exists.mp
    ((registered_iff hr s).mp (Option.isSome_of_eq_some hi))
  exact ⟨h, hh, tracks_of_run hr hi hh⟩

theorem tracks_of_history {tr : List Call} {m : Registry} (hr : calls.Run .empty tr m)
    {s : String} {h : List Call} (hh : history s tr = some h) :
    ∃ info, m.lookups s = some info ∧ Tracks h info := by
  obtain ⟨info, hi⟩ := Option.isSome_iff_exists.mp
    ((registered_iff hr s).mpr (Option.isSome_of_eq_some hh))
  exact ⟨info, hi, tracks_of_run hr hi hh⟩

/-! ## The snapshot -/

theorem Cell.snapshot_eq {info : SServiceRecoveryInfo} {a : RecoveryState}
    (h : info.recoveryActions[toSizeT (peek info.recoveryActionCount
      info.recoveryActions.length)]? = some a) :
    Cell.snapshot (some info) = some
      { found := true
        isOnline := info.isOnline
        currentAction := info.currentRecoveryState
        lastAction := info.lastAction
        attemptCount := info.crashCount.toInt32
        nextAction := a } := by
  have hne : info.recoveryActions.isEmpty = false := by
    cases hl : info.recoveryActions with
    | nil => rw [hl] at h; cases h
    | cons x l => rfl
  simp only [Cell.snapshot, hne, Bool.false_eq_true, if_false, h, Option.map_some]

theorem Cell.snapshot_online (info : SServiceRecoveryInfo) :
    Cell.snapshot (some { info with isOnline := true }) =
      (Cell.snapshot (some info)).map fun snap => { snap with isOnline := true } := by
  unfold Cell.snapshot
  dsimp only
  split
  · rfl
  · rw [Option.map_map]; rfl

/-- The snapshot of a tracked entry never reads outside the policy. -/
theorem Tracks.snapshot {h : List Call} {info : SServiceRecoveryInfo} (ht : Tracks h info) :
    ∃ a, (policyOf h)[peekPos (policyOf h).length (failures h)]? = some a ∧
      Cell.snapshot (some info) = some
        { found := true
          isOnline := info.isOnline
          currentAction := info.currentRecoveryState
          lastAction := info.lastAction
          attemptCount := info.crashCount.toInt32
          nextAction := a } := by
  have hlt := peekPos_lt ht.pos (failures h)
  refine ⟨(policyOf h)[peekPos (policyOf h).length (failures h)],
    List.getElem?_eq_getElem hlt, Cell.snapshot_eq ?_⟩
  rw [ht.actions, index_peek_eq ht.cursor]
  exact List.getElem?_eq_getElem hlt

theorem Tracks.attempts {h : List Call} {info : SServiceRecoveryInfo} (ht : Tracks h info)
    (hk : failures h < 2 ^ 31) : info.crashCount.toInt32.toInt = failures h := by
  have hb : info.crashCount.toInt32.toInt = info.crashCount.toBitVec.toInt := rfl
  rw [hb, ht.crash, BitVec.toInt_eq_toNat_bmod, UInt32.toNat_toBitVec, UInt32.toNat_ofNat',
    Int.bmod_def]
  omega

/-- A call is undefined only as a failure that reads outside the policy. -/
theorem apply_defined {h : Option (List Call)} {cell : Cell} {c : Call} (ht : TracksCell h cell)
    (hin : ∀ h', h = some h' → c.isFailure = true →
      wraps (policyOf h').length ∨ failures h' < 128) : ∃ cell', cell.apply c = some cell' := by
  cases c with
  | onServiceFailure s =>
    cases cell with
    | none => exact ⟨_, rfl⟩
    | some info =>
      cases h with
      | none => exact ht.elim
      | some h =>
        replace ht : Tracks h info := ht
        have hlt := ht.nextIndex_lt_iff.mpr (hin h rfl rfl)
        obtain ⟨info', hf⟩ := Option.isSome_iff_exists.mp (failure_isSome.mpr hlt)
        exact ⟨some info', by simp [Cell.apply, Cell.failure, hf]⟩
  | getServiceState s =>
    cases cell with
    | none => exact ⟨_, rfl⟩
    | some info =>
      cases h with
      | none => exact ht.elim
      | some h =>
        obtain ⟨a, -, hs⟩ := Tracks.snapshot ht
        exact ⟨some info, by simp [Cell.apply, hs]⟩
  | _ => exact ⟨_, rfl⟩

/-! ## Short policies -/

/-- The registered policy has at most `n` actions. -/
def Call.policyAtMost (n : Nat) : Call → Prop
  | .onRegisterService _ acts _ _ => acts.toList.length ≤ n
  | _ => True

theorem policyOf_short {n : Nat} {s : String} {tr h : List Call} (hn : 4 ≤ n)
    (hs : ∀ c ∈ tr, c.policyAtMost n) (hh : history s tr = some h) : (policyOf h).length ≤ n := by
  obtain ⟨pre, c, t, he, rfl, hc, -⟩ := episode_suffix hh
  have hm : c ∈ tr := (List.mem_filter.mp (he ▸ (by simp : c ∈ pre ++ c :: t))).1
  have := hs c hm
  cases c with
  | onRegisterService s' acts ivl pid =>
    simp only [policyOf, policy]
    split
    · exact hn
    · exact this
  | _ => exact Nat.zero_le _

theorem wraps_short {n : Nat} (h0 : 0 < n) (h : n ≤ 127) : wraps n := by
  unfold wraps; omega

theorem ringPos_short {n : Nat} (h0 : 0 < n) (h : n ≤ 127) : ringPos n = fun j => j % n := by
  funext j
  rw [ringPos_wraps (wraps_short h0 h), Nat.mod_eq_of_lt (show n < 256 by omega)]

/-- With policies of at most 127 actions no call is undefined. -/
theorem run_exists_short {tr : List Call} (hs : ∀ c ∈ tr, c.policyAtMost 127) :
    ∃ m, calls.Run .empty tr m := by
  induction tr using List.reverseRecOn with
  | nil => exact ⟨_, .nil _⟩
  | append_singleton tr c ih =>
    have hs' : ∀ x ∈ tr, x.policyAtMost 127 := fun x hx => hs x (List.mem_append_left _ hx)
    obtain ⟨m, hm⟩ := ih hs'
    have ht := tracks_run hm c.serviceName
    obtain ⟨cell, hc⟩ := apply_defined (c := c) ht fun h hh _ => by
      rw [hh] at ht
      cases hl : m.lookups c.serviceName with
      | none => rw [hl] at ht; exact ht.elim
      | some info =>
        rw [hl] at ht
        exact .inl (wraps_short (Tracks.pos ht) (policyOf_short (by decide) hs' hh))
    obtain ⟨m', hst⟩ := step_exists hc
    exact ⟨m', hm.snoc hst⟩

/-- **The snapshot is a function of the service's own history**, for policies of at most 127
actions, in every run; a later registration only sets `isOnline`. -/
theorem snapshot_of_history (tr : List Call) (hshort : ∀ c ∈ tr, c.policyAtMost 127) :
    (∃ m, calls.Run .empty tr m) ∧
    ∀ m, calls.Run .empty tr m → ∀ s, (m.lookups s).isSome →
      ∃ h snap, history s tr = some h ∧ getServiceState m s = some snap ∧ snap.found = true ∧
        (failures h < 2 ^ 31 → snap.attemptCount.toInt = failures h) ∧
        (policyOf h)[failures h % (policyOf h).length]? = some snap.nextAction ∧
        snap.isOnline = onlineOf h ∧ snap.lastAction = lastOf h ∧
        snap.currentAction = currentOf (fun j => j % (policyOf h).length) h ∧
        ∀ acts ivl pid m', calls.step m (.onRegisterService s acts ivl pid) m' →
          getServiceState m' s = some { snap with isOnline := true } := by
  refine ⟨run_exists_short hshort, ?_⟩
  intro m hr s hs
  obtain ⟨info, hi⟩ := Option.isSome_iff_exists.mp hs
  obtain ⟨h, hh, ht⟩ := tracks_of_lookups hr hi
  obtain ⟨a, ha, hsnap⟩ := ht.snapshot
  have hlen := policyOf_short (by decide) hshort hh
  have hpos : peekPos (policyOf h).length (failures h) = failures h % (policyOf h).length := by
    have := ht.pos
    rw [peekPos_eq (by omega), ringPos_short ht.pos hlen]
  rw [hpos] at ha
  have hcur := ht.current
  rw [ringPos_short ht.pos hlen] at hcur
  refine ⟨h, _, hh, by rw [getServiceState_eq, hi, hsnap], rfl, ht.attempts, ha, ht.online,
    ht.last, hcur, ?_⟩
  intro acts ivl pid m' hst
  obtain ⟨cell, hc, hl⟩ := step_lookups hst
  simp only [Call.serviceName, hi] at hc hl
  cases hc
  rw [getServiceState_eq, hl, Function.update_self]
  exact (Cell.snapshot_online info).trans (by rw [hsnap]; rfl)

/-- A crash and a return: the counters survive the second registration. -/
theorem snapshot_of_history_crash :
    ∃ m h snap, calls.Run .empty
        [.onRegisterService "AppC" ⟨[RESTART, STOP], by decide⟩ (-1) (-1),
          .onServiceFailure "AppC", .onRegisterService "AppC" ⟨[], by decide⟩ (-1) (-1)] m ∧
      history "AppC"
        [.onRegisterService "AppC" ⟨[RESTART, STOP], by decide⟩ (-1) (-1),
          .onServiceFailure "AppC", .onRegisterService "AppC" ⟨[], by decide⟩ (-1) (-1)] = some h ∧
      getServiceState m "AppC" = some snap ∧ snap.attemptCount.toInt = 1 ∧
      snap.nextAction = STOP ∧ snap.isOnline = true ∧ snap.lastAction = CRASHED ∧
      snap.currentAction = RESTART := by
  obtain ⟨⟨m, hm⟩, hall⟩ := snapshot_of_history
    [.onRegisterService "AppC" ⟨[RESTART, STOP], by decide⟩ (-1) (-1),
      .onServiceFailure "AppC", .onRegisterService "AppC" ⟨[], by decide⟩ (-1) (-1)]
    (by simp [Call.policyAtMost])
  obtain ⟨h, snap, hh, hs, -, hk, hn, ho, hl, hc, -⟩ :=
    hall m hm "AppC" ((registered_iff hm "AppC").mpr (by decide))
  obtain rfl : _ = h := Option.some.inj hh
  exact ⟨m, _, snap, hm, rfl, hs, hk (by decide), (Option.some.inj hn).symm, ho, hl, hc⟩

end ServiceRecovery
