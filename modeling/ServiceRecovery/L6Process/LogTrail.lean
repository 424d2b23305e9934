import ServiceRecovery.L6Process.Log

/-!
# What the log tells

The log is the only account of a run that is left when the daemon is gone. `view s` reads it from
left to right and keeps what it says of the service `s`: a registration opens its account, and
failures and reports change it. An `unregisterService` is not logged, so the account of a service
that has no entry any more is void.

* `view_run`: in every run, the entry of a registered service is what the log says of it;
* `log_determines`: so two runs that printed the same characters leave the same liveness, attempt
  count, last and current action, whatever else the process printed in between. The next action is
  not among them, as policies are not logged.
-/
namespace ServiceRecovery

open RecoveryState SServiceRecoveryInfo

/-- The account of a service. -/
structure Noted where
  online : Bool
  crashes : Nat
  last : RecoveryState
  current : RecoveryState

/-- `failing` is the service of the latest failure: the action chosen for it is logged without its
name. -/
structure View where
  failing : String
  noted : Option Noted

namespace View

def empty : View := ⟨"", none⟩

/-- One more statement. -/
def next (s : String) (v : View) : LogStmt → View
  | .registered t _ =>
    if t = s then { v with noted := some ⟨true, 0, UNKNOWN, UNKNOWN⟩ } else v
  | .alreadyRegistered t =>
    if t = s then { v with noted := v.noted.map fun n => { n with online := true } } else v
  | .failureDetected t =>
    { failing := t
      noted := if t = s then v.noted.map fun n =>
          { n with online := false, crashes := n.crashes + 1, last := CRASHED }
        else v.noted }
  | .nextAction _ a =>
    if v.failing = s then { v with noted := v.noted.map fun n => { n with current := a } } else v
  | .statePushed t cur last =>
    if t = s then { v with noted := v.noted.map fun n =>
      { n with current := cur, last := if last ≠ UNKNOWN then last else n.last } }
    else v
  | _ => v

end View

def view (s : String) (log : List LogStmt) : View := log.foldl (View.next s) .empty

/-! ## The account is right -/

/-- The entry is what the account says. -/
def View.Tells (v : View) (c : Cell) : Prop :=
  ∀ info, c = some info → ∃ n, v.noted = some n ∧ n.online = info.isOnline ∧
    info.crashCount = UInt32.ofNat n.crashes ∧ n.last = info.lastAction ∧
    n.current = info.currentRecoveryState

section
variable {s t : String} {v : View} {c : Cell} {x : Slot}

theorem View.tells_none : v.Tells none := fun _ h => by cases h

/-- The statements of a registration. -/
theorem View.Tells.register (h : v.Tells x.cell) (acts : Vec RecoveryState) (ivl : Int32)
    (peer : PeerInfo) :
    ((x.registerLog s peer).foldl (View.next s) v).Tells (x.register s acts ivl peer).cell := by
  have hwatch : ∀ w : View, (if x.cell.accepts s ∧ peer.uniqueBusName ≠ "" then
      [LogStmt.watching peer.uniqueBusName peer.pid s] else []).foldl (View.next s) w = w := by
    intro w
    split <;> rfl
  unfold Slot.registerLog Slot.register
  rw [List.foldl_cons, List.foldl_cons, hwatch]
  cases hc : x.cell with
  | none =>
    by_cases hcat : InCatalogue s
    · intro info hi
      simp only [Cell.register, hcat, if_true, Option.some.injEq] at hi
      subst hi
      rw [fresh_eq]
      exact ⟨⟨true, 0, UNKNOWN, UNKNOWN⟩, by simp [View.next, hcat], rfl, rfl, rfl, rfl⟩
    · intro info hi
      simp [Cell.register, hcat] at hi
  | some info =>
    intro info' hi
    obtain ⟨n, hn, ho, hk, hl, hcur⟩ := h info hc
    obtain rfl := Option.some.inj hi
    exact ⟨{ n with online := true }, by simp [View.next, hn], rfl, hk, hl, hcur⟩

theorem View.Tells.report (h : v.Tells x.cell) (cur last : RecoveryState) :
    ((x.reportLog s cur last).foldl (View.next s) v).Tells (x.report cur last).cell := by
  intro info' hi
  unfold Slot.report Cell.report at hi
  dsimp only at hi
  rw [Option.map_eq_some_iff] at hi
  obtain ⟨info, hc, rfl⟩ := hi
  obtain ⟨n, hn, ho, hk, hl, -⟩ := h info hc
  unfold Slot.reportLog
  rw [hc]
  by_cases hlast : last = UNKNOWN
  · exact ⟨{ n with current := cur }, by simp [View.next, hn, hlast],
      by simp [SServiceRecoveryInfo.report, hlast, ho, hk, hl]⟩
  · exact ⟨{ n with current := cur, last := last }, by simp [View.next, hn, hlast],
      by simp [SServiceRecoveryInfo.report, hlast, ho, hk]⟩

/-- The statements of a failure. -/
theorem View.Tells.lose (h : v.Tells x.cell) {x' : Slot} (hs : s ≠ "") (hx : x.lose s = some x')
    (peer : PeerInfo) : ((x'.loseLog s peer).foldl (View.next s) v).Tells x'.cell := by
  intro info' hi
  unfold Slot.lose Slot.crash at hx
  rw [if_neg hs] at hx
  simp only [Option.map_eq_some_iff] at hx
  obtain ⟨c, hc, rfl⟩ := hx
  obtain rfl : c = some info' := hi
  cases hcell : x.cell with
  | none =>
    rw [hcell] at hc
    cases hc
  | some info =>
    rw [hcell] at hc
    simp only [Cell.failure, Option.map_eq_some_iff, Option.some.injEq, exists_eq_right] at hc
    obtain ⟨a, -, rfl⟩ := failure_eq_some.mp hc
    obtain ⟨n, hn, -, hk, -, -⟩ := h info hcell
    refine ⟨⟨false, n.crashes + 1, CRASHED, a⟩, ?_, rfl, ?_, rfl, rfl⟩
    · simp [Slot.loseLog, hs, View.next, hn]
    · simp [hk]

/-! Statements about another service `t`. -/

theorem View.register_other (hts : t ≠ s) (peer : PeerInfo) :
    (x.registerLog t peer).foldl (View.next s) v = v := by
  unfold Slot.registerLog
  rw [List.foldl_cons, List.foldl_cons]
  split <;> [skip; split] <;> split <;> simp [View.next, hts]

theorem View.report_other (hts : t ≠ s) (cur last : RecoveryState) :
    (x.reportLog t cur last).foldl (View.next s) v = v := by
  unfold Slot.reportLog
  split <;> simp [View.next, hts]

theorem View.lose_other (hts : t ≠ s) (peer : PeerInfo) :
    ((x.loseLog t peer).foldl (View.next s) v).noted = v.noted := by
  unfold Slot.loseLog
  split
  · rfl
  · cases x.cell <;> simp [View.next, hts]

theorem Slots.Says.tells {w w' : Slots} {l : Req × Reply} {new : List LogStmt}
    (h : Slots.Says w l w' new) (hv : v.Tells (w s).cell) :
    (new.foldl (View.next s) v).Tells (w' s).cell := by
  cases h with
  | register client t acts ivl pidReply rep =>
    by_cases hts : t = s
    · subst hts
      rw [Function.update_self]
      exact hv.register _ _ _
    · rw [Function.update_of_ne (Ne.symm hts), View.register_other hts]
      exact hv
  | unregister client t rep =>
    by_cases hts : t = s
    · subst hts
      rw [Function.update_self]
      exact View.tells_none
    · rw [Function.update_of_ne (Ne.symm hts)]
      exact hv
  | report client t cur last rep =>
    by_cases hts : t = s
    · subst hts
      rw [Function.update_self]
      exact hv.report _ _
    · rw [Function.update_of_ne (Ne.symm hts), View.report_other hts]
      exact hv
  | ignored name oldOwner newOwner => exact hv
  | lost oldOwner t peer x hp hx =>
    by_cases hts : t = s
    · subst hts
      rw [Function.update_self]
      by_cases ht : t = ""
      · -- no service: nothing is logged and the entry stays
        unfold Slot.lose Slot.crash at hx
        rw [if_pos ht] at hx
        cases hx
        rw [Slot.loseLog, if_pos ht]
        exact hv
      · exact hv.lose ht hx peer
    · rw [Function.update_of_ne (Ne.symm hts)]
      unfold View.Tells
      rw [View.lose_other hts]
      exact hv

end

/-- **The log is right.** -/
theorem view_run {tr : List (Req × Reply)} {d : Daemon} {log : List LogStmt}
    (hr : logging.Run (.empty, []) tr (d, log)) (s : String) :
    (view s log).Tells (d.slots s).cell := by
  have hinv : logging.Inductive fun st => (view s st.2).Tells (st.1.slots s).cell := by
    refine ⟨?_, ?_⟩
    · rintro st rfl
      exact View.tells_none
    · rintro ⟨d, log⟩ l ⟨d', log'⟩ hv hst
      obtain ⟨new, rfl, hs⟩ := logging_step_says hst
      unfold view at hv ⊢
      rw [List.foldl_append]
      exact hs.tells hv
  exact hinv.run View.tells_none hr

/-! ## The account can be read off the text -/

def Noted.Alike (n m : Noted) : Prop :=
  n.online = m.online ∧ n.crashes = m.crashes ∧ n.last.Alike m.last ∧ n.current.Alike m.current

def View.Alike (v w : View) : Prop :=
  v.failing = w.failing ∧ Option.Rel Noted.Alike v.noted w.noted

theorem RecoveryState.Alike.refl (a : RecoveryState) : a.Alike a := .inl rfl

theorem RecoveryState.Alike.unknown {a b : RecoveryState} (h : a.Alike b) :
    a = UNKNOWN ↔ b = UNKNOWN := by
  rcases h with rfl | ⟨ha, hb⟩
  · rfl
  · refine iff_of_false ?_ ?_
    · rintro rfl
      exact ha trivial
    · rintro rfl
      exact hb trivial

/-- A message that ends in a labelled word. -/
theorem labelled_inj {p q u v : String} (label : String) {l : List Char}
    (hlabel : label.toList = ' ' :: l) (hl : ' ' ∉ l) (hu : ' ' ∉ u.toList) (hv : ' ' ∉ v.toList) :
    p ++ label ++ u = q ++ label ++ v ↔ p = q ∧ u = v := by
  have hlu : ' ' ∉ l ++ u.toList := by simp [hl, hu]
  have hlv : ' ' ∉ l ++ v.toList := by simp [hl, hv]
  rw [← String.toList_inj, String.toList_append, String.toList_append, String.toList_append,
    String.toList_append, hlabel, List.append_assoc, List.append_assoc, List.cons_append,
    List.cons_append, last_field_inj hlu hlv, List.append_right_inj, String.toList_inj,
    String.toList_inj]

theorem intString_no_blank (n : Int) : ' ' ∉ (intString n).toList := by
  rw [intString, String.toList_ofList]
  exact not_mem_intText rfl (by decide)

/-- The two statements say the same. -/
inductive LogStmt.Same : LogStmt → LogStmt → Prop
  | failureDetected (s : String) : Same (.failureDetected s) (.failureDetected s)
  | nextAction (n m : Int8) {a b : RecoveryState} :
      a.Alike b → Same (.nextAction n a) (.nextAction m b)
  | registered (s : String) (pid pid' : Int32) : Same (.registered s pid) (.registered s pid')
  | alreadyRegistered (s : String) : Same (.alreadyRegistered s) (.alreadyRegistered s)
  | statePushed (s : String) {cur cur' last last' : RecoveryState} :
      cur.Alike cur' → last.Alike last' → Same (.statePushed s cur last) (.statePushed s cur' last')
  | aside {a b : LogStmt} :
      (∀ s v, View.next s v a = v) → (∀ s v, View.next s v b = v) → Same a b

theorem same_of_key {a b : LogStmt} (h : a.record.key = b.record.key) : a.Same b := by
  have hmsg : a.record.msg = b.record.msg := congrArg (fun k => k.2.2) h
  have hline : a.record.line = b.record.line := congrArg (fun k => k.2.1) h
  clear h
  cases a with
  | failureDetected s =>
    cases b with
    | failureDetected t =>
      obtain rfl : s = t := by simpa [LogStmt.record] using hmsg
      exact .failureDetected s
    | _ => simp [LogStmt.record] at hline
  | nextAction n a =>
    cases b with
    | nextAction m b =>
      have hab := (labelled_inj " nextAction=" rfl (by decide) (toString_no_blank a)
        (toString_no_blank b)).mp hmsg
      exact .nextAction n m (toString_inj.mp hab.2)
    | _ => simp [LogStmt.record] at hline
  | registered s pid =>
    cases b with
    | registered t pid' =>
      have hst := ((labelled_inj " pid=" rfl (by decide) (intString_no_blank _)
        (intString_no_blank _)).mp hmsg).1
      obtain rfl : s = t := by simpa using hst
      exact .registered s pid pid'
    | _ => simp [LogStmt.record] at hline
  | alreadyRegistered s =>
    cases b with
    | alreadyRegistered t =>
      obtain rfl : s = t := by simpa [LogStmt.record] using hmsg
      exact .alreadyRegistered s
    | _ => simp [LogStmt.record] at hline
  | statePushed s cur last =>
    cases b with
    | statePushed t cur' last' =>
      obtain ⟨hrest, hlast⟩ := (labelled_inj " last=" rfl (by decide) (toString_no_blank last)
        (toString_no_blank last')).mp hmsg
      obtain ⟨hst, hcur⟩ := (labelled_inj " current=" rfl (by decide) (toString_no_blank cur)
        (toString_no_blank cur')).mp hrest
      obtain rfl : s = t := by simpa using hst
      exact .statePushed s (toString_inj.mp hcur) (toString_inj.mp hlast)
    | _ => simp [LogStmt.record] at hline
  | registerReq s pid =>
    cases b with
    | registerReq t pid' => exact .aside (fun _ _ => rfl) fun _ _ => rfl
    | _ => simp [LogStmt.record] at hline
  | invalidName s =>
    cases b with
    | invalidName t => exact .aside (fun _ _ => rfl) fun _ _ => rfl
    | _ => simp [LogStmt.record] at hline
  | unknownService s =>
    cases b with
    | unknownService t => exact .aside (fun _ _ => rfl) fun _ _ => rfl
    | _ => simp [LogStmt.record] at hline
  | watching bus pid s =>
    cases b with
    | watching bus' pid' t => exact .aside (fun _ _ => rfl) fun _ _ => rfl
    | _ => simp [LogStmt.record] at hline
  | peerLost s bus pid =>
    cases b with
    | peerLost t bus' pid' => exact .aside (fun _ _ => rfl) fun _ _ => rfl
    | _ => simp [LogStmt.record] at hline

/-- A change of both accounts. -/
theorem rel_map {o o' : Option Noted} {f g : Noted → Noted} (h : Option.Rel Noted.Alike o o')
    (hfg : ∀ n m, n.Alike m → (f n).Alike (g m)) :
    Option.Rel Noted.Alike (o.map f) (o'.map g) := by
  cases h with
  | none => exact .none
  | some h => exact .some (hfg _ _ h)

theorem View.Alike.next {v w : View} (h : v.Alike w) {a b : LogStmt} (hab : a.Same b)
    (s : String) : (v.next s a).Alike (w.next s b) := by
  obtain ⟨hf, hn⟩ := h
  cases hab with
  | failureDetected t =>
    refine ⟨rfl, ?_⟩
    unfold View.next
    dsimp only
    split
    · exact rel_map hn fun n m h => ⟨rfl, by rw [h.2.1], .refl _, h.2.2.2⟩
    · exact hn
  | nextAction n m ha =>
    unfold View.next
    dsimp only
    rw [hf]
    split
    · exact ⟨rfl, rel_map hn fun n m h => ⟨h.1, h.2.1, h.2.2.1, ha⟩⟩
    · exact ⟨hf, hn⟩
  | registered t pid pid' =>
    unfold View.next
    dsimp only
    split
    · exact ⟨hf, .some ⟨rfl, rfl, .refl _, .refl _⟩⟩
    · exact ⟨hf, hn⟩
  | alreadyRegistered t =>
    unfold View.next
    dsimp only
    split
    · exact ⟨hf, rel_map hn fun n m h => ⟨rfl, h.2⟩⟩
    · exact ⟨hf, hn⟩
  | statePushed t hcur hlast =>
    unfold View.next
    dsimp only
    split
    · refine ⟨hf, rel_map hn fun n m h => ⟨h.1, h.2.1, ?_, hcur⟩⟩
      simp only [ne_eq, hlast.unknown]
      split
      · exact hlast
      · exact h.2.2.1
    · exact ⟨hf, hn⟩
  | aside ha hb =>
    rw [ha, hb]
    exact ⟨hf, hn⟩

/-- Statements whose records look the same leave the same account. -/
theorem view_alike {log log' : List LogStmt} {v w : View} (h : v.Alike w) (s : String)
    (hk : log.map (fun a => a.record.key) = log'.map fun a => a.record.key) :
    (log.foldl (View.next s) v).Alike (log'.foldl (View.next s) w) := by
  induction log generalizing log' v w with
  | nil =>
    cases log' with
    | nil => exact h
    | cons b log' => cases hk
  | cons a log ih =>
    cases log' with
    | nil => cases hk
    | cons b log' =>
      rw [List.map_cons, List.map_cons, List.cons.injEq] at hk
      rw [List.foldl_cons, List.foldl_cons]
      exact ih (h.next (same_of_key hk.1) s) hk.2

/-! ## Two runs with the same output -/

/-- The record is written by a handler. -/
def Record.OfHandler (k : String × Int × String) : Bool := k.1 ∈ handlerFuncs

/-- What standard output may hold after the statements `log`: their records in order, among those
of other functions (the start-up, the console thread). -/
structure Stdout (log : List LogStmt) (out : List (Stamp × Record)) : Prop where
  handlers : (out.map fun o => o.2.key).filter Record.OfHandler =
    (printed log).map Record.key
  plain : ∀ o ∈ out, o.2.Plain

theorem online_of_snapshot {m : Registry} {s : String} {snap : SServiceSnapshot}
    (h : getServiceState m s = some snap) (hf : snap.found = true) :
    ∃ info, m.lookups s = some info ∧ snap.isOnline = info.isOnline ∧
      snap.attemptCount = info.crashCount.toInt32 ∧ snap.lastAction = info.lastAction ∧
      snap.currentAction = info.currentRecoveryState := by
  rw [getServiceState_eq] at h
  unfold Cell.snapshot at h
  cases hl : m.lookups s with
  | none =>
    rw [hl] at h
    obtain rfl := Option.some.inj h
    cases hf
  | some info =>
    rw [hl] at h
    dsimp only at h
    refine ⟨info, rfl, ?_⟩
    split at h
    · obtain rfl := Option.some.inj h
      exact ⟨rfl, rfl, rfl, rfl⟩
    · obtain ⟨a, -, rfl⟩ := Option.map_eq_some_iff.mp h
      exact ⟨rfl, rfl, rfl, rfl⟩

/-- The text gives the handlers' records back. -/
theorem keys_of_text {log log' : List LogStmt} {out out' : List (Stamp × Record)} {tty : Bool}
    (ho : Stdout log out) (ho' : Stdout log' out')
    (htext : out.flatMap (Logger.write tty) = out'.flatMap (Logger.write tty)) :
    log.map (fun a => a.record.key) = log'.map fun a => a.record.key := by
  have hout := write_keys ho.plain ho'.plain htext
  have hall := ho.handlers.symm.trans ((congrArg _ hout).trans ho'.handlers)
  rwa [printed_eq, printed_eq, List.map_map, List.map_map] at hall

/-- Two runs with the same records agree on a service that is registered after both. -/
theorem alike_of_keys {tr tr' : List (Req × Reply)} {d d' : Daemon} {log log' : List LogStmt}
    (hr : logging.Run (.empty, []) tr (d, log)) (hr' : logging.Run (.empty, []) tr' (d', log'))
    (hkeys : log.map (fun a => a.record.key) = log'.map fun a => a.record.key) (s : String)
    {snap snap' : SServiceSnapshot} (hs : getServiceState d.scheduler s = some snap)
    (hs' : getServiceState d'.scheduler s = some snap')
    (hf : snap.found = true) (hf' : snap'.found = true) :
    snap.isOnline = snap'.isOnline ∧ snap.attemptCount = snap'.attemptCount ∧
      snap.lastAction.Alike snap'.lastAction ∧ snap.currentAction.Alike snap'.currentAction := by
  have hview := view_alike (v := .empty) (w := .empty) ⟨rfl, .none⟩ s hkeys
  obtain ⟨info, hi, hon, hk, hl, hc⟩ := online_of_snapshot hs hf
  obtain ⟨info', hi', hon', hk', hl', hc'⟩ := online_of_snapshot hs' hf'
  obtain ⟨n, hn, hno, hnk, hnl, hnc⟩ := view_run hr s info hi
  obtain ⟨n', hn', hno', hnk', hnl', hnc'⟩ := view_run hr' s info' hi'
  have hrel := hview.2
  unfold view at hn hn'
  rw [hn, hn'] at hrel
  cases hrel with
  | some halike =>
    obtain ⟨ho, hcr, hla, hcu⟩ := halike
    rw [hon, hon', ← hno, ← hno', hk, hk', hnk, hnk', hl, hl', ← hnl, ← hnl', hc, hc', ← hnc,
      ← hnc']
    exact ⟨ho, by rw [hcr], hla, hcu⟩

/-- **The log determines the state.** Two runs that printed the same text, in which every record is
one line, agree on every service that is registered after both: a query answers the same liveness
and attempt count, and the same last and current action up to bytes without a name. -/
theorem log_determines {tr tr' : List (Req × Reply)} {d d' : Daemon} {log log' : List LogStmt}
    {out out' : List (Stamp × Record)} {tty : Bool}
    (hr : logging.Run (.empty, []) tr (d, log)) (hr' : logging.Run (.empty, []) tr' (d', log'))
    (ho : Stdout log out) (ho' : Stdout log' out')
    (htext : out.flatMap (Logger.write tty) = out'.flatMap (Logger.write tty)) (s : String)
    {snap snap' : SServiceSnapshot} (hs : getServiceState d.scheduler s = some snap)
    (hs' : getServiceState d'.scheduler s = some snap')
    (hf : snap.found = true) (hf' : snap'.found = true) :
    snap.isOnline = snap'.isOnline ∧ snap.attemptCount = snap'.attemptCount ∧
      snap.lastAction.Alike snap'.lastAction ∧ snap.currentAction.Alike snap'.currentAction :=
  alike_of_keys hr hr' (keys_of_text ho ho' htext) s hs hs' hf hf'

theorem ofHandler_record (a : LogStmt) : Record.OfHandler a.record.key = true := by
  obtain ⟨-, -, f, hf, he⟩ := record_origin a
  unfold Record.OfHandler Record.key
  rw [he]
  exact decide_eq_true hf

/-- The output of the handlers alone. -/
theorem stdout_alone {log : List LogStmt} (stamp : Stamp)
    (hlog : ∀ a ∈ log, '\n' ∉ a.record.msg.toList) :
    Stdout log ((printed log).map (Prod.mk stamp)) where
  handlers := by
    rw [printed_eq, List.map_map, List.map_map, List.map_map]
    refine List.filter_eq_self.mpr ?_
    intro k hk
    obtain ⟨a, -, rfl⟩ := List.mem_map.mp hk
    exact ofHandler_record a
  plain := by
    intro o ho
    rw [printed_eq] at ho
    obtain ⟨r, hr, rfl⟩ := List.mem_map.mp ho
    obtain ⟨a, ha, rfl⟩ := List.mem_map.mp hr
    exact ⟨record_named a, hlog a ha⟩

/-- `AppA` registers the policy `acts` and crashes. -/
def registeredAndLost (acts : Vec UInt8) : List (Req × Reply) :=
  [(.registerService (.dbus (some ":1.1")) "AppA" acts (-1) none, .register .OK),
    (.nameOwnerChanged ":1.1" ":1.1" "", .none)]

def registeredAndLostLog : List LogStmt :=
  [.registerReq "AppA" (-1), .registered "AppA" (-1), .watching ":1.1" (-1) "AppA",
    .peerLost "AppA" ":1.1" (-1), .failureDetected "AppA", .nextAction 0 RESTART]

theorem registeredAndLost_run (acts : Vec UInt8) (P : Daemon × List LogStmt → Bool)
    (h : (LTS.runFn (fun st l => (st.1.answer l).map fun d => (d, st.2 ++ st.1.handleLog l.1))
      (Daemon.empty, []) (registeredAndLost acts)).any P = true) :
    ∃ st, logging.Run (.empty, []) (registeredAndLost acts) st ∧ P st = true :=
  LTS.exists_run_ofFn (fun st => ⟨.refl st.1, rfl⟩) P h

theorem registeredAndLost_plain : ∀ a ∈ registeredAndLostLog, '\n' ∉ a.record.msg.toList := by
  intro a hm
  refine (not_mem_msg_iff a).mpr ?_
  revert a
  decide

/-- With the default policy and with `RESTART, DISABLE` the log of one crash is the same. -/
theorem registeredAndLost_policies : ∃ d d' snap snap',
    logging.Run (.empty, []) (registeredAndLost ⟨[], by decide⟩) (d, registeredAndLostLog) ∧
    logging.Run (.empty, []) (registeredAndLost ⟨[0, 2], by decide⟩) (d', registeredAndLostLog) ∧
    getServiceState d.scheduler "AppA" = some snap ∧
    getServiceState d'.scheduler "AppA" = some snap' ∧
    (snap.found = true ∧ snap.nextAction = RESTART) ∧
    snap'.found = true ∧ snap'.nextAction = DISABLE := by
  let shows (st : Daemon × List LogStmt) (a : RecoveryState) : Bool :=
    decide (st.2 = registeredAndLostLog) &&
      (getServiceState st.1.scheduler "AppA").any fun snap => snap.found && snap.nextAction == a
  obtain ⟨⟨d, log⟩, hr, hp⟩ := registeredAndLost_run ⟨[], by decide⟩ (shows · RESTART) (by decide)
  obtain ⟨⟨d', log'⟩, hr', hp'⟩ :=
    registeredAndLost_run ⟨[0, 2], by decide⟩ (shows · DISABLE) (by decide)
  simp only [shows, Bool.and_eq_true, decide_eq_true_eq, Option.any_eq_true, beq_iff_eq] at hp hp'
  obtain ⟨rfl, snap, hs, hsnap⟩ := hp
  obtain ⟨rfl, snap', hs', hsnap'⟩ := hp'
  exact ⟨d, d', snap, snap', hr, hr', hs, hs', hsnap, hsnap'⟩

/-- Only the action to come differs. -/
theorem log_determines_policies : ∃ d d' snap snap',
    logging.Run (.empty, []) (registeredAndLost ⟨[], by decide⟩) (d, registeredAndLostLog) ∧
    logging.Run (.empty, []) (registeredAndLost ⟨[0, 2], by decide⟩) (d', registeredAndLostLog) ∧
    getServiceState d.scheduler "AppA" = some snap ∧
    getServiceState d'.scheduler "AppA" = some snap' ∧
    snap.attemptCount = snap'.attemptCount ∧ snap.isOnline = snap'.isOnline ∧
    snap.currentAction.Alike snap'.currentAction ∧ snap.nextAction = RESTART ∧
    snap'.nextAction = DISABLE := by
  obtain ⟨d, d', snap, snap', hr, hr', hs, hs', ⟨hf, ha⟩, hf', ha'⟩ := registeredAndLost_policies
  have ho := stdout_alone ⟨0, 0, 0, 0, 0, 0, 0, 0⟩ registeredAndLost_plain
  obtain ⟨hon, hk, -, hc⟩ := log_determines hr hr' ho ho
    (congrArg (List.flatMap (Logger.write false)) rfl) "AppA" hs hs' hf hf'
  exact ⟨d, d', snap, snap', hr, hr', hs, hs', hk, hon, hc, ha, ha'⟩

end ServiceRecovery
