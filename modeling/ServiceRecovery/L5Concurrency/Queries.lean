import ServiceRecovery.L5Concurrency.Dispatch

/-!
# What a query sees

One dispatcher serves the messages while other threads query, statement by statement. A query that
returns has seen the daemon after some of the messages: as it has handled them, whole and in order,
up to one that was already called, and at least up to the last one that was answered before the
query was asked (`query_fresh`).

`Handled` relates the calls and returns so far to the messages that have taken effect. The moment at
which the query takes effect (`exists_effect`) lies between its call and its return.
-/
namespace ServiceRecovery

open RecoveryState Prog Mutex Components

variable {ι : Type}

def Act.message : Act ι Served Answer → Option Req
  | .call _ (.message req _) => some req
  | _ => none

def Act.reply : Act ι Served Answer → Option Reply
  | .ret _ (.reply rep) => some rep
  | _ => none

/-- The messages called, in order. -/
def requests (tr : List (Act ι Served Answer)) : List Req := tr.filterMap Act.message

/-- The replies returned, in order. -/
def replies (tr : List (Act ι Served Answer)) : List Reply := tr.filterMap Act.reply

theorem requests_append (t₁ t₂ : List (Act ι Served Answer)) :
    requests (t₁ ++ t₂) = requests t₁ ++ requests t₂ := List.filterMap_append

theorem replies_append (t₁ t₂ : List (Act ι Served Answer)) :
    replies (t₁ ++ t₂) = replies t₁ ++ replies t₂ := List.filterMap_append

theorem requests_of_visible {t₁ t₂ : List (Act ι Served Answer)}
    (h : t₁.filter Act.visible = t₂.filter Act.visible) : requests t₁ = requests t₂ :=
  Act.filterMap_of_visible (fun _ => rfl) h

theorem replies_of_visible {t₁ t₂ : List (Act ι Served Answer)}
    (h : t₁.filter Act.visible = t₂.filter Act.visible) : replies t₁ = replies t₂ :=
  Act.filterMap_of_visible (fun _ => rfl) h

/-- A message that has not taken effect. -/
def Phase.request : Phase Served Answer → List Req
  | .pending (.message req _) => [req]
  | _ => []

/-- A reply that has not been returned. -/
def Phase.reply : Phase Served Answer → List Reply
  | .done (.reply rep) => [rep]
  | _ => []

/-! ## The messages that have taken effect -/

section
variable {w : ι} {tr : List (Act ι Served Answer)} {o o' : Object Daemon ι Served Answer}
  {l : Act ι Served Answer} {msgs : List (Req × Reply)}

/-- After the labels `tr` the messages `msgs` have taken effect, and only `w` serves any. -/
structure Handled (w : ι) (tr : List (Act ι Served Answer)) (o : Object Daemon ι Served Answer)
    (msgs : List (Req × Reply)) : Prop where
  run : daemon.Run .empty msgs o.store
  requests : requests tr = msgs.map Prod.fst ++ (o.phase w).request
  replies : replies tr ++ (o.phase w).reply = msgs.map Prod.snd
  others : ∀ j, j ≠ w → (o.phase j).request = [] ∧ (o.phase j).reply = []

theorem Handled.thread (h : Handled w tr o msgs) {i : ι}
    (hi : ¬ ((o.phase i).request = [] ∧ (o.phase i).reply = [])) : i = w := by
  by_contra hw
  exact hi (h.others i hw)

variable [DecidableEq ι]

/-- A step of a query. -/
theorem Handled.query (h : Handled w tr o msgs) {i : ι} {p : Phase Served Answer}
    (hp : p.request = (o.phase i).request ∧ p.reply = (o.phase i).reply)
    (hl : ServiceRecovery.requests [l] = [] ∧ ServiceRecovery.replies [l] = []) :
    Handled w (tr ++ [l]) ⟨o.store, Function.update o.phase i p⟩ msgs := by
  have hall : ∀ j, (Function.update o.phase i p j).request = (o.phase j).request ∧
      (Function.update o.phase i p j).reply = (o.phase j).reply := by
    intro j
    by_cases hj : j = i
    · subst hj
      simpa using hp
    · simp [hj]
  refine ⟨h.run, ?_, ?_, fun j hj => ?_⟩
  · rw [requests_append, hl.1, List.append_nil, (hall w).1]
    exact h.requests
  · rw [replies_append, hl.2, List.append_nil, (hall w).2]
    exact h.replies
  · rw [(hall j).1, (hall j).2]
    exact h.others j hj

/-- A step of the dispatcher, in which the messages `new` take effect. -/
theorem Handled.dispatch (h : Handled w tr o msgs) {p : Phase Served Answer} {x : Daemon}
    {new : List (Req × Reply)} (hrun : daemon.Run o.store new x)
    (hreq : (o.phase w).request ++ ServiceRecovery.requests [l] = new.map Prod.fst ++ p.request)
    (hrep : ServiceRecovery.replies [l] ++ p.reply = (o.phase w).reply ++ new.map Prod.snd) :
    Handled w (tr ++ [l]) ⟨x, Function.update o.phase w p⟩ (msgs ++ new) := by
  refine ⟨h.run.append hrun, ?_, ?_, fun j hj => ?_⟩
  · simp only [Function.update_self]
    rw [requests_append, h.requests, List.append_assoc, hreq, List.map_append, List.append_assoc]
  · simp only [Function.update_self]
    rw [replies_append, List.append_assoc, hrep, ← List.append_assoc, h.replies, List.map_append]
  · simp only [Function.update_of_ne hj]
    exact h.others j hj

theorem Handled.step (h : Handled w tr o msgs) (hl : ServedBy (· = w) l)
    (hs : o.Step Serves l o') : ∃ msgs', Handled w (tr ++ [l]) o' msgs' := by
  cases hs with
  | call i c hi =>
    cases c with
    | query name => exact ⟨msgs, h.query (by rw [hi]; exact ⟨rfl, rfl⟩) ⟨rfl, rfl⟩⟩
    | message req order =>
      obtain rfl : i = w := hl
      exact ⟨_, h.dispatch (.nil _) (by rw [hi]; rfl) (by rw [hi]; rfl)⟩
  | @step i c a x hi he =>
    cases he with
    | query name lSnap d hq => exact ⟨msgs, h.query (by rw [hi]; exact ⟨rfl, rfl⟩) ⟨rfl, rfl⟩⟩
    | message req order rep d d' hst =>
      obtain rfl : i = w := h.thread (by simp [hi, Phase.request])
      exact ⟨_, h.dispatch (.single hst) (by rw [hi]; rfl) (by rw [hi]; rfl)⟩
  | ret i a hi =>
    cases a with
    | snapshot lSnap => exact ⟨msgs, h.query (by rw [hi]; exact ⟨rfl, rfl⟩) ⟨rfl, rfl⟩⟩
    | reply rep =>
      obtain rfl : i = w := h.thread (by simp [hi, Phase.reply])
      exact ⟨_, h.dispatch (.nil _) (by rw [hi]; rfl) (by rw [hi]; rfl)⟩

theorem handled_run (hr : (object Serves).Run ⟨.empty, fun _ => .idle⟩ tr o)
    (hw : ∀ l ∈ tr, ServedBy (· = w) l) : ∃ msgs, Handled w tr o msgs := by
  induction tr using List.reverseRecOn generalizing o with
  | nil =>
    obtain rfl := LTS.run_nil_iff.mp hr
    exact ⟨[], .nil _, rfl, rfl, fun _ _ => ⟨rfl, rfl⟩⟩
  | append_singleton tr l ih =>
    obtain ⟨o₁, hr₁, hs⟩ := LTS.run_snoc_iff.mp hr
    obtain ⟨msgs, h⟩ := ih hr₁ fun l hl => hw l (List.mem_append_left _ hl)
    exact h.step (hw l (by simp)) hs

end

/-! ## The query -/

theorem served_of_visible {D : ι → Prop} {tr tr' : List (Act ι Served Answer)}
    (h : tr'.filter Act.visible = tr.filter Act.visible) (hD : ∀ l ∈ tr, ServedBy D l) :
    ∀ l ∈ tr', ServedBy D l := by
  intro l hl
  cases hv : l.visible with
  | false =>
    cases l with
    | step i => trivial
    | call i c => cases hv
    | ret i a => cases hv
  | true => exact hD l (Act.mem_of_visible h hv hl)

section
variable [DecidableEq ι] {threshold : LogLevel} {s₀ s : Threads Guarded ι Answer} {w i : ι}
  {t₁ t₂ t₃ : List (Act ι Served Answer)} {name : String} {lSnap : SServiceSnapshot}

/-- **A query is fresh.** Let one thread `w` serve all messages. What a query returns is the
snapshot of the daemon after some messages, handled as a whole and in the order of their calls: all
that were answered before the query was asked, with the same replies, and none that was called
after the query had returned. -/
theorem query_fresh (h0 : s₀.Idle) (hx : s₀.store = initial)
    (hr : (threads (Served.body threshold)).Run s₀
      (t₁ ++ .call i (.query name) :: (t₂ ++ .ret i (.snapshot lSnap) :: t₃)) s)
    (hw : ∀ l ∈ t₁ ++ .call i (.query name) :: (t₂ ++ .ret i (.snapshot lSnap) :: t₃),
      ServedBy (· = w) l)
    (hn : ∀ a, .ret i a ∉ t₂) :
    ∃ msgs d, daemon.Run .empty msgs d ∧ getServiceState d.scheduler name = some lSnap ∧
      msgs.map Prod.fst <+: requests (t₁ ++ t₂) ∧ replies t₁ <+: msgs.map Prod.snd := by
  obtain ⟨tr, o, hro, hv, -⟩ := linearise (body_nesting threshold) (body_once threshold) h0 hr
    (reads_of_served hw)
  obtain ⟨d, hrd, -⟩ := serves_of_object hro (d := .empty) (by rw [hx]; rfl)
  have hserved := served_of_visible hv hw
  -- the same call and return in the run of the object
  obtain ⟨u, v, rfl, hu, hv⟩ := Act.split_visible rfl hv
  obtain ⟨v, v', rfl, hv, -⟩ := Act.split_visible rfl hv
  obtain ⟨o₁, hr₁, hr₂⟩ := LTS.run_append_iff.mp hrd
  obtain ⟨o₂, hcall, hr₂⟩ := LTS.run_cons_iff.mp hr₂
  obtain ⟨o₃, hr₃, hr₂⟩ := LTS.run_append_iff.mp hr₂
  obtain ⟨o₄, hret, -⟩ := LTS.run_cons_iff.mp hr₂
  have hpending : o₂.phase i = .pending (.query name) := by
    cases hcall
    simp
  have hdone : o₃.phase i = .done (.snapshot lSnap) := by
    cases hret
    assumption
  have hn' : ∀ a, .ret i a ∉ v := fun a ha => hn a (Act.mem_of_visible hv rfl ha)
  -- the query takes effect after the labels `u'` behind its call
  obtain ⟨u', v'', o₅, x, rfl, hr₅, he⟩ := exists_effect hr₃ hn' hpending hdone
  obtain ⟨msgs, h⟩ := handled_run (hr₁.append (.cons hcall hr₅)) fun l hl =>
    hserved l (by simp only [List.mem_append, List.mem_cons] at hl ⊢; tauto)
  refine ⟨msgs, o₅.store, h.run, ?_, ?_, ?_⟩
  · cases he with
    | query _ _ _ hq => exact hq
  · -- what has taken effect was called before the query took effect
    have hreq := h.requests
    rw [requests_append, requests_of_visible hu] at hreq
    refine ⟨(o₅.phase w).request ++ requests (.step i :: v''), ?_⟩
    rw [← List.append_assoc, ← hreq, requests_append, ← requests_of_visible hv, requests_append,
      List.append_assoc]
    rfl
  · -- what was answered before the query was asked has taken effect
    have hrep := h.replies
    rw [replies_append, replies_of_visible hu, List.append_assoc] at hrep
    exact ⟨_, hrep⟩

end

def registerAppA : Req := .registerService .other "AppA" ⟨[0], by decide⟩ (-1) none

/-- The dispatcher registers a service, and the console queries it afterwards. -/
theorem registerThenQuery_run : ∃ s, (threads (Served.body .TRACE)).Run
    (⟨initial, fun _ => none, fun _ => none⟩ : Threads Guarded Bool Answer)
    ((.call true (.message registerAppA ⟨id, .refl⟩) ::
        (List.replicate 8 (.step true) ++ [.ret true (.reply (.register .OK))])) ++
      .call false (.query "AppA") :: (List.replicate 10 (.step false) ++
        .ret false (.snapshot { found := true, isOnline := true, nextAction := RESTART }) :: []))
    s := by
  refine (exists_schedule _ (fun _ => true) ?_).imp fun _ h => h.1
  decide

theorem query_fresh_registered : ∃ msgs d, daemon.Run .empty msgs d ∧
    getServiceState d.scheduler "AppA" =
      some { found := true, isOnline := true, nextAction := RESTART } ∧
    msgs.map Prod.fst <+: [registerAppA] ∧ [.register .OK] <+: msgs.map Prod.snd := by
  obtain ⟨s, hr⟩ := registerThenQuery_run
  refine query_fresh (w := true) ⟨fun _ => rfl, fun _ => rfl⟩ rfl hr (by decide) ?_
  intro a ha
  cases (List.mem_replicate.mp ha).2

end ServiceRecovery
