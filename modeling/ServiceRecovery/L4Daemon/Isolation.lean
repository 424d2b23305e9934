import ServiceRecovery.L4Daemon.CrashTrace

/-!
# Applications are isolated from each other

`solo s` is a machine that serves the service `s` alone. It is deterministic, and it has no table
to scan: a lost bus name either is the one it is bound to or is ignored.

When every bus name registers at most one service, the daemon runs one such machine for each
service, side by side:

* `run_solo`: along every run, the slot of `s` is driven by `solo s` on the messages that concern
  `s`, and by nothing else;
* `solo_slots`: every run of `solo s` is a run of the daemon in which no other service exists.

`isolated` follows from the two and the determinism of `solo s`.
-/
namespace ServiceRecovery

open RecoveryState SServiceRecoveryInfo

/-! ## One service alone -/

inductive Slot.Solo (s : String) (x : Slot) : Req × Reply → Slot → Prop
  | register (client : ClientId) (acts : Vec UInt8) (ivl : Int32) (pidReply : Option UInt32) :
      Solo s x (.registerService client s acts ivl pidReply,
          .register (if x.cell.accepts s then .OK else .INVALID_NAME))
        (x.register s (acts.map fromWire) ivl (peerOf client pidReply))
  | unregister (client : ClientId) :
      Solo s x (.unregisterService client s,
        .unregister (if x.cell.isSome then .OK else .NOT_FOUND)) x.unregister
  | report (client : ClientId) (cur last : UInt8) :
      Solo s x (.reportServiceState client s cur last,
          .query (if x.cell.isSome then .OK else .NOT_FOUND))
        (x.report (fromWire cur) (fromWire last))
  | lost (name oldOwner : String) (x' : Slot) : x.BoundTo name → x.lose s = some x' →
      Solo s x (.nameOwnerChanged name oldOwner "", .none) x'
  | ignored (name oldOwner newOwner : String) : (newOwner = "" → ¬ x.BoundTo name) →
      Solo s x (.nameOwnerChanged name oldOwner newOwner, .none) x

def solo (s : String) : LTS Slot (Req × Reply) where
  init x := x = .empty
  step := Slot.Solo s

variable {s : String}

theorem Slot.Solo.det {x x₁ x₂ : Slot} {l₁ l₂ : Req × Reply} (h₁ : Slot.Solo s x l₁ x₁)
    (h₂ : Slot.Solo s x l₂ x₂) (hl : l₁.1 = l₂.1) : l₁ = l₂ ∧ x₁ = x₂ := by
  cases h₁ with
  | register client acts ivl pidReply => cases h₂ <;> cases hl; exact ⟨rfl, rfl⟩
  | unregister client => cases h₂ <;> cases hl; exact ⟨rfl, rfl⟩
  | report client cur last => cases h₂ <;> cases hl; exact ⟨rfl, rfl⟩
  | lost name oldOwner x₁ hb hx =>
    cases h₂ with
    | lost name' oldOwner' x₂ hb' hx' =>
      cases hl
      exact ⟨rfl, Option.some.inj (hx.symm.trans hx')⟩
    | ignored name' oldOwner' newOwner' hn =>
      cases hl
      exact absurd hb (hn rfl)
    | _ => cases hl
  | ignored name oldOwner newOwner hn =>
    cases h₂ with
    | lost name' oldOwner' x₂ hb' hx' =>
      cases hl
      exact absurd hb' (hn rfl)
    | ignored name' oldOwner' newOwner' hn' =>
      cases hl
      exact ⟨rfl, rfl⟩
    | _ => cases hl

theorem solo_run_det {x x₁ x₂ : Slot} {tr₁ tr₂ : List (Req × Reply)}
    (h₁ : (solo s).Run x tr₁ x₁) (h₂ : (solo s).Run x tr₂ x₂)
    (hreq : tr₁.map Prod.fst = tr₂.map Prod.fst) : tr₁ = tr₂ ∧ x₁ = x₂ := by
  induction h₁ generalizing tr₂ with
  | nil x =>
    obtain rfl := List.map_eq_nil_iff.mp hreq.symm
    exact ⟨rfl, LTS.run_nil_iff.mp h₂⟩
  | cons hst _ ih =>
    cases tr₂ with
    | nil => cases hreq
    | cons l₂ tr₂ =>
      obtain ⟨hl, htl⟩ := List.cons.inj hreq
      obtain ⟨y, hst', hr'⟩ := LTS.run_cons_iff.mp h₂
      obtain ⟨rfl, rfl⟩ := Slot.Solo.det hst hst' hl
      obtain ⟨rfl, rfl⟩ := ih hr' htl
      exact ⟨rfl, rfl⟩

/-- The daemon in which only `s` may exist. -/
def single (s : String) (x : Slot) : Slots := Function.update (fun _ => Slot.empty) s x

theorem single_self (x : Slot) : single s x s = x := Function.update_self ..

theorem update_single (x x' : Slot) : Function.update (single s x) s x' = single s x' :=
  Function.update_idem ..

theorem single_empty : single s .empty = Daemon.empty.slots := Function.update_eq_self s _

theorem single_boundTo {x : Slot} {t p : String} (hb : (single s x t).BoundTo p) :
    x.BoundTo p := by
  by_cases ht : t = s
  · subst ht
    rwa [single_self] at hb
  · unfold single at hb
    rw [Function.update_of_ne ht] at hb
    obtain ⟨peer, hp, -⟩ := hb
    cases hp

theorem solo_slots {x x' : Slot} {l : Req × Reply} (h : Slot.Solo s x l x') :
    slots.step (single s x) l (single s x') := by
  cases h with
  | register client acts ivl pidReply =>
    have := Slots.Step.register (w := single s x) client s acts ivl pidReply
    rwa [single_self, update_single] at this
  | unregister client =>
    have := Slots.Step.unregister (w := single s x) client s
    rwa [single_self, update_single] at this
  | report client cur last =>
    have := Slots.Step.report (w := single s x) client s cur last
    rwa [single_self, update_single] at this
  | lost name oldOwner x' hb hx =>
    rw [← update_single x x']
    exact .lost name oldOwner s x' (by rwa [single_self]) (by rwa [single_self])
  | ignored name oldOwner newOwner hn =>
    by_cases hw : newOwner = ""
    · subst hw
      exact .unbound name oldOwner fun t hb => hn rfl (single_boundTo hb)
    · exact .owned name oldOwner newOwner hw

/-! ## One machine for each service -/

/-- A registration of `s` over the bus name `p`, whatever the answer. -/
def registersOver (s p : String) : Req → Bool
  | .registerService client t _ _ _ => t == s && extractDbusUniqueName client == p
  | _ => false

/-- The messages of the run `tr` that concern `s`: the requests naming it, and the owner changes of
the bus names that register it in the run. -/
def concerns (s : String) (tr : List (Req × Reply)) (l : Req × Reply) : Bool :=
  match l.1 with
  | .nameOwnerChanged name _ _ => tr.any fun l' => registersOver s name l'.1
  | req => req.serviceName == some s

/-- Every bus name registers at most one service. -/
def OneService (tr : List (Req × Reply)) : Prop :=
  ∀ l ∈ tr, ∀ l' ∈ tr, ∀ s t p, busOf s l = some p → busOf t l' = some p → s = t

theorem busOf_registersOver {p : String} {l : Req × Reply} (h : busOf s l = some p) :
    registersOver s p l.1 = true := by
  unfold busOf at h
  split at h
  · rename_i client t acts ivl pidReply
    split at h
    · rename_i hc
      cases h
      simp [registersOver, hc.1]
    · cases h
  · cases h

theorem registersOver_serviceName {p : String} {req : Req} (h : registersOver s p req = true) :
    req.serviceName = some s := by
  cases req with
  | registerService client t acts ivl pidReply =>
    simp only [registersOver, Bool.and_eq_true, beq_iff_eq] at h
    rw [← h.1]; rfl
  | _ => cases h

theorem concerns_of_serviceName {tr : List (Req × Reply)} {l : Req × Reply}
    (h : l.1.serviceName = some s) : concerns s tr l = true := by
  obtain ⟨req, rep⟩ := l
  cases req with
  | nameOwnerChanged name oldOwner newOwner => cases h
  | _ => exact beq_iff_eq.mpr h

theorem concerns_of_other {tr : List (Req × Reply)} {l : Req × Reply} {t : String}
    (h : l.1.serviceName = some t) (hne : t ≠ s) : concerns s tr l = false := by
  have hb : (l.1.serviceName == some s) = false := by
    rw [h, beq_eq_false_iff_ne]
    intro he
    exact hne (Option.some.inj he)
  obtain ⟨req, rep⟩ := l
  cases req with
  | nameOwnerChanged name oldOwner newOwner => cases h
  | _ => exact hb

/-- A request for another service. -/
theorem Slot.Step.of_other {x x' : Slot} {l : Req × Reply} {t : String} (hst : Slot.Step s x l x')
    (h : l.1.serviceName = some t) (hne : t ≠ s) : x' = x := by
  cases hst with
  | lost name oldOwner x' hb hx => cases h
  | other l hn => rfl
  | _ => exact absurd (Option.some.inj h).symm hne

/-- A bound service was registered over the bus name it is bound to. -/
theorem bound_registered {tr : List (Req × Reply)} {d : Daemon} (hr : daemon.Run .empty tr d)
    {p : String} (hb : (d.slots s).BoundTo p) : ∃ l ∈ tr, busOf s l = some p := by
  have hlast := (follows_run hr s).last p hb
  exact List.mem_filterMap.mp (List.mem_of_getLast? hlast)

/-- A step on a service that no other one shares its bus name with. -/
theorem step_solo {w w' : Slots} {l : Req × Reply} (hst : slots.step w l w')
    (hl : ∀ t, l.1.serviceName = some t → t = s)
    (huniq : ∀ t p, (w s).BoundTo p → (w t).BoundTo p → t = s) : Slot.Solo s (w s) l (w' s) := by
  cases hst with
  | register client t acts ivl pidReply =>
    obtain rfl := hl t rfl
    rw [Function.update_self]
    exact .register client acts ivl pidReply
  | unregister client t =>
    obtain rfl := hl t rfl
    rw [Function.update_self]
    exact .unregister client
  | report client t cur last =>
    obtain rfl := hl t rfl
    rw [Function.update_self]
    exact .report client cur last
  | owned name oldOwner newOwner hn => exact .ignored name oldOwner newOwner fun he => absurd he hn
  | unbound name oldOwner hu => exact .ignored name oldOwner "" fun _ => hu s
  | lost name oldOwner t x hb hx =>
    by_cases hs : (w s).BoundTo name
    · obtain rfl := huniq t name hs hb
      rw [Function.update_self]
      exact .lost name oldOwner x hb hx
    · have hne : s ≠ t := by
        intro he
        subst he
        exact hs hb
      rw [Function.update_of_ne hne]
      exact .ignored name oldOwner "" fun _ => hs

/-- A message that does not concern `s`. -/
theorem Slot.Solo.unconcerned {x x' : Slot} {l : Req × Reply} {tr : List (Req × Reply)}
    (h : Slot.Solo s x l x') (hc : concerns s tr l = false)
    (hb : ∀ p, x.BoundTo p → ∃ l ∈ tr, busOf s l = some p) : x' = x := by
  cases h with
  | lost name oldOwner x' hbound hx =>
    obtain ⟨l, hm, hl⟩ := hb name hbound
    have : concerns s tr (.nameOwnerChanged name oldOwner "", .none) = true :=
      List.any_eq_true.mpr ⟨l, hm, busOf_registersOver hl⟩
    rw [hc] at this; cases this
  | ignored name oldOwner newOwner hn => rfl
  | _ => rw [concerns_of_serviceName rfl] at hc; cases hc

theorem run_solo {tr ls : List (Req × Reply)} (hone : OneService tr) {d : Daemon}
    (hr : daemon.Run .empty ls d) (hsub : ∀ l ∈ ls, l ∈ tr) (s : String) :
    (solo s).Run .empty (ls.filter (concerns s tr)) (d.slots s) := by
  induction ls using List.reverseRecOn generalizing d with
  | nil =>
    obtain rfl := LTS.run_nil_iff.mp hr
    exact .nil _
  | append_singleton ls l ih =>
    obtain ⟨e, hre, hst⟩ := LTS.run_snoc_iff.mp hr
    have hsub' : ∀ l ∈ ls, l ∈ tr := fun l hl => hsub l (List.mem_append_left _ hl)
    have hb : ∀ t p, (e.slots t).BoundTo p → ∃ l ∈ tr, busOf t l = some p := by
      intro t p hbt
      obtain ⟨l, hm, hl⟩ := bound_registered hre hbt
      exact ⟨l, hsub' l hm, hl⟩
    have huniq : ∀ t p, (e.slots s).BoundTo p → (e.slots t).BoundTo p → t = s := by
      intro t p hs ht
      obtain ⟨l₁, hm₁, hl₁⟩ := hb s p hs
      obtain ⟨l₂, hm₂, hl₂⟩ := hb t p ht
      exact (hone l₁ hm₁ l₂ hm₂ s t p hl₁ hl₂).symm
    rw [List.filter_append]
    by_cases hn : ∀ t, l.1.serviceName = some t → t = s
    · have hsolo := step_solo (step_slots hst) hn huniq
      cases hc : concerns s tr l with
      | true =>
        rw [List.filter_cons_of_pos hc]
        exact (ih hre hsub').snoc hsolo
      | false =>
        rw [hsolo.unconcerned hc (hb s), List.filter_cons_of_neg (by simp [hc]), List.filter_nil,
          List.append_nil]
        exact ih hre hsub'
    · obtain ⟨t, ht⟩ := not_forall.mp hn
      obtain ⟨hname, hne⟩ := Classical.not_imp.mp ht
      rw [(step_slot (step_slots hst) s).of_other hname hne,
        List.filter_cons_of_neg (by simp [concerns_of_other hname hne]), List.filter_nil,
        List.append_nil]
      exact ih hre hsub'

/-! ## The filtered run -/

section
variable {tr tr' : List (Req × Reply)}

/-- The messages that `concerns` keeps name `s`, or no service. -/
theorem serviceName_of_concerns {l : Req × Reply} (h : concerns s tr l = true) {t : String}
    (ht : l.1.serviceName = some t) : t = s := by
  by_contra hne
  rw [concerns_of_other ht hne] at h
  cases h

theorem mem_of_requests (hreq : tr'.map Prod.fst = (tr.filter (concerns s tr)).map Prod.fst)
    {l : Req × Reply} (hl : l ∈ tr') : ∃ l₀ ∈ tr, concerns s tr l₀ = true ∧ l₀.1 = l.1 := by
  have hm := hreq ▸ List.mem_map_of_mem (f := Prod.fst) hl
  obtain ⟨l₀, hm₀, he⟩ := List.mem_map.mp hm
  obtain ⟨hm₀, hc⟩ := List.mem_filter.mp hm₀
  exact ⟨l₀, hm₀, hc, he⟩

/-- The filtered requests concern `s` in their own run too. -/
theorem concerns_requests (hreq : tr'.map Prod.fst = (tr.filter (concerns s tr)).map Prod.fst)
    {l : Req × Reply} (hl : l ∈ tr') : concerns s tr' l = true := by
  obtain ⟨⟨req₀, rep₀⟩, hm₀, hc, he⟩ := mem_of_requests hreq hl
  obtain ⟨req, rep⟩ := l
  obtain rfl : req₀ = req := he
  cases req₀ with
  | nameOwnerChanged name oldOwner newOwner =>
    obtain ⟨l₁, hm₁, ho⟩ := List.any_eq_true.mp hc
    have hk : l₁ ∈ tr.filter (concerns s tr) := List.mem_filter.mpr
      ⟨hm₁, concerns_of_serviceName (registersOver_serviceName ho)⟩
    obtain ⟨l₂, hm₂, he₂⟩ := List.mem_map.mp (hreq ▸ List.mem_map_of_mem (f := Prod.fst) hk)
    exact List.any_eq_true.mpr ⟨l₂, hm₂, by rw [he₂]; exact ho⟩
  | _ => exact hc

/-- In the filtered run only `s` is registered. -/
theorem oneService_requests (hreq : tr'.map Prod.fst = (tr.filter (concerns s tr)).map Prod.fst) :
    OneService tr' := by
  have only : ∀ l ∈ tr', ∀ t p, busOf t l = some p → t = s := by
    intro l hl t p hb
    obtain ⟨l₀, -, hc, he⟩ := mem_of_requests hreq hl
    refine serviceName_of_concerns hc ?_
    rw [he]
    exact registersOver_serviceName (busOf_registersOver hb)
  intro l hl l' hl' t t' p hb hb'
  rw [only l hl t p hb, only l' hl' t' p hb']

/-- Any run of the filtered requests is the run of `s` alone. -/
theorem filtered_run {d d' : Daemon} (hone : OneService tr) (hr : daemon.Run .empty tr d)
    (hr' : daemon.Run .empty tr' d')
    (hreq : tr'.map Prod.fst = (tr.filter (concerns s tr)).map Prod.fst) :
    tr' = tr.filter (concerns s tr) ∧ d'.slots s = d.slots s := by
  have h' := run_solo (oneService_requests hreq) hr' (fun _ hl => hl) s
  rw [List.filter_eq_self.mpr fun l hl => concerns_requests hreq hl] at h'
  exact solo_run_det h' (run_solo hone hr (fun _ hl => hl) s) hreq

theorem filtered_exists {d : Daemon} (hone : OneService tr) (hr : daemon.Run .empty tr d)
    (s : String) : ∃ d', daemon.Run .empty (tr.filter (concerns s tr)) d' := by
  have h : slots.Run (single s .empty) (tr.filter (concerns s tr)) (single s (d.slots s)) :=
    (run_solo hone hr (fun _ hl => hl) s).map_state fun _ _ _ => solo_slots
  obtain ⟨d', hd', -⟩ := slots_run h single_empty.symm
  exact ⟨d', hd'⟩

end

/-- **Isolation.** In a run in which every bus name registers at most one service, delete the
messages that do not concern `s`. The rest can be run, and whatever the iteration orders, that run
gives the same replies and leaves the same registry entry, binding and snapshot of `s`. -/
theorem isolated {tr : List (Req × Reply)} {d : Daemon} (hr : daemon.Run .empty tr d)
    (hone : OneService tr) (s : String) :
    (∃ d', daemon.Run .empty (tr.filter (concerns s tr)) d') ∧
      ∀ tr' d', daemon.Run .empty tr' d' →
        tr'.map Prod.fst = (tr.filter (concerns s tr)).map Prod.fst →
        tr' = tr.filter (concerns s tr) ∧
          d'.scheduler.lookups s = d.scheduler.lookups s ∧
          d'.m_ServiceToBusName.lookups s = d.m_ServiceToBusName.lookups s ∧
          getServiceState d'.scheduler s = getServiceState d.scheduler s := by
  refine ⟨filtered_exists hone hr s, ?_⟩
  intro tr' d' hr' hreq
  obtain ⟨htr, hx⟩ := filtered_run hone hr hr' hreq
  have hcell : d'.scheduler.lookups s = d.scheduler.lookups s := congrArg Slot.cell hx
  exact ⟨htr, hcell, congrArg Slot.peer hx, by rw [getServiceState_eq, getServiceState_eq, hcell]⟩

theorem busOf_registerFrom {bus t p : String} {rep : Reply}
    (h : busOf s (registerFrom bus t, rep) = some p) : s = t ∧ p = bus := by
  unfold busOf registerFrom at h
  split at h
  · rename_i he
    cases he
    split at h
    · rename_i hc
      cases h
      exact ⟨hc.1.symm, rfl⟩
    · cases h
  · cases h

/-- `AppB` comes and goes while `AppA` runs and crashes. -/
def twoApps : List (Req × Reply) :=
  [(registerFrom ":1.1" "AppA", .register .OK), (registerFrom ":1.2" "AppB", .register .OK),
    (.nameOwnerChanged ":1.2" ":1.2" "", .none), (.nameOwnerChanged ":1.1" ":1.1" "", .none)]

theorem oneService_twoApps : OneService twoApps := by
  have key : ∀ l ∈ twoApps, ∀ u q, busOf u l = some q →
      u = "AppA" ∧ q = ":1.1" ∨ u = "AppB" ∧ q = ":1.2" := by
    intro l hl u q hb
    simp only [twoApps, List.mem_cons, List.not_mem_nil, or_false] at hl
    rcases hl with rfl | rfl | rfl | rfl
    · exact .inl (busOf_registerFrom hb)
    · exact .inr (busOf_registerFrom hb)
    · cases hb
    · cases hb
  intro l hl l' hl' s t p hs ht
  rcases key l hl s p hs with ⟨rfl, rfl⟩ | ⟨rfl, rfl⟩ <;>
    rcases key l' hl' t _ ht with ⟨rfl, hp⟩ | ⟨rfl, hp⟩
  · rfl
  · exact absurd hp (by decide)
  · exact absurd hp (by decide)
  · rfl

/-- `AppA` runs as if alone. -/
theorem isolated_two_apps : ∃ d d', daemon.Run .empty twoApps d ∧
    daemon.Run .empty
      [(registerFrom ":1.1" "AppA", .register .OK),
        (.nameOwnerChanged ":1.1" ":1.1" "", .none)] d' ∧
    d'.scheduler.lookups "AppA" = d.scheduler.lookups "AppA" := by
  obtain ⟨d, hr, -⟩ := exists_run twoApps (fun _ => true) (by decide)
  obtain ⟨⟨d', hr'⟩, hall⟩ := isolated hr oneService_twoApps "AppA"
  exact ⟨d, d', hr, hr', (hall _ d' hr' rfl).2.1⟩

end ServiceRecovery
