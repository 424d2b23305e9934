import ServiceRecovery.Core.Threads

/-!
# Threads that print to one buffer

A buffer is guarded by a mutex. A thread prints an item `c` piece by piece: it locks the mutex,
appends the pieces of `c` one after the other, and unlocks it.

`print_run`: whatever the interleaving, the buffer holds whole items, followed by a part of the one
item whose thread holds the mutex; and the items of one thread stand in the order of its calls.
`exists_print`: any items can be printed.
-/
namespace ServiceRecovery

variable {β ι C : Type}

/-- The buffer, guarded by the only mutex. -/
abbrev Buffer (β : Type) : Unit → Type := fun _ => List β

namespace Prog

/-- One append for each piece. -/
def insert : List (List β) → Prog (Buffer β) Unit
  | [] => ret ()
  | piece :: pieces => write () (· ++ piece) (insert pieces)

def print (pieces : List (List β)) : Prog (Buffer β) Unit := lockGuard () (insert pieces)

/-- What is left of `print` behind the lock. -/
def printing (pieces : List (List β)) : Prog (Buffer β) Unit :=
  (insert pieces).bind fun a => unlock () (ret a)

theorem print_eq (pieces : List (List β)) : print pieces = lock () (printing pieces) := rfl

theorem printing_nil : printing ([] : List (List β)) = unlock () (ret ()) := rfl

theorem printing_cons (piece : List β) (pieces : List (List β)) :
    printing (piece :: pieces) = write () (· ++ piece) (printing pieces) := rfl

end Prog

open Prog

section
variable [DecidableEq ι]

/-- The items that thread `i` was asked to print. -/
def asked (i : ι) (tr : List (Act ι C Unit)) : List C :=
  tr.filterMap fun
    | .call j c => if j = i then some c else none
    | _ => none

/-- The items of thread `i` among those printed. -/
def printedBy (i : ι) (done : List (ι × C)) : List C :=
  done.filterMap fun d => if d.1 = i then some d.2 else none

end

/-- The items printed, as the buffer holds them. -/
def content (pieces : C → List (List β)) (done : List (ι × C)) : List β :=
  done.flatMap fun d => (pieces d.2).flatten

/-- Where thread `i` is, with the items that it has been asked for and has not printed yet. -/
inductive Printing (pieces : C → List (List β)) (s : Threads (Buffer β) ι Unit)
    (done : List (ι × C)) (i : ι) : List C → Prop
  | idle : s.prog i = none → s.owner () ≠ some i → Printing pieces s done i []
  | waits (c : C) : s.prog i = some (print (pieces c)) → s.owner () ≠ some i →
      Printing pieces s done i [c]
  | prints (c : C) (before after : List (List β)) : s.prog i = some (printing after) →
      s.owner () = some i → pieces c = before ++ after →
      s.store () = content pieces done ++ before.flatten → Printing pieces s done i [c]
  | returns : s.prog i = some (.ret ()) → s.owner () ≠ some i → Printing pieces s done i []

/-- What holds in every state of a run. -/
structure PrintInv [DecidableEq ι] (pieces : C → List (List β)) (tr : List (Act ι C Unit))
    (s : Threads (Buffer β) ι Unit) (done : List (ι × C)) : Prop where
  threads : ∀ i, ∃ pending, Printing pieces s done i pending ∧
    asked i tr = printedBy i done ++ pending
  free : s.owner () = none → s.store () = content pieces done

section
variable {pieces : C → List (List β)} {tr : List (Act ι C Unit)} {s s' : Threads (Buffer β) ι Unit}
  {done : List (ι × C)} {i j : ι} {pending : List C}

/-- A thread that a step of another one does not disturb. -/
theorem Printing.frame (h : Printing pieces s done i pending) (hp : s'.prog i = s.prog i)
    (ho : s'.owner () = some i ↔ s.owner () = some i) {done' : List (ι × C)}
    (hs : s.owner () = some i →
      s'.store () = s.store () ∧ content pieces done' = content pieces done) :
    Printing pieces s' done' i pending := by
  cases h with
  | idle hi hne => exact .idle (hp.trans hi) (mt ho.mp hne)
  | waits c hi hne => exact .waits c (hp.trans hi) (mt ho.mp hne)
  | prints c before after hi hown hpc hst =>
    obtain ⟨hstore, hdone⟩ := hs hown
    exact .prints c before after (hp.trans hi) (ho.mpr hown) hpc (by rw [hstore, hst, hdone])
  | returns hi hne => exact .returns (hp.trans hi) (mt ho.mp hne)

/-- The items of one thread among all, when a test on something printed tells them apart. -/
theorem filter_printedBy [DecidableEq ι] {K : Type} {f : C → K} {p : K → Bool}
    (h : ∀ d ∈ done, p (f d.2) = true ↔ d.1 = i) :
    (done.map fun d => f d.2).filter p = (printedBy i done).map f := by
  induction done with
  | nil => rfl
  | cons d done ih =>
    rw [List.forall_mem_cons] at h
    have ih := ih h.2
    unfold printedBy at ih ⊢
    by_cases hd : d.1 = i
    · simp [h.1.mpr hd, hd, ih]
    · have hp : p (f d.2) = false := Bool.eq_false_iff.mpr (mt h.1.mp hd)
      simp [hp, hd, ih]

theorem mem_printedBy [DecidableEq ι] {d : ι × C} (h : d ∈ done) : d.2 ∈ printedBy d.1 done :=
  List.mem_filterMap.mpr ⟨d, h, if_pos rfl⟩

theorem content_snoc (c : C) :
    content pieces (done ++ [(j, c)]) = content pieces done ++ (pieces c).flatten := by
  simp [content]

variable [DecidableEq ι]

theorem asked_snoc (l : Act ι C Unit) : asked i (tr ++ [l]) = asked i tr ++ asked i [l] :=
  List.filterMap_append

theorem asked_call (c : C) : asked i [Act.call j c] = if j = i then [c] else [] := by
  unfold asked
  split <;> simp_all

theorem printedBy_snoc (c : C) :
    printedBy i (done ++ [(j, c)]) = printedBy i done ++ if j = i then [c] else [] := by
  unfold printedBy
  rw [List.filterMap_append]
  split <;> simp_all

/-- The invariant after a step of thread `j` that changes nothing for the others. -/
theorem PrintInv.of_thread (h : PrintInv pieces tr s done) {l : Act ι C Unit} {done' : List (ι × C)}
    (hprog : ∀ i, i ≠ j → s'.prog i = s.prog i)
    (hothers : ∀ i, i ≠ j → (s'.owner () = some i ↔ s.owner () = some i) ∧ asked i [l] = [] ∧
      printedBy i done' = printedBy i done ∧ (s.owner () = some i →
        s'.store () = s.store () ∧ content pieces done' = content pieces done))
    (hj : ∃ pending, Printing pieces s' done' j pending ∧
      asked j (tr ++ [l]) = printedBy j done' ++ pending)
    (hfree : s'.owner () = none → s'.store () = content pieces done') :
    PrintInv pieces (tr ++ [l]) s' done' := by
  refine ⟨fun i => ?_, hfree⟩
  by_cases hij : i = j
  · subst hij
    exact hj
  · obtain ⟨ho, ha, hb, hs⟩ := hothers i hij
    obtain ⟨pending, hp, he⟩ := h.threads i
    exact ⟨pending, hp.frame (hprog i hij) ho hs, by rw [asked_snoc, ha, List.append_nil, he, hb]⟩

/-- One statement of thread `j`. -/
theorem PrintInv.stmt (h : PrintInv pieces tr s done) {p q : Prog (Buffer β) Unit}
    {x : ∀ u, Buffer β u} {ow : Unit → Option ι} (hj : s.prog j = some p)
    (hs : p.Step j s.store s.owner q x ow) :
    ∃ done', PrintInv pieces (tr ++ [.step j]) ⟨x, ow, Function.update s.prog j (some q)⟩
      done' := by
  obtain ⟨pending, hp, he⟩ := h.threads j
  have hother : ∀ i, i ≠ j → Function.update s.prog j (some q) i = s.prog i :=
    fun i hi => Function.update_of_ne hi _ _
  have hask : asked j (tr ++ [Act.step j]) = printedBy j done ++ pending := by
    rw [asked_snoc, he]
    exact List.append_nil _
  cases hp with
  | idle hi hne =>
    rw [hj] at hi
    cases hi
  | returns hi hne =>
    obtain rfl := Option.some.inj (hj.symm.trans hi)
    cases hs
  | waits c hi hne =>
    obtain rfl := Option.some.inj (hj.symm.trans hi)
    rw [print_eq] at hs
    cases hs with
    | lock _ _ hfree =>
      refine ⟨done, h.of_thread hother ?_ ?_ ?_⟩
      · intro i hi
        refine ⟨?_, rfl, rfl, fun ho => ?_⟩
        · simp [hfree, Ne.symm hi]
        · rw [hfree] at ho
          cases ho
      · refine ⟨[c], .prints c [] (pieces c) (by simp) (by simp) rfl ?_, hask⟩
        simpa using h.free hfree
      · intro ho
        simp at ho
  | prints c before after hi hown hpc hstore =>
    obtain rfl := Option.some.inj (hj.symm.trans hi)
    have howner : ∀ i, i ≠ j → s.owner () ≠ some i := fun i hi ho =>
      hi (Option.some.inj (ho.symm.trans hown))
    cases after with
    | nil =>
      rw [printing_nil] at hs
      cases hs with
      | unlock _ _ _ =>
        -- the item is complete
        rw [List.append_nil] at hpc
        have hdone : s.store () = content pieces (done ++ [(j, c)]) := by
          rw [content_snoc, hpc, hstore]
        refine ⟨done ++ [(j, c)], h.of_thread hother ?_ ?_ fun _ => hdone⟩
        · intro i hi
          refine ⟨?_, rfl, ?_, fun ho => absurd ho (howner i hi)⟩
          · simp [howner i hi]
          · rw [printedBy_snoc, if_neg (Ne.symm hi), List.append_nil]
        · refine ⟨[], .returns (by simp) (by simp), ?_⟩
          rw [hask, printedBy_snoc, if_pos rfl, List.append_nil]
    | cons piece after =>
      rw [printing_cons] at hs
      cases hs with
      | write _ _ _ =>
        refine ⟨done, h.of_thread hother ?_ ?_ ?_⟩
        · intro i hi
          exact ⟨.rfl, rfl, rfl, fun ho => absurd ho (howner i hi)⟩
        · refine ⟨[c], .prints c (before ++ [piece]) after (by simp) hown (by simp [hpc]) ?_, hask⟩
          simp [hstore]
        · intro ho
          rw [hown] at ho
          cases ho

theorem PrintInv.call (h : PrintInv pieces tr s done) (c : C) (hj : s.prog j = none) :
    PrintInv pieces (tr ++ [.call j c])
      { s with prog := Function.update s.prog j (some (print (pieces c))) } done := by
  obtain ⟨pending, hp, he⟩ := h.threads j
  refine h.of_thread (fun i hi => Function.update_of_ne hi _ _) ?_ ?_ h.free
  · intro i hi
    exact ⟨.rfl, by rw [asked_call, if_neg (Ne.symm hi)], rfl, fun _ => ⟨rfl, rfl⟩⟩
  · cases hp with
    | idle hi hne =>
      refine ⟨[c], .waits c (by simp) hne, ?_⟩
      rw [asked_snoc, asked_call, if_pos rfl, he, List.append_nil]
    | waits c' hi hne | prints c' before after hi hown hpc hstore | returns hi hne =>
      rw [hj] at hi
      cases hi

theorem PrintInv.ret (h : PrintInv pieces tr s done) (a : Unit) (hj : s.prog j = some (.ret a)) :
    PrintInv pieces (tr ++ [.ret j a]) { s with prog := Function.update s.prog j none } done := by
  obtain ⟨pending, hp, he⟩ := h.threads j
  refine h.of_thread (fun i hi => Function.update_of_ne hi _ _) ?_ ?_ h.free
  · intro i hi
    exact ⟨.rfl, rfl, rfl, fun _ => ⟨rfl, rfl⟩⟩
  · cases hp with
    | returns hi hne =>
      refine ⟨[], .idle (by simp) hne, ?_⟩
      rw [asked_snoc, he]
      exact List.append_nil _
    | idle hi hne =>
      rw [hj] at hi
      cases hi
    | waits c hi hne =>
      rw [hj, print_eq] at hi
      cases hi
    | prints c before after hi hown hpc hstore =>
      cases after <;> rw [hj] at hi <;> cases hi

theorem PrintInv.step (h : PrintInv pieces tr s done) {l : Act ι C Unit}
    (hst : s.Step (fun c => print (pieces c)) l s') :
    ∃ done', PrintInv pieces (tr ++ [l]) s' done' := by
  cases hst with
  | call j c hj => exact ⟨done, h.call c hj⟩
  | step j hj hs => exact h.stmt hj hs
  | ret j a hj => exact ⟨done, h.ret a hj⟩

/-- **Whole items.** From an empty buffer, after every run: the items `done` are printed as a whole
and one after the other; behind them stands a part of an item only while its thread holds the
mutex; and each thread has printed the items that it was asked for, in this order, up to the one
that it is at. -/
theorem print_run {s₀ : Threads (Buffer β) ι Unit} (h₀ : s₀.Idle) (hempty : s₀.store () = [])
    (hr : (ServiceRecovery.threads fun c => print (pieces c)).Run s₀ tr s) :
    ∃ (done : List (ι × C)) (part : List β), s.store () = content pieces done ++ part ∧
      (s.owner () = none → part = []) ∧
      (∀ i, s.owner () = some i → ∃ c, asked i tr = printedBy i done ++ [c] ∧
        part <+: (pieces c).flatten) ∧
      ∀ i, (∃ pending, asked i tr = printedBy i done ++ pending ∧ pending.length ≤ 1) ∧
        (s.prog i = none → asked i tr = printedBy i done) := by
  have htraced : (ServiceRecovery.threads fun c => print (pieces c)).Traced
      fun (tr : List (Act ι C Unit)) s => ∃ done, PrintInv pieces tr s done := by
    intro tr s l s' hi hs
    obtain ⟨done, hi⟩ := hi
    exact hi.step hs
  have hstart : PrintInv pieces ([] : List (Act ι C Unit)) s₀ [] := by
    refine ⟨fun i => ⟨[], .idle (h₀.2 i) (by rw [h₀.1]; simp), rfl⟩, fun _ => hempty⟩
  obtain ⟨done, hi⟩ := htraced.run ⟨[], hstart⟩ hr
  have hthread : ∀ i, (∃ pending, asked i tr = printedBy i done ++ pending ∧ pending.length ≤ 1) ∧
      (s.prog i = none → asked i tr = printedBy i done) := by
    intro i
    obtain ⟨pending, hp, he⟩ := hi.threads i
    cases hp with
    | idle hi hne => exact ⟨⟨[], he, by simp⟩, fun _ => by rw [he, List.append_nil]⟩
    | waits c hi hne | prints c before after hi hown hpc hstore =>
      refine ⟨⟨[c], he, by simp⟩, fun hn => ?_⟩
      rw [hn] at hi
      cases hi
    | returns hi hne => exact ⟨⟨[], he, by simp⟩, fun _ => by rw [he, List.append_nil]⟩
  cases ho : s.owner () with
  | none =>
    refine ⟨done, [], by rw [List.append_nil, hi.free ho], fun _ => rfl, ?_, hthread⟩
    intro i hi
    cases hi
  | some j =>
    obtain ⟨pending, hp, he⟩ := hi.threads j
    cases hp with
    | prints c before after hj hown hpc hstore =>
      refine ⟨done, before.flatten, hstore, fun hn => absurd hn (by simp), ?_, hthread⟩
      intro i hij
      obtain rfl := Option.some.inj hij
      exact ⟨c, he, after.flatten, by rw [hpc, List.flatten_append]⟩
    | idle hj hne | waits c hj hne | returns hj hne => exact absurd ho hne

/-! ## One thread alone -/

variable (pieces)

/-- The thread that holds the mutex appends what is left and unlocks it. -/
theorem printing_alone {rest : List (List β)} (hp : s.prog i = some (printing rest))
    (ho : s.owner () = some i) :
    ∃ n s', (ServiceRecovery.threads fun c => print (pieces c)).Run s
        (List.replicate n (.step i)) s' ∧
      s'.prog = Function.update s.prog i (some (.ret ())) ∧ s'.owner () = none := by
  induction rest generalizing s with
  | nil => exact ⟨1, _, .single (.step i hp (.unlock () _ ho)), rfl, by simp⟩
  | cons piece rest ih =>
    obtain ⟨n, s', hr, hp', ho'⟩ := ih
      (s := ⟨Function.update s.store () (s.store () ++ piece), s.owner,
        Function.update s.prog i (some (printing rest))⟩) (by simp) ho
    have hw : (printing (piece :: rest)).Step i s.store s.owner (printing rest) _ s.owner :=
      .write () (· ++ piece) (printing rest)
    refine ⟨n + 1, s', .cons (.step i hp hw) hr, ?_, ho'⟩
    rw [hp', Function.update_idem]

theorem print_alone (h : s.Idle) (i : ι) (c : C) :
    ∃ n s', (ServiceRecovery.threads fun c => print (pieces c)).Run s
        (.call i c :: (List.replicate n (.step i) ++ [.ret i ()])) s' ∧ s'.Idle := by
  let s₁ : Threads (Buffer β) ι Unit :=
    { s with prog := Function.update s.prog i (some (print (pieces c))) }
  let s₂ : Threads (Buffer β) ι Unit := ⟨s₁.store, Function.update s₁.owner () (some i),
    Function.update s₁.prog i (some (printing (pieces c)))⟩
  have hp₁ : s₁.prog i = some (.lock () (printing (pieces c))) := Function.update_self ..
  have hp₂ : s₂.prog i = some (printing (pieces c)) := Function.update_self ..
  obtain ⟨n, s', hr, hp', ho'⟩ := printing_alone pieces hp₂ (by simp [s₂])
  have hret : s'.prog i = some (.ret ()) := by rw [hp', Function.update_self]
  refine ⟨n + 1, { s' with prog := Function.update s'.prog i none },
    .cons (.call i c (h.2 i)) ?_, fun _ => ho', fun j => ?_⟩
  · exact .cons (.step i hp₁ (.lock () _ (h.1 ()))) (hr.snoc (.ret i () hret))
  · by_cases hj : j = i
    · simp [hj]
    · simp [hp', s₁, s₂, hj, h.2 j]

/-- A thread alone can print any items. -/
theorem exists_print (h : s.Idle) (i : ι) (items : List C) :
    ∃ tr s', (ServiceRecovery.threads fun c => print (pieces c)).Run s tr s' ∧ s'.Idle ∧
      asked i tr = items ∧ ∀ j, j ≠ i → asked j tr = [] := by
  induction items generalizing s with
  | nil => exact ⟨[], s, .nil s, h, rfl, fun _ _ => rfl⟩
  | cons c items ih =>
    obtain ⟨n, s₁, hr₁, h₁⟩ := print_alone pieces h i c
    obtain ⟨tr, s', hr, h', hi, hothers⟩ := ih h₁
    have hasked : ∀ j, asked j (Act.call i c :: (List.replicate n (.step i) ++ [.ret i ()]) ++ tr) =
        (if i = j then [c] else []) ++ asked j tr := by
      intro j
      unfold asked
      by_cases hj : i = j <;> simp [hj]
    refine ⟨_, s', hr₁.append hr, h', ?_, fun j hj => ?_⟩
    · rw [hasked, if_pos rfl, hi]
      rfl
    · rw [hasked, if_neg (Ne.symm hj), hothers j hj]
      rfl

end

end ServiceRecovery
