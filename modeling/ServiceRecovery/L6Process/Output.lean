import ServiceRecovery.Core.Printer
import ServiceRecovery.L6Process.LogTrail

/-!
# Threads that log

`Logger::write` sends a line to `std::cout` in many pieces, under a mutex of its own. Here any
number of threads call it, and their statements interleave in any way.

* `output_whole`: the output holds whole lines, and a part of a line only while a thread is writing
  it; no record is lost or printed twice, and the records of one thread stand in the order of its
  calls;
* `output_determines`: so when the dispatcher logs what the handlers log, and the other threads log
  from other functions, the text of the output alone determines what the daemon knows of a service.
-/
namespace ServiceRecovery

open RecoveryState

namespace Logger

/-- What each `<<` prints. mirrors lib_srs/inc/Logger.hpp:143-154 -/
def pieces (tty : Bool) (o : Stamp × Record) : List (List Char) :=
  [if tty then o.2.lvl.color else [], o.1.put_time, ['.'], setw 6 '0' o.1.us, [' ', '[', 't'],
    setw 6 ' ' o.1.tid, [']'], [' '], o.2.lvl.lvlStr.toList, [' '], [o.2.lvl.sym], [' ', '['],
    Record.ident o.2.apid, [']'], [' ', '['], Record.ident o.2.ctid, [']'], [' ', '{'],
    (o.2.func.getD "?").toList, [':'], intText o.2.line, ['}', ' '], o.2.msg.toList,
    Record.reset tty, ['\n']]

/-- mirrors lib_srs/inc/Logger.hpp:141-155 -/
def statements (tty : Bool) (o : Stamp × Record) : Prog (Buffer Char) Unit :=
  Prog.print (pieces tty o)

theorem pieces_flatten (tty : Bool) (o : Stamp × Record) :
    (pieces tty o).flatten = write tty o := by
  simp [pieces, write, Record.text, Record.head]

end Logger

section
variable {ι : Type} {tty : Bool} {tr : List (Act ι (Stamp × Record) Unit)}
  {s₀ s : Threads (Buffer Char) ι Unit}

theorem content_pieces (done : List (ι × (Stamp × Record))) :
    content (Logger.pieces tty) done = (done.map Prod.snd).flatMap (Logger.write tty) := by
  rw [content, List.flatMap_map]
  simp only [Logger.pieces_flatten]

variable [DecidableEq ι]

/-- **Lines are whole.** -/
theorem output_whole (h₀ : s₀.Idle) (hempty : s₀.store () = [])
    (hr : (threads (Logger.statements tty)).Run s₀ tr s) :
    ∃ (done : List (ι × (Stamp × Record))) (part : List Char),
      s.store () = (done.map Prod.snd).flatMap (Logger.write tty) ++ part ∧
      (s.owner () = none → part = []) ∧
      (∀ i, s.owner () = some i → ∃ o, asked i tr = printedBy i done ++ [o] ∧
        part <+: Logger.write tty o) ∧
      ∀ i, (∃ pending, asked i tr = printedBy i done ++ pending ∧ pending.length ≤ 1) ∧
        (s.prog i = none → asked i tr = printedBy i done) := by
  obtain ⟨done, part, hstore, hfree, hpart, hall⟩ := print_run h₀ hempty hr
  refine ⟨done, part, ?_, hfree, ?_, hall⟩
  · rw [hstore, content_pieces]
  · intro i hi
    obtain ⟨o, ho, hp⟩ := hpart i hi
    exact ⟨o, ho, Logger.pieces_flatten tty o ▸ hp⟩

end

/-- A thread that has locked the mutex and printed one piece. -/
theorem exists_partial_output (o : Stamp × Record) : ∃ s : Threads (Buffer Char) Bool Unit,
    (threads (Logger.statements false)).Run ⟨fun _ => [], fun _ => none, fun _ => none⟩
      [.call true o, .step true, .step true] s ∧ s.owner () = some true := by
  obtain ⟨piece, after, he⟩ := List.exists_cons_of_ne_nil
    (show Logger.pieces false o ≠ [] from List.cons_ne_nil _ _)
  refine ⟨_, .cons (.call true o rfl) (LTS.run_cons_iff.mpr ⟨_, .step true rfl
    (.lock () (Prog.printing (Logger.pieces false o)) rfl), .single (.step true ?_
      (.write () (· ++ piece) (Prog.printing after)))⟩), rfl⟩
  rw [he]
  rfl

/-- A line that is being written. -/
theorem output_whole_partial : ∃ (o : Stamp × Record) (s : Threads (Buffer Char) Bool Unit)
    (done : List (Bool × (Stamp × Record))) (part : List Char),
    (threads (Logger.statements false)).Run ⟨fun _ => [], fun _ => none, fun _ => none⟩
      [.call true o, .step true, .step true] s ∧
    s.store () = (done.map Prod.snd).flatMap (Logger.write false) ++ part ∧
    printedBy true done = [] ∧ part <+: Logger.write false o := by
  let o : Stamp × Record := (⟨126, 0, 1, 12, 0, 0, 0, 42⟩, (LogStmt.failureDetected "AppA").record)
  obtain ⟨s, hr, ho⟩ := exists_partial_output o
  obtain ⟨done, part, hstore, -, hpart, -⟩ :=
    output_whole ⟨fun _ => rfl, fun _ => rfl⟩ rfl hr
  obtain ⟨o', ha, hp⟩ := hpart true ho
  have hone : [] ++ [o] = printedBy true done ++ [o'] := ha
  obtain ⟨hdone, ho'⟩ := List.append_inj' hone rfl
  obtain rfl := (List.cons.inj ho').1
  exact ⟨o, s, done, part, hr, hstore, hdone.symm, hp⟩

/-! ## The text of a process -/

/-- All threads of a process have returned: the dispatcher `D` has logged `log`, and every other
thread only plain records of functions that are no handlers. -/
structure AllPrinted {ι : Type} [DecidableEq ι] (tty : Bool) (D : ι) (log : List LogStmt)
    (tr : List (Act ι (Stamp × Record) Unit)) (s : Threads (Buffer Char) ι Unit) : Prop where
  run : (threads (Logger.statements tty)).Run ⟨fun _ => [], fun _ => none, fun _ => none⟩ tr s
  idle : s.Idle
  dispatcher : (asked D tr).map Prod.snd = printed log
  others : ∀ i, i ≠ D → ∀ o ∈ asked i tr, Record.OfHandler o.2.key = false
  plain : ∀ i, ∀ o ∈ asked i tr, o.2.Plain

section
variable {ι κ : Type} [DecidableEq ι] [DecidableEq κ] {tty : Bool}

/-- What such a process has printed. -/
theorem AllPrinted.stdout {D : ι} {log : List LogStmt} {tr : List (Act ι (Stamp × Record) Unit)}
    {s : Threads (Buffer Char) ι Unit} (h : AllPrinted tty D log tr s) :
    ∃ out, s.store () = out.flatMap (Logger.write tty) ∧ Stdout log out := by
  obtain ⟨done, part, hstore, hfree, -, hall⟩ :=
    print_run ⟨fun _ => rfl, fun _ => rfl⟩ rfl h.run
  have hasked : ∀ i, asked i tr = printedBy i done := fun i => (hall i).2 (h.idle.2 i)
  have hmem : ∀ d ∈ done, d.2 ∈ asked d.1 tr := fun d hd => hasked d.1 ▸ mem_printedBy hd
  refine ⟨done.map Prod.snd, ?_, ?_, ?_⟩
  · rw [hstore, hfree (h.idle.1 ()), List.append_nil, content_pieces]
  · have htest : ∀ d ∈ done, Record.OfHandler d.2.2.key = true ↔ d.1 = D := by
      intro d hd
      constructor
      · intro ht
        by_contra hne
        rw [h.others d.1 hne d.2 (hmem d hd)] at ht
        cases ht
      · intro he
        have hrec := List.mem_map_of_mem (f := Prod.snd) (he ▸ hmem d hd)
        rw [h.dispatcher, printed_eq] at hrec
        obtain ⟨a, -, ha⟩ := List.mem_map.mp hrec
        exact ha ▸ ofHandler_record a
    rw [List.map_map]
    refine (filter_printedBy (f := fun o : Stamp × Record => o.2.key) htest).trans ?_
    rw [← hasked, ← h.dispatcher, List.map_map]
    rfl
  · intro o ho
    obtain ⟨d, hd, rfl⟩ := List.mem_map.mp ho
    exact h.plain d.1 d.2 (hmem d hd)

end

/-- The dispatcher (`true`) prints the log of one crash. -/
theorem exists_allPrinted : ∃ tr s,
    AllPrinted (ι := Bool) false true registeredAndLostLog tr s := by
  have hout := stdout_alone ⟨0, 0, 0, 0, 0, 0, 0, 0⟩ registeredAndLost_plain
  obtain ⟨tr, s, hr, hidle, hD, hothers⟩ := exists_print (Logger.pieces false)
    (s := ⟨fun _ => [], fun _ => none, fun _ => none⟩) ⟨fun _ => rfl, fun _ => rfl⟩ true
    ((printed registeredAndLostLog).map (Prod.mk ⟨0, 0, 0, 0, 0, 0, 0, 0⟩))
  refine ⟨tr, s, hr, hidle, ?_, ?_, ?_⟩
  · rw [hD, List.map_map]
    exact List.map_id' _
  · intro i hi o ho
    rw [hothers i hi] at ho
    cases ho
  · intro i o ho
    by_cases hi : i = true
    · rw [hi, hD] at ho
      exact hout.plain o ho
    · rw [hothers i hi] at ho
      cases ho

end ServiceRecovery
