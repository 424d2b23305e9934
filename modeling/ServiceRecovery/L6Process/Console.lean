import ServiceRecovery.Core.Decimal
import ServiceRecovery.L1Data.Common

/-!
# The debug console (`main.cpp`)

`consoleLoop` reads commands from standard input: `0` exits, `1` asks for a name on the next line
and prints its snapshot (a blank one: those of the whole catalogue), any other number is unknown
and any other text is dropped up to the end of its line. The model lists what the loop then does,
with a bound on the number of its iterations; the queries themselves do not influence it.

The loop never looks at lines: it extracts an integer, drops the rest of a line, and clears flags.
`session` is the program that a user has in mind, one line after the other:

* `consoleLoop_session`: on every input the loop ends and does what `session` does;
* `main_session`: so `main` returns unless it runs headless, whatever is typed;
* `script_session`: a script of commands is executed as written.
-/
namespace ServiceRecovery

/-- What the loop does, in order. -/
inductive ConsoleAction where
  | printSnapshot (name : String)
  | unknownOption (input : Int)
  | exitRequested
  | stdinClosed
  deriving DecidableEq, Repr

/-- The name read after option 1. mirrors main.cpp:74-84 -/
def printSnapshots (lName : String) : List ConsoleAction :=
  if lName ≠ "" then [.printSnapshot lName]
  else g_MapServiceNames.map fun kv => .printSnapshot kv.2

/-- At most `n` iterations. mirrors main.cpp:30-89 -/
def consoleLoop : Nat → IStream → Option (List ConsoleAction)
  | 0, _ => none
  | n + 1, cin =>
    match cin.readInt with
    | (none, cin) =>
      if cin.eof then some [.stdinClosed]
      else consoleLoop n cin.clear.ignoreLine
    | (some input, cin) =>
      let cin := cin.ignoreLine
      if input = 0 then some [.exitRequested]
      else if input = 1 then
        let (lName, cin) := cin.getline
        if cin.fail then consoleLoop n cin
        else (consoleLoop n cin).map (printSnapshots lName ++ ·)
      else (consoleLoop n cin).map (.unknownOption input :: ·)

/-- `runOk` is what `run()` returned. mirrors main.cpp:92-128 -/
def main (n : Nat) (argv : List String) (runOk : Bool) (cin : IStream) :
    Option (List ConsoleAction) :=
  let lbConsoleMode := (argv.drop 1).any (· == "mode=console")
  if !runOk then some []
  else if lbConsoleMode then consoleLoop n cin
  -- headless: sleeps for ever
  else none

/-! ## One line after the other -/

def session : List (List Char) → List ConsoleAction
  | [] => [.stdinClosed]
  | l :: ls =>
    match lineInt l with
    | none => session ls
    | some input =>
      if input = 0 then [.exitRequested]
      else if input = 1 then
        match ls with
        | [] => [.stdinClosed]
        | name :: ls => printSnapshots (.ofList name) ++ session ls
      else .unknownOption input :: session ls

theorem session_none {l : List Char} {ls : List (List Char)} (h : lineInt l = none) :
    session (l :: ls) = session ls := by
  rw [session.eq_def]
  simp only [h]

theorem session_some {l : List Char} {ls : List (List Char)} {input : Int}
    (h : lineInt l = some input) : session (l :: ls) =
      if input = 0 then [.exitRequested]
      else if input = 1 then
        match ls with
        | [] => [.stdinClosed]
        | name :: ls => printSnapshots (.ofList name) ++ session ls
      else .unknownOption input :: session ls := by
  rw [session.eq_def]
  simp only [h]

theorem lineInt_blank {l : List Char} (h : Blank l) : lineInt l = none := by
  unfold lineInt
  rw [List.dropWhile_eq_nil_iff.mpr h]
  rfl

variable {n : Nat} {t : List Char} {s : IStream}

theorem consoleLoop_end (h : s.At []) : consoleLoop (n + 1) s = some [.stdinClosed] := by
  obtain ⟨hi, -, he⟩ := readInt_end h
  have hr : s.readInt = (none, s.readInt.2) := Prod.ext hi rfl
  rw [consoleLoop, hr]
  exact if_pos he

/-- The loop on any text, line by line. The fuel is one more than its length. -/
theorem consoleLoop_eq (h : s.At t) (hn : t.length < n) :
    consoleLoop n s = some (session (lines t)) := by
  induction ht : t.length using Nat.strong_induction_on generalizing t s n with
  | _ k ih =>
    obtain ⟨n, rfl⟩ : ∃ m, n = m + 1 := ⟨n - 1, by omega⟩
    by_cases hnil : t = []
    · subst hnil
      exact consoleLoop_end h
    obtain rfl := h.eq hnil
    obtain ⟨l, u, hl⟩ := exists_line hnil
    have hlt := hl.length_lt
    -- what is left is shorter, so an iteration less is enough for it
    have rest : ∀ {s' : IStream}, s'.At u → consoleLoop n s' = some (session (lines u)) :=
      fun hs => ih u.length (by omega) hs (by omega) rfl
    rw [hl.lines_eq]
    by_cases hb : Blank l
    · rw [session_none (lineInt_blank hb), consoleLoop, readInt_blank hl hb]
      have := ih u.length (by omega) (n := n + 1) (.inl rfl) (by omega) rfl
      rwa [consoleLoop] at this
    obtain ⟨s', hr, hfail, heof, hok, hko⟩ := readInt_line hl hb
    rw [consoleLoop, hr]
    cases hi : lineInt l with
    | none =>
      rw [session_none hi]
      cases he : s'.eof with
      | true =>
        rw [heof he]
        exact if_pos he
      | false => exact (if_neg (by simp [he])).trans (rest (hko he))
    | some input =>
      have hat := hok (by rw [hfail, hi]; rfl)
      rw [session_some hi]
      dsimp only
      split
      · rfl
      split
      · by_cases hu : u = []
        · subst hu
          obtain ⟨hf, hat'⟩ := getline_end hat
          rw [if_pos hf, rest hat']
          rfl
        · obtain ⟨name, u', hl'⟩ := exists_line hu
          have hlt' := hl'.length_lt
          obtain ⟨s₂, hg, hf, hat'⟩ := getline_at hl'
          rw [hat.eq hu, hg, hl'.lines_eq]
          dsimp only
          rw [if_neg (by simp [hf]), ih u'.length (by omega) hat' (by omega) rfl]
          rfl
      · rw [rest hat]
        rfl

theorem consoleLoop_session (text : List Char) :
    consoleLoop (text.length + 1) ⟨text, false, false⟩ = some (session (lines text)) :=
  consoleLoop_eq (.inl rfl) (Nat.lt_succ_self _)

/-- More iterations change nothing once the loop has ended. -/
theorem consoleLoop_mono {n m : Nat} (hnm : n ≤ m) {s : IStream} {acts : List ConsoleAction}
    (h : consoleLoop n s = some acts) : consoleLoop m s = some acts := by
  induction n generalizing m s acts with
  | zero => cases h
  | succ n ih =>
    obtain ⟨m, rfl⟩ : ∃ k, m = k + 1 := ⟨m - 1, by omega⟩
    have hnm' : n ≤ m := by omega
    have key : ∀ {s' : IStream} {f : List ConsoleAction → List ConsoleAction} {acts},
        (consoleLoop n s').map f = some acts → (consoleLoop m s').map f = some acts := by
      intro s' f acts hm
      obtain ⟨as, has, rfl⟩ := Option.map_eq_some_iff.mp hm
      rw [ih hnm' has]
      rfl
    rw [consoleLoop] at h ⊢
    split
    · rename_i cin hr
      rw [hr] at h
      dsimp only at h ⊢
      split
      · rwa [if_pos ‹_›] at h
      · rw [if_neg ‹_›] at h
        exact ih hnm' h
    · rename_i input cin hr
      rw [hr] at h
      dsimp only at h ⊢
      split
      · rwa [if_pos ‹_›] at h
      rw [if_neg ‹_›] at h
      split
      · rw [if_pos ‹_›] at h
        split
        · rw [if_pos ‹_›] at h
          exact ih hnm' h
        · rw [if_neg ‹_›] at h
          exact key h
      · rw [if_neg ‹_›] at h
        exact key h

/-- **The console.** `main` returns unless it runs headless after a successful start, whatever
standard input holds; and the console then has done what the lines of the input say, one after the
other. -/
theorem main_session (argv : List String) (runOk : Bool) (text : List Char) :
    ((∃ n acts, main n argv runOk ⟨text, false, false⟩ = some acts) ↔
        runOk = false ∨ "mode=console" ∈ argv.drop 1) ∧
      ∀ n acts, main n argv runOk ⟨text, false, false⟩ = some acts →
        acts = if runOk then session (lines text) else [] := by
  have hmode : (argv.drop 1).any (· == "mode=console") = true ↔
      "mode=console" ∈ argv.drop 1 := by simp
  cases runOk with
  | false =>
    refine ⟨⟨fun _ => .inl rfl, fun _ => ⟨0, [], rfl⟩⟩, ?_⟩
    intro n acts h
    cases h
    rfl
  | true =>
    by_cases hm : "mode=console" ∈ argv.drop 1
    · have hmain : ∀ n, main n argv true ⟨text, false, false⟩ =
          consoleLoop n ⟨text, false, false⟩ := fun n => if_pos (hmode.mpr hm)
      refine ⟨⟨fun _ => .inr hm, fun _ => ⟨_, _, (hmain _).trans (consoleLoop_session text)⟩⟩, ?_⟩
      intro n acts h
      rw [hmain] at h
      have h₁ := consoleLoop_mono (Nat.le_max_left n (text.length + 1)) h
      have h₂ := consoleLoop_mono (Nat.le_max_right n (text.length + 1)) (consoleLoop_session text)
      exact Option.some.inj (h₁.symm.trans h₂)
    · have hmain : ∀ n, main n argv true ⟨text, false, false⟩ = none :=
        fun n => if_neg (mt hmode.mp hm)
      refine ⟨⟨?_, fun h => absurd (h.resolve_left (by simp)) hm⟩, ?_⟩
      · rintro ⟨n, acts, h⟩
        rw [hmain] at h
        cases h
      · intro n acts h
        rw [hmain] at h
        cases h

/-! ## Scripts -/

/-- A command other than the exit. A name stands on a line of its own. -/
inductive Command where
  | query (name : String) (h : name ≠ "" ∧ '\n' ∉ name.toList)
  | queryAll
  | other (input : Int) (h : input ≠ 0 ∧ input ≠ 1 ∧ -2 ^ 31 ≤ input ∧ input < 2 ^ 31)

def Command.text : Command → List Char
  | query name _ => '1' :: '\n' :: (name.toList ++ ['\n'])
  | queryAll => ['1', '\n', '\n']
  | other input _ => intText input ++ ['\n']

def Command.actions : Command → List ConsoleAction
  | query name _ => [.printSnapshot name]
  | queryAll => g_MapServiceNames.map fun kv => .printSnapshot kv.2
  | other input _ => [.unknownOption input]

theorem lines_cons {l u : List Char} (hl : '\n' ∉ l) : lines (l ++ '\n' :: u) = l :: lines u :=
  (Line.terminated hl).lines_eq

theorem session_command (c : Command) (u : List Char) :
    session (lines (c.text ++ u)) = c.actions ++ session (lines u) := by
  have hone : lineInt ['1'] = some 1 := by decide
  cases c with
  | query name h =>
    have hlines : lines (Command.text (.query name h) ++ u) =
        ['1'] :: name.toList :: lines u := by
      have := lines_cons (l := ['1']) (u := name.toList ++ '\n' :: u) (by decide)
      rw [lines_cons h.2] at this
      simpa [Command.text] using this
    rw [hlines, session_some hone]
    simp [printSnapshots, Command.actions, h.1]
  | queryAll =>
    have hlines : lines (Command.text .queryAll ++ u) = ['1'] :: [] :: lines u := rfl
    rw [hlines, session_some hone]
    rfl
  | other input h =>
    obtain ⟨h0, h1, hr⟩ := h
    obtain ⟨hi, hnl⟩ := lineInt_intText hr
    have hlines : lines (Command.text (.other input ⟨h0, h1, hr⟩) ++ u) =
        intText input :: lines u := by
      rw [Command.text, List.append_assoc]
      exact lines_cons hnl
    rw [hlines, session_some hi, if_neg h0, if_neg h1]
    rfl

/-- **Scripts.** A script is executed as written, up to the exit; what follows is never read. -/
theorem script_session (script : List Command) (rest : List Char) :
    ∃ n, consoleLoop n ⟨script.flatMap Command.text ++ '0' :: '\n' :: rest, false, false⟩ =
      some (script.flatMap Command.actions ++ [.exitRequested]) := by
  refine ⟨_, (consoleLoop_session _).trans (congrArg some ?_)⟩
  induction script with
  | nil =>
    have hzero : lineInt ['0'] = some 0 := by decide
    have hlines := lines_cons (l := ['0']) (u := rest) (by decide)
    exact (congrArg session hlines).trans (session_some hzero)
  | cons c script ih =>
    rw [List.flatMap_cons, List.flatMap_cons, List.append_assoc, session_command, ih,
      List.append_assoc]

end ServiceRecovery
