import Mathlib.Algebra.Ring.Int.Defs
import Mathlib.Data.List.TakeWhile

/-!
# Reading text with `std::istream`

An input stream over a finite text: the characters not yet extracted, and the two flags that such
a text can set. `readInt`, `ignoreLine` and `getline` are `operator>>(int &)`, `ignore(max, '\n')`
and `std::getline`, with their sentries and flags, for base 10 in the "C" locale. An extraction
that sets `failbit` gives `none`: no value that it may store is modelled.

The flags make these operations awkward to compose, so the second half says what they do to text
cut into `lines`. A stream is `At` a text when it is about to read that text, or has noticed that
nothing is left:

* `readInt_blank`, `readInt_line`: a blank line is skipped, and an integer is read from the first
  other line and from no later one;
* `ignoreLine_at`: the rest of that line is dropped;
* `getline_at`, `getline_end`: a whole line is read, or there is none.
-/
namespace ServiceRecovery

structure IStream where
  rest : List Char
  eof : Bool := false
  fail : Bool := false
  deriving DecidableEq, Repr

/-- White space in the "C" locale. -/
def isspace (c : Char) : Bool := c ∈ [' ', '\t', '\n', '\x0b', '\x0c', '\r']

/-- The digits that `num_get` accumulates. `none`: no digit, or not in the range of `int`. -/
def scanDigits (neg : Bool) (cs : List Char) : Option Int × List Char :=
  let digits := cs.takeWhile Char.isDigit
  let n : Int := if neg then -(Nat.ofDigitChars 10 digits 0 : Int) else Nat.ofDigitChars 10 digits 0
  (if digits ≠ [] ∧ -2 ^ 31 ≤ n ∧ n < 2 ^ 31 then some n else none, cs.dropWhile Char.isDigit)

def scanInt : List Char → Option Int × List Char
  | '-' :: cs => scanDigits true cs
  | '+' :: cs => scanDigits false cs
  | cs => scanDigits false cs

namespace IStream

variable (s : IStream)

def good : Bool := !s.eof && !s.fail

def clear : IStream := { s with eof := false, fail := false }

def readInt : Option Int × IStream :=
  if s.good then
    let cs := s.rest.dropWhile isspace
    if cs = [] then (none, ⟨[], true, true⟩)
    else
      let (n, rest) := scanInt cs
      (n, ⟨rest, rest.isEmpty, n.isNone⟩)
  else (none, { s with fail := true })

def ignoreLine : IStream :=
  if s.good then
    match s.rest.dropWhile (· != '\n') with
    | [] => ⟨[], true, false⟩
    | _ :: rest => ⟨rest, false, false⟩
  else { s with fail := true }

def getline : String × IStream :=
  if s.good then
    let line := s.rest.takeWhile (· != '\n')
    (.ofList line, match s.rest.dropWhile (· != '\n') with
      | [] => ⟨[], true, line.isEmpty⟩
      | _ :: rest => ⟨rest, false, false⟩)
  else ("", { s with fail := true })

end IStream

/-! ## Lines -/

/-- The lines of a text; a last line need not be terminated. -/
def lines : List Char → List (List Char)
  | [] => []
  | c :: cs =>
    if c = '\n' then [] :: lines cs
    else match lines cs with
      | [] => [[c]]
      | l :: ls => (c :: l) :: ls

/-- The first line of a text and what is behind it. -/
inductive Line : List Char → List Char → List Char → Prop
  | terminated {l u : List Char} : '\n' ∉ l → Line (l ++ '\n' :: u) l u
  | last {l : List Char} : '\n' ∉ l → l ≠ [] → Line l l []

theorem exists_line {t : List Char} (ht : t ≠ []) : ∃ l u, Line t l u := by
  have hsplit := List.takeWhile_append_dropWhile (p := (· != '\n')) (l := t)
  have hl : '\n' ∉ t.takeWhile (· != '\n') := by
    intro hm
    have := List.mem_takeWhile_imp hm
    simp at this
  cases hd : t.dropWhile (· != '\n') with
  | nil =>
    rw [hd, List.append_nil] at hsplit
    rw [hsplit] at hl
    exact ⟨t, [], .last hl ht⟩
  | cons c u =>
    have hc : c = '\n' := by
      have := List.dropWhile_get_zero_not (· != '\n') t (by rw [hd]; exact Nat.succ_pos _)
      simpa [hd] using this
    rw [hd, hc] at hsplit
    have hline := Line.terminated (u := u) hl
    rw [hsplit] at hline
    exact ⟨_, u, hline⟩

variable {t l u : List Char} {s : IStream}

theorem Line.length_lt (h : Line t l u) : u.length < t.length := by
  cases h with
  | terminated hl => rw [List.length_append, List.length_cons]; omega
  | last hl hne => exact List.length_pos_iff.mpr hne

theorem Line.lines_eq (h : Line t l u) : lines t = l :: lines u := by
  cases h with
  | terminated hl =>
    induction l with
    | nil => rw [List.nil_append, lines, if_pos rfl]
    | cons c l ih =>
      rw [List.mem_cons, not_or] at hl
      rw [List.cons_append, lines, if_neg (Ne.symm hl.1), ih hl.2]
  | last hl hne =>
    induction t with
    | nil => exact absurd rfl hne
    | cons c l ih =>
      rw [List.mem_cons, not_or] at hl
      rw [lines, lines, if_neg (Ne.symm hl.1)]
      by_cases hnil : l = []
      · subst hnil
        rfl
      · rw [ih hl.2 hnil]
        rfl

/-- The stream is about to read the text, or has noticed that nothing is left. -/
def IStream.At (s : IStream) (t : List Char) : Prop :=
  s = ⟨t, false, false⟩ ∨ t = [] ∧ s.eof = true

theorem IStream.At.eq (h : s.At t) (ht : t ≠ []) : s = ⟨t, false, false⟩ :=
  h.resolve_right fun h => ht h.1

/-! ## Reading lines -/

theorem takeWhile_line {l u : List Char} (hl : '\n' ∉ l) :
    (l ++ '\n' :: u).takeWhile (· != '\n') = l ∧
      (l ++ '\n' :: u).dropWhile (· != '\n') = '\n' :: u := by
  have hp : ∀ c ∈ l, (c != '\n') = true := by
    intro c hc
    rw [bne_iff_ne]
    rintro rfl
    exact hl hc
  rw [List.takeWhile_append_of_pos hp, List.dropWhile_append_of_pos hp]
  simp

theorem takeWhile_last {l : List Char} (hl : '\n' ∉ l) :
    l.takeWhile (· != '\n') = l ∧ l.dropWhile (· != '\n') = [] := by
  rw [List.takeWhile_eq_self_iff, List.dropWhile_eq_nil_iff, and_self]
  intro c hc
  rw [bne_iff_ne]
  rintro rfl
  exact hl hc

/-- The rest of a line is dropped. -/
theorem ignoreLine_at (h : Line t l u) : (IStream.ignoreLine ⟨t, false, false⟩).At u := by
  cases h with
  | terminated hl =>
    refine .inl ?_
    simp [IStream.ignoreLine, IStream.good, (takeWhile_line hl).2]
  | last hl hne =>
    refine .inr ⟨rfl, ?_⟩
    simp [IStream.ignoreLine, IStream.good, (takeWhile_last hl).2]

/-- A line is read. -/
theorem getline_at (h : Line t l u) :
    ∃ s', IStream.getline ⟨t, false, false⟩ = (.ofList l, s') ∧ s'.fail = false ∧ s'.At u := by
  cases h with
  | terminated hl =>
    refine ⟨⟨u, false, false⟩, ?_, rfl, .inl rfl⟩
    simp [IStream.getline, IStream.good, takeWhile_line hl]
  | last hl hne =>
    refine ⟨⟨[], true, false⟩, ?_, rfl, .inr ⟨rfl, rfl⟩⟩
    simp [IStream.getline, IStream.good, takeWhile_last hl, hne]

/-- There is none. -/
theorem getline_end (h : s.At []) : s.getline.2.fail = true ∧ s.getline.2.At [] := by
  rcases h with rfl | ⟨-, he⟩
  · exact ⟨rfl, .inr ⟨rfl, rfl⟩⟩
  · have hg : s.good = false := by simp [IStream.good, he]
    simp only [IStream.getline, hg, Bool.false_eq_true, if_false, true_and]
    exact .inr ⟨rfl, he⟩

/-! ## Reading an integer -/

/-- The integer that a line starts with. -/
def lineInt (l : List Char) : Option Int := (scanInt (l.dropWhile isspace)).1

/-- The line has nothing but white space. -/
def Blank (l : List Char) : Prop := ∀ c ∈ l, isspace c = true

/-- A scan stops in its line. -/
theorem scanDigits_line (neg : Bool) (hl : '\n' ∉ l) :
    scanDigits neg (l ++ '\n' :: u) =
        ((scanDigits neg l).1, (scanDigits neg l).2 ++ '\n' :: u) ∧
      '\n' ∉ (scanDigits neg l).2 := by
  have hsplit : (l ++ '\n' :: u).takeWhile Char.isDigit = l.takeWhile Char.isDigit ∧
      (l ++ '\n' :: u).dropWhile Char.isDigit = l.dropWhile Char.isDigit ++ '\n' :: u := by
    clear hl
    induction l with
    | nil => exact ⟨rfl, rfl⟩
    | cons c l ih =>
      cases hc : c.isDigit with
      | true => simp [hc, ih]
      | false => simp [hc]
  refine ⟨?_, fun hm => hl ((List.dropWhile_sublist _).subset hm)⟩
  simp only [scanDigits, hsplit]

theorem scanInt_line (hl : '\n' ∉ l) :
    scanInt (l ++ '\n' :: u) = ((scanInt l).1, (scanInt l).2 ++ '\n' :: u) ∧
      '\n' ∉ (scanInt l).2 := by
  have htail : ∀ {c : Char} {cs : List Char}, l = c :: cs → '\n' ∉ cs := by
    rintro c cs rfl hm
    exact hl (List.mem_cons_of_mem c hm)
  unfold scanInt
  split
  · rename_i cs he
    cases l with
    | nil => cases he
    | cons c l =>
      obtain ⟨rfl, rfl⟩ := List.cons.inj he
      exact scanDigits_line true (htail rfl)
  · rename_i cs he
    cases l with
    | nil => cases he
    | cons c l =>
      obtain ⟨rfl, rfl⟩ := List.cons.inj he
      exact scanDigits_line false (htail rfl)
  · rename_i hminus hplus
    split
    · exact absurd rfl (hminus _)
    · exact absurd rfl (hplus _)
    · exact scanDigits_line false hl

/-- A blank line is skipped. -/
theorem readInt_blank (h : Line t l u) (hb : Blank l) :
    IStream.readInt ⟨t, false, false⟩ = IStream.readInt ⟨u, false, false⟩ := by
  have hskip : t.dropWhile isspace = u.dropWhile isspace := by
    cases h with
    | terminated hl =>
      rw [List.dropWhile_append_of_pos hb]
      rfl
    | last hl hne => exact List.dropWhile_eq_nil_iff.mpr hb
  simp only [IStream.readInt, hskip]
  rfl

/-- An integer is read from any other line, and from no later one. -/
theorem readInt_line (h : Line t l u) (hb : ¬ Blank l) :
    ∃ s', IStream.readInt ⟨t, false, false⟩ = (lineInt l, s') ∧ s'.fail = (lineInt l).isNone ∧
      (s'.eof = true → u = []) ∧ (s'.fail = false → s'.ignoreLine.At u) ∧
      (s'.eof = false → s'.clear.ignoreLine.At u) := by
  have hne : l.dropWhile isspace ≠ [] := fun he => hb (List.dropWhile_eq_nil_iff.mp he)
  have hsub : '\n' ∉ l → '\n' ∉ l.dropWhile isspace := fun hl hm =>
    hl ((List.dropWhile_sublist _).subset hm)
  cases h with
  | terminated hl =>
    obtain ⟨hscan, hrest⟩ := scanInt_line (u := u) (hsub hl)
    have hskip : (l ++ '\n' :: u).dropWhile isspace = l.dropWhile isspace ++ '\n' :: u := by
      rw [List.dropWhile_append, if_neg (by simpa using hne)]
    have hline := ignoreLine_at (Line.terminated (u := u) hrest)
    refine ⟨⟨(scanInt (l.dropWhile isspace)).2 ++ '\n' :: u, false, (lineInt l).isNone⟩, ?_, rfl,
      by simp, ?_, fun _ => hline⟩
    · simp [IStream.readInt, IStream.good, hskip, hscan, lineInt]
    · intro hf
      dsimp only at hf
      rw [hf]
      exact hline
  | last hl hnil =>
    obtain ⟨-, hrest⟩ := scanInt_line (u := []) (hsub hl)
    refine ⟨⟨(scanInt (t.dropWhile isspace)).2, (scanInt (t.dropWhile isspace)).2.isEmpty,
      (lineInt t).isNone⟩, ?_, rfl, fun _ => rfl, ?_, ?_⟩
    · simp [IStream.readInt, IStream.good, hne, lineInt]
    · intro hf
      dsimp only at hf
      rw [hf]
      by_cases hr : (scanInt (t.dropWhile isspace)).2 = []
      · rw [hr]
        exact .inr ⟨rfl, rfl⟩
      · rw [List.isEmpty_eq_false_iff.mpr hr]
        exact ignoreLine_at (.last hrest hr)
    · intro he
      exact ignoreLine_at (.last hrest (List.isEmpty_eq_false_iff.mp he))

theorem readInt_end (h : s.At []) :
    s.readInt.1 = none ∧ s.readInt.2.fail = true ∧ s.readInt.2.eof = true := by
  rcases h with rfl | ⟨-, he⟩
  · exact ⟨rfl, rfl, rfl⟩
  · have hg : s.good = false := by simp [IStream.good, he]
    simp [IStream.readInt, hg, he]

end ServiceRecovery
