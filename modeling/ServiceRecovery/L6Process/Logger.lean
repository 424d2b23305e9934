import ServiceRecovery.Core.Decimal
import ServiceRecovery.Core.Delimited
import ServiceRecovery.L5Concurrency.Statements

/-!
# The logger (`lib_srs/inc/Logger.hpp`)

`Logger.write` prints one record as one line: colour, time, thread, severity, the two identifiers,
the origin of the record in braces, and the message behind them. A `Stamp` holds what the clock and
the kernel contribute. The colours are part of the line exactly when standard output is a terminal.

The message is printed as it is, so what can be read back depends on it:

* `text_key`: of a record that is `Plain` the origin and the message are read off the line;
* `lines_write_iff`: what a process printed is cut into its records by the newlines exactly when no
  record holds one;
* `write_keys`: so of plain records the whole output gives all origins and messages.
-/
namespace ServiceRecovery

namespace LogLevel

/-- mirrors lib_srs/inc/Logger.hpp:100-135 -/
def lvlStr : LogLevel → String
  | TRACE => "TRC"
  | DEBUG => "DBG"
  | INFO => "INF"
  | WARN => "WRN"
  | ERROR => "ERR"
  | FATAL => "FAT"

/-- mirrors lib_srs/inc/Logger.hpp:101-135 -/
def sym : LogLevel → Char
  | TRACE => '\u25AB'
  | DEBUG => '\u2699'
  | INFO => '\u2139'
  | WARN => '\u26A0'
  | ERROR => '\u2718'
  | FATAL => '\u2620'

/-- mirrors lib_srs/inc/Logger.hpp:102-135 -/
def color : LogLevel → List Char
  | TRACE => ['\x1b', '[', '9', '0', 'm']
  | DEBUG => ['\x1b', '[', '3', '6', 'm']
  | INFO => ['\x1b', '[', '3', '2', 'm']
  | WARN => ['\x1b', '[', '3', '3', 'm']
  | ERROR => ['\x1b', '[', '3', '1', 'm']
  | FATAL => ['\x1b', '[', '1', ';', '3', '1', 'm']

end LogLevel

/-- The local time as `localtime_r` fills it in, the microseconds, and the thread. -/
structure Stamp where
  tm_year : Nat
  tm_mon : Nat
  tm_mday : Nat
  tm_hour : Nat
  tm_min : Nat
  tm_sec : Nat
  us : Nat
  tid : Nat

/-- The arguments of `Logger::write`; a null pointer is `none`. -/
structure Record where
  lvl : LogLevel
  apid : Option String
  ctid : Option String
  func : Option String
  line : Int
  msg : String
  deriving DecidableEq

/-- `std::setw(n)` with the fill character `c`, adjusted to the right. -/
def setw (n : Nat) (c : Char) (digits : Nat) : List Char := (Nat.toDigits 10 digits).leftpad n c

/-- `std::put_time` with `%Y-%m-%d %H:%M:%S` -/
def Stamp.put_time (s : Stamp) : List Char :=
  Nat.toDigits 10 (1900 + s.tm_year) ++ '-' :: setw 2 '0' (s.tm_mon + 1) ++
    '-' :: setw 2 '0' s.tm_mday ++ ' ' :: setw 2 '0' s.tm_hour ++ ':' :: setw 2 '0' s.tm_min ++
    ':' :: setw 2 '0' s.tm_sec

namespace Record

/-- `std::left << std::setw(4)` of an identifier -/
def ident (id : Option String) : List Char := (id.getD "    ").toList.rightpad 4 ' '

/-- What stands before the braces. mirrors lib_srs/inc/Logger.hpp:143-150 -/
def head (r : Record) (s : Stamp) (tty : Bool) : List Char :=
  (if tty then r.lvl.color else []) ++ s.put_time ++ '.' :: setw 6 '0' s.us ++
    [' ', '[', 't'] ++ setw 6 ' ' s.tid ++ [']', ' '] ++ r.lvl.lvlStr.toList ++ [' ', r.lvl.sym] ++
    [' ', '['] ++ ident r.apid ++ [']', ' ', '['] ++ ident r.ctid ++ [']', ' ']

def reset (tty : Bool) : List Char := if tty then ['\x1b', '[', '0', 'm'] else []

/-- The line without its newline. mirrors lib_srs/inc/Logger.hpp:143-153 -/
def text (r : Record) (s : Stamp) (tty : Bool) : List Char :=
  r.head s tty ++ '{' :: ((r.func.getD "?").toList ++ ':' :: (intText r.line ++
    '}' :: ' ' :: (r.msg.toList ++ reset tty)))

end Record

namespace Logger

/-- The severity floor; nothing assigns another one. mirrors lib_srs/inc/Logger.hpp:59-63 -/
def threshold : LogLevel := .TRACE

/-- mirrors lib_srs/inc/Logger.hpp:90-156 -/
def write (tty : Bool) (o : Stamp × Record) : List Char := o.2.text o.1 tty ++ ['\n']

end Logger

/-- mirrors lib_srs/inc/Logger.hpp:168-177 -/
def SRS_LOG_ (r : Record) : List Record :=
  if r.lvl.toUInt8 ≥ Logger.threshold.toUInt8 then [r] else []

theorem SRS_LOG_eq (r : Record) : SRS_LOG_ r = [r] := if_pos (UInt8.zero_le)

/-! ## Reading a line -/

namespace Record

/-- The origin of a record, and its message. -/
def key (r : Record) : String × Int × String := (r.func.getD "?", r.line, r.msg)

/-- What the callers pass for `apid`, `ctid` and `__func__`. -/
structure Named (r : Record) : Prop where
  apid : '{' ∉ (r.apid.getD "    ").toList ∧ '\n' ∉ (r.apid.getD "    ").toList
  ctid : '{' ∉ (r.ctid.getD "    ").toList ∧ '\n' ∉ (r.ctid.getD "    ").toList
  func : ':' ∉ (r.func.getD "?").toList ∧ '\n' ∉ (r.func.getD "?").toList

structure Plain (r : Record) : Prop extends r.Named where
  msg : '\n' ∉ r.msg.toList

end Record

section
variable {r r' : Record} {s s' : Stamp} {tty : Bool} {c : Char}

theorem not_mem_setw {n k : Nat} {fill : Char} (hc : c.isDigit = false) (hf : c ≠ fill) :
    c ∉ setw n fill k := by
  unfold setw List.leftpad
  rw [List.mem_append, List.mem_replicate, not_or]
  exact ⟨fun h => hf h.2, not_mem_toDigits hc⟩

theorem not_mem_ident {id : Option String} (hc : c ≠ ' ') (hid : c ∉ (id.getD "    ").toList) :
    c ∉ Record.ident id := by
  unfold Record.ident List.rightpad
  rw [List.mem_append, List.mem_replicate, not_or]
  exact ⟨hid, fun h => hc h.2⟩

theorem not_mem_put_time (hc : c.isDigit = false) (hp : c ∉ ['-', ' ', ':']) :
    c ∉ s.put_time := by
  simp only [List.mem_cons, List.not_mem_nil, or_false, not_or] at hp
  obtain ⟨h1, h2, h3⟩ := hp
  have hz : c ≠ '0' := by
    rintro rfl
    cases hc
  simp only [Stamp.put_time, List.mem_append, List.mem_cons, not_or]
  refine ⟨⟨⟨⟨⟨?_, h1, ?_⟩, h1, ?_⟩, h2, ?_⟩, h3, ?_⟩, h3, ?_⟩
  · exact not_mem_toDigits hc
  all_goals exact not_mem_setw hc hz

theorem not_mem_lvl (l : LogLevel) (hc : c = '{' ∨ c = '\n') :
    c ∉ l.color ∧ c ∉ l.lvlStr.toList ∧ c ≠ l.sym := by
  rcases hc with rfl | rfl <;> cases l <;> decide

/-- The head of a line holds no brace and no newline of its own. -/
theorem not_mem_head (hc : c = '{' ∨ c = '\n') (ha : c ∉ (r.apid.getD "    ").toList)
    (ht : c ∉ (r.ctid.getD "    ").toList) : c ∉ r.head s tty := by
  obtain ⟨hcolor, hlvl, hsym⟩ := not_mem_lvl r.lvl hc
  have hdigit : c.isDigit = false ∧ c ≠ ' ' ∧ c ≠ '0' ∧ c ∉ ['-', ' ', ':'] ∧ c ≠ '.' ∧
      c ∉ [' ', '[', 't'] ∧ c ∉ [']', ' '] ∧ c ∉ [' ', '['] ∧ c ∉ [']', ' ', '['] := by
    rcases hc with rfl | rfl <;> decide
  obtain ⟨hd, hb, hz, htime, hdot, h1, h2, h3, h4⟩ := hdigit
  have hcolor' : c ∉ if tty then r.lvl.color else [] := by
    cases tty with
    | true => exact hcolor
    | false => exact List.not_mem_nil
  have hsym' : c ∉ [' ', r.lvl.sym] := by
    simp only [List.mem_cons, List.not_mem_nil, or_false, not_or]
    exact ⟨hb, hsym⟩
  unfold Record.head
  simp only [List.mem_append, not_or]
  rw [List.mem_cons, not_or]
  exact ⟨⟨⟨⟨⟨⟨⟨⟨⟨⟨⟨⟨hcolor', not_mem_put_time hd htime⟩, hdot, not_mem_setw hd hz⟩, h1⟩,
    not_mem_setw hd hb⟩, h2⟩, hlvl⟩, hsym'⟩, h3⟩, not_mem_ident hb ha⟩, h4⟩,
    not_mem_ident hb ht⟩, h2⟩

/-- **A line is read back.** -/
theorem text_key (hr : r.Named) (hr' : r'.Named) (h : r.text s tty = r'.text s' tty) :
    r.key = r'.key := by
  unfold Record.text at h
  rw [field_inj (not_mem_head (.inl rfl) hr.apid.1 hr.ctid.1)
    (not_mem_head (.inl rfl) hr'.apid.1 hr'.ctid.1)] at h
  have hf := (field_inj hr.func.1 hr'.func.1).mp h.2
  have hl := (field_inj (not_mem_intText rfl (by decide)) (not_mem_intText rfl (by decide))).mp hf.2
  have hm := List.append_cancel_right (List.tail_eq_of_cons_eq hl.2)
  unfold Record.key
  rw [String.toList_inj.mp hf.1, intText_inj.mp hl.1, String.toList_inj.mp hm]

theorem not_mem_text_iff (hr : r.Named) : '\n' ∉ r.text s tty ↔ '\n' ∉ r.msg.toList := by
  have hhead : '\n' ∉ r.head s tty := not_mem_head (.inr rfl) hr.apid.2 hr.ctid.2
  have hreset : '\n' ∉ Record.reset tty := by cases tty <;> decide
  have hline : '\n' ∉ intText r.line := not_mem_intText rfl (by decide)
  unfold Record.text
  simp [hhead, hr.func.2, hline, hreset]

end

/-! ## Reading the output -/

section
variable {tty : Bool} {out out' : List (Stamp × Record)}

theorem write_unlines :
    out.flatMap (Logger.write tty) = (out.map fun o => o.2.text o.1 tty).flatMap (· ++ ['\n']) := by
  rw [List.flatMap_map]
  rfl

/-- The lines of the output are the records printed, iff no message holds a newline. -/
theorem lines_write_iff (hn : ∀ o ∈ out, o.2.Named) :
    lines (out.flatMap (Logger.write tty)) = out.map (fun o => o.2.text o.1 tty) ↔
      ∀ o ∈ out, '\n' ∉ o.2.msg.toList := by
  rw [write_unlines, lines_unlines_iff, List.forall_mem_map]
  exact forall₂_congr fun o ho => not_mem_text_iff (hn o ho)

/-- **The output is read back.** -/
theorem write_keys (hp : ∀ o ∈ out, o.2.Plain) (hp' : ∀ o ∈ out', o.2.Plain)
    (h : out.flatMap (Logger.write tty) = out'.flatMap (Logger.write tty)) :
    out.map (fun o => o.2.key) = out'.map (fun o => o.2.key) := by
  have hcut : ∀ {out : List (Stamp × Record)}, (∀ o ∈ out, o.2.Plain) →
      lines (out.flatMap (Logger.write tty)) = out.map fun o => o.2.text o.1 tty :=
    fun hp => (lines_write_iff fun o ho => (hp o ho).toNamed).mpr fun o ho => (hp o ho).msg
  have htext := (hcut hp).symm.trans ((congrArg lines h).trans (hcut hp'))
  clear h
  induction out generalizing out' with
  | nil =>
    cases out' with
    | nil => rfl
    | cons o' out' => cases htext
  | cons o out ih =>
    cases out' with
    | nil => cases htext
    | cons o' out' =>
      rw [List.forall_mem_cons] at hp hp'
      rw [List.map_cons, List.map_cons, List.cons.injEq] at htext
      rw [List.map_cons, List.map_cons, text_key hp.1.toNamed hp'.1.toNamed htext.1,
        ih hp.2 hp'.2 htext.2]

end

end ServiceRecovery
