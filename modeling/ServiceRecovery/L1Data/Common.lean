import Mathlib.Algebra.Ring.Nat
import Mathlib.Data.List.Basic

/-!
# Shared value types (`lib_srs/inc/Common.hpp`)

`RecoveryState` is a `uint8_t` enumeration: besides its five enumerators a value cast from the
wire can hold any other byte, which `other` carries together with the proof that no enumerator
has it. `fromWire` and `toWire` are the casts between the generated and the library enumeration;
they are inverse to each other (`fromWire_toWire`, `toWire_fromWire`).

`Vec` is a `std::vector` of one-byte elements: its length is at most `max_size()`, which is
`PTRDIFF_MAX` on a 64-bit target.
-/
namespace ServiceRecovery

/-- mirrors lib_srs/inc/Common.hpp:39-46 -/
inductive RecoveryState where
  | RESTART | STOP | DISABLE | CRASHED | UNKNOWN
  | other (code : UInt8) (h : 3 < code ∧ code < 255)
  deriving DecidableEq, Repr

namespace RecoveryState

/-- `static_cast<RecoveryState>(static_cast<uint8_t>(..))` from the generated enumeration.
mirrors lib_srs/src/CRecoverySchedulerStubImpl.cpp:59-62,97-98 -/
def fromWire (code : UInt8) : RecoveryState :=
  if code = 0 then RESTART
  else if code = 1 then STOP
  else if code = 2 then DISABLE
  else if code = 3 then CRASHED
  else if h : 3 < code ∧ code < 255 then other code h
  else UNKNOWN

/-- The cast back. mirrors lib_srs/src/CRecoverySchedulerStubImpl.cpp:105 -/
def toWire : RecoveryState → UInt8
  | RESTART => 0
  | STOP => 1
  | DISABLE => 2
  | CRASHED => 3
  | UNKNOWN => 255
  | other code _ => code

theorem fromWire_toWire (s : RecoveryState) : fromWire s.toWire = s := by
  cases s with
  | other code h =>
    have hne : code ≠ 0 ∧ code ≠ 1 ∧ code ≠ 2 ∧ code ≠ 3 := by grind
    obtain ⟨h0, h1, h2, h3⟩ := hne
    simp [toWire, fromWire, h0, h1, h2, h3, h]
  | _ => rfl

theorem toWire_fromWire (code : UInt8) : (fromWire code).toWire = code := by
  by_cases h0 : code = 0
  · subst h0; rfl
  by_cases h1 : code = 1
  · subst h1; rfl
  by_cases h2 : code = 2
  · subst h2; rfl
  by_cases h3 : code = 3
  · subst h3; rfl
  by_cases h : 3 < code ∧ code < 255
  · simp [fromWire, toWire, h0, h1, h2, h3, h]
  · -- no enumerator and not strictly between 3 and 255
    have hc : code = 255 := by grind
    subst hc; rfl

end RecoveryState

/-- A `std::vector` of one-byte elements. -/
structure Vec (α : Type) where
  toList : List α
  size_lt : toList.length < 2 ^ 63
  deriving DecidableEq, Repr

namespace Vec

variable {α β : Type}

/-- The translation loop of the stub: one `push_back` for each element.
mirrors lib_srs/src/CRecoverySchedulerStubImpl.cpp:57-62 -/
def map (f : α → β) (v : Vec α) : Vec β := ⟨v.toList.map f, by simpa using v.size_lt⟩

/-- mirrors the uses of `recoveryActions.empty()` -/
def isEmpty (v : Vec α) : Bool := v.toList.isEmpty

end Vec

/-- mirrors lib_srs/inc/Common.hpp:93-116 (the numeric ids only order the table) -/
inductive ServiceId where
  | APP_A | APP_B | APP_C | APP_D | APP_E | APP_F | APP_G | APP_H | APP_I | APP_J
  | APP_K | APP_L | APP_M | APP_N | APP_O | APP_P | APP_Q | APP_R | APP_S | APP_T
  deriving DecidableEq, Repr

/-- mirrors lib_srs/inc/Common.hpp:124-145 -/
def g_MapServiceNames : List (ServiceId × String) :=
  [(.APP_A, "AppA"), (.APP_B, "AppB"), (.APP_C, "AppC"), (.APP_D, "AppD"), (.APP_E, "AppE"),
   (.APP_F, "AppF"), (.APP_G, "AppG"), (.APP_H, "AppH"), (.APP_I, "AppI"), (.APP_J, "AppJ"),
   (.APP_K, "AppK"), (.APP_L, "AppL"), (.APP_M, "AppM"), (.APP_N, "AppN"), (.APP_O, "AppO"),
   (.APP_P, "AppP"), (.APP_Q, "AppQ"), (.APP_R, "AppR"), (.APP_S, "AppS"), (.APP_T, "AppT")]

/-- `serviceName` is the name of some entry of the catalogue. -/
def InCatalogue (serviceName : String) : Prop := ∃ p ∈ g_MapServiceNames, p.2 = serviceName

instance (serviceName : String) : Decidable (InCatalogue serviceName) :=
  inferInstanceAs (Decidable (∃ p ∈ g_MapServiceNames, p.2 = serviceName))

theorem empty_not_inCatalogue : ¬ InCatalogue "" := by decide

end ServiceRecovery
