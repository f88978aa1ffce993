/-!
# Decimal numerals

Reading whole numbers from ASCII digits. A natural numeral is a non-empty run
of digits; an unsigned one may carry one leading plus; a signed one a plus or a
minus. The word-sized readers refuse a value that does not fit, they never wrap.
Numerals are written by `toString`.
-/
namespace ContentProjection.Text.Numeral

def digitValue (c : Char) : Nat := c.toNat - 48

/-- The number written by a run of ASCII digits, leading zeros allowed. -/
def value (ds : List Char) : Nat := ds.foldl (fun n c => 10 * n + digitValue c) 0

def natural? (cs : List Char) : Option Nat :=
  if cs.isEmpty || !cs.all Char.isDigit then none else some (value cs)

def unsigned? : List Char → Option Nat
  | '+' :: ds => natural? ds
  | cs => natural? cs

def signed? : List Char → Option Int
  | '+' :: ds => (natural? ds).map Int.ofNat
  | '-' :: ds => (natural? ds).map fun n => -Int.ofNat n
  | cs => (natural? cs).map Int.ofNat

def minInt64 : Int := -9223372036854775808

def maxInt64 : Int := 9223372036854775807

/-- A signed numeral in the 64-bit two's complement range. -/
def int64? (cs : List Char) : Option Int :=
  (signed? cs).filter fun n => minInt64 ≤ n && n ≤ maxInt64

def uint64? (cs : List Char) : Option UInt64 :=
  (unsigned? cs).bind fun n =>
    if h : n < UInt64.size then some (UInt64.ofNatLT n h) else none

def uint32? (cs : List Char) : Option UInt32 :=
  (unsigned? cs).bind fun n =>
    if h : n < UInt32.size then some (UInt32.ofNatLT n h) else none

/-- A whole number as a 64-bit word, if it is one. -/
def word64? (n : Int) : Option UInt64 :=
  if h : 0 ≤ n ∧ n.toNat < UInt64.size then some (UInt64.ofNatLT n.toNat h.2) else none

def word32? (n : Int) : Option UInt32 :=
  if h : 0 ≤ n ∧ n.toNat < UInt32.size then some (UInt32.ofNatLT n.toNat h.2) else none

def word16? (n : Int) : Option UInt16 :=
  if h : 0 ≤ n ∧ n.toNat < UInt16.size then some (UInt16.ofNatLT n.toNat h.2) else none

theorem value_append_singleton (ds : List Char) (c : Char) :
    value (ds ++ [c]) = 10 * value ds + digitValue c := by
  simp [value, List.foldl_append]

theorem uint64?_eq_some_iff {cs : List Char} {w : UInt64} :
    uint64? cs = some w ↔ unsigned? cs = some w.toNat := by
  unfold uint64?
  constructor
  · intro h
    obtain ⟨n, hn, hw⟩ := Option.bind_eq_some_iff.1 h
    split at hw
    · cases hw
      simpa using hn
    · cases hw
  · intro h
    rw [h, Option.bind_some, dif_pos w.toNat_lt_size]
    simp

end ContentProjection.Text.Numeral
