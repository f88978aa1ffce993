import ContentProjection.Proofs.TextOrder
import ContentProjection.Text.Percent

/-!
# Texts written in percent escapes

Written byte by byte in percent escapes, a text is ASCII without a slash, whatever
its own characters are, and reading it as a path segment gives the text back. Each
escape is three bytes long, and its two digits are those of the byte it stands for.
-/
namespace ContentProjection.Text

namespace Utf8

theorem bytes_ofList_of_ascii {cs : List Char} (h : ∀ c ∈ cs, c.toNat < 128) :
    bytes (String.ofList cs) = cs.map fun c => UInt8.ofNat c.toNat := by
  rw [bytes_eq_flatMap, String.toList_ofList]
  induction cs with
  | nil => rfl
  | cons c cs ih =>
    obtain ⟨hc, hcs⟩ := List.forall_mem_cons.1 h
    have hone : String.utf8EncodeChar c = [UInt8.ofNat c.toNat] :=
      if_pos (Nat.le_of_lt_succ hc : c.val.toNat ≤ 127)
    rw [List.flatMap_cons, List.map_cons, hone, ih hcs]
    rfl

end Utf8

namespace Percent

/-- An upper-case digit is ASCII, no slash, and read back. -/
theorem upperHex_digit (d : Fin 16) :
    (upperHex (UInt8.ofNat d)).toNat < 128 ∧ upperHex (UInt8.ofNat d) ≠ '/' ∧
      hexValue? (upperHex (UInt8.ofNat d)) = some d := by
  revert d
  decide

/-- A byte has two digits. -/
theorem exists_digits (b : UInt8) : ∃ high low : Fin 16,
    b / 0x10 = UInt8.ofNat high ∧ b % 0x10 = UInt8.ofNat low ∧
      b = UInt8.ofNat (0x10 * high.val + low.val) := by
  have hb : b.toNat < 256 := b.toNat_lt
  refine ⟨⟨b.toNat / 16, by omega⟩, ⟨b.toNat % 16, by omega⟩, ?_, ?_, ?_⟩ <;>
    rw [← UInt8.toNat_inj]
  · rw [UInt8.toNat_div, Utf8.toNat_ofNat_byte (by dsimp only; omega)]
    rfl
  · rw [UInt8.toNat_mod, Utf8.toNat_ofNat_byte (by dsimp only; omega)]
    rfl
  · rw [Utf8.toNat_ofNat_byte (by dsimp only; omega)]
    dsimp only
    omega

theorem escaped?_digits (high low : Fin 16) :
    escaped? (UInt8.ofNat (upperHex (UInt8.ofNat high)).toNat)
        (UInt8.ofNat (upperHex (UInt8.ofNat low)).toNat) =
      some (UInt8.ofNat (0x10 * high.val + low.val)) := by
  have hchar (d : Fin 16) :
      Char.ofNat (UInt8.ofNat (upperHex (UInt8.ofNat d)).toNat).toNat =
        upperHex (UInt8.ofNat d) := by
    rw [Utf8.toNat_ofNat_byte (Nat.lt_trans (upperHex_digit d).1 (by decide)), Char.ofNat_toNat]
  rw [escaped?, hchar, hchar, hexNumber?, if_neg (by simp)]
  simp [(upperHex_digit high).2.2, (upperHex_digit low).2.2]

/-- The characters of a byte's escape. -/
theorem mem_escape {b : UInt8} {c : Char}
    (h : c ∈ ['%', upperHex (b / 0x10), upperHex (b % 0x10)]) : c.toNat < 128 ∧ c ≠ '/' := by
  obtain ⟨high, low, hhigh, hlow, -⟩ := exists_digits b
  rw [hhigh, hlow, List.mem_cons, List.mem_cons, List.mem_singleton] at h
  rcases h with rfl | rfl | rfl
  · decide
  · exact ⟨(upperHex_digit high).1, (upperHex_digit high).2.1⟩
  · exact ⟨(upperHex_digit low).1, (upperHex_digit low).2.1⟩

theorem slash_not_mem_encode (s : String) : '/' ∉ encode s := by
  intro h
  obtain ⟨b, -, hb⟩ := List.mem_flatMap.1 h
  exact (mem_escape hb).2 rfl

theorem bytes_encode (s : String) : Utf8.bytes (String.ofList (encode s)) =
    (encode s).map fun c => UInt8.ofNat c.toNat := by
  refine Utf8.bytes_ofList_of_ascii fun c hc => ?_
  obtain ⟨b, -, hb⟩ := List.mem_flatMap.1 hc
  exact (mem_escape hb).1

theorem decode_escapes (bs : List UInt8) :
    decode ((bs.flatMap fun b => ['%', upperHex (b / 0x10), upperHex (b % 0x10)]).map
      fun c => UInt8.ofNat c.toNat) = bs := by
  induction bs with
  | nil => rw [List.flatMap_nil, List.map_nil, decode]
  | cons b bs ih =>
    obtain ⟨high, low, hhigh, hlow, hb⟩ := exists_digits b
    have hpercent : UInt8.ofNat '%'.toNat = 0x25 := by decide
    rw [List.flatMap_cons, List.map_append, hhigh, hlow]
    simp only [List.map_cons, List.map_nil, List.cons_append, List.nil_append, hpercent]
    rw [decode, if_pos rfl, escaped?_digits]
    dsimp only
    rw [ih, ← hb]

/-- An escaped text is read back as it was. -/
theorem segment?_encode (s : String) : segment? (encode s) = some s := by
  rw [segment?, bytes_encode, encode, decode_escapes, Utf8.strict?_bytes]

end Percent
end ContentProjection.Text
