import Mathlib.Data.Nat.Basic

/-! Base64 with padding over the standard alphabet, and its round trip. The decoder is the
strict one: the padding is required and the bits it stands for are zero. -/
namespace Base64

/-- The symbol of a six-bit value. -/
def symbol (value : Nat) : Char :=
  if value < 26 then Char.ofNat (value + 65)
  else if value < 52 then Char.ofNat (value + 71)
  else if value < 62 then Char.ofNat (value - 4)
  else if value = 62 then '+'
  else '/'

def symbolValue (c : Char) : Option Nat :=
  if 'A' ≤ c ∧ c ≤ 'Z' then some (c.toNat - 65)
  else if 'a' ≤ c ∧ c ≤ 'z' then some (c.toNat - 71)
  else if '0' ≤ c ∧ c ≤ '9' then some (c.toNat + 4)
  else if c = '+' then some 62
  else if c = '/' then some 63
  else none

def pad : Char := '='

/-- Three bytes make four symbols; what is left over is padded. -/
def encodeBytes : List UInt8 → List Char
  | [] => []
  | [a] => [symbol (a.toNat / 4), symbol (a.toNat % 4 * 16), pad, pad]
  | [a, b] =>
    [symbol (a.toNat / 4), symbol (a.toNat % 4 * 16 + b.toNat / 16),
      symbol (b.toNat % 16 * 4), pad]
  | a :: b :: c :: rest =>
    symbol (a.toNat / 4) :: symbol (a.toNat % 4 * 16 + b.toNat / 16) ::
      symbol (b.toNat % 16 * 4 + c.toNat / 64) :: symbol (c.toNat % 64) :: encodeBytes rest

/-- The decoder, which rejects padding in the middle and bits left over. -/
def decodeSymbols : List Char → Option (List UInt8)
  | [] => some []
  | w :: x :: y :: z :: rest => do
      let a ← symbolValue w
      let b ← symbolValue x
      if y = pad ∧ z = pad ∧ rest = [] then
        if b % 16 = 0 then some [UInt8.ofNat (a * 4 + b / 16)] else none
      else
        let c ← symbolValue y
        if z = pad ∧ rest = [] then
          if c % 4 = 0 then
            some [UInt8.ofNat (a * 4 + b / 16), UInt8.ofNat (b % 16 * 16 + c / 4)]
          else none
        else
          let d ← symbolValue z
          let tail ← decodeSymbols rest
          some (UInt8.ofNat (a * 4 + b / 16) :: UInt8.ofNat (b % 16 * 16 + c / 4) ::
            UInt8.ofNat (c % 4 * 64 + d) :: tail)
  | _ => none

def encode (bytes : List UInt8) : String := String.ofList (encodeBytes bytes)

def decode (text : String) : Option (List UInt8) := decodeSymbols text.toList

theorem symbolValue_symbol {value : Nat} (h : value < 64) :
    symbolValue (symbol value) = some value := by
  have hAll : ∀ value : Fin 64, symbolValue (symbol value) = some value.val := by decide
  exact hAll ⟨value, h⟩

theorem symbol_ne_pad {value : Nat} (h : value < 64) : symbol value ≠ pad := by
  have hAll : ∀ value : Fin 64, symbol value ≠ pad := by decide
  exact hAll ⟨value, h⟩

theorem ofNat_eq {b : UInt8} {value : Nat} (h : value = b.toNat) : UInt8.ofNat value = b := by
  rw [h, UInt8.ofNat_toNat]

-- One case per clause of the encoder; the arithmetic splits a byte into six-bit values and
-- joins them again.
/-- Decoding gives the encoded bytes back. -/
theorem decodeSymbols_encodeBytes (bytes : List UInt8) :
    decodeSymbols (encodeBytes bytes) = some bytes := by
  induction bytes using encodeBytes.induct with
  | case1 => rfl
  | case2 a =>
    have hA := a.toNat_lt
    rw [encodeBytes, decodeSymbols, symbolValue_symbol (by omega),
      symbolValue_symbol (by omega)]
    simp only [Option.bind_eq_bind, Option.bind_some, and_self, if_true]
    rw [if_pos (by omega), ofNat_eq (b := a) (by omega)]
  | case3 a b =>
    have hA := a.toNat_lt
    have hB := b.toNat_lt
    have hPad : symbol (b.toNat % 16 * 4) ≠ pad := symbol_ne_pad (by omega)
    rw [encodeBytes, decodeSymbols, symbolValue_symbol (by omega),
      symbolValue_symbol (by omega), symbolValue_symbol (by omega)]
    simp only [Option.bind_eq_bind, Option.bind_some, hPad, false_and, if_false, and_self,
      if_true]
    rw [if_pos (by omega), ofNat_eq (b := a) (by omega), ofNat_eq (b := b) (by omega)]
  | case4 a b c rest ih =>
    have hA := a.toNat_lt
    have hB := b.toNat_lt
    have hC := c.toNat_lt
    have hPad : symbol (b.toNat % 16 * 4 + c.toNat / 64) ≠ pad := symbol_ne_pad (by omega)
    have hPad' : symbol (c.toNat % 64) ≠ pad := symbol_ne_pad (by omega)
    rw [encodeBytes, decodeSymbols, symbolValue_symbol (by omega),
      symbolValue_symbol (by omega), symbolValue_symbol (by omega),
      symbolValue_symbol (by omega), ih]
    simp only [Option.bind_eq_bind, Option.bind_some, hPad, hPad', false_and, if_false]
    rw [ofNat_eq (b := a) (by omega), ofNat_eq (b := b) (by omega), ofNat_eq (b := c) (by omega)]

@[simp] theorem decode_encode (bytes : List UInt8) : decode (encode bytes) = some bytes := by
  rw [decode, encode, String.toList_ofList, decodeSymbols_encodeBytes]

example : encode [77, 97, 110, 255] = "TWFu/w==" := by decide +kernel

example : decode "TWFu/x==" = none := by decide +kernel

end Base64
