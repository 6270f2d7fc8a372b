import Mathlib.Data.List.Nodup

set_option autoImplicit false

/-! # Base 64

The standard alphabet with padding, and a decoder that takes canonical texts only: it refuses digits outside
the alphabet, missing or superfluous padding, and bits that are set behind the last byte. What it takes is
then exactly what the encoder writes (`decode_eq_some_iff`). -/

namespace Base64

/-! ## Digits -/

/-- The 64 digits of the standard alphabet. -/
def digits : List Char := "ABCDEFGHIJKLMNOPQRSTUVWXYZabcdefghijklmnopqrstuvwxyz0123456789+/".toList

/-- The digit of a value. -/
def digit (n : Nat) : Char := digits.getD n '='

/-- The value of a digit. -/
def value (c : Char) : Option Nat := if c ∈ digits then some (digits.idxOf c) else none

theorem digits_nodup : digits.Nodup := by decide

theorem length_digits : digits.length = 64 := by decide

theorem digit_eq_getElem {n : Nat} (hn : n < digits.length) : digit n = digits[n] := by
  rw [digit, List.getD_eq_getElem?_getD, List.getElem?_eq_getElem hn, Option.getD_some]

theorem value_digit {n : Nat} (hn : n < 64) : value (digit n) = some n := by
  have hlength : n < digits.length := by rwa [length_digits]
  rw [digit_eq_getElem hlength, value, if_pos (List.getElem_mem hlength), digits_nodup.idxOf_getElem n hlength]

theorem digit_of_value {c : Char} {n : Nat} (h : value c = some n) : n < 64 ∧ digit n = c := by
  unfold value at h
  split at h
  case isTrue hmem =>
    cases h
    have hlength := List.idxOf_lt_length_iff.2 hmem
    refine ⟨by rwa [length_digits] at hlength, ?_⟩
    rw [digit_eq_getElem hlength, List.getElem_idxOf hlength]
  case isFalse => cases h

theorem digit_ne_pad {n : Nat} (hn : n < 64) : digit n ≠ '=' := by
  intro hpad
  have hvalue := value_digit hn
  have hnone : value '=' = none := by decide
  rw [hpad, hnone] at hvalue
  cases hvalue

/-! ## Groups -/

/-- Three bytes as four digits. -/
def encodeGroup (a b c : UInt8) : List Char :=
  [digit (a.toNat / 4), digit (a.toNat % 4 * 16 + b.toNat / 16), digit (b.toNat % 16 * 4 + c.toNat / 64),
    digit (c.toNat % 64)]

/-- The bytes at the end that make no group. -/
def encodeTwo (a b : UInt8) : List Char :=
  [digit (a.toNat / 4), digit (a.toNat % 4 * 16 + b.toNat / 16), digit (b.toNat % 16 * 4), '=']

/-- The last byte, with two symbols of padding. -/
def encodeOne (a : UInt8) : List Char := [digit (a.toNat / 4), digit (a.toNat % 4 * 16), '=', '=']

/-- The text of the bytes, three at a time. -/
def encode : List UInt8 → List Char
  | a :: b :: c :: rest => encodeGroup a b c ++ encode rest
  | [a, b] => encodeTwo a b
  | [a] => encodeOne a
  | [] => []

/-- The byte of a number below 256. -/
def byte (n : Nat) : UInt8 := UInt8.ofNat n

/-- The three bytes of four digits. -/
def decodeGroup (w x y z : Char) : Option (List UInt8) := do
  let w ← value w
  let x ← value x
  let y ← value y
  let z ← value z
  some [byte (w * 4 + x / 16), byte (x % 16 * 16 + y / 4), byte (y % 4 * 64 + z)]

/-- The last group may be padded; then no bit behind the last byte is set. -/
def decodeLast (w x y z : Char) : Option (List UInt8) :=
  if z = '=' then do
    let w ← value w
    let x ← value x
    if y = '=' then if x % 16 = 0 then some [byte (w * 4 + x / 16)] else none
    else do
      let y ← value y
      if y % 4 = 0 then some [byte (w * 4 + x / 16), byte (x % 16 * 16 + y / 4)] else none
  else decodeGroup w x y z

/-- The bytes of a text; only the last group may be padded. -/
def decode : List Char → Option (List UInt8)
  | [] => some []
  | [w, x, y, z] => decodeLast w x y z
  | w :: x :: y :: z :: rest => do
    let bytes ← decodeGroup w x y z
    let more ← decode rest
    some (bytes ++ more)
  | _ => none

theorem byte_toNat {n : Nat} (b : UInt8) (h : n = b.toNat) : byte n = b := by
  rw [h]
  exact UInt8.ofNat_toNat

theorem toNat_byte {n : Nat} (hn : n < 256) : (byte n).toNat = n := UInt8.toNat_ofNat_of_lt hn

theorem decodeGroup_encodeGroup (a b c : UInt8) :
    decodeGroup (digit (a.toNat / 4)) (digit (a.toNat % 4 * 16 + b.toNat / 16))
      (digit (b.toNat % 16 * 4 + c.toNat / 64)) (digit (c.toNat % 64)) = some [a, b, c] := by
  have ha := a.toNat_lt
  have hb := b.toNat_lt
  have hc := c.toNat_lt
  simp only [decodeGroup, value_digit (show a.toNat / 4 < 64 by omega),
    value_digit (show a.toNat % 4 * 16 + b.toNat / 16 < 64 by omega),
    value_digit (show b.toNat % 16 * 4 + c.toNat / 64 < 64 by omega),
    value_digit (show c.toNat % 64 < 64 by omega), Option.bind_eq_bind, Option.bind_some]
  rw [byte_toNat a (by omega), byte_toNat b (by omega), byte_toNat c (by omega)]

theorem encodeGroup_of_decodeGroup {w x y z : Char} {bytes : List UInt8}
    (h : decodeGroup w x y z = some bytes) : ∃ a b c, bytes = [a, b, c] ∧ encodeGroup a b c = [w, x, y, z] := by
  simp only [decodeGroup, Option.bind_eq_bind, Option.bind_eq_some_iff] at h
  obtain ⟨w', hw, x', hx, y', hy, z', hz, hbytes⟩ := h
  obtain ⟨hw, rfl⟩ := digit_of_value hw
  obtain ⟨hx, rfl⟩ := digit_of_value hx
  obtain ⟨hy, rfl⟩ := digit_of_value hy
  obtain ⟨hz, rfl⟩ := digit_of_value hz
  refine ⟨_, _, _, (Option.some.inj hbytes).symm, ?_⟩
  rw [encodeGroup, toNat_byte (by omega), toNat_byte (by omega), toNat_byte (by omega)]
  congr 1
  · congr 1
    omega
  · congr 1
    · congr 1
      omega
    · congr 1
      · congr 1
        omega
      · congr 2
        omega

theorem decodeLast_encodeGroup (a b c : UInt8) :
    decodeLast (digit (a.toNat / 4)) (digit (a.toNat % 4 * 16 + b.toNat / 16))
      (digit (b.toNat % 16 * 4 + c.toNat / 64)) (digit (c.toNat % 64)) = some [a, b, c] := by
  rw [decodeLast, if_neg (digit_ne_pad (by omega)), decodeGroup_encodeGroup]

theorem decodeLast_encodeTwo (a b : UInt8) :
    decodeLast (digit (a.toNat / 4)) (digit (a.toNat % 4 * 16 + b.toNat / 16)) (digit (b.toNat % 16 * 4)) '='
      = some [a, b] := by
  have ha := a.toNat_lt
  have hb := b.toNat_lt
  simp only [decodeLast, if_pos, value_digit (show a.toNat / 4 < 64 by omega),
    value_digit (show a.toNat % 4 * 16 + b.toNat / 16 < 64 by omega),
    value_digit (show b.toNat % 16 * 4 < 64 by omega), Option.bind_eq_bind, Option.bind_some]
  rw [if_neg (digit_ne_pad (by omega)), if_pos (by omega), byte_toNat a (by omega), byte_toNat b (by omega)]

theorem decodeLast_encodeOne (a : UInt8) :
    decodeLast (digit (a.toNat / 4)) (digit (a.toNat % 4 * 16)) '=' '=' = some [a] := by
  have ha := a.toNat_lt
  simp only [decodeLast, if_pos, value_digit (show a.toNat / 4 < 64 by omega),
    value_digit (show a.toNat % 4 * 16 < 64 by omega), Option.bind_eq_bind, Option.bind_some]
  rw [if_pos (by omega), byte_toNat a (by omega)]

/-- What the last group decodes to encodes as this group. -/
theorem encode_of_decodeLast {w x y z : Char} {bytes : List UInt8} (h : decodeLast w x y z = some bytes) :
    encode bytes = [w, x, y, z] := by
  unfold decodeLast at h
  split at h
  case isTrue hz =>
    subst hz
    simp only [Option.bind_eq_bind, Option.bind_eq_some_iff] at h
    obtain ⟨w', hw, x', hx, h⟩ := h
    obtain ⟨hw, rfl⟩ := digit_of_value hw
    obtain ⟨hx, rfl⟩ := digit_of_value hx
    split at h
    case isTrue hy =>
      subst hy
      split at h
      case isTrue hbits =>
        cases h
        rw [encode, encodeOne, toNat_byte (by omega)]
        congr 1
        · congr 1
          omega
        · congr 2
          omega
      case isFalse => cases h
    case isFalse =>
      obtain ⟨y', hy, hbytes⟩ := Option.bind_eq_some_iff.1 h
      obtain ⟨hy, rfl⟩ := digit_of_value hy
      split at hbytes
      case isTrue hbits =>
        cases hbytes
        rw [encode, encodeTwo, toNat_byte (by omega), toNat_byte (by omega)]
        congr 1
        · congr 1
          omega
        · congr 1
          · congr 1
            omega
          · congr 2
            omega
      case isFalse => cases hbytes
  case isFalse =>
    obtain ⟨a, b, c, rfl, hgroup⟩ := encodeGroup_of_decodeGroup h
    rw [encode, hgroup]
    rfl

/-! ## Texts -/

theorem encode_eq_nil {bytes : List UInt8} (h : encode bytes = []) : bytes = [] := by
  match bytes with
  | [] => rfl
  | [a] => cases h
  | [a, b] => cases h
  | a :: b :: c :: rest => cases h

/-- A group before more text. -/
theorem decode_group (w x y z : Char) {rest : List Char} (h : rest ≠ []) :
    decode (w :: x :: y :: z :: rest)
      = (decodeGroup w x y z).bind fun bytes => (decode rest).bind fun more => some (bytes ++ more) := by
  cases rest with
  | nil => exact absurd rfl h
  | cons next rest => rfl

theorem decode_encode (bytes : List UInt8) : decode (encode bytes) = some bytes := by
  induction bytes using encode.induct with
  | case1 a b c rest ih =>
      rw [encode, encodeGroup]
      by_cases hrest : encode rest = []
      · rw [hrest, encode_eq_nil hrest]
        exact decodeLast_encodeGroup a b c
      · rw [List.cons_append, List.cons_append, List.cons_append, List.cons_append, List.nil_append,
          decode_group _ _ _ _ hrest, decodeGroup_encodeGroup, ih]
        rfl
  | case2 a b => exact decodeLast_encodeTwo a b
  | case3 a => exact decodeLast_encodeOne a
  | case4 => rfl

theorem encode_of_decode {text : List Char} {bytes : List UInt8} (h : decode text = some bytes) :
    encode bytes = text := by
  induction text using decode.induct generalizing bytes with
  | case1 =>
      cases h
      rfl
  | case2 w x y z => exact encode_of_decodeLast h
  | case3 w x y z rest hrest ih =>
      have hne : rest ≠ [] := fun hnil => hrest hnil
      rw [decode_group w x y z hne] at h
      obtain ⟨group, hgroup, h⟩ := Option.bind_eq_some_iff.1 h
      obtain ⟨more, hmore, h⟩ := Option.bind_eq_some_iff.1 h
      obtain ⟨a, b, c, rfl, hencoded⟩ := encodeGroup_of_decodeGroup hgroup
      cases h
      rw [List.cons_append, List.cons_append, List.cons_append, List.nil_append, encode, hencoded, ih hmore]
      rfl
  | case4 text hnil hfour hmore =>
      exfalso
      rw [decode] at h
      · cases h
      all_goals assumption

/-- The decoder takes exactly what the encoder writes. -/
theorem decode_eq_some_iff {text : List Char} {bytes : List UInt8} :
    decode text = some bytes ↔ encode bytes = text := by
  constructor
  · exact encode_of_decode
  · rintro rfl
    exact decode_encode bytes

example : encode [104, 101, 108, 108, 111] = "aGVsbG8=".toList := by decide

end Base64
