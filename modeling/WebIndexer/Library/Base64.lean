import Mathlib.Data.List.Basic

/-! Base 64: three bytes become four digits, and a pad fills up the last four. The first digits of
a text are the digits of its first bytes, and different bytes have different texts.
-/

namespace WebIndexer.Library

/-- The digits of a base 64 text, and what it is filled up with. -/
structure Alphabet (α : Type*) where
  digit : Fin 64 → α
  pad : α
  digit_injective : Function.Injective digit
  digit_ne_pad : ∀ value, digit value ≠ pad

namespace Alphabet

variable {α : Type*} (alphabet : Alphabet α)

/-- The digit of the six low bits of a number. -/
def put (value : Nat) : α := alphabet.digit (Fin.ofNat 64 value)

/-- The text of some bytes. -/
def encode : List UInt8 → List α
  | [] => []
  | [a] => [alphabet.put (a.toNat / 4), alphabet.put (a.toNat * 16), alphabet.pad, alphabet.pad]
  | [a, b] => [
      alphabet.put (a.toNat / 4),
      alphabet.put (a.toNat * 16 + b.toNat / 16),
      alphabet.put (b.toNat * 4),
      alphabet.pad
    ]
  | a :: b :: c :: rest =>
      alphabet.put (a.toNat / 4)
        :: alphabet.put (a.toNat * 16 + b.toNat / 16)
        :: alphabet.put (b.toNat * 4 + c.toNat / 64)
        :: alphabet.put c.toNat
        :: encode rest

variable {alphabet}

/-- Digits are equal when the bits are. -/
theorem put_inj {value other : Nat}
    : alphabet.put value = alphabet.put other ↔ value % 64 = other % 64 := by
  rw [put, put, alphabet.digit_injective.eq_iff, Fin.ext_iff]
  rfl

/-- No digit is a pad. -/
@[simp] theorem put_ne_pad (value : Nat) : alphabet.put value ≠ alphabet.pad :=
  alphabet.digit_ne_pad _

@[simp] theorem pad_ne_put (value : Nat) : alphabet.pad ≠ alphabet.put value :=
  (alphabet.digit_ne_pad _).symm

/-- The first groups of digits are those of the first groups of bytes, by induction on their number.
-/
theorem take_encode (groups : Nat) (bytes : List UInt8)
    : (alphabet.encode bytes).take (4 * groups) = alphabet.encode (bytes.take (3 * groups)) := by
  induction groups generalizing bytes with
  | zero => simp [encode]
  | succ groups ih =>
      match bytes with
      | [] => simp [encode]
      | [a] => simp [encode, Nat.mul_succ]
      | [a, b] => simp [encode, Nat.mul_succ]
      | a :: b :: c :: rest => simp [encode, Nat.mul_succ, ih]

/-- The first byte can be read from two digits. -/
theorem first_byte {a a' : UInt8} {low low' : Nat} (high : a.toNat / 4 % 64 = a'.toNat / 4 % 64)
    (digit : (a.toNat * 16 + low) % 64 = (a'.toNat * 16 + low') % 64) (small : low < 16)
    (small' : low' < 16)
    : a = a' ∧ low = low' := by
  have bound := a.toNat_lt
  have bound' := a'.toNat_lt
  refine ⟨UInt8.toNat_inj.mp ?_, ?_⟩ <;> omega

/-- The second byte can be read from what the second digit holds of it and the third one. -/
theorem second_byte {b b' : UInt8} {low low' : Nat} (high : b.toNat / 16 = b'.toNat / 16)
    (digit : (b.toNat * 4 + low) % 64 = (b'.toNat * 4 + low') % 64) (small : low < 4)
    (small' : low' < 4)
    : b = b' ∧ low = low' := by
  have bound := b.toNat_lt
  have bound' := b'.toNat_lt
  refine ⟨UInt8.toNat_inj.mp ?_, ?_⟩ <;> omega

/-- Different bytes have different texts, by induction along the text of the one. -/
theorem encode_injective : Function.Injective alphabet.encode := by
  intro bytes
  fun_induction alphabet.encode bytes with
  | case1 =>
      intro other same
      match other with
      | [] => rfl
      | [_] | [_, _] | _ :: _ :: _ :: _ => simp [encode] at same
  | case2 a =>
      intro other same
      match other with
      | [] | [_, _] | _ :: _ :: _ :: _ => simp [encode] at same
      | [a'] =>
          simp only [encode, List.cons.injEq, put_inj, and_true] at same
          obtain ⟨rfl, -⟩ := @first_byte a a' 0 0 same.1 same.2 (by decide) (by decide)
          rfl
  | case3 a b =>
      intro other same
      match other with
      | [] | [_] | _ :: _ :: _ :: _ => simp [encode] at same
      | [a', b'] =>
          simp only [encode, List.cons.injEq, put_inj, and_true] at same
          have bound := b.toNat_lt
          have bound' := b'.toNat_lt
          obtain ⟨rfl, high⟩ := first_byte same.1 same.2.1 (by omega) (by omega)
          obtain ⟨rfl, -⟩ := @second_byte b b' 0 0 high same.2.2 (by decide) (by decide)
          rfl
  | case4 a b c rest ih =>
      intro other same
      match other with
      | [] | [_] | [_, _] => simp [encode] at same
      | a' :: b' :: c' :: rest' =>
          simp only [encode, List.cons.injEq, put_inj] at same
          obtain ⟨first, second, third, fourth, rest_same⟩ := same
          have bound := b.toNat_lt
          have bound' := b'.toNat_lt
          have bound_c := c.toNat_lt
          have bound_c' := c'.toNat_lt
          obtain ⟨rfl, high⟩ := first_byte first second (by omega) (by omega)
          obtain ⟨rfl, top⟩ := second_byte high third (by omega) (by omega)
          have last : c = c' := UInt8.toNat_inj.mp (by omega)
          rw [last, ih rest_same]

end Alphabet

/-- The usual digits: letters in upper and lower case, digits, plus and slash, and `=` as a pad. -/
def base64 : Alphabet Char where
  digit value :=
    let n := value.val
    if n < 26 then Char.ofNat (65 + n)
    else if n < 52 then Char.ofNat (97 + (n - 26))
    else if n < 62 then Char.ofNat (48 + (n - 52))
    else if n = 62 then '+'
    else '/'
  pad := '='
  digit_injective := by
    unfold Function.Injective
    decide +kernel
  digit_ne_pad := by decide +kernel

example : base64.encode [77, 97, 110, 77] = "TWFuTQ==".toList := by decide +kernel

end WebIndexer.Library
