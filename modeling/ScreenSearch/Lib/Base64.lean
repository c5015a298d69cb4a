import ScreenSearch.Lib.Text
import Mathlib.Data.Fintype.Basic
import Mathlib.Data.List.FinRange
import Mathlib.Data.String.Basic

/-!
# Base64

What the users of a base64 codec rely on: it goes there and back, a text it accepts is
the only one for its bytes, and three bytes take four letters.

Main results:

* `Base64` — the codec with its laws;
* `urlSafeNoPad` — the URL-safe alphabet without padding obeys them.
-/

structure Base64 where
  encode : List UInt8 → String
  decode : String → Option (List UInt8)
  decode_encode : ∀ bytes, decode (encode bytes) = some bytes
  /-- Only the canonical text of the bytes is accepted. -/
  encode_decode : ∀ text bytes, decode text = some bytes → encode bytes = text
  encode_size : ∀ bytes, (encode bytes).utf8ByteSize = (4 * bytes.length + 2) / 3

namespace Base64

/-! ## Letters -/

def letters : List Char :=
  "ABCDEFGHIJKLMNOPQRSTUVWXYZabcdefghijklmnopqrstuvwxyz0123456789-_".toList

def letter (digit : Fin 64) : Char := letters.getD digit.val 'A'

def digit (c : Char) : Option (Fin 64) := (List.finRange 64).find? fun d => letter d == c

theorem digit_letter : ∀ d : Fin 64, digit (letter d) = some d := by decide +kernel

theorem letter_digit {c : Char} {d : Fin 64} (h : digit c = some d) : letter d = c :=
  beq_iff_eq.mp (List.find?_some h :)

theorem letter_size : ∀ d : Fin 64, (letter d).utf8Size = 1 := by decide +kernel

theorem digits_letters (digits : List (Fin 64)) :
    (digits.map letter).mapM digit = some digits := by
  induction digits with
  | nil => rfl
  | cons d digits ih =>
    rw [List.map_cons, List.mapM_cons, digit_letter, ih]
    rfl

theorem letters_digits {text : List Char} :
    ∀ {digits : List (Fin 64)}, text.mapM digit = some digits → digits.map letter = text := by
  induction text with
  | nil =>
    intro digits h
    obtain rfl := Option.some.inj h
    rfl
  | cons c text ih =>
    intro digits h
    rw [List.mapM_cons] at h
    obtain ⟨d, hDigit, h⟩ := Option.bind_eq_some_iff.mp h
    obtain ⟨rest, hRest, h⟩ := Option.bind_eq_some_iff.mp h
    obtain rfl := Option.some.inj h
    rw [List.map_cons, letter_digit hDigit, ih hRest]

theorem letters_size (digits : List (Fin 64)) :
    (String.ofList (digits.map letter)).utf8ByteSize = digits.length := by
  have hOne : ∀ c ∈ digits.map letter, c.utf8Size = 1 := by
    intro c hc
    obtain ⟨d, -, rfl⟩ := List.mem_map.mp hc
    exact letter_size d
  rw [Text.utf8ByteSize_eq_length hOne, List.length_map]

/-! ## Groups -/

def sextet (n : Nat) : Fin 64 := Fin.ofNat 64 n

/-- Three bytes are four sextets; what is left over is filled up with zero bits. -/
def toSextets : List UInt8 → List (Fin 64)
  | a :: b :: c :: rest =>
    sextet (a.toNat / 4) :: sextet (a.toNat % 4 * 16 + b.toNat / 16)
      :: sextet (b.toNat % 16 * 4 + c.toNat / 64) :: sextet (c.toNat % 64) :: toSextets rest
  | [a, b] =>
    [sextet (a.toNat / 4), sextet (a.toNat % 4 * 16 + b.toNat / 16), sextet (b.toNat % 16 * 4)]
  | [a] => [sextet (a.toNat / 4), sextet (a.toNat % 4 * 16)]
  | [] => []

/-- Bits that no byte takes have to be zero. -/
def ofSextets : List (Fin 64) → Option (List UInt8)
  | w :: x :: y :: z :: rest =>
    (ofSextets rest).map fun bytes =>
      UInt8.ofNat (w.val * 4 + x.val / 16) :: UInt8.ofNat (x.val % 16 * 16 + y.val / 4)
        :: UInt8.ofNat (y.val % 4 * 64 + z.val) :: bytes
  | [w, x, y] =>
    if y.val % 4 = 0 then
      some [UInt8.ofNat (w.val * 4 + x.val / 16), UInt8.ofNat (x.val % 16 * 16 + y.val / 4)]
    else none
  | [w, x] => if x.val % 16 = 0 then some [UInt8.ofNat (w.val * 4 + x.val / 16)] else none
  | [_] => none
  | [] => some []

theorem sextet_val {n : Nat} (h : n < 64) : (sextet n).val = n := Nat.mod_eq_of_lt h

theorem byte_eq {n : Nat} {b : UInt8} (h : n = b.toNat) : UInt8.ofNat n = b := by
  rw [h, UInt8.ofNat_toNat]

theorem byte_toNat {n : Nat} (h : n < 256) : (UInt8.ofNat n).toNat = n :=
  UInt8.toNat_ofNat_of_lt' h

theorem sextet_eq {n : Nat} {d : Fin 64} (h : n = d.val) : sextet n = d := by
  refine Fin.ext ?_
  rw [h, sextet_val d.isLt]

theorem ofSextets_toSextets (bytes : List UInt8) : ofSextets (toSextets bytes) = some bytes := by
  induction bytes using toSextets.induct with
  | case1 a b c rest ih =>
    have hA : a.toNat < 256 := a.toNat_lt
    have hB : b.toNat < 256 := b.toNat_lt
    have hC : c.toNat < 256 := c.toNat_lt
    rw [toSextets, ofSextets, ih, Option.map_some, sextet_val (n := a.toNat / 4) (by omega),
      sextet_val (n := a.toNat % 4 * 16 + b.toNat / 16) (by omega),
      sextet_val (n := b.toNat % 16 * 4 + c.toNat / 64) (by omega),
      sextet_val (n := c.toNat % 64) (by omega)]
    rw [byte_eq (b := a) (by omega), byte_eq (b := b) (by omega),
      byte_eq (b := c) (by omega)]
  | case2 a b =>
    have hA : a.toNat < 256 := a.toNat_lt
    have hB : b.toNat < 256 := b.toNat_lt
    rw [toSextets, ofSextets, sextet_val (n := a.toNat / 4) (by omega),
      sextet_val (n := a.toNat % 4 * 16 + b.toNat / 16) (by omega),
      sextet_val (n := b.toNat % 16 * 4) (by omega), if_pos (by omega)]
    rw [byte_eq (b := a) (by omega), byte_eq (b := b) (by omega)]
  | case3 a =>
    have hA : a.toNat < 256 := a.toNat_lt
    rw [toSextets, ofSextets, sextet_val (n := a.toNat / 4) (by omega),
      sextet_val (n := a.toNat % 4 * 16) (by omega), if_pos (by omega)]
    rw [byte_eq (b := a) (by omega)]
  | case4 => rfl

theorem toSextets_ofSextets (digits : List (Fin 64)) :
    ∀ {bytes : List UInt8}, ofSextets digits = some bytes → toSextets bytes = digits := by
  induction digits using ofSextets.induct with
  | case1 w x y z rest ih =>
    intro bytes h
    rw [ofSextets] at h
    obtain ⟨decoded, hRest, rfl⟩ := Option.map_eq_some_iff.mp h
    have hW := w.isLt
    have hX := x.isLt
    have hY := y.isLt
    have hZ := z.isLt
    rw [toSextets, ih hRest, byte_toNat (n := w.val * 4 + x.val / 16) (by omega),
      byte_toNat (n := x.val % 16 * 16 + y.val / 4) (by omega),
      byte_toNat (n := y.val % 4 * 64 + z.val) (by omega)]
    rw [sextet_eq (d := w) (by omega), sextet_eq (d := x) (by omega), sextet_eq (d := y) (by omega),
      sextet_eq (d := z) (by omega)]
  | case2 w x y hZero =>
    intro bytes h
    rw [ofSextets, if_pos hZero] at h
    obtain rfl := Option.some.inj h
    have hW := w.isLt
    have hX := x.isLt
    have hY := y.isLt
    rw [toSextets, byte_toNat (n := w.val * 4 + x.val / 16) (by omega),
      byte_toNat (n := x.val % 16 * 16 + y.val / 4) (by omega)]
    rw [sextet_eq (d := w) (by omega), sextet_eq (d := x) (by omega), sextet_eq (d := y) (by omega)]
  | case3 w x y hZero =>
    intro bytes h
    rw [ofSextets, if_neg hZero] at h
    cases h
  | case4 w x hZero =>
    intro bytes h
    rw [ofSextets, if_pos hZero] at h
    obtain rfl := Option.some.inj h
    have hW := w.isLt
    have hX := x.isLt
    rw [toSextets, byte_toNat (n := w.val * 4 + x.val / 16) (by omega)]
    rw [sextet_eq (d := w) (by omega), sextet_eq (d := x) (by omega)]
  | case5 w x hZero =>
    intro bytes h
    rw [ofSextets, if_neg hZero] at h
    cases h
  | case6 w =>
    intro bytes h
    cases h
  | case7 =>
    intro bytes h
    obtain rfl := Option.some.inj h
    rfl

theorem toSextets_length (bytes : List UInt8) :
    (toSextets bytes).length = (4 * bytes.length + 2) / 3 := by
  induction bytes using toSextets.induct with
  | case1 a b c rest ih =>
    rw [toSextets]
    simp only [List.length_cons, ih]
    omega
  | case2 a b => simp [toSextets]
  | case3 a => simp [toSextets]
  | case4 => rfl

/-- The URL-safe alphabet without padding. -/
def urlSafeNoPad : Base64 where
  encode bytes := String.ofList ((toSextets bytes).map letter)
  decode text := (text.toList.mapM digit).bind ofSextets
  decode_encode bytes := by
    rw [String.toList_ofList, digits_letters, Option.bind_some, ofSextets_toSextets]
  encode_decode text bytes h := by
    obtain ⟨digits, hDigits, hBytes⟩ := Option.bind_eq_some_iff.mp h
    rw [toSextets_ofSextets digits hBytes, letters_digits hDigits, String.ofList_toList]
  encode_size bytes := by rw [letters_size, toSextets_length]

end Base64
