import Mathlib.Data.List.Induction
import Mathlib.Data.Nat.Notation
import Mathlib.Tactic.NormNum

/-!
# Bytes of numbers and of text

* `toBe`, `ofBe` — a natural number in a fixed number of bytes, the most significant
  first; `i64ToBe`, `i64OfBe` — a signed one in two's complement;
* `utf8`, `ofUtf8` — the bytes of a text.

Each pair goes there and back both ways.
-/

namespace Bytes

/-! ## Numbers -/

/-- The lowest `width` bytes. -/
def toBe : Nat → Nat → List UInt8
  | 0, _ => []
  | width + 1, n => toBe width (n / 256) ++ [UInt8.ofNat (n % 256)]

def ofBe (bytes : List UInt8) : Nat := bytes.foldl (fun n byte => n * 256 + byte.toNat) 0

@[simp] theorem toBe_length (width n : Nat) : (toBe width n).length = width := by
  induction width generalizing n with
  | zero => rfl
  | succ width ih => rw [toBe, List.length_append, ih, List.length_singleton]

theorem ofBe_concat (bytes : List UInt8) (byte : UInt8) :
    ofBe (bytes ++ [byte]) = ofBe bytes * 256 + byte.toNat := by
  rw [ofBe, List.foldl_append]
  rfl

theorem ofBe_toBe {width n : Nat} (h : n < 256 ^ width) : ofBe (toBe width n) = n := by
  induction width generalizing n with
  | zero =>
    rw [pow_zero] at h
    rw [Nat.lt_one_iff.mp h]
    rfl
  | succ width ih =>
    rw [pow_succ] at h
    have hByte : (UInt8.ofNat (n % 256)).toNat = n % 256 :=
      UInt8.toNat_ofNat_of_lt' (Nat.mod_lt n (by decide))
    rw [toBe, ofBe_concat, ih (by omega), hByte]
    omega

theorem toBe_ofBe (bytes : List UInt8) : toBe bytes.length (ofBe bytes) = bytes := by
  induction bytes using List.reverseRecOn with
  | nil => rfl
  | append_singleton bytes byte ih =>
    have hByte : byte.toNat < 256 := byte.toNat_lt
    have hHigh : (ofBe bytes * 256 + byte.toNat) / 256 = ofBe bytes := by omega
    have hLow : (ofBe bytes * 256 + byte.toNat) % 256 = byte.toNat := by omega
    rw [List.length_append, List.length_singleton, toBe, ofBe_concat, hHigh, hLow, ih,
      UInt8.ofNat_toNat]

theorem ofBe_lt (bytes : List UInt8) : ofBe bytes < 256 ^ bytes.length := by
  induction bytes using List.reverseRecOn with
  | nil => exact Nat.one_pos
  | append_singleton bytes byte ih =>
    have hByte : byte.toNat < 256 := byte.toNat_lt
    rw [List.length_append, List.length_singleton, ofBe_concat, pow_succ]
    omega

/-- `i64::to_be_bytes`. -/
def i64ToBe (value : Int) : List UInt8 := toBe 8 (value % 2 ^ 64).toNat

/-- `i64::from_be_bytes`. -/
def i64OfBe (bytes : List UInt8) : Int :=
  let n := ofBe bytes
  if n < 2 ^ 63 then n else n - 2 ^ 64

def IsI64 (value : Int) : Prop := -2 ^ 63 ≤ value ∧ value < 2 ^ 63

theorem i64ToBe_length (value : Int) : (i64ToBe value).length = 8 := toBe_length ..

theorem i64OfBe_toBe {value : Int} (h : IsI64 value) : i64OfBe (i64ToBe value) = value := by
  obtain ⟨hLow, hHigh⟩ := h
  unfold i64OfBe i64ToBe
  rw [ofBe_toBe (by omega)]
  dsimp only
  split <;> omega

theorem isI64_i64OfBe {bytes : List UInt8} (h : bytes.length = 8) : IsI64 (i64OfBe bytes) := by
  have hLt := ofBe_lt bytes
  rw [h] at hLt
  unfold i64OfBe IsI64
  dsimp only
  split <;> omega

theorem i64ToBe_ofBe {bytes : List UInt8} (h : bytes.length = 8) :
    i64ToBe (i64OfBe bytes) = bytes := by
  have hLt := ofBe_lt bytes
  rw [h] at hLt
  have hValue : (i64OfBe bytes % 2 ^ 64).toNat = ofBe bytes := by
    unfold i64OfBe
    dsimp only
    split <;> omega
  rw [i64ToBe, hValue, ← h, toBe_ofBe]

/-! ## Text -/

def utf8 (text : String) : List UInt8 := text.toByteArray.data.toList

/-- `str::from_utf8`. -/
def ofUtf8 (bytes : List UInt8) : Option String := String.fromUTF8? ⟨bytes.toArray⟩

theorem utf8_length (text : String) : (utf8 text).length = text.utf8ByteSize := rfl

theorem ofUtf8_utf8 (text : String) : ofUtf8 (utf8 text) = some text := by
  have hBytes : (⟨(utf8 text).toArray⟩ : ByteArray) = text.toByteArray := rfl
  rw [ofUtf8, hBytes, String.fromUTF8?, dif_pos text.isValidUTF8]
  rfl

theorem utf8_ofUtf8 {bytes : List UInt8} {text : String} (h : ofUtf8 bytes = some text) :
    utf8 text = bytes := by
  unfold ofUtf8 String.fromUTF8? at h
  split at h
  · rw [← Option.some.inj h]
    rfl
  · cases h

end Bytes
