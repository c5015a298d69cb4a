import ScreenSearch.Lib.Bytes
import ScreenSearch.Lib.Text

/-!
# Form-encoded queries

What the users of an `application/x-www-form-urlencoded` serializer rely on: a byte is written
as itself, as `+` if it is a blank, or as two hex digits after `%`, and the separators never
stand for themselves inside a component.

Main results:

* `FormUrlencoded` — the serializer with its laws;
* `splitOn_query`, `splitOnce_pair` — the pieces of a query are its pairs, and those of a pair
  its two components;
* `standard` — the serializer of the URL standard obeys the laws.
-/

open Bytes

namespace FormUrlencoded

/-- A hex digit in capitals. -/
def hexDigit (n : UInt8) : UInt8 := if n < 10 then n + 48 else n + 55

/-- What may stand for a byte. -/
inductive StandsFor : UInt8 → List UInt8 → Prop
  | plain {b : UInt8} (h : b < 128 ∧ b ≠ 43 ∧ b ≠ 37 ∧ b ≠ 38 ∧ b ≠ 61) : StandsFor b [b]
  | blank : StandsFor 32 [43]
  | escaped (b : UInt8) : StandsFor b [37, hexDigit (b / 16), hexDigit (b % 16)]

end FormUrlencoded

structure FormUrlencoded where
  byte : UInt8 → List UInt8
  component : String → String
  byte_standsFor : ∀ b, FormUrlencoded.StandsFor b (byte b)
  component_bytes : ∀ text, utf8 (component text) = (utf8 text).flatMap byte

namespace FormUrlencoded

/-! ## Bytes of scalars -/

theorem utf8_ofList (chars : List Char) :
    utf8 (String.ofList chars) = chars.flatMap String.utf8EncodeChar := by
  unfold utf8
  rw [String.toByteArray_ofList, List.utf8Encode, List.data_toByteArray, List.toList_toArray]

theorem utf8_eq_flatMap (text : String) :
    utf8 text = text.toList.flatMap String.utf8EncodeChar := by
  rw [← utf8_ofList, String.ofList_toList]

/-- A scalar below 128 is its own byte. -/
theorem utf8EncodeChar_ascii {b : UInt8} (h : b < 128) :
    String.utf8EncodeChar (Char.ofNat b.toNat) = [b] := by
  have hAll : ∀ n : Fin 128, String.utf8EncodeChar (Char.ofNat n.val) = [UInt8.ofNat n.val] := by
    decide +kernel
  have hLt : b.toNat < 128 := UInt8.lt_iff_toNat_lt.mp h
  have hByte := hAll ⟨b.toNat, hLt⟩
  rwa [UInt8.ofNat_toNat] at hByte

/-- The text of bytes that are all below 128. -/
def ofAscii (bytes : List UInt8) : String :=
  String.ofList (bytes.map fun b => Char.ofNat b.toNat)

theorem utf8_ofAscii {bytes : List UInt8} (h : ∀ b ∈ bytes, b < 128) :
    utf8 (ofAscii bytes) = bytes := by
  rw [ofAscii, utf8_ofList, List.flatMap_map]
  induction bytes with
  | nil => rfl
  | cons b bytes ih =>
    rw [List.flatMap_cons, utf8EncodeChar_ascii (h b List.mem_cons_self),
      ih fun b hb => h b (List.mem_cons_of_mem _ hb)]
    rfl

/-! ## Queries -/

/-- The letters a digit may be. -/
theorem hexDigit_bounds {n : UInt8} (h : n < 16) :
    hexDigit n < 128 ∧ hexDigit n ≠ 38 ∧ hexDigit n ≠ 61 := by
  have hAll : ∀ n : Fin 16, hexDigit (UInt8.ofNat n.val) < 128 ∧
      hexDigit (UInt8.ofNat n.val) ≠ 38 ∧ hexDigit (UInt8.ofNat n.val) ≠ 61 := by decide +kernel
  have hDigit := hAll ⟨n.toNat, UInt8.lt_iff_toNat_lt.mp h⟩
  rwa [UInt8.ofNat_toNat] at hDigit

theorem div_lt (b : UInt8) : b / 16 < 16 := by
  rw [UInt8.lt_iff_toNat_lt, UInt8.toNat_div]
  have := b.toNat_lt
  show b.toNat / 16 < 16
  omega

theorem mod_lt (b : UInt8) : b % 16 < 16 := by
  rw [UInt8.lt_iff_toNat_lt, UInt8.toNat_mod]
  exact Nat.mod_lt _ (by decide)

/-- No separator stands for a byte. -/
theorem StandsFor.bounds {b : UInt8} {bytes : List UInt8} (h : StandsFor b bytes) :
    ∀ c ∈ bytes, c < 128 ∧ c ≠ 38 ∧ c ≠ 61 := by
  rcases h with hPlain | - | -
  · simp only [List.mem_singleton, forall_eq]
    exact ⟨hPlain.1, hPlain.2.2.2.1, hPlain.2.2.2.2⟩
  · simp only [List.mem_singleton, forall_eq]
    decide
  · simp only [List.mem_cons, List.not_mem_nil, or_false, forall_eq_or_imp, forall_eq]
    exact ⟨by decide, hexDigit_bounds (div_lt b), hexDigit_bounds (mod_lt b)⟩

variable (form : FormUrlencoded)

def pair (p : String × String) : List Char :=
  (form.component p.1).toList ++ (['='] ++ (form.component p.2).toList)

/-- `serde_urlencoded::to_string`. -/
def query (params : List (String × String)) : String :=
  String.ofList (['&'].intercalate (params.map form.pair))

/-- The separators are in no component. -/
theorem not_mem_component {c : Char} (hSep : c = '&' ∨ c = '=') (text : String) :
    c ∉ (form.component text).toList := by
  intro hMem
  have hBytes := form.component_bytes text
  rw [utf8_eq_flatMap] at hBytes
  have hByte : ∀ b ∈ String.utf8EncodeChar c, b < 128 ∧ b ≠ 38 ∧ b ≠ 61 := by
    intro b hb
    have hIn : b ∈ (utf8 text).flatMap form.byte := by
      rw [← hBytes]
      exact List.mem_flatMap.mpr ⟨c, hMem, hb⟩
    obtain ⟨source, -, hIn⟩ := List.mem_flatMap.mp hIn
    exact (form.byte_standsFor source).bounds b hIn
  rcases hSep with rfl | rfl
  · exact (hByte 38 (by decide)).2.1 rfl
  · exact (hByte 61 (by decide)).2.2 rfl

theorem splitOn_query {params : List (String × String)} (h : params ≠ []) :
    (form.query params).toList.splitOn '&' = params.map form.pair := by
  unfold query
  rw [String.toList_ofList, List.splitOn_intercalate]
  · intro piece hPiece
    obtain ⟨p, -, rfl⟩ := List.mem_map.mp hPiece
    unfold pair
    simp only [List.mem_append, List.mem_singleton, not_or]
    exact ⟨form.not_mem_component (.inl rfl) _, by decide, form.not_mem_component (.inl rfl) _⟩
  · simpa using h

theorem splitOnce_pair (p : String × String) :
    Text.splitOnce "=" (String.ofList (form.pair p)) =
      some (form.component p.1, form.component p.2) := by
  have hFirst := @Text.splitAtFirst_append ['='] (by decide)
    (form.component p.1).toList (form.component p.2).toList (by
      intro left right hSplit hSome hHere
      rcases right with - | ⟨c, right⟩
      · exact hSome rfl
      · obtain ⟨rfl, -⟩ := List.cons_prefix_cons.mp hHere
        refine form.not_mem_component (.inr rfl) p.1 ?_
        rw [hSplit]
        exact List.mem_append_right _ List.mem_cons_self)
  have hSep : "=".toList = ['='] := by decide
  unfold Text.splitOnce
  rw [hSep, String.toList_ofList]
  unfold pair
  rw [hFirst, Option.map_some, String.ofList_toList, String.ofList_toList]

/-! ## The serializer of the URL standard -/

/-- Letters, digits and `*-._` are themselves. -/
def unreserved (b : UInt8) : Bool :=
  (48 ≤ b && b ≤ 57) || (65 ≤ b && b ≤ 90) || (97 ≤ b && b ≤ 122) || [42, 45, 46, 95].contains b

def standardByte (b : UInt8) : List UInt8 :=
  if unreserved b then [b]
  else if b = 32 then [43]
  else [37, hexDigit (b / 16), hexDigit (b % 16)]

theorem standardByte_standsFor (b : UInt8) : StandsFor b (standardByte b) := by
  have hPlain : ∀ n : Fin 256, unreserved (UInt8.ofNat n.val) = true →
      UInt8.ofNat n.val < 128 ∧ UInt8.ofNat n.val ≠ 43 ∧ UInt8.ofNat n.val ≠ 37 ∧
        UInt8.ofNat n.val ≠ 38 ∧ UInt8.ofNat n.val ≠ 61 := by decide +kernel
  unfold standardByte
  split
  · next hUnreserved =>
    have hByte := hPlain ⟨b.toNat, b.toNat_lt⟩
    rw [UInt8.ofNat_toNat] at hByte
    exact .plain (hByte hUnreserved)
  · split
    · next hBlank =>
      subst hBlank
      exact .blank
    · exact .escaped b

def standard : FormUrlencoded where
  byte := standardByte
  component text := ofAscii ((utf8 text).flatMap standardByte)
  byte_standsFor := standardByte_standsFor
  component_bytes text := utf8_ofAscii (by
    intro b hb
    obtain ⟨source, -, hb⟩ := List.mem_flatMap.mp hb
    exact ((standardByte_standsFor source).bounds b hb).1)

example : standard.query [("app", "a&b"), ("q", "é =")] = "app=a%26b&q=%C3%A9+%3D" := by
  decide +kernel

end FormUrlencoded
