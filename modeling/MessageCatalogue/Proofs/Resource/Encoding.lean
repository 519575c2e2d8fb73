import Mathlib.Data.String.Basic
import MessageCatalogue.Resource.Encoding

/-! A text that was written in an encoding is read in it, and nothing else is read as UTF-8. -/

namespace MessageCatalogue

/-- The bytes of an array are read from the first to the last. -/
theorem Text.toList_eq_data (bytes : ByteArray) : bytes.toList = bytes.data.toList := by
  -- The loop gathers in reverse what it has passed, and the rest is still to come.
  have gathered : ∀ index read, ByteArray.toList.loop bytes index read =
      read.reverse ++ bytes.data.toList.drop index := by
    intro index read
    fun_induction ByteArray.toList.loop bytes index read with
    | case1 index read within ih =>
      have inside : index < bytes.data.toList.length := within
      have here : bytes.get! index = bytes.data.toList[index] := by
        rw [ByteArray.get!, Array.getElem_toList, getElem!_pos bytes.data index within]
      rw [ih, List.drop_eq_getElem_cons inside, here, List.reverse_cons, List.append_assoc, List.singleton_append]
    | case2 index read beyond =>
      have passed : bytes.data.toList.length ≤ index := Nat.le_of_not_lt beyond
      rw [List.drop_eq_nil_of_le passed, List.append_nil]
  rw [ByteArray.toList, gathered, List.reverse_nil, List.nil_append, List.drop_zero]

/-- Every character of a text has a code point that fits in one byte. -/
def Text.IsNarrow (text : String) : Prop := ∀ c ∈ text.toList, c.toNat ≤ 0xFF

instance (text : String) : Decidable (Text.IsNarrow text) :=
  inferInstanceAs (Decidable (∀ c ∈ text.toList, c.toNat ≤ 0xFF))

namespace Encoding

open Text

/-- The bytes that write a text, which are one for each character in ISO 8859-1. -/
def encode (encoding : Encoding) (text : String) : ByteArray :=
  match encoding with
  | .utf8 => text.toUTF8
  | .latin1 => (text.toList.map fun c => UInt8.ofNat c.toNat).toByteArray

/-- The bytes of a text in UTF-8 make up this text. -/
theorem fromUTF8?_encode (text : String) : String.fromUTF8? (utf8.encode text) = some text := by
  have valid : text.toUTF8.IsValidUTF8 := text.isValidUTF8
  exact dif_pos valid

/-- A text that is written in UTF-8 is read as itself. -/
theorem decode_encode_utf8 (text : String) : utf8.decode (utf8.encode text) = .ok text := by
  rw [decode, Utf8.decode, fromUTF8?_encode]

/-- Bytes that write no text in UTF-8 are not read. -/
theorem decode_utf8_eq_error {bytes : ByteArray} (foreign : ∀ text, utf8.encode text ≠ bytes) :
    ∃ malformed, utf8.decode bytes = .error malformed := by
  have none : String.fromUTF8? bytes = none := by
    refine dif_neg fun valid => ?_
    -- Well-formed bytes would be those of the text that they make.
    exact foreign (String.fromUTF8 bytes valid) rfl
  exact ⟨_, by rw [decode, Utf8.decode, none]⟩

/-- A text of narrow characters is read as itself from one byte for each of them. -/
theorem decode_encode_latin1 {text : String} (narrow : IsNarrow text) :
    latin1.decode (latin1.encode text) = .ok text := by
  -- A code point that fits in a byte comes out of it again.
  have kept : ∀ c ∈ text.toList, Char.ofNat (UInt8.ofNat c.toNat).toNat = c := by
    intro c member
    have bound : c.toNat ≤ 0xFF := narrow c member
    rw [UInt8.toNat_ofNat', Nat.mod_eq_of_lt (by omega), Char.ofNat_toNat]
  have read : (text.toList.map fun c => UInt8.ofNat c.toNat).map (fun byte => Char.ofNat byte.toNat) =
      text.toList := by
    rw [List.map_map]
    exact (List.map_congr_left kept).trans (List.map_id' _)
  rw [decode, encode, toList_eq_data, List.toList_data_toByteArray, read, String.ofList_toList]

/-- A text of narrow characters is read as itself from its bytes in either encoding. -/
theorem decode_encode {text : String} (narrow : IsNarrow text) (encoding : Encoding) :
    encoding.decode (encoding.encode text) = .ok text := by
  cases encoding with
  | utf8 => exact decode_encode_utf8 text
  | latin1 => exact decode_encode_latin1 narrow

end Encoding

end MessageCatalogue
