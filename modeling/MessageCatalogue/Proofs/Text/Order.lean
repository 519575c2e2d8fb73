import Mathlib.Data.String.Basic

/-! The order of texts by code points is the order of their bytes in UTF-8. -/

namespace MessageCatalogue.Text

/-- The bytes of a text in UTF-8. -/
def bytes (text : String) : List UInt8 := text.toUTF8.data.toList

/-- The bytes of a text are those of its characters in a row. -/
theorem bytes_eq (text : String) : bytes text = text.toList.flatMap String.utf8EncodeChar := by
  -- A text is stored as the encoding of its characters.
  have spelled : text.toUTF8 = text.toList.utf8Encode := by
    rw [← String.toByteArray_ofList, String.ofList_toList, String.toUTF8_eq_toByteArray]
  rw [bytes, spelled, List.utf8Encode, List.toList_data_toByteArray]

/-- A number as a first byte above some base, below a limit, and then some digits of six bits each. -/
def write (base limit : Nat) : Nat → Nat → List UInt8
  | 0, value => [UInt8.ofNat (value % limit + base)]
  | digits + 1, value => write base limit digits (value / 64) ++ [UInt8.ofNat (value % 64 + 128)]

variable {base limit : Nat}

/-- Bytes are ordered as numbers. -/
theorem ofNat_lt_ofNat {m n : Nat} (less : m < n) (small : n < 256) : UInt8.ofNat m < UInt8.ofNat n := by
  rw [UInt8.lt_iff_toNat_lt, UInt8.toNat_ofNat', UInt8.toNat_ofNat']
  omega

/-- A sequence begins with the leading part of its number above the base. -/
theorem write_eq_cons (base limit digits value : Nat) :
    ∃ rest, write base limit digits value = UInt8.ofNat (value / 64 ^ digits % limit + base) :: rest := by
  -- Each digit at the end takes six bits off the number, and the leading part remains.
  induction digits generalizing value with
  | zero => exact ⟨[], by simp [write]⟩
  | succ digits ih =>
    obtain ⟨rest, begun⟩ := ih (value / 64)
    have leading : value / 64 / 64 ^ digits = value / 64 ^ (digits + 1) := by
      rw [Nat.div_div_eq_div_mul, pow_succ, mul_comm]
    rw [leading] at begun
    exact ⟨rest ++ [UInt8.ofNat (value % 64 + 128)], by rw [write, begun, List.cons_append]⟩

/-- Of two numbers with equally many digits, the smaller one has the smaller bytes. -/
theorem write_append_lt (narrow : limit + base ≤ 256) (digits : Nat) {v w : Nat} (smaller : v < w)
    (fits : w / 64 ^ digits < limit) (x y : List UInt8) :
    write base limit digits v ++ x < write base limit digits w ++ y := by
  -- The last digit decides only between numbers that agree in all of their other digits.
  induction digits generalizing v w x y with
  | zero =>
    -- Without digits, the numbers are below the limit and stand in the first bytes as they are.
    rw [pow_zero, Nat.div_one] at fits
    have less : v % limit + base < w % limit + base := by
      rw [Nat.mod_eq_of_lt fits, Nat.mod_eq_of_lt (smaller.trans fits)]
      omega
    have small : w % limit + base < 256 := by
      rw [Nat.mod_eq_of_lt fits]
      omega
    exact List.cons_lt_cons_iff.mpr (.inl (ofNat_lt_ofNat less small))
  | succ digits ih =>
    rw [write, write, List.append_assoc, List.append_assoc]
    by_cases leading : v / 64 < w / 64
    · -- A difference in the leading digits decides, whatever the last ones are.
      have later : w / 64 / 64 ^ digits < limit := by
        rwa [Nat.div_div_eq_div_mul, mul_comm, ← pow_succ]
      exact ih leading later _ _
    · -- Otherwise the leading digits agree, so the last digit is smaller.
      have same : v / 64 = w / 64 := by omega
      have last : UInt8.ofNat (v % 64 + 128) < UInt8.ofNat (w % 64 + 128) :=
        ofNat_lt_ofNat (by omega) (by omega)
      rw [same]
      exact List.append_left_lt (List.cons_lt_cons_iff.mpr (.inl last))

/-- A sequence whose first byte stays below a base is smaller than any sequence above that base. -/
theorem write_append_lt_of_base {base' limit' : Nat}
    (apart : 0 < limit ∧ limit + base ≤ base' ∧ 0 < limit' ∧ limit' + base' ≤ 256) {digits digits' v w : Nat}
    (x y : List UInt8) : write base limit digits v ++ x < write base' limit' digits' w ++ y := by
  -- The first bytes lie on two sides of the larger base.
  obtain ⟨positive, below, positive', narrow⟩ := apart
  obtain ⟨rest, begun⟩ := write_eq_cons base limit digits v
  obtain ⟨rest', begun'⟩ := write_eq_cons base' limit' digits' w
  have first := Nat.mod_lt (v / 64 ^ digits) positive
  have first' := Nat.mod_lt (w / 64 ^ digits') positive'
  have less := ofNat_lt_ofNat (m := v / 64 ^ digits % limit + base) (n := w / 64 ^ digits' % limit' + base')
    (by omega) (by omega)
  rw [begun, begun']
  exact List.cons_lt_cons_iff.mpr (.inl less)

/-- The bytes of a character are those of its number, with as many digits as it takes. -/
theorem encodeChar_eq (c : Char) :
    String.utf8EncodeChar c =
      if c.val.toNat ≤ 0x7f then write 0 128 0 c.val.toNat
      else if c.val.toNat ≤ 0x7ff then write 0xc0 32 1 c.val.toNat
      else if c.val.toNat ≤ 0xffff then write 0xe0 16 2 c.val.toNat
      else write 0xf0 8 3 c.val.toNat := by
  -- Each case writes the number in its own number of digits to the base 64.
  unfold String.utf8EncodeChar
  generalize c.val.toNat = value
  simp only [write, Nat.div_div_eq_div_mul, List.cons_append, List.nil_append]
  split
  · -- A single byte is the number itself, which is below its limit already.
    have whole : value % 128 + 0 = value := by omega
    rw [whole]
  · rfl

/-- A smaller character has smaller bytes, whatever follows either of them. -/
theorem encodeChar_append_lt {a b : Char} (smaller : a < b) (x y : List UInt8) :
    String.utf8EncodeChar a ++ x < String.utf8EncodeChar b ++ y := by
  have values : a.val.toNat < b.val.toNat := smaller
  have bound : b.val.toNat < 0x110000 := by
    rcases b.valid with valid | valid <;> omega
  rw [encodeChar_eq, encodeChar_eq]
  generalize a.val.toNat = v at values ⊢
  generalize b.val.toNat = w at values bound ⊢
  -- A longer sequence has a larger first byte, and among sequences of one length the number decides.
  by_cases one : w ≤ 0x7f
  · -- Both characters take a single byte.
    rw [if_pos one, if_pos (by omega)]
    exact write_append_lt (by decide) 0 values (by omega) x y
  rw [if_neg one]
  by_cases two : w ≤ 0x7ff
  · -- The smaller character takes one byte or as many as the larger one.
    rw [if_pos two]
    split
    · exact write_append_lt_of_base (by decide) x y
    · rw [if_pos (by omega)]
      exact write_append_lt (by decide) 1 values (by omega) x y
  rw [if_neg two]
  by_cases three : w ≤ 0xffff
  · -- Two bytes are possible for the smaller one as well.
    rw [if_pos three]
    split
    · exact write_append_lt_of_base (by decide) x y
    · split
      · exact write_append_lt_of_base (by decide) x y
      · rw [if_pos (by omega)]
        exact write_append_lt (by decide) 2 values (by omega) x y
  -- The larger character takes all four bytes, and the smaller one may take any number of them.
  rw [if_neg three]
  split
  · exact write_append_lt_of_base (by decide) x y
  · split
    · exact write_append_lt_of_base (by decide) x y
    · split
      · exact write_append_lt_of_base (by decide) x y
      · exact write_append_lt (by decide) 3 values (by omega) x y

/-- Smaller characters in a row have smaller bytes. -/
theorem flatMap_encodeChar_lt {one other : List Char} (smaller : one < other) :
    one.flatMap String.utf8EncodeChar < other.flatMap String.utf8EncodeChar := by
  -- The first characters decide unless they are equal, and then the others do.
  induction one generalizing other with
  | nil =>
    cases other with
    | nil => exact absurd smaller (List.lt_irrefl [])
    | cons d rest =>
      -- Every character has a byte, so nothing is smaller than what begins with one.
      obtain ⟨first, more, begun⟩ := List.exists_cons_of_ne_nil (String.utf8EncodeChar_ne_nil (c := d))
      rw [List.flatMap_cons, begun]
      exact List.nil_lt_cons _ _
  | cons c rest ih =>
    cases other with
    | nil => exact absurd smaller (List.not_lt_nil _)
    | cons d rest' =>
      rw [List.flatMap_cons, List.flatMap_cons]
      rcases List.cons_lt_cons_iff.mp smaller with less | ⟨rfl, later⟩
      · exact encodeChar_append_lt less _ _
      · exact List.append_left_lt (ih later)

/-- Texts are in the order of their bytes. -/
theorem lt_iff_bytes_lt {one other : String} : one < other ↔ bytes one < bytes other := by
  -- Both orders are total, so it is enough that one follows from the other.
  have forward : ∀ {one other : String}, one < other → bytes one < bytes other := by
    intro one other smaller
    rw [bytes_eq, bytes_eq]
    exact flatMap_encodeChar_lt (String.lt_iff_toList_lt.mp smaller)
  constructor
  · exact forward
  · intro less
    rcases lt_trichotomy one other with smaller | same | larger
    · exact smaller
    · rw [same] at less
      exact absurd less (List.lt_irrefl _)
    · exact absurd (forward larger) (List.lt_asymm less)

end MessageCatalogue.Text
