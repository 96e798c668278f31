import BorderControl.Text
import Mathlib.Tactic.SplitIfs

/-!
# Texts as bytes

The library reads texts character by character and compares them by code point. In memory a
text is its UTF-8 bytes. To cut it at a byte is safe only between two characters (`cutAt`), so
a reader that looks at bytes has to ask for a boundary before it cuts. `scanDigits` takes digits
in that way, and never cuts wrongly: it finds what `takeDigits?` finds in the characters
(`scanDigits_eq`).

Texts in the order of their code points are also in the order of their bytes
(`toUTF8_lt_of_lt`).
-/

namespace BorderControl

/-! ## Lists of bytes -/

theorem toList_loop (bytes : ByteArray) (i : Nat) (r : List UInt8) :
    ByteArray.toList.loop bytes i r = r.reverse ++ bytes.data.toList.drop i := by
  rw [ByteArray.toList.loop]
  split
  · next h =>
    have hget : bytes.data.toList.drop i = bytes.get! i :: bytes.data.toList.drop (i + 1) := by
      have h' : i < bytes.data.toList.length := h
      have hbyte : bytes.get! i = bytes.data.toList[i] := getElem!_pos bytes.data i h
      rw [List.drop_eq_getElem_cons h', hbyte]
    rw [toList_loop bytes (i + 1), hget, List.reverse_cons, List.append_assoc]
    rfl
  · next h => rw [List.drop_eq_nil_of_le (Nat.le_of_not_lt h), List.append_nil]
termination_by bytes.size - i

theorem toList_toUTF8 (cs : List Char) :
    (String.ofList cs).toUTF8.toList = cs.flatMap String.utf8EncodeChar := by
  rw [ByteArray.toList, toList_loop, List.drop_zero, List.reverse_nil, List.nil_append,
    String.toUTF8, String.toByteArray_ofList, List.utf8Encode, List.toList_data_toByteArray]

theorem fromUTF8?_toUTF8 (text : String) : String.fromUTF8? text.toUTF8 = some text :=
  dif_pos text.isValidUTF8

namespace Text

/-! ## Cuts -/

/-- A text was to be cut where two characters do not meet. -/
structure BadCut where
  position : Nat
deriving DecidableEq, Repr

/-- The bytes up to a position and those behind it, each as a text. -/
def cutAt (n : Nat) (s : String) : Except BadCut (String × String) :=
  match String.fromUTF8? (s.toUTF8.extract 0 n),
      String.fromUTF8? (s.toUTF8.extract n s.utf8ByteSize) with
  | some front, some back => if n ≤ s.utf8ByteSize then .ok (front, back) else .error ⟨n⟩
  | _, _ => .error ⟨n⟩

theorem cutAt_append (a b : String) : cutAt a.utf8ByteSize (a ++ b) = .ok (a, b) := by
  have hfront : (a ++ b).toUTF8.extract 0 a.utf8ByteSize = a.toUTF8 := by
    rw [String.toUTF8, String.toByteArray_append]
    exact ByteArray.extract_append_eq_left rfl
  have hback : (a ++ b).toUTF8.extract a.utf8ByteSize (a ++ b).utf8ByteSize = b.toUTF8 := by
    rw [String.toUTF8, String.toByteArray_append]
    exact ByteArray.extract_append_eq_right rfl (String.utf8ByteSize_append ..)
  have hsize : a.utf8ByteSize ≤ (a ++ b).utf8ByteSize := by
    rw [String.utf8ByteSize_append]
    exact Nat.le_add_right ..
  rw [cutAt, hfront, hback, fromUTF8?_toUTF8, fromUTF8?_toUTF8]
  exact if_pos hsize

/-- A cut within a character is refused. -/
example : cutAt 2 "aé" = .error ⟨2⟩ := by cbv

/-! ## Digits -/

theorem takeDigits?_eq_some_iff {n : Nat} {s digits rest : List Char} :
    takeDigits? n s = some (digits, rest) ↔
      s = digits ++ rest ∧ digits.length = n ∧ digits.all Char.isDigit = true := by
  rw [takeDigits?]
  constructor
  · intro h
    split at h
    · next hdigits =>
      obtain ⟨rfl, rfl⟩ := Prod.mk.inj (Option.some.inj h)
      rw [Bool.and_eq_true, decide_eq_true_eq] at hdigits
      exact ⟨(List.take_append_drop n s).symm, hdigits⟩
    · cases h
  · rintro ⟨rfl, rfl, hdigits⟩
    simp [hdigits]

def isDigitByte (b : UInt8) : Bool := 48 ≤ b && b ≤ 57

theorem isDigitByte_ofNat {n : Nat} (h : n < 256) :
    isDigitByte (UInt8.ofNat n) = decide (48 ≤ n ∧ n ≤ 57) := by
  have hn : (UInt8.ofNat n).toNat = n := UInt8.toNat_ofNat_of_lt h
  rw [isDigitByte, Bool.decide_and]
  simp only [UInt8.le_iff_toNat_le, hn]
  rfl

theorem isDigit_eq (c : Char) : c.isDigit = decide (48 ≤ c.val.toNat ∧ c.val.toNat ≤ 57) := by
  rw [Char.isDigit, Bool.decide_and]
  simp only [ge_iff_le, UInt32.le_iff_toNat_le]
  rfl

/-- A character is a digit if all its bytes are. -/
theorem all_isDigitByte_utf8EncodeChar (c : Char) :
    (String.utf8EncodeChar c).all isDigitByte = c.isDigit := by
  rw [isDigit_eq, String.utf8EncodeChar]
  -- a character of several bytes is no digit, and neither is its first byte
  have hlong : ∀ n bytes, 192 ≤ n → n < 256 → ¬ c.val.toNat ≤ 127 →
      (UInt8.ofNat n :: bytes).all isDigitByte =
        decide (48 ≤ c.val.toNat ∧ c.val.toNat ≤ 57) := by
    intro n bytes hlow hhigh h
    rw [List.all_cons, isDigitByte_ofNat hhigh, decide_eq_false (by omega), Bool.false_and,
      decide_eq_false (by omega)]
  split
  · rw [List.all_cons, isDigitByte_ofNat (by omega), List.all_nil, Bool.and_true]
  next h =>
    split
    · exact hlong _ _ (by omega) (by omega) h
    split <;> exact hlong _ _ (by omega) (by omega) h

theorem all_isDigitByte (s : String) :
    s.toUTF8.toList.all isDigitByte = s.toList.all Char.isDigit := by
  have hbytes := toList_toUTF8 s.toList
  rw [String.ofList_toList] at hbytes
  rw [hbytes, List.all_flatMap]
  simp only [all_isDigitByte_utf8EncodeChar]

theorem utf8ByteSize_cons (c : Char) (cs : List Char) :
    (String.ofList (c :: cs)).utf8ByteSize = c.utf8Size + (String.ofList cs).utf8ByteSize := by
  rw [← String.size_toByteArray, ← String.size_toByteArray, String.toByteArray_ofList,
    String.toByteArray_ofList, List.utf8Encode_cons, ByteArray.size_append,
    List.utf8Encode_singleton, List.size_toByteArray, String.length_utf8EncodeChar]

theorem utf8Size_of_isDigit {c : Char} (h : c.isDigit = true) : c.utf8Size = 1 := by
  rw [isDigit_eq, decide_eq_true_eq] at h
  rw [← String.length_utf8EncodeChar, String.utf8EncodeChar, if_pos (by omega),
    List.length_singleton]

theorem utf8ByteSize_of_digits : ∀ {digits : List Char}, digits.all Char.isDigit = true →
    (String.ofList digits).utf8ByteSize = digits.length
  | [], _ => rfl
  | c :: digits, h => by
    rw [List.all_cons, Bool.and_eq_true] at h
    rw [utf8ByteSize_cons, utf8ByteSize_of_digits h.2, utf8Size_of_isDigit h.1,
      List.length_cons, Nat.add_comm]

/-- Takes the first `n` bytes, if there is a boundary behind them and they are digits. -/
def scanDigits (n : Nat) (s : String) : Except BadCut (Option (String × String)) :=
  if s.utf8ByteSize < n || !String.Pos.Raw.isValid s ⟨n⟩ then .ok none
  else do
    let (digits, rest) ← cutAt n s
    return if digits.toUTF8.toList.all isDigitByte then some (digits, rest) else none

theorem scanDigits_append (a b : String) : scanDigits a.utf8ByteSize (a ++ b) =
    .ok (if a.toList.all Char.isDigit then some (a, b) else none) := by
  have hvalid : String.Pos.Raw.isValid (a ++ b) ⟨a.utf8ByteSize⟩ = true :=
    String.Pos.Raw.isValid_eq_true_iff.mpr
      (String.Pos.Raw.isValid_iff_exists_append.mpr ⟨a, b, rfl, rfl⟩)
  rw [scanDigits, if_neg (by simp [hvalid]), cutAt_append, ← all_isDigitByte]
  rfl

/-- The bytes are never cut wrongly, and give what the characters give. -/
theorem scanDigits_eq (n : Nat) (s : String) : scanDigits n s =
    .ok ((takeDigits? n s.toList).map fun (digits, rest) =>
      (String.ofList digits, String.ofList rest)) := by
  by_cases hcut : String.Pos.Raw.IsValid s ⟨n⟩
  · obtain ⟨a, b, rfl, hn⟩ := String.Pos.Raw.isValid_iff_exists_append.mp hcut
    obtain rfl : n = a.utf8ByteSize := congrArg String.Pos.Raw.byteIdx hn
    rw [scanDigits_append]
    split
    · next hdigits =>
      have hlength : a.toList.length = a.utf8ByteSize := by
        rw [← utf8ByteSize_of_digits hdigits, String.ofList_toList]
      rw [takeDigits?_eq_some_iff.mpr ⟨String.toList_append, hlength, hdigits⟩]
      simp
    · next hdigits =>
      -- digits taken from the characters are as many bytes, so they would be `a`
      cases htake : takeDigits? a.utf8ByteSize (a ++ b).toList with
      | none => rfl
      | some p =>
        obtain ⟨hs, hlength, hp⟩ := takeDigits?_eq_some_iff.mp htake
        have hcut := cutAt_append (String.ofList p.1) (String.ofList p.2)
        rw [← String.ofList_append, ← hs, String.ofList_toList, utf8ByteSize_of_digits hp,
          hlength, cutAt_append, Except.ok.injEq] at hcut
        rw [(Prod.mk.inj hcut).1, String.toList_ofList] at hdigits
        exact absurd hp hdigits
  · have hfail : scanDigits n s = .ok none := by
      simp only [scanDigits, String.Pos.Raw.isValid_eq_false_iff.mpr hcut, Bool.not_false,
        Bool.or_true]
      rfl
    cases htake : takeDigits? n s.toList with
    | none => exact hfail
    | some p =>
      obtain ⟨hs, hlength, hp⟩ := takeDigits?_eq_some_iff.mp htake
      refine absurd (String.Pos.Raw.isValid_iff_exists_append.mpr
        ⟨String.ofList p.1, String.ofList p.2, ?_, ?_⟩) hcut
      · rw [← String.ofList_append, ← hs, String.ofList_toList]
      · rw [← hlength, ← utf8ByteSize_of_digits hp]
        rfl

/-! ## Order -/

theorem ofNat_cons_lt_ofNat_cons {a b : Nat} (ha : a < 256) (hb : b < 256) {s t : List UInt8} :
    UInt8.ofNat a :: s < UInt8.ofNat b :: t ↔ a < b ∨ a = b ∧ s < t := by
  have ha' : (UInt8.ofNat a).toNat = a := UInt8.toNat_ofNat_of_lt ha
  have hb' : (UInt8.ofNat b).toNat = b := UInt8.toNat_ofNat_of_lt hb
  rw [List.cons_lt_cons_iff, UInt8.lt_iff_toNat_lt, ← UInt8.toNat_inj, ha', hb']

/-- The bytes of a smaller character come first, whatever follows. -/
theorem utf8EncodeChar_append_lt {c d : Char} (h : c < d) (s t : List UInt8) :
    String.utf8EncodeChar c ++ s < String.utf8EncodeChar d ++ t := by
  have hlt : c.val.toNat < d.val.toNat := h
  have hd : d.val.toNat < 1114112 := by
    rcases d.valid with hd | ⟨-, hd⟩ <;> omega
  simp only [String.utf8EncodeChar]
  generalize c.val.toNat = m at *
  generalize d.val.toNat = n at *
  -- the bytes are the digits to base 64, with the number of bytes in the first of them
  have hm₂ : m / 64 / 64 = m / 4096 := Nat.div_div_eq_div_mul ..
  have hn₂ : n / 64 / 64 = n / 4096 := Nat.div_div_eq_div_mul ..
  have hm₃ : m / 4096 / 64 = m / 262144 := Nat.div_div_eq_div_mul ..
  have hn₃ : n / 4096 / 64 = n / 262144 := Nat.div_div_eq_div_mul ..
  have hm₄ : m / 262144 % 8 = m / 262144 := Nat.mod_eq_of_lt (by omega)
  have hn₄ : n / 262144 % 8 = n / 262144 := Nat.mod_eq_of_lt (by omega)
  split_ifs <;>
    simp (disch := omega) only [List.cons_append, List.nil_append, ofNat_cons_lt_ofNat_cons] <;>
    omega

theorem flatMap_utf8EncodeChar_lt {cs ds : List Char} (h : cs < ds) :
    cs.flatMap String.utf8EncodeChar < ds.flatMap String.utf8EncodeChar := by
  induction h with
  | nil =>
    next d ds =>
    obtain ⟨b, bs, hb⟩ := List.exists_cons_of_ne_nil (String.utf8EncodeChar_ne_nil (c := d))
    rw [List.flatMap_nil, List.flatMap_cons, hb]
    exact List.nil_lt_cons ..
  | rel hcd => exact utf8EncodeChar_append_lt hcd _ _
  | cons _ ih => exact List.append_left_lt ih

theorem toUTF8_lt_of_lt {s t : String} (h : s < t) : s.toUTF8.toList < t.toUTF8.toList := by
  have hchars := flatMap_utf8EncodeChar_lt (String.lt_iff.mp h)
  rwa [← toList_toUTF8, ← toList_toUTF8, String.ofList_toList, String.ofList_toList] at hchars

end Text

end BorderControl
