import BorderControl.Decimal.Reader
import BorderControl.Timestamp
import Mathlib.Data.List.DropRight
import Mathlib.Data.List.TakeWhile

/-!
# Numbers and times read back

Digits are read up to the first character that is none (`takeWhile_isDigit_append`), and
the digits of a number, with zeros in front or not, stand for that number
(`numeral_padded`).

A decimal is read back from its text with its magnitude and its scale; a zero loses its
sign (`Decimal.ofText?_text`). As the sign can be seen in the text, no two decimals have
one text all the same (`Decimal.text_injective`). A timestamp is read back as it was
(`Timestamp.ofText?_text`).
-/

namespace BorderControl

/-! ## Digits -/

section Digits

variable {ds r : List Char}

/-- The text does not go on with a digit. -/
def NoDigitAhead (r : List Char) : Prop := ∀ c ∈ r.head?, c.isDigit = false

theorem takeWhile_isDigit_append (hds : ∀ c ∈ ds, c.isDigit = true) (hr : NoDigitAhead r) :
    (ds ++ r).takeWhile Char.isDigit = ds := by
  rw [List.takeWhile_append_of_pos hds]
  cases r with
  | nil => simp
  | cons c r => simp [hr c rfl]

theorem dropWhile_isDigit_append (hds : ∀ c ∈ ds, c.isDigit = true) (hr : NoDigitAhead r) :
    (ds ++ r).dropWhile Char.isDigit = r := by
  rw [List.dropWhile_append_of_pos hds]
  cases r with
  | nil => rfl
  | cons c r => simp [hr c rfl]

theorem isDigit_of_mem_toDigits {n : Nat} {c : Char} (h : c ∈ Nat.toDigits 10 n) :
    c.isDigit = true :=
  Nat.isDigit_of_mem_toDigits (by decide) (by decide) h

/-- Only zero begins with a zero. -/
theorem head?_toDigits_ne {n : Nat} (hn : 0 < n) : (Nat.toDigits 10 n).head? ≠ some '0' := by
  induction n using Nat.strong_induction_on with
  | _ n ih =>
    by_cases hlt : n < 10
    · rw [Nat.toDigits_of_lt_base hlt]
      simp only [List.head?_cons, ne_eq, Option.some.injEq, Nat.digitChar_eq_zero]
      omega
    · rw [Nat.toDigits_of_base_le (by decide) (by omega),
        List.head?_append_of_ne_nil _ Nat.toDigits_ne_nil]
      exact ih (n / 10) (by omega) (by omega)

end Digits

namespace Timestamp

theorem isDigit_of_mem_padded {width n : Nat} {c : Char} (h : c ∈ padded width n) :
    c.isDigit = true := by
  rcases List.mem_append.mp h with h | h
  · rw [(List.mem_replicate.mp h).2]
    decide
  · exact isDigit_of_mem_toDigits h

theorem numeral_padded (width n : Nat) : Text.numeral (padded width n) = n := by
  rw [Text.numeral, padded, Nat.ofDigitChars_append, Nat.ofDigitChars_replicate_zero,
    Nat.mul_zero, Nat.ofDigitChars_ten_toDigits]

theorem length_padded {width n : Nat} (hwidth : 0 < width) (h : n < tenTo width) :
    (padded width n).length = width := by
  have hle := (Nat.length_toDigits_le_iff (by decide) hwidth).mpr h
  rw [padded, List.length_append, List.length_replicate]
  omega

theorem le_length_padded (width n : Nat) : width ≤ (padded width n).length := by
  rw [padded, List.length_append, List.length_replicate]
  omega

end Timestamp

/-! ## Decimals -/

/-- The text of a number over a power of ten is digits, all of which together make the
number, with a point before the places if there are any. -/
theorem exists_positional (n scale : Nat) :
    ∃ whole places : List Char, whole ≠ [] ∧ places.length = scale ∧
      (∀ c ∈ whole ++ places, c.isDigit = true) ∧ Text.numeral (whole ++ places) = n ∧
      positional n scale = whole ++ if scale = 0 then [] else '.' :: places := by
  have hlength := Timestamp.le_length_padded (scale + 1) n
  refine ⟨(Timestamp.padded (scale + 1) n).take ((Timestamp.padded (scale + 1) n).length - scale),
    (Timestamp.padded (scale + 1) n).drop ((Timestamp.padded (scale + 1) n).length - scale),
    ?_, ?_, ?_, ?_, ?_⟩
  · rw [← List.length_pos_iff, List.length_take]
    omega
  · rw [List.length_drop]
    omega
  · rw [List.take_append_drop]
    exact fun c hc => Timestamp.isDigit_of_mem_padded hc
  · rw [List.take_append_drop, Timestamp.numeral_padded]
  · unfold positional
    by_cases h : scale = 0
    · subst h
      rw [if_pos rfl, if_pos rfl, List.append_nil, Nat.sub_zero, List.take_length]
      rfl
    · rw [if_neg h, if_neg h]
      rfl

namespace Decimal

/-- The decimal as it is read back from its text: a zero has no sign. -/
def reread (d : Decimal) : Decimal := { d with negative := d.negative && d.magnitude != 0 }

namespace Scan

/-- What has been read once more digits are read. -/
def extend (s : Scan) (ds : List Char) : Scan where
  digits := Nat.ofDigitChars 10 ds s.digits
  places := if s.pointed then s.places + ds.length else s.places
  pointed := s.pointed
  started := s.started || !ds.isEmpty

theorem le_ofDigitChars : ∀ (ds : List Char) (n : Nat), n ≤ Nat.ofDigitChars 10 ds n
  | [], n => by simp
  | c :: ds, n => by
    rw [Nat.ofDigitChars_cons]
    have := le_ofDigitChars ds (10 * n + (c.toNat - '0'.toNat))
    omega

/-- Digits are taken in as long as they fit. -/
theorem read?_append (negative : Bool) (r : List Char) : ∀ (ds : List Char) (s : Scan),
    (∀ c ∈ ds, c.isDigit = true) → (s.pointed = false → s.places = 0) →
    (s.extend ds).places ≤ 28 → (s.extend ds).digits < 1 <<< 96 →
    s.read? negative (ds ++ r) = (s.extend ds).read? negative r
  | [], s, _, _, _, _ => by simp [extend]
  | c :: ds, s, hds, hplaces, hscale, hfits => by
    have hnext : ({ s with
        digits := 10 * s.digits + (c.toNat - '0'.toNat)
        places := if s.pointed then s.places + 1 else 0
        started := true } : Scan).extend ds = s.extend (c :: ds) := by
      cases hp : s.pointed with
      | true => simp [extend, hp, Nat.ofDigitChars_cons, Nat.add_assoc, Nat.add_comm 1]
      | false => simp [extend, hp, hplaces hp, Nat.ofDigitChars_cons]
    have hroom : s.places < 28 := by
      cases hp : s.pointed with
      | true =>
        simp only [extend, hp, if_true, List.length_cons] at hscale
        omega
      | false =>
        have := hplaces hp
        omega
    have hsmall : 10 * s.digits + (c.toNat - '0'.toNat) < 1 <<< 96 :=
      Nat.lt_of_le_of_lt (le_ofDigitChars ds _)
        (by simpa only [extend, Nat.ofDigitChars_cons] using hfits)
    rw [List.cons_append, read?, if_pos (hds c List.mem_cons_self),
      if_pos (by simp only [hroom, hsmall, decide_true, Bool.and_self]), ← hnext]
    refine read?_append negative r ds _ (fun c hc => hds c (List.mem_cons_of_mem _ hc)) ?_ ?_ ?_
    · intro hp
      simp only at hp
      simp [hp]
    · rw [hnext]
      exact hscale
    · rw [hnext]
      exact hfits

/-- A sign apart, a decimal's text is read as its magnitude over its scale. -/
theorem read?_positional (d : Decimal) (negative : Bool) :
    (⟨0, 0, false, false⟩ : Scan).read? negative (positional d.magnitude d.scale) =
      ofCoefficient? (signed negative d.magnitude) d.scale := by
  obtain ⟨whole, places, hwhole, hplaces, hdigits, hnumeral, htext⟩ :=
    exists_positional d.magnitude d.scale
  have hwholeDigits : ∀ c ∈ whole, c.isDigit = true := fun c hc =>
    hdigits c (List.mem_append_left _ hc)
  have hsmall : Nat.ofDigitChars 10 whole 0 < 1 <<< 96 := by
    refine Nat.lt_of_le_of_lt ?_ d.fits
    rw [← hnumeral, Text.numeral, Nat.ofDigitChars_append]
    exact le_ofDigitChars places _
  have hstarted : whole.isEmpty = false := by simpa using hwhole
  rw [htext, read?_append negative _ whole ⟨0, 0, false, false⟩ hwholeDigits (fun _ => rfl)
    (by simp [extend]) hsmall]
  by_cases hscale : d.scale = 0
  · have hnil : places = [] := List.length_eq_zero_iff.mp (hplaces.trans hscale)
    rw [hnil, List.append_nil] at hnumeral
    rw [if_pos hscale, read?, result?, ← hnumeral, hscale]
    simp [extend, hstarted, Text.numeral]
  · have hplacesDigits : ∀ c ∈ places, c.isDigit = true := fun c hc =>
      hdigits c (List.mem_append_right _ hc)
    have hpoint : ((⟨0, 0, false, false⟩ : Scan).extend whole).read? negative ('.' :: places) =
        (⟨Nat.ofDigitChars 10 whole 0, 0, true, true⟩ : Scan).read? negative (places ++ []) := by
      rw [read?, if_neg (by decide), if_pos (by simp [extend]), List.append_nil]
      simp [extend, hstarted]
    have hall : Nat.ofDigitChars 10 places (Nat.ofDigitChars 10 whole 0) = d.magnitude := by
      rw [← Nat.ofDigitChars_append]
      exact hnumeral
    rw [if_neg hscale, hpoint, read?_append negative [] places _ hplacesDigits (by simp)
      (by simpa [extend, hplaces] using d.scale_le) (by simpa only [extend, hall] using d.fits),
      read?, result?]
    simp [extend, hall, hplaces]

end Scan

theorem ofCoefficient?_signed (d : Decimal) :
    ofCoefficient? (signed d.negative d.magnitude) d.scale = some d.reread := by
  have hsign : decide (signed d.negative d.magnitude < 0) = (d.negative && d.magnitude != 0) := by
    rw [Bool.eq_iff_iff]
    cases d.negative <;> simp [signed, Nat.pos_iff_ne_zero]
  have hmagnitude : (signed d.negative d.magnitude).natAbs = d.magnitude := by
    cases d.negative <;> simp [signed]
  rw [ofCoefficient?, hsign, hmagnitude, ofParts?, dif_pos d.fits, dif_pos d.scale_le]
  rfl

theorem exists_positional_cons (n scale : Nat) :
    ∃ c r, positional n scale = c :: r ∧ c.isDigit = true := by
  obtain ⟨whole, places, hwhole, -, hdigits, -, htext⟩ := exists_positional n scale
  obtain ⟨c, rest, rfl⟩ := List.exists_cons_of_ne_nil hwhole
  exact ⟨c, _, htext, hdigits c (by simp)⟩

theorem readPlain?_cons {c : Char} {r : List Char} (hc : c.isDigit = true) :
    readPlain? (c :: r) = (⟨0, 0, false, false⟩ : Scan).read? false (c :: r) := by
  unfold readPlain?
  split
  · next heq =>
    cases heq
    cases hc
  · next heq =>
    cases heq
    cases hc
  · rfl

/-- A decimal is read back from its text, a zero without its sign. -/
theorem ofText?_text (d : Decimal) : ofText? d.text = some d.reread := by
  have hplain : readPlain? d.text.toList = some d.reread := by
    rw [text, String.toList_ofList, ← ofCoefficient?_signed]
    cases hn : d.negative with
    | true =>
      rw [if_pos rfl]
      exact Scan.read?_positional d true
    | false =>
      obtain ⟨c, r, htext, hc⟩ := exists_positional_cons d.magnitude d.scale
      rw [if_neg (by decide), ← Scan.read?_positional d false, htext, readPlain?_cons hc]
  rw [ofText?, hplain]
  rfl

theorem head?_text (d : Decimal) : d.text.toList.head? = some '-' ↔ d.negative = true := by
  obtain ⟨c, r, htext, hc⟩ := exists_positional_cons d.magnitude d.scale
  rw [text, String.toList_ofList, htext]
  cases d.negative with
  | true => simp
  | false =>
    have hne : c ≠ '-' := by
      rintro rfl
      cases hc
    simpa using hne

/-- Reading gives the magnitude and the scale, and the first character tells the sign. -/
theorem text_injective {d d' : Decimal} (h : d.text = d'.text) : d = d' := by
  have hread : d.reread = d'.reread :=
    Option.some.inj ((ofText?_text d).symm.trans (h ▸ ofText?_text d'))
  have hsign : d.negative = d'.negative := by
    rw [Bool.eq_iff_iff, ← head?_text, ← head?_text, h]
  obtain ⟨-, hmagnitude, hscale⟩ := mk.inj hread
  exact mk.injEq .. ▸ ⟨hsign, hmagnitude, hscale⟩

end Decimal

/-! ## Timestamps -/

namespace Timestamp

theorem readDigits?_padded {width n : Nat} (hwidth : 0 < width) (h : n < tenTo width)
    (r : List Char) : readDigits? width (padded width n ++ r) = some (n, r) := by
  have hlength := length_padded hwidth h
  have hdigits : (padded width n).all Char.isDigit = true :=
    List.all_eq_true.mpr fun c hc => isDigit_of_mem_padded hc
  rw [readDigits?, Text.takeDigits?, List.take_left' hlength, List.drop_left' hlength]
  simp only [hlength, hdigits, decide_true, Bool.and_self, if_true, Option.map_some,
    numeral_padded]

/-- The fraction without its last zeros, filled up to nine digits again. -/
theorem exists_fractionText {n : Nat} (hn : 0 < n) (h : n < 1000000000) :
    ∃ ds, fractionText n = '.' :: ds ∧ ds ≠ [] ∧ (∀ c ∈ ds, c.isDigit = true) ∧
      (ds ++ List.replicate 9 '0').take 9 = padded 9 n := by
  have hsplit := List.takeWhile_append_dropWhile (p := (· == '0')) (l := (padded 9 n).reverse)
  have hzeros : ∃ k, (padded 9 n).reverse.takeWhile (· == '0') = List.replicate k '0' :=
    ⟨_, List.eq_replicate_length.mpr fun c hc => by simpa using List.mem_takeWhile_imp hc⟩
  obtain ⟨k, hk⟩ := hzeros
  generalize hds : (padded 9 n).reverse.dropWhile (· == '0') = kept at hsplit
  have hpadded : kept.reverse ++ List.replicate k '0' = padded 9 n := by
    rw [← List.reverse_inj, List.reverse_append, List.reverse_replicate, List.reverse_reverse,
      ← hk, hsplit]
  have hlength : kept.reverse.length + k = 9 := by
    have := congrArg List.length hpadded
    rwa [List.length_append, List.length_replicate, length_padded (by decide) h] at this
  refine ⟨kept.reverse, ?_, fun hnil => ?_, fun c hc => ?_, ?_⟩
  · rw [fractionText, if_neg hn.ne', hds]
  · have hzero := numeral_padded 9 n
    rw [← hpadded, hnil, List.nil_append, Text.numeral, Nat.ofDigitChars_replicate_zero] at hzero
    omega
  · exact isDigit_of_mem_padded (hpadded ▸ List.mem_append_left _ hc)
  · have hnine : List.replicate 9 '0' = List.replicate k '0' ++ List.replicate (9 - k) '0' := by
      rw [List.replicate_append_replicate]
      congr 1
      omega
    rw [hnine, ← List.append_assoc, hpadded, List.take_left' (length_padded (by decide) h)]

theorem readFraction?_fractionText {n : Nat} (h : n < 1000000000) {r : List Char}
    (hr : NoDigitAhead r) (hpoint : readChar? '.' r = none) :
    readFraction? (fractionText n ++ r) = some (n, r) := by
  by_cases hn : n = 0
  · rw [fractionText, if_pos hn, List.nil_append, readFraction?, hpoint, hn]
  · obtain ⟨ds, htext, hne, hdigits, hnine⟩ := exists_fractionText (Nat.pos_of_ne_zero hn) h
    have hread : readChar? '.' ('.' :: (ds ++ r)) = some (ds ++ r) := rfl
    rw [htext, List.cons_append, readFraction?, hread]
    simp only [takeWhile_isDigit_append hdigits hr, dropWhile_isDigit_append hdigits hr, hne,
      if_false, hnine, numeral_padded]

theorem readOffset?_signed {c : Char} (hc : c = '+' ∨ c = '-') {hours minutes : Nat}
    (hhours : hours ≤ 23) (hminutes : minutes ≤ 59) :
    readOffset? (c :: (padded 2 hours ++ ':' :: padded 2 minutes)) =
      some (if c = '-' then -((hours * 60 + minutes : Nat) : Int) else (hours * 60 + minutes : Nat),
        []) := by
  have hfirst := readDigits?_padded (by decide : 0 < 2) (show hours < 100 by omega)
    (':' :: padded 2 minutes)
  have hlast := readDigits?_padded (by decide : 0 < 2) (show minutes < 100 by omega) []
  rw [List.append_nil] at hlast
  rcases hc with rfl | rfl <;> simp [readOffset?, readChar?, hfirst, hlast, hhours, hminutes]

theorem readOffset?_offsetText {offset : Int} (h : offset.natAbs < 24 * 60) :
    readOffset? (offsetText offset) = some (offset, []) := by
  have hsize : offset.natAbs / 60 * 60 + offset.natAbs % 60 = offset.natAbs := by omega
  unfold offsetText
  split
  · next hzero =>
    rw [hzero]
    rfl
  · split <;> rw [List.cons_append, readOffset?_signed (by decide) (by omega) (by omega), hsize]
    · next hneg =>
      rw [if_pos rfl, Int.ofNat_natAbs_of_nonpos (by omega), Int.neg_neg]
    · next hpos =>
      rw [if_neg (by decide), Int.natAbs_of_nonneg (by omega)]

/-- An offset begins with a character that is neither a digit nor a point. -/
theorem offsetText_ahead (offset : Int) :
    NoDigitAhead (offsetText offset) ∧ readChar? '.' (offsetText offset) = none := by
  unfold offsetText
  split
  · exact ⟨by simp [NoDigitAhead], rfl⟩
  · split <;> exact ⟨by simp [NoDigitAhead], rfl⟩

theorem readDigits?_bind {α : Type} {width n : Nat} {r : List Char} {x : Option α}
    {g : Nat × List Char → Option α} (hwidth : 0 < width) (h : n < tenTo width)
    (hg : g (n, r) = x) : (readDigits? width (padded width n ++ r)).bind g = x := by
  rw [readDigits?_padded hwidth h, Option.bind_some, hg]

theorem readChar?_bind {α : Type} {c : Char} {r : List Char} {x : Option α}
    {g : List Char → Option α} (hg : g r = x) : (readChar? c (c :: r)).bind g = x := by
  rw [readChar?, if_pos rfl, Option.bind_some, hg]

theorem day_le (t : Timestamp) : t.day ≤ 31 := by
  have hdays : daysInMonth t.year t.month ≤ 31 := by
    unfold daysInMonth
    split
    · split <;> decide
    · split <;> decide
  exact t.day_valid.2.trans hdays

/-- A timestamp is read back from its text. -/
theorem ofText?_text (t : Timestamp) : ofText? t.text = some t := by
  have hyear := t.year_le
  have hmonth := t.month_valid
  have hday := t.day_le
  have hhour := t.hour_lt
  have hminute := t.minute_lt
  have hsecond := t.second_lt
  obtain ⟨hdigit, hpoint⟩ := offsetText_ahead t.offset
  rw [ofText?, text, String.toList_ofList, read?]
  simp only [List.append_assoc, List.cons_append]
  refine readDigits?_bind (by decide) (show t.year < 10000 by omega) (readChar?_bind ?_)
  refine readDigits?_bind (by decide) (show t.month < 100 by omega) (readChar?_bind ?_)
  refine readDigits?_bind (by decide) (show t.day < 100 by omega) ?_
  refine readDigits?_bind (by decide) (show t.hour < 100 by omega) (readChar?_bind ?_)
  refine readDigits?_bind (by decide) (show t.minute < 100 by omega) (readChar?_bind ?_)
  refine readDigits?_bind (by decide) (show t.second < 100 by omega) ?_
  rw [Option.bind_eq_bind, readFraction?_fractionText t.nanosecond_lt hdigit hpoint,
    Option.bind_some, Option.bind_eq_bind, readOffset?_offsetText t.offset_lt, Option.bind_some]
  rw [if_neg (by simp), if_neg (by omega), ofParts?,
    dif_pos ⟨t.year_le, t.month_valid, t.day_valid, t.hour_lt, t.minute_lt, t.second_lt,
      t.nanosecond_lt, t.offset_lt⟩]

end Timestamp

end BorderControl
