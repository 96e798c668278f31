import BorderControl.Json.Parser
import BorderControl.Json.Printer
import BorderControl.Proofs.Numerals

/-!
# JSON text read back

A value is read back from its text, in any layout that puts blanks between the parts, if
it has no doubles, its whole numbers fit 64 bits, and it does not open more brackets
within each other than a reader allows (`Json.Readable`, `Json.value?_write`). So the
text of such a value stands for no other one (`Json.parseChars?_write`).

The reader takes in a number as far as it goes. What follows a value must not go on with
one (`NumberEnds`); commas, blanks and closing brackets do not.
-/

namespace BorderControl.Json

/-! ## Readable values -/

/-- The value opens at most so many brackets within each other, has no doubles, and its
whole numbers fit 64 bits, signed or not. -/
inductive Readable : Nat → Json → Prop where
  | null (depth : Nat) : Readable depth .null
  | bool (depth : Nat) (b : Bool) : Readable depth (.bool b)
  | int (depth : Nat) (n : Int) (lower : -(1 <<< 63) ≤ n) (upper : n < UInt64.size) :
    Readable depth (.int n)
  | str (depth : Nat) (s : String) : Readable depth (.str s)
  | arr (depth : Nat) (elements : List Json) (h : ∀ j ∈ elements, Readable depth j) :
    Readable (depth + 1) (.arr elements)
  | obj (depth : Nat) (members : List (String × Json))
    (h : ∀ m ∈ members, Readable depth m.2) : Readable (depth + 1) (.obj members)

theorem Readable.mono {depth depth' : Nat} {j : Json} (h : j.Readable depth)
    (hle : depth ≤ depth') : j.Readable depth' := by
  induction h generalizing depth' with
  | null => exact .null _
  | bool => exact .bool _ _
  | int _ n lower upper => exact .int _ n lower upper
  | str => exact .str _ _
  | arr depth elements _ ih =>
    obtain ⟨k, rfl⟩ := Nat.exists_eq_add_one_of_ne_zero (by omega : depth' ≠ 0)
    exact .arr k elements fun j hj => ih j hj (by omega)
  | obj depth members _ ih =>
    obtain ⟨k, rfl⟩ := Nat.exists_eq_add_one_of_ne_zero (by omega : depth' ≠ 0)
    exact .obj k members fun m hm => ih m hm (by omega)

/-! ## Blanks -/

/-- Nothing but the blanks that may stand between the parts of a value. -/
def Blank (s : List Char) : Prop := ∀ c ∈ s, isSpace c = true

/-- The layout puts nothing but blanks between the parts. -/
structure Layout.IsBlank (l : Layout) : Prop where
  gap : ∀ depth, Blank (l.gap depth)
  afterColon : Blank l.afterColon

theorem isBlank_compact : Layout.compact.IsBlank :=
  ⟨fun _ => List.forall_mem_nil _, List.forall_mem_nil _⟩

theorem isBlank_indented : Layout.indented.IsBlank := by
  refine ⟨fun depth c hc => ?_, fun c hc => ?_⟩
  · rcases List.mem_cons.mp hc with rfl | hc
    · decide
    · rw [(List.mem_replicate.mp hc).2]
      decide
  · rw [List.mem_singleton.mp hc]
    decide

theorem skipSpace_append {gap : List Char} (hgap : Blank gap) (s : List Char) :
    skipSpace (gap ++ s) = skipSpace s :=
  List.dropWhile_append_of_pos hgap

theorem skipSpace_cons {c : Char} (hc : isSpace c = false) (s : List Char) :
    skipSpace (c :: s) = c :: s := by
  rw [skipSpace, List.dropWhile_cons_of_neg (by simp [hc])]

theorem skipSpace_idem (s : List Char) : skipSpace (skipSpace s) = skipSpace s :=
  List.dropWhile_idempotent _ s

/-! ## Strings -/

theorem hexValue?_digitChar : ∀ n < 16, Text.hexValue? n.digitChar = some n := by
  decide

theorem unit?_hex4 {n : Nat} (h : n < 65536) :
    ∃ a b c d, hex4 n = [a, b, c, d] ∧ unit? a b c d = some n := by
  refine ⟨_, _, _, _, rfl, ?_⟩
  simp only [unit?, Text.hexNumeral?, List.mapM_cons, List.mapM_nil,
    hexValue?_digitChar _ (Nat.mod_lt _ (by decide : 0 < 16)), Option.bind_eq_bind,
    Option.bind_some, Option.pure_def, Option.map_some, List.foldl_cons, List.foldl_nil,
    Option.some.injEq]
  omega

theorem stringBody?_backslash {e c : Char} (hu : e ≠ 'u') (he : unescape? e = some c)
    (r : List Char) :
    stringBody? ('\\' :: e :: r) = (stringBody? r).map fun (s, r) => (c :: s, r) := by
  rw [stringBody?.eq_def]
  simp [hu, he]

theorem stringBody?_unit {c : Char} (hc : c.toNat < 0xD800) (r : List Char) :
    stringBody? ('\\' :: 'u' :: hex4 c.toNat ++ r) =
      (stringBody? r).map fun (s, r) => (c :: s, r) := by
  obtain ⟨a, b, d, e, htext, hunit⟩ := unit?_hex4 (by omega : c.toNat < 65536)
  rw [htext, stringBody?.eq_def]
  have hhigh : ¬(0xD800 ≤ c.toNat ∧ c.toNat < 0xDC00) := by omega
  have hlow : ¬(0xDC00 ≤ c.toNat ∧ c.toNat < 0xE000) := by omega
  simp [hunit, hhigh, hlow, Char.ofNat_toNat]

/-- An escaped character is read as itself. -/
theorem stringBody?_escape (c : Char) (r : List Char) :
    stringBody? (escape c ++ r) = (stringBody? r).map fun (s, r) => (c :: s, r) := by
  unfold escape
  split
  · next h =>
    subst h
    exact stringBody?_backslash (by decide) rfl r
  split
  · next h =>
    subst h
    exact stringBody?_backslash (by decide) rfl r
  split
  · next hquote hbackslash h =>
    rw [List.singleton_append, stringBody?.eq_def]
    simp only
    rw [if_neg hquote, if_neg hbackslash, if_neg (by omega)]
  split
  · next h =>
    subst h
    exact stringBody?_backslash (by decide) rfl r
  split
  · next h =>
    subst h
    exact stringBody?_backslash (by decide) rfl r
  split
  · next h =>
    subst h
    exact stringBody?_backslash (by decide) rfl r
  split
  · next h =>
    have hc : unescape? 'b' = some c := by rw [← Char.ofNat_toNat c, h]; rfl
    exact stringBody?_backslash (by decide) hc r
  split
  · next h =>
    have hc : unescape? 'f' = some c := by rw [← Char.ofNat_toNat c, h]; rfl
    exact stringBody?_backslash (by decide) hc r
  · next h _ _ _ _ _ => exact stringBody?_unit (by omega) r

theorem stringBody?_flatMap_escape (r : List Char) : ∀ cs : List Char,
    stringBody? (cs.flatMap escape ++ '"' :: r) = some (cs, r)
  | [] => by
    rw [List.flatMap_nil, List.nil_append, stringBody?.eq_def]
    rfl
  | c :: cs => by
    rw [List.flatMap_cons, List.append_assoc, stringBody?_escape, stringBody?_flatMap_escape r cs]
    rfl

theorem string?_quote (s : String) (r : List Char) : string? (quote s ++ r) = some (s, r) := by
  have hbody := stringBody?_flatMap_escape r s.toList
  rw [quote, List.append_assoc, List.cons_append, string?, List.singleton_append, hbody,
    Option.map_some]
  exact congrArg (fun t => some (t, r)) String.ofList_toList

/-! ## Numbers -/

/-- What comes next does not go on with a number. -/
def NumberEnds (r : List Char) : Prop :=
  ∀ c ∈ r.head?, c.isDigit = false ∧ c ≠ '.' ∧ c ≠ 'e' ∧ c ≠ 'E'

theorem NumberEnds.noDigitAhead {r : List Char} (h : NumberEnds r) : NoDigitAhead r :=
  fun c hc => (h c hc).1

theorem wholePart?_append {ds r : List Char} (hne : ds ≠ []) (hds : ∀ c ∈ ds, c.isDigit = true)
    (hzero : 1 < ds.length → ds.head? ≠ some '0') (hr : NumberEnds r) :
    wholePart? (ds ++ r) = some (ds, r) := by
  have hdigits : digits? (ds ++ r) = some (ds, r) := by
    rw [digits?, takeWhile_isDigit_append hds hr.noDigitAhead,
      dropWhile_isDigit_append hds hr.noDigitAhead]
    simp [hne]
  rw [wholePart?, hdigits]
  simp only [Option.bind_eq_bind, Option.bind_some]
  rw [if_neg (by simpa using hzero)]

theorem places?_of_numberEnds {r : List Char} (hr : NumberEnds r) : places? r = some (none, r) := by
  cases r with
  | nil => rfl
  | cons c r =>
    have hpoint := (hr c rfl).2.1
    unfold places?
    split
    · next heq =>
      cases heq
      exact absurd rfl hpoint
    · rfl

theorem exponent?_of_numberEnds {r : List Char} (hr : NumberEnds r) :
    exponent? r = some (none, r) := by
  cases r with
  | nil => rfl
  | cons c r =>
    obtain ⟨-, -, he, hE⟩ := hr c rfl
    rw [exponent?.eq_def]
    simp only
    rw [if_neg (by simp [he, hE])]

section Whole

variable {ds r : List Char} (hne : ds ≠ []) (hds : ∀ c ∈ ds, c.isDigit = true)
  (hzero : 1 < ds.length → ds.head? ≠ some '0') (hr : NumberEnds r)
include hne hds hzero hr

theorem literal?_digits : literal? (ds ++ r) = some (⟨false, ds, none, none⟩, r) := by
  have hwhole := wholePart?_append hne hds hzero hr
  obtain ⟨c, cs, rfl⟩ := List.exists_cons_of_ne_nil hne
  have hminus : c ≠ '-' := by
    rintro rfl
    cases hds '-' List.mem_cons_self
  rw [literal?]
  · simp only [hwhole, places?_of_numberEnds hr, exponent?_of_numberEnds hr,
      Option.bind_eq_bind, Option.bind_some, Option.pure_def]
  · rintro rest heq
    exact hminus (List.cons.inj heq).1

theorem literal?_minus : literal? ('-' :: (ds ++ r)) = some (⟨true, ds, none, none⟩, r) := by
  simp only [literal?, wholePart?_append hne hds hzero hr, places?_of_numberEnds hr,
    exponent?_of_numberEnds hr, Option.bind_eq_bind, Option.bind_some, Option.pure_def]

end Whole

theorem Literal.toJson?_digits {ds : List Char} (h : Text.numeral ds < UInt64.size) :
    (⟨false, ds, none, none⟩ : Literal).toJson? = some (.int (Text.numeral ds)) := by
  simp [toJson?, h]

theorem Literal.toJson?_minus {ds : List Char} (hpos : 0 < Text.numeral ds)
    (h : Text.numeral ds ≤ 1 <<< 63) :
    (⟨true, ds, none, none⟩ : Literal).toJson? = some (.int (-(Text.numeral ds : Int))) := by
  rw [toJson?]
  simp only [Option.isNone_none, Bool.and_self, Bool.not_true, Bool.and_false, Bool.false_and,
    hpos, h, decide_true, if_true]
  rfl

/-- A whole number of 64 bits is read back. -/
theorem number?_intText {n : Int} (hlower : -(1 <<< 63) ≤ n) (hupper : n < UInt64.size)
    {r : List Char} (hr : NumberEnds r) : number? (intText n ++ r) = some (.int n, r) := by
  have hne : Nat.toDigits 10 n.natAbs ≠ [] := Nat.toDigits_ne_nil
  have hds : ∀ c ∈ Nat.toDigits 10 n.natAbs, c.isDigit = true := fun c => isDigit_of_mem_toDigits
  have hzero : 1 < (Nat.toDigits 10 n.natAbs).length →
      (Nat.toDigits 10 n.natAbs).head? ≠ some '0' := by
    intro hlength
    refine head?_toDigits_ne (Nat.pos_of_ne_zero fun hz => ?_)
    rw [hz, Nat.toDigits_zero] at hlength
    exact absurd hlength (by decide)
  have hnumeral : Text.numeral (Nat.toDigits 10 n.natAbs) = n.natAbs :=
    Nat.ofDigitChars_ten_toDigits
  unfold intText
  split
  · next hneg =>
    have hvalue : -(n.natAbs : Int) = n := by omega
    have hjson := @Literal.toJson?_minus (Nat.toDigits 10 n.natAbs)
      (by rw [hnumeral]; omega) (by rw [hnumeral]; omega)
    rw [hnumeral, hvalue] at hjson
    simp only [number?, List.cons_append, literal?_minus hne hds hzero hr, hjson,
      Option.bind_eq_bind, Option.bind_some, Option.pure_def]
  · next hpos =>
    have hvalue : (n.natAbs : Int) = n := by omega
    have hjson := @Literal.toJson?_digits (Nat.toDigits 10 n.natAbs)
      (by rw [hnumeral]; omega)
    rw [hnumeral, hvalue] at hjson
    simp only [number?, literal?_digits hne hds hzero hr, hjson, Option.bind_eq_bind,
      Option.bind_some, Option.pure_def]

/-! ## Lists of items -/

section Items

variable {α : Type} {item : Reader α} {close : Char} {w : α → List Char}

/-- What may stand behind a value: a blank, a comma or a closing bracket. -/
theorem numberEnds_cons {c : Char} (hc : isSpace c = true ∨ c = ',' ∨ c = ']' ∨ c = '}')
    (r : List Char) : NumberEnds (c :: r) := by
  intro d hd
  obtain rfl : c = d := by simpa using hd
  simp only [isSpace, Bool.or_eq_true, beq_iff_eq] at hc
  rcases hc with ((( rfl | rfl) | rfl) | rfl) | rfl | rfl | rfl <;> decide

theorem numberEnds_gap {gap : List Char} (hgap : Blank gap) {c : Char}
    (hc : c = ',' ∨ c = ']' ∨ c = '}') (r : List Char) : NumberEnds (gap ++ c :: r) := by
  cases gap with
  | nil => exact numberEnds_cons (Or.inr hc) r
  | cons d gap => exact numberEnds_cons (Or.inl (hgap d List.mem_cons_self)) _

/-- Items set apart by commas are read one by one, up to the closing bracket. -/
theorem items?_append (hclose : close = ']' ∨ close = '}') {gap : List Char} (hgap : Blank gap)
    (r : List Char) : ∀ (xs : List α) (x : α) {n : Nat}, xs.length < n →
    (∀ y ∈ x :: xs, ∀ r, NumberEnds r → item (w y ++ r) = some (y, r)) →
    items? item close n (w x ++ (xs.flatMap (fun y => ',' :: w y) ++ (gap ++ close :: r))) =
      some (x :: xs, r)
  | xs, x, 0, hn, _ => absurd hn (Nat.not_lt_zero _)
  | [], x, n + 1, _, hread => by
    have hspace : isSpace close = false := by rcases hclose with rfl | rfl <;> decide
    have hcomma : close ≠ ',' := by rcases hclose with rfl | rfl <;> decide
    rw [List.flatMap_nil, List.nil_append, items?,
      hread x List.mem_cons_self _ (numberEnds_gap hgap (Or.inr hclose) r)]
    simp only [skipSpace_append hgap, skipSpace_cons hspace, hcomma, if_true, if_false]
  | y :: ys, x, n + 1, hn, hread => by
    have ih := items?_append hclose hgap r ys y (n := n)
      (by simpa using hn) fun z hz => hread z (List.mem_cons_of_mem _ hz)
    rw [items?, hread x List.mem_cons_self _
      (by rw [List.flatMap_cons]; exact numberEnds_cons (Or.inr (Or.inl rfl)) _)]
    simp only [List.flatMap_cons, List.cons_append, List.append_assoc,
      skipSpace_cons (show isSpace ',' = false by decide), if_true, ih, Option.map_some]

/-- A reader of items that skips the blanks in front lets the list skip them. -/
theorem items?_skipSpace (hskip : ∀ s, item (skipSpace s) = item s) :
    ∀ (n : Nat) (s : List Char), items? item close n (skipSpace s) = items? item close n s
  | 0, _ => rfl
  | n + 1, s => by rw [items?, items?, hskip]

theorem length_le_length_flatMap_comma (xs : List α) :
    xs.length ≤ (xs.flatMap fun y => ',' :: w y).length := by
  induction xs with
  | nil => exact Nat.le_refl 0
  | cons x xs ih =>
    simp only [List.flatMap_cons, List.length_append, List.length_cons]
    omega

/-- A list of at least one item is read up to the closing bracket. The reader of items skips
blanks in front, and neither the end of a text nor the bracket is an item to it. -/
theorem list?_append (hclose : close = ']' ∨ close = '}') {gap : List Char} (hgap : Blank gap)
    (hskip : ∀ s, item (skipSpace s) = item s) (hnil : item [] = none)
    (hbracket : ∀ s, item (close :: s) = none) {x : α} {xs : List α}
    (hread : ∀ y ∈ x :: xs, ∀ r, NumberEnds r → item (w y ++ r) = some (y, r))
    (r : List Char) :
    list? item close (w x ++ (xs.flatMap (fun y => ',' :: w y) ++ (gap ++ close :: r))) =
      some (x :: xs, r) := by
  have hlength : xs.length <
      (w x ++ (xs.flatMap (fun y => ',' :: w y) ++ (gap ++ close :: r))).length := by
    have := length_le_length_flatMap_comma (w := w) xs
    simp only [List.length_append, List.length_cons]
    omega
  have hitems := items?_append hclose hgap r xs x hlength hread
  generalize w x ++ (xs.flatMap (fun y => ',' :: w y) ++ (gap ++ close :: r)) = s at hitems ⊢
  rw [← items?_skipSpace hskip] at hitems
  have hsome : item (skipSpace s) ≠ none := by
    intro hnone
    cases hn : s.length with
    | zero => simp [hn, items?] at hitems
    | succ n => simp [hn, items?, hnone] at hitems
  unfold list?
  split
  · next hs => exact absurd (hs ▸ hnil) hsome
  · next c t hs =>
    have hc : c ≠ close := by
      rintro rfl
      exact hsome (hs ▸ hbracket t)
    rw [if_neg hc, ← hs, hitems]

end Items

/-! ## Values -/

section Values

variable {l : Layout} {depth k : Nat} {r : List Char}

theorem value?_skipSpace (k : Nat) (s : List Char) : value? k (skipSpace s) = value? k s := by
  rw [value?.eq_def, value?.eq_def, skipSpace_idem]

theorem value?_append {gap : List Char} (hgap : Blank gap) (k : Nat) (s : List Char) :
    value? k (gap ++ s) = value? k s := by
  rw [← value?_skipSpace, skipSpace_append hgap, value?_skipSpace]

theorem value?_nil (k : Nat) : value? k [] = none := by
  rw [value?.eq_def]
  rfl

/-- What starts with no letter, quote or opening bracket is read as a number. -/
theorem value?_number {c : Char} (hc : c = ']' ∨ c = '-' ∨ c.isDigit = true) (k : Nat)
    (s : List Char) : value? k (c :: s) = number? (c :: s) := by
  have hspace : isSpace c = false := by
    by_contra h
    simp only [isSpace, Bool.not_eq_false, Bool.or_eq_true, beq_iff_eq] at h
    rcases h with ((rfl | rfl) | rfl) | rfl <;> exact absurd hc (by decide)
  rw [value?.eq_def]
  simp only [skipSpace_cons hspace]
  split <;> first | rfl | exact absurd hc (by decide)

theorem value?_bracket (k : Nat) (s : List Char) : value? k (']' :: s) = none := by
  rw [value?_number (Or.inl rfl)]
  rfl

theorem memberOf?_skipSpace (value : Reader Json) (s : List Char) :
    memberOf? value (skipSpace s) = memberOf? value s := by
  rw [memberOf?, memberOf?, skipSpace_idem]

theorem value?_word (k : Nat) :
    value? k ('n' :: 'u' :: 'l' :: 'l' :: r) = some (.null, r) ∧
      value? k ('t' :: 'r' :: 'u' :: 'e' :: r) = some (.bool true, r) ∧
      value? k ('f' :: 'a' :: 'l' :: 's' :: 'e' :: r) = some (.bool false, r) := by
  refine ⟨?_, ?_, ?_⟩ <;>
    · rw [value?.eq_def, skipSpace_cons (by decide)]
      simp [word?, Text.after?]

theorem value?_quote (k : Nat) (s : String) : value? k (quote s ++ r) = some (.str s, r) := by
  have hstring := string?_quote s r
  rw [quote, List.append_assoc, List.cons_append] at hstring ⊢
  rw [value?.eq_def, skipSpace_cons (by decide)]
  simp only [hstring, Option.map_some]

theorem value?_intText {n : Int} (hlower : -(1 <<< 63) ≤ n) (hupper : n < UInt64.size)
    (hr : NumberEnds r) (k : Nat) : value? k (intText n ++ r) = some (.int n, r) := by
  rw [← number?_intText hlower hupper hr]
  have hfirst : ∃ c s, intText n = c :: s ∧ (c = ']' ∨ c = '-' ∨ c.isDigit = true) := by
    unfold intText
    split
    · exact ⟨_, _, rfl, Or.inr (Or.inl rfl)⟩
    · obtain ⟨c, s, hcs⟩ :=
        List.exists_cons_of_ne_nil (Nat.toDigits_ne_nil (b := 10) (n := n.natAbs))
      exact ⟨c, s, hcs, Or.inr (Or.inr (isDigit_of_mem_toDigits (hcs ▸ List.mem_cons_self)))⟩
  obtain ⟨c, s, hcs, hc⟩ := hfirst
  rw [hcs, List.cons_append, value?_number hc]

/-- The text of a member, up to what stands behind its value. -/
def writeMember (l : Layout) (depth : Nat) (m : String × Json) : List Char :=
  l.gap depth ++ quote m.1 ++ ':' :: l.afterColon ++ write l depth m.2

theorem writeElements_eq (l : Layout) (depth : Nat) : ∀ js : List Json,
    writeElements l depth js =
      js.flatMap (fun j => ',' :: (l.gap (depth + 1) ++ write l (depth + 1) j)) ++
        (l.gap depth ++ [']'])
  | [] => by rw [writeElements, List.flatMap_nil, List.nil_append]
  | j :: js => by
    rw [writeElements, writeElements_eq l depth js, List.flatMap_cons]
    simp only [List.cons_append, List.append_assoc]

theorem writeMembers_eq (l : Layout) (depth : Nat) : ∀ ms : List (String × Json),
    writeMembers l depth ms =
      ms.flatMap (fun m => ',' :: writeMember l (depth + 1) m) ++ (l.gap depth ++ ['}'])
  | [] => by rw [writeMembers, List.flatMap_nil, List.nil_append]
  | (n, j) :: ms => by
    rw [writeMembers, writeMembers_eq l depth ms, List.flatMap_cons]
    simp only [writeMember, List.cons_append, List.append_assoc]

/-- A member is read back where its value is. -/
theorem memberOf?_writeMember (hl : l.IsBlank) {value : Reader Json} {m : String × Json}
    (hvalue : value (l.afterColon ++ (write l depth m.2 ++ r)) = some (m.2, r)) :
    memberOf? value (writeMember l depth m ++ r) = some (m, r) := by
  have hquote : ∀ t, skipSpace (l.gap depth ++ (quote m.1 ++ t)) = quote m.1 ++ t := by
    intro t
    rw [skipSpace_append (hl.gap depth), quote, List.append_assoc, List.cons_append,
      skipSpace_cons (by decide)]
  simp only [memberOf?, writeMember, List.append_assoc, hquote, string?_quote, List.cons_append,
    skipSpace_cons (show isSpace ':' = false by decide), hvalue, Option.map_some]

/-- A list is read back where its elements are. -/
theorem value?_array (hl : l.IsBlank) {js : List Json}
    (helement : ∀ j ∈ js, ∀ r, NumberEnds r →
      value? k (write l (depth + 1) j ++ r) = some (j, r)) :
    value? (k + 1) (write l depth (.arr js) ++ r) = some (.arr js, r) := by
  cases js with
  | nil =>
    rw [write, value?.eq_def]
    rfl
  | cons j js =>
    have hread : ∀ y ∈ j :: js, ∀ r, NumberEnds r →
        value? k ((l.gap (depth + 1) ++ write l (depth + 1) y) ++ r) = some (y, r) := by
      intro y hy r hr
      rw [List.append_assoc, value?_append (hl.gap _)]
      exact helement y hy r hr
    have hlist := list?_append (Or.inl rfl) (hl.gap depth) (value?_skipSpace k) (value?_nil k)
      (value?_bracket k) hread r
    rw [write, writeElements_eq, value?.eq_def]
    simp only [List.cons_append, List.append_assoc, List.nil_append,
      skipSpace_cons (show isSpace '[' = false by decide)] at hlist ⊢
    rw [hlist, Option.map_some]

/-- An object is read back where the values of its members are. -/
theorem value?_object (hl : l.IsBlank) {ms : List (String × Json)}
    (hmember : ∀ m ∈ ms, ∀ r, NumberEnds r →
      value? k (write l (depth + 1) m.2 ++ r) = some (m.2, r)) :
    value? (k + 1) (write l depth (.obj ms) ++ r) = some (.obj ms, r) := by
  cases ms with
  | nil =>
    rw [write, value?.eq_def]
    rfl
  | cons m ms =>
    have hread : ∀ y ∈ m :: ms, ∀ r, NumberEnds r →
        memberOf? (value? k) (writeMember l (depth + 1) y ++ r) = some (y, r) := by
      intro y hy r hr
      refine memberOf?_writeMember hl ?_
      rw [value?_append hl.afterColon]
      exact hmember y hy r hr
    have hlist := list?_append (Or.inr rfl) (hl.gap depth) (memberOf?_skipSpace (value? k))
      (by rfl) (fun s => by rfl) hread r
    rw [write, writeMembers_eq, value?.eq_def]
    simp only [writeMember, List.cons_append, List.append_assoc, List.nil_append,
      skipSpace_cons (show isSpace '{' = false by decide)] at hlist ⊢
    rw [hlist, Option.map_some]

/-- A readable value is read back from its text, in any layout. -/
theorem value?_write (hl : l.IsBlank) {j : Json} (hj : j.Readable k) (depth : Nat)
    (hr : NumberEnds r) : value? k (write l depth j ++ r) = some (j, r) := by
  induction hj generalizing depth r with
  | null k =>
    rw [write]
    exact (value?_word k).1
  | bool k b =>
    cases b <;> rw [write]
    · exact (value?_word k).2.2
    · exact (value?_word k).2.1
  | int k n lower upper =>
    rw [write]
    exact value?_intText lower upper hr k
  | str k s =>
    rw [write]
    exact value?_quote k s
  | arr k js _ ih => exact value?_array hl fun j hj r => ih j hj (depth + 1)
  | obj k ms _ ih => exact value?_object hl fun m hm r => ih m hm (depth + 1)

end Values

/-! ## Whole texts -/

/-- A readable value is what its text stands for, with any blanks behind it. -/
theorem parseChars?_write {l : Layout} (hl : l.IsBlank) {j : Json} (hj : j.Readable maxDepth)
    (depth : Nat) {gap : List Char} (hgap : Blank gap) :
    parseChars? (write l depth j ++ gap) = some j := by
  have hends : NumberEnds gap := by
    cases gap with
    | nil => exact fun c hc => absurd hc (by simp)
    | cons c gap => exact numberEnds_cons (Or.inl (hgap c List.mem_cons_self)) gap
  have hskip : skipSpace gap = [] := List.dropWhile_eq_nil_iff.mpr hgap
  rw [parseChars?, value?_write hl hj depth hends]
  simp only [hskip, if_true]

/-- A readable value is read back from a file of its text. -/
theorem parse?_indentedText {j : Json} (hj : j.Readable maxDepth) :
    parse? (j.indentedText ++ "\n") = some j := by
  have hend : Blank ['\n'] := by
    intro c hc
    rw [List.mem_singleton.mp hc]
    decide
  rw [parse?, String.toList_append, indentedText, String.toList_ofList]
  exact parseChars?_write isBlank_indented hj 0 hend

/-- Readable values with one text are one value. -/
theorem compactText_injective {j j' : Json} (hj : j.Readable maxDepth)
    (hj' : j'.Readable maxDepth) (h : j.compactText = j'.compactText) : j = j' := by
  have hread := parseChars?_write isBlank_compact hj 0 (List.forall_mem_nil _)
  have hread' := parseChars?_write isBlank_compact hj' 0 (List.forall_mem_nil _)
  rw [String.ofList_injective h, hread'] at hread
  exact (Option.some.inj hread).symm

end BorderControl.Json
