import BorderControl.CheckFamily
import BorderControl.Proofs.Spelling
import BorderControl.Proofs.Utf8
import Mathlib.Data.List.TakeWhile

/-!
# The grammar of references

A reference is written as a lead, a dot or none, a year, a dot or none, a number, and the mark
of a split consignment or none (`Reference.Written`). A text in capitals is written in one way
only (`Reference.Written.chars_injective`), and the reader accepts the texts that are written
in some way (`Reference.parseChars?_eq_some_iff`).

Blank ends and letter case do not matter to the reader. A reader that takes the digits byte by
byte (`Reference.scan`) never cuts through a character and reads the same. What a reference
names is the year and the number, whoever carries it (`Paper`).
-/

namespace BorderControl

/-! ## Blank ends -/

namespace Text

theorem trimChars_append_of_blank {front back : List Char} (hfront : ∀ x ∈ front, isBlank x = true)
    (hback : ∀ x ∈ back, isBlank x = true) (s : List Char) :
    trimChars (front ++ s ++ back) = trimChars s := by
  have hreverse : ∀ x ∈ back.reverse, isBlank x = true := fun x hx =>
    hback x (List.mem_reverse.mp hx)
  rw [trimChars, trimChars, List.append_assoc, List.dropWhile_append_of_pos hfront,
    List.dropWhile_append]
  split
  · next hs =>
    -- `s` is blank, and so is all that follows
    have hnil : back.dropWhile isBlank = [] := List.dropWhile_eq_nil_iff.mpr hback
    rw [hnil, List.isEmpty_iff.mp hs]
  · rw [List.reverse_append, List.dropWhile_append_of_pos hreverse]

theorem after?_eq_some_iff : ∀ {p s rest : List Char}, after? p s = some rest ↔ s = p ++ rest
  | [], s, rest => by rw [after?, Option.some.injEq, List.nil_append]
  | c :: p, [], rest => by simp [after?]
  | c :: p, d :: s, rest => by
    rw [after?, List.cons_append, List.cons.injEq]
    by_cases h : c = d
    · rw [if_pos h, after?_eq_some_iff, and_iff_right h.symm]
    · rw [if_neg h]
      constructor
      · intro hnone
        cases hnone
      · rintro ⟨hdc, -⟩
        exact absurd hdc.symm h

end Text

open Text

namespace Reference

/-! ## Written references -/

/-- What a reference of the family begins with. -/
def IsLead (c : Certificate) (s : List Char) : Prop :=
  s = c.notificationPrefix.toList ∨ s = declarationPrefix.toList

def IsDot (s : List Char) : Prop := s = [] ∨ s = ['.']

def IsDigits (n : Nat) (s : List Char) : Prop := s.length = n ∧ s.all Char.isDigit = true

def IsSuffix (s : List Char) : Prop := s = [] ∨ s = ['R'] ∨ s = ['V']

/-- A reference of the family in capitals, part by part. -/
@[ext] structure Written (c : Certificate) where
  lead : List Char
  firstDot : List Char
  year : List Char
  secondDot : List Char
  number : List Char
  suffix : List Char
  isLead : IsLead c lead
  isFirstDot : IsDot firstDot
  isYear : IsDigits 4 year ∧ year.take 2 = ['2', '0']
  isSecondDot : IsDot secondDot
  isNumber : IsDigits 7 number
  isSuffix : IsSuffix suffix

namespace Written

variable {c : Certificate}

/-- The parts one after the other. -/
def chars (w : Written c) : List Char :=
  w.lead ++ (w.firstDot ++ (w.year ++ (w.secondDot ++ (w.number ++ w.suffix))))

/-- The certificate that is meant. -/
def identifier (w : Written c) : Identifier := ⟨w.year, w.number⟩

end Written

section Parts

variable {c : Certificate} {s rest : List Char}

/-- What follows a lead is found, since the two leads of a family begin differently. -/
theorem afterPrefix?_eq_some_iff :
    afterPrefix? c s = some rest ↔ ∃ lead, IsLead c lead ∧ s = lead ++ rest := by
  have hnone : ∀ rest, after? c.notificationPrefix.toList (declarationPrefix.toList ++ rest) =
      none := fun rest => by cases c <;> rfl
  rw [afterPrefix?, Option.or_eq_some_iff, after?_eq_some_iff, after?_eq_some_iff]
  constructor
  · rintro (h | ⟨-, h⟩)
    · exact ⟨_, .inl rfl, h⟩
    · exact ⟨_, .inr rfl, h⟩
  · rintro ⟨lead, rfl | rfl, rfl⟩
    · exact .inl rfl
    · exact .inr ⟨hnone rest, rfl⟩

theorem afterDot_append {dot : List Char} (hdot : IsDot dot) {n : Nat} {digits : List Char}
    (hdigits : IsDigits (n + 1) digits) (rest : List Char) :
    afterDot (dot ++ (digits ++ rest)) = digits ++ rest := by
  obtain ⟨hlength, hall⟩ := hdigits
  obtain ⟨d, digits, rfl⟩ := List.exists_cons_of_length_eq_add_one hlength
  have hd : d ≠ '.' := by
    rintro rfl
    simp at hall
  rcases hdot with rfl | rfl
  · rw [List.nil_append, List.cons_append, afterDot]
    intro _ h
    exact hd (List.cons.inj h).1
  · rfl

theorem lead_inj {lead lead' rest' : List Char} (hlead : IsLead c lead) (hlead' : IsLead c lead')
    (h : lead ++ rest = lead' ++ rest') : lead = lead' ∧ rest = rest' := by
  have hrest : some rest = some rest' := by
    rw [← afterPrefix?_eq_some_iff.mpr ⟨lead, hlead, rfl⟩, h,
      afterPrefix?_eq_some_iff.mpr ⟨lead', hlead', rfl⟩]
  obtain rfl := Option.some.inj hrest
  exact ⟨List.append_cancel_right h, rfl⟩

theorem dot_digits_inj {dot dot' : List Char} (hdot : IsDot dot) (hdot' : IsDot dot') {n : Nat}
    {digits digits' : List Char} (hdigits : IsDigits (n + 1) digits)
    (hdigits' : IsDigits (n + 1) digits') {rest' : List Char}
    (h : dot ++ (digits ++ rest) = dot' ++ (digits' ++ rest')) :
    dot = dot' ∧ digits = digits' ∧ rest = rest' := by
  have htail : digits ++ rest = digits' ++ rest' := by
    rw [← afterDot_append hdot hdigits rest, h, afterDot_append hdot' hdigits' rest']
  rw [htail] at h
  exact ⟨List.append_cancel_right h,
    List.append_inj htail (hdigits.1.trans hdigits'.1.symm)⟩

theorem exists_dot (s : List Char) : ∃ dot, IsDot dot ∧ s = dot ++ afterDot s := by
  unfold afterDot
  split
  · exact ⟨['.'], .inr rfl, rfl⟩
  · exact ⟨[], .inl rfl, rfl⟩

end Parts

/-! ## Reading -/

section Reading

variable {c : Certificate} {s : List Char} {i : Identifier}

/-- The reader takes the parts from the left. -/
theorem parseChars?_eq_some : parseChars? c s = some i ↔ ∃ s₁ s₂ suffix,
    afterPrefix? c s = some s₁ ∧ takeDigits? 4 (afterDot s₁) = some (i.year, s₂) ∧
      i.year.take 2 = ['2', '0'] ∧ takeDigits? 7 (afterDot s₂) = some (i.number, suffix) ∧
      IsSuffix suffix := by
  unfold parseChars? IsSuffix
  simp only [Option.bind_eq_bind, Option.bind_eq_some_iff, Option.ite_none_left_eq_some,
    Option.ite_none_right_eq_some, Option.some.injEq, Prod.exists, ne_eq, not_not]
  constructor
  · rintro ⟨s₁, hlead, year, s₂, hyear, hcentury, number, suffix, hnumber, hsuffix, rfl⟩
    exact ⟨s₁, s₂, suffix, hlead, hyear, hcentury, hnumber, hsuffix⟩
  · rintro ⟨s₁, s₂, suffix, hlead, hyear, hcentury, hnumber, hsuffix⟩
    exact ⟨s₁, hlead, i.year, s₂, hyear, hcentury, i.number, suffix, hnumber, hsuffix, rfl⟩

/-- The reader accepts what is written in some way, and nothing else. -/
theorem parseChars?_eq_some_iff :
    parseChars? c s = some i ↔ ∃ w : Written c, w.chars = s ∧ w.identifier = i := by
  simp only [parseChars?_eq_some, afterPrefix?_eq_some_iff, takeDigits?_eq_some_iff]
  constructor
  · rintro ⟨s₁, s₂, suffix, ⟨lead, hlead, rfl⟩, ⟨hs₁, hyear⟩, hcentury, ⟨hs₂, hnumber⟩, hsuffix⟩
    obtain ⟨dot₁, hdot₁, hs₁'⟩ := exists_dot s₁
    obtain ⟨dot₂, hdot₂, hs₂'⟩ := exists_dot s₂
    refine ⟨⟨lead, dot₁, i.year, dot₂, i.number, suffix, hlead, hdot₁, ⟨hyear, hcentury⟩, hdot₂,
      hnumber, hsuffix⟩, ?_, rfl⟩
    rw [hs₁', hs₁, hs₂', hs₂]
    rfl
  · rintro ⟨w, rfl, rfl⟩
    exact ⟨_, _, w.suffix, ⟨w.lead, w.isLead, rfl⟩,
      ⟨afterDot_append w.isFirstDot w.isYear.1 _, w.isYear.1⟩, w.isYear.2,
      ⟨afterDot_append w.isSecondDot w.isNumber _, w.isNumber⟩, w.isSuffix⟩

/-- The parts of a written reference can be told from its characters. -/
theorem Written.chars_injective {w w' : Written c} (h : w.chars = w'.chars) : w = w' := by
  obtain ⟨hlead, h⟩ := lead_inj w.isLead w'.isLead h
  obtain ⟨hfirstDot, hyear, h⟩ := dot_digits_inj w.isFirstDot w'.isFirstDot w.isYear.1 w'.isYear.1 h
  obtain ⟨hsecondDot, hnumber, hsuffix⟩ :=
    dot_digits_inj w.isSecondDot w'.isSecondDot w.isNumber w'.isNumber h
  exact Written.ext hlead hfirstDot hyear hsecondDot hnumber hsuffix

/-- References name one certificate if year and number are the same, and their text shows it. -/
theorem Written.identifier_text_eq_iff {c' : Certificate} (w : Written c) (w' : Written c') :
    w.identifier.text = w'.identifier.text ↔ w.year = w'.year ∧ w.number = w'.number := by
  simp only [Identifier.text, identifier]
  constructor
  · intro h
    obtain ⟨hyear, h⟩ := List.append_inj (String.ofList_injective h)
      (w.isYear.1.1.trans w'.isYear.1.1.symm)
    exact ⟨hyear, (List.cons.inj h).2⟩
  · rintro ⟨hyear, hnumber⟩
    rw [hyear, hnumber]

end Reading

/-! ## Reading bytes -/

/-- Reads a reference like `parse?`, but counts and tests the digits as bytes. -/
def scan (c : Certificate) (s : String) : Except BadCut (Option Identifier) :=
  match afterPrefix? c (codeForm s).toList with
  | none => .ok none
  | some rest => do
    match ← scanDigits 4 (String.ofList (afterDot rest)) with
    | none => return none
    | some (year, rest) =>
      if year.toList.take 2 ≠ ['2', '0'] then return none
      else
        match ← scanDigits 7 (String.ofList (afterDot rest.toList)) with
        | none => return none
        | some (number, suffix) =>
          let suffix := suffix.toList
          return if suffix = [] ∨ suffix = ['R'] ∨ suffix = ['V'] then
            some ⟨year.toList, number.toList⟩ else none

/-- Whatever characters a text has, none of them is cut through. -/
theorem scan_eq (c : Certificate) (s : String) : scan c s = .ok (parse? c s) := by
  unfold scan parse? parseChars?
  simp only [scanDigits_eq, String.toList_ofList]
  cases afterPrefix? c (codeForm s).toList with
  | none => rfl
  | some rest =>
    simp only [Option.bind_eq_bind, Option.bind_some]
    cases takeDigits? 4 (afterDot rest) with
    | none => rfl
    | some p =>
      obtain ⟨year, rest⟩ := p
      simp only [Option.map_some, Option.bind_some, bind, Except.bind, String.toList_ofList]
      split
      · rfl
      cases takeDigits? 7 (afterDot rest) with
      | none => rfl
      | some p =>
        simp only [Option.map_some, Option.bind_some, String.toList_ofList]
        rfl

/-- Blank ends do not matter. -/
theorem parse?_append_of_blank (c : Certificate) (s : String) {front back : List Char}
    (hfront : ∀ x ∈ front, isBlank x = true) (hback : ∀ x ∈ back, isBlank x = true) :
    parse? c (String.ofList (front ++ s.toList ++ back)) = parse? c s := by
  rw [parse?, parse?, codeForm, codeForm, trim, trim, String.toList_ofList,
    trimChars_append_of_blank hfront hback]

/-- Neither does the case of the letters. -/
theorem parse?_of_sameLetters (c : Certificate) {s t : String} (h : sameLetters s t = true) :
    parse? c s = parse? c t := by
  rw [parse?, parse?, codeForm_eq_trim_upper, codeForm_eq_trim_upper, beq_iff_eq.mp h]

end Reference

/-! ## Who carries a reference -/

/-- What carries a reference: a document on a declaration, or a notification. -/
inductive Paper where
  | declared (d : Document)
  | notified (n : Notification)

namespace Paper

/-- The family that the reference is read for. A document is of that of its code. -/
def certificate? : Paper → Option Certificate
  | declared d => certificateForDocument? d.code
  | notified n => some n.certificate

def reference : Paper → String
  | declared d => d.reference
  | notified n => n.reference

def identifier? : Paper → Option Identifier
  | declared d => d.identifier?
  | notified n => n.identifier?

/-- The reference of the paper is written in the given way. -/
structure Spells (p : Paper) {c : Certificate} (w : Reference.Written c) : Prop where
  certificate : p.certificate? = some c
  chars : w.chars = (codeForm p.reference).toList

theorem identifier?_of_spells {p : Paper} {c : Certificate} {w : Reference.Written c}
    (h : p.Spells w) : p.identifier? = some w.identifier := by
  have hread : Reference.parse? c p.reference = some w.identifier :=
    Reference.parseChars?_eq_some_iff.mpr ⟨w, h.chars, rfl⟩
  cases p with
  | declared d =>
    have hfamily : certificateForDocument? d.code = some c := h.certificate
    rw [identifier?, Document.identifier?, hfamily, ← hread]
    rfl
  | notified n =>
    have hfamily : n.certificate = c := Option.some.inj h.certificate
    rw [identifier?, Notification.identifier?, hfamily, ← hread]
    rfl

end Paper

/-- The reader of a family accepts a text exactly if, without blank ends and in capitals, it is
a written reference, which it is in one way only, and then names its year and number. It cuts
through no character, and overlooks blank ends and letter case. Papers of any kind and family
name one certificate exactly if year and number of their references are the same. -/
theorem Reference.parse?_grammar (c : Certificate) (s : String) :
    (∀ i, parse? c s = some i ↔
      ∃ w : Written c, w.chars = (codeForm s).toList ∧ w.identifier = i) ∧
    (∀ w w' : Written c, w.chars = w'.chars → w = w') ∧
    (∀ w : Written c, w.identifier.text = String.ofList (w.year ++ '.' :: w.number)) ∧
    scan c s = .ok (parse? c s) ∧
    (∀ front back, (∀ x ∈ front, isBlank x = true) → (∀ x ∈ back, isBlank x = true) →
      parse? c (String.ofList (front ++ s.toList ++ back)) = parse? c s) ∧
    (∀ t, sameLetters s t = true → parse? c s = parse? c t) ∧
    ∀ (p p' : Paper) (a b : Certificate) (w : Written a) (w' : Written b),
      p.Spells w → p'.Spells w' →
        (p.identifier?.map (·.text) = p'.identifier?.map (·.text) ↔
          w.year = w'.year ∧ w.number = w'.number) := by
  refine ⟨fun _ => parseChars?_eq_some_iff, fun _ _ => Written.chars_injective, fun _ => rfl,
    scan_eq c s, fun _ _ => parse?_append_of_blank c s, fun _ => parse?_of_sameLetters c, ?_⟩
  intro p p' a b w w' hp hp'
  rw [Paper.identifier?_of_spells hp, Paper.identifier?_of_spells hp', Option.map_some,
    Option.map_some, Option.some.injEq, Written.identifier_text_eq_iff]

/-- A reference on a declaration with all that may be left out. -/
def fullReference : Reference.Written .chedA where
  lead := Reference.declarationPrefix.toList
  firstDot := ['.']
  year := ['2', '0', '2', '5']
  secondDot := ['.']
  number := ['1', '2', '3', '4', '5', '6', '7']
  suffix := ['R']
  isLead := .inr rfl
  isFirstDot := .inr rfl
  isYear := ⟨⟨rfl, rfl⟩, rfl⟩
  isSecondDot := .inr rfl
  isNumber := ⟨rfl, rfl⟩
  isSuffix := .inr (.inl rfl)

/-- The same certificate as another family's notification names it, as short as can be. -/
def shortReference : Reference.Written .chedP where
  lead := Certificate.chedP.notificationPrefix.toList
  firstDot := []
  year := ['2', '0', '2', '5']
  secondDot := []
  number := ['1', '2', '3', '4', '5', '6', '7']
  suffix := []
  isLead := .inl rfl
  isFirstDot := .inl rfl
  isYear := ⟨⟨rfl, rfl⟩, rfl⟩
  isSecondDot := .inl rfl
  isNumber := ⟨rfl, rfl⟩
  isSuffix := .inl rfl

/-- Papers with the two references name one certificate. -/
theorem fullReference_names_short : ∃ p p' : Paper,
    p.reference = " gbchd.2025.1234567r" ∧ p'.reference = "CHEDP.GB20251234567" ∧
      p.Spells fullReference ∧ p'.Spells shortReference ∧
      p.identifier?.map (·.text) = p'.identifier?.map (·.text) := by
  have hdocument : (Paper.declared ⟨"c640", " gbchd.2025.1234567r"⟩).Spells fullReference :=
    ⟨by decide +kernel, by decide +kernel⟩
  have hnotification : (Paper.notified ⟨"CHEDP.GB20251234567", .chedP, none, .validated, none, [],
      none⟩).Spells shortReference := ⟨rfl, by decide +kernel⟩
  obtain ⟨-, -, -, -, -, -, hnames⟩ := Reference.parse?_grammar .chedA " gbchd.2025.1234567r"
  exact ⟨_, _, rfl, rfl, hdocument, hnotification,
    (hnames _ _ _ _ _ _ hdocument hnotification).mpr ⟨rfl, rfl⟩⟩

end BorderControl
