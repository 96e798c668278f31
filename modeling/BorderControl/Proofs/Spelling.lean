import BorderControl.Proofs.Findings
import Mathlib.Data.List.Basic

/-!
# The spelling of check codes

Check codes with one `Text.codeForm` belong to one family, are answered by the same
documents and give the same reasons. Only the fishing control reads the code with its
blank ends (`sameLetters_fishingCheck_iff`). Spellings that it does not tell apart have
the same findings on every declaration (`Check.standardFindings_recoded`). Spellings of
the fishing check that it does tell apart have not (`decisionCodes_ne_of_blank`), because
the goods then go by the verdict on the consignment alone.
-/

namespace BorderControl

/-! ## Blank ends and letter case -/

namespace Text

theorem toNat_toUpper {c : Char} (h : 'a'.val ≤ c.val ∧ c.val ≤ 'z'.val) :
    c.toUpper.toNat = c.toNat - 32 := by
  have hlow : 97 ≤ c.toNat := h.1
  have hhigh : c.toNat ≤ 122 := h.2
  have hshift : ('A'.val - 'a'.val).toNat = 4294967264 := by decide
  have hadd : c.toUpper.toNat = (c.toNat + 4294967264) % 4294967296 := by
    delta Char.toUpper
    rw [dif_pos h, ← hshift]
    exact UInt32.toNat_add _ _
  omega

theorem isBlank_toUpper (c : Char) : isBlank c.toUpper = isBlank c := by
  by_cases h : 'a'.val ≤ c.val ∧ c.val ≤ 'z'.val
  · have hlow : 97 ≤ c.toNat := h.1
    have hhigh : c.toNat ≤ 122 := h.2
    rw [Bool.eq_iff_iff]
    simp only [isBlank, toNat_toUpper h, Bool.or_eq_true, Bool.and_eq_true, decide_eq_true_eq,
      beq_iff_eq]
    omega
  · have hsame : c.toUpper = c := dif_neg h
    rw [hsame]

theorem map_toUpper_trimChars (s : List Char) :
    (trimChars s).map Char.toUpper = trimChars (s.map Char.toUpper) := by
  have hblank : isBlank ∘ Char.toUpper = isBlank := funext isBlank_toUpper
  rw [trimChars, trimChars, List.dropWhile_map, hblank, ← List.map_reverse, List.dropWhile_map,
    hblank, ← List.map_reverse]

/-- Raising letters and cutting blank ends go in any order. -/
theorem codeForm_eq_trim_upper (s : String) : codeForm s = trim (upper s) := by
  simp only [codeForm, upper, trim, String.toList_ofList, map_toUpper_trimChars]

theorem trimChars_sublist (s : List Char) : (trimChars s).Sublist s := by
  have hback : (trimChars s).Sublist (s.dropWhile isBlank).reverse.reverse :=
    (List.dropWhile_sublist _).reverse
  rw [List.reverse_reverse] at hback
  exact hback.trans (List.dropWhile_sublist _)

/-- Only a text without blank ends has all of its characters in its code form. -/
theorem upper_eq_codeForm_iff (s : String) : upper s = codeForm s ↔ trim s = s := by
  constructor
  · intro h
    have hlength : (trimChars s.toList).length = s.toList.length := by
      have := congrArg (fun t => t.toList.length) h
      simpa [upper, codeForm, trim] using this.symm
    rw [trim, (trimChars_sublist s.toList).eq_of_length hlength, String.ofList_toList]
  · intro h
    rw [codeForm, h]

end Text

open Text

theorem upper_fishingCheck : upper fishingCheck = fishingCheck := by decide

/-- The fishing control takes the code for its own if the code form is that of the fishing
check and there are no blank ends. -/
theorem sameLetters_fishingCheck_iff (a : String) :
    sameLetters a fishingCheck = true ↔ codeForm a = fishingCheck ∧ trim a = a := by
  rw [sameLetters, upper_fishingCheck, beq_iff_eq]
  constructor
  · intro h
    have hform : codeForm a = fishingCheck := by
      rw [codeForm_eq_trim_upper, h]
      decide
    exact ⟨hform, (upper_eq_codeForm_iff a).mp (h.trans hform.symm)⟩
  · rintro ⟨hform, htrim⟩
    rw [(upper_eq_codeForm_iff a).mpr htrim, hform]

/-! ## One code form -/

section CodeForm

variable {a b : String} (h : codeForm a = codeForm b)
include h

theorem checkFamily?_congr : checkFamily? a = checkFamily? b := by
  unfold checkFamily? sameLetters
  rw [← codeForm, ← codeForm, h]

theorem certificateForCheck?_congr : certificateForCheck? a = certificateForCheck? b := by
  rw [certificateForCheck?, certificateForCheck?, checkFamily?_congr h]

theorem qualifiesFor_congr (d : Document) : d.qualifiesFor a = d.qualifiesFor b := by
  rw [Document.qualifiesFor, Document.qualifiesFor, codeAnswersCheck, codeAnswersCheck,
    checkFamily?_congr h]

theorem pairings_congr (notifications : List Notification) (documents : List Document) :
    pairings notifications a documents = pairings notifications b documents := by
  have hevidence : evidence a documents = evidence b documents := by
    rw [evidence, evidence, funext (qualifiesFor_congr h)]
  rw [pairings_eq, pairings_eq, hevidence]

theorem isGoodsMovement_congr : isGoodsMovement a = isGoodsMovement b := by
  unfold isGoodsMovement sameLetters
  rw [← codeForm, ← codeForm, h]

theorem notLinkedReason_congr (c : Certificate) (reference : String) :
    notLinkedReason a c reference = notLinkedReason b c reference := by
  unfold notLinkedReason Authority.ofCheck sameLetters
  rw [← codeForm, ← codeForm, h]

end CodeForm

/-! ## Findings under another spelling -/

/-- The finding with another text for its check code. -/
def Finding.recoded (checkCode : String) (f : Finding) : Finding :=
  { f with checkCode := checkCode }

section Recoded

variable {a b : String} {f : Finding} {findings : List Finding}

@[simp] theorem recoded_checkCode : (f.recoded b).checkCode = b := rfl

@[simp] theorem recoded_decisionCode : (f.recoded b).decisionCode = f.decisionCode := rfl

@[simp] theorem recoded_documentReference :
    (f.recoded b).documentReference = f.documentReference := rfl

theorem hasLinkedSibling_recoded (hf : f.checkCode = a) :
    ∀ {findings : List Finding}, (∀ g ∈ findings, g.checkCode = a) →
      (f.recoded b).hasLinkedSibling (findings.map (Finding.recoded b)) =
        f.hasLinkedSibling findings
  | [], _ => rfl
  | g :: findings, hall => by
    have ih := hasLinkedSibling_recoded hf fun g hg => hall g (List.mem_cons_of_mem _ hg)
    unfold Finding.hasLinkedSibling at ih ⊢
    rw [List.map_cons, List.any_cons, List.any_cons, ih]
    simp [Finding.recoded, hf, hall g List.mem_cons_self]

/-- Spellings with one code form give the same reasons. -/
theorem reasonsFor_recoded (h : codeForm a = codeForm b) (commodity : Commodity)
    (hf : f.checkCode = a) (hall : ∀ g ∈ findings, g.checkCode = a) :
    (reasonsFor commodity (f.recoded b) (findings.map (Finding.recoded b))).toOption =
      (reasonsFor commodity f findings).toOption := by
  have hsibling := hasLinkedSibling_recoded (b := b) hf hall
  unfold reasonsFor
  simp only [recoded_checkCode, recoded_decisionCode, recoded_documentReference, hsibling, hf,
    certificateForCheck?_congr h, isGoodsMovement_congr h, qualifiesFor_congr h,
    notLinkedReason_congr h]
  by_cases hx : f.decisionCode ≠ .x00
  · rw [if_pos hx, if_pos hx]
  · rw [if_neg hx, if_neg hx]
    cases certificateForCheck? b <;> rfl

theorem explained_recoded (h : codeForm a = codeForm b) (commodity : Commodity)
    (hall : ∀ g ∈ findings, g.checkCode = a) :
    explained commodity (findings.map (Finding.recoded b)) =
      (explained commodity findings).map (Finding.recoded b) := by
  rw [explained, explained, List.map_map, List.map_map]
  refine List.map_congr_left fun f hf => ?_
  simp only [Function.comp_apply, reasonsFor_recoded h commodity (hall f hf) hall]
  rfl

theorem findingFor_recoded (h : codeForm a = codeForm b)
    (hfishing : sameLetters a fishingCheck = sameLetters b fishingCheck) (chain : Chain)
    (d : Declaration) (commodity : Commodity) (p : Pairing) :
    findingFor chain d commodity b p = (findingFor chain d commodity a p).recoded b := by
  have houtcome : chain.resolve ⟨d, commodity, b, certificateForCheck? b, p.notification,
      p.document⟩ = chain.resolve ⟨d, commodity, a, certificateForCheck? a, p.notification,
      p.document⟩ := by
    rw [certificateForCheck?_congr h]
    refine Chain.resolve_congr fun r _ => ?_
    cases r with
    | fishingControl => simp only [Rule.step, hfishing]; rfl
    | _ => rfl
  rw [findingFor, houtcome]
  rfl

/-- Spellings that the fishing control does not tell apart have the same findings. -/
theorem Check.standardFindings_recoded (h : codeForm a = codeForm b)
    (hfishing : sameLetters a fishingCheck = sameLetters b fishingCheck) (s : RuleSettings)
    (d : Declaration) (notifications : List Notification) (commodity : Commodity) :
    (Check.mk b).standardFindings s d notifications commodity =
      ((Check.mk a).standardFindings s d notifications commodity).map (Finding.recoded b) := by
  have hsame : ((pairings notifications b commodity.documents).map
      (findingFor (RuleSets.standardChain s (certificateForCheck? b)) d commodity b)) =
      ((pairings notifications a commodity.documents).map
        (findingFor (RuleSets.standardChain s (certificateForCheck? a)) d commodity a)).map
        (Finding.recoded b) := by
    rw [List.map_map, pairings_congr h, certificateForCheck?_congr h]
    exact List.map_congr_left fun p _ => findingFor_recoded h hfishing _ d commodity p
  rw [standardFindings, hsame, explained_recoded h commodity fun g hg => ?_, standardFindings]
  obtain ⟨p, -, rfl⟩ := List.mem_map.mp hg
  rfl

end Recoded

/-! ## The fishing check -/

/-- Fish that is declared with the certificate of a notification. -/
def fish : Commodity :=
  ⟨1, none, none, none, [⟨"C673", "GBCHD2025.0000003"⟩], [⟨fishingCheck⟩]⟩

def landing : Declaration := ⟨"25GB0000000000003", some 1, none, [fish], none⟩

/-- The border control post accepts the fish. The fishing control is still missing. -/
def acceptedFish : Notification where
  reference := "CHEDP.GB.2025.0000003"
  certificate := .chedP
  version := none
  status := .validated
  partTwo := some ⟨some .internalMarket, none, none, none⟩
  lines := []
  updated := none

/-- With a blank in front, the fishing check releases fish that nobody controlled. -/
theorem decisionCodes_of_fish :
    ((Check.mk "H224").standardFindings .standard landing [acceptedFish] fish).map
        (·.decisionCode) = [.x00] ∧
      ((Check.mk " H224").standardFindings .standard landing [acceptedFish] fish).map
        (·.decisionCode) = [.c03] := by
  decide +kernel

section Spelling

variable {a b : String}

theorem map_decisionCode_recoded (findings : List Finding) :
    (findings.map (Finding.recoded b)).map (·.decisionCode) = findings.map (·.decisionCode) := by
  rw [List.map_map]
  rfl

/-- If one spelling of the fishing check has blank ends and the other one has none, the
findings differ. -/
theorem decisionCodes_ne_of_blank (h : codeForm a = codeForm b) (hform : codeForm a = fishingCheck)
    (htrim : trim a = a) (hblank : trim b ≠ b) :
    ((Check.mk a).standardFindings .standard landing [acceptedFish] fish).map (·.decisionCode) ≠
      ((Check.mk b).standardFindings .standard landing [acceptedFish] fish).map
        (·.decisionCode) := by
  have ha : sameLetters "H224" fishingCheck = sameLetters a fishingCheck := by
    rw [(sameLetters_fishingCheck_iff a).mpr ⟨hform, htrim⟩]
    decide
  have hb : sameLetters " H224" fishingCheck = sameLetters b fishingCheck := by
    rw [Bool.eq_false_iff.mpr fun hs => hblank ((sameLetters_fishingCheck_iff b).mp hs).2]
    decide
  have hplain : codeForm "H224" = codeForm a := by
    rw [hform]
    decide
  have hfront : codeForm " H224" = codeForm b := by
    rw [← h, hform]
    decide
  rw [Check.standardFindings_recoded hplain ha, Check.standardFindings_recoded hfront hb,
    map_decisionCode_recoded, map_decisionCode_recoded, decisionCodes_of_fish.1,
    decisionCodes_of_fish.2]
  decide

/-- Two spellings of a check code have the same findings on every declaration exactly if
they are not the fishing check with blank ends and without. -/
theorem Check.findings_spelling_iff (h : codeForm a = codeForm b) :
    (∀ (s : RuleSettings) (d : Declaration) (notifications : List Notification)
      (commodity : Commodity),
      (Check.mk b).findings (.standard s) d notifications commodity =
        ((Check.mk a).findings (.standard s) d notifications commodity).map
          (List.map (Finding.recoded b))) ↔
      (codeForm a = fishingCheck → (trim a = a ↔ trim b = b)) := by
  simp only [findings_standard, Except.map, Except.ok.injEq]
  constructor
  · intro hall hform
    have hcodes : ((Check.mk a).standardFindings .standard landing [acceptedFish] fish).map
        (·.decisionCode) = ((Check.mk b).standardFindings .standard landing [acceptedFish] fish).map
        (·.decisionCode) := by
      rw [hall, map_decisionCode_recoded]
    constructor
    · intro ha
      by_contra hb
      exact decisionCodes_ne_of_blank h hform ha hb hcodes
    · intro hb
      by_contra ha
      exact decisionCodes_ne_of_blank h.symm (h ▸ hform) hb ha hcodes.symm
  · intro hends s d notifications commodity
    refine standardFindings_recoded h ?_ s d notifications commodity
    rw [Bool.eq_iff_iff, sameLetters_fishingCheck_iff, sameLetters_fishingCheck_iff, ← h]
    exact and_congr_right hends

/-- The case of the letters does not matter to the fishing control. -/
theorem findings_of_small_letters :
    (Check.mk "h224").findings (.standard .standard) landing [acceptedFish] fish =
      ((Check.mk "H224").findings (.standard .standard) landing [acceptedFish] fish).map
        (List.map (Finding.recoded "h224")) :=
  (Check.findings_spelling_iff (by decide)).mpr (fun _ => by decide) _ _ _ _

/-- A blank in front does. -/
theorem findings_of_blank_front :
    codeForm "H224" = codeForm " H224" ∧
      (Check.mk " H224").findings (.standard .standard) landing [acceptedFish] fish ≠
        ((Check.mk "H224").findings (.standard .standard) landing [acceptedFish] fish).map
          (List.map (Finding.recoded " H224")) := by
  refine ⟨by decide, fun h => ?_⟩
  simp only [Check.findings_standard, Except.map, Except.ok.injEq] at h
  have hcodes := congrArg (List.map (·.decisionCode)) h
  rw [map_decisionCode_recoded, decisionCodes_of_fish.1, decisionCodes_of_fish.2] at hcodes
  cases hcodes

end Spelling

end BorderControl
