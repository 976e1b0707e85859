/-
  ContextEngine.Python.Datetime — what a datetime's text says.

  Proved: `isoformat(timespec="microseconds")` of an aware UTC datetime, whose year has four
  digits, determines the instant (`isoformat_injective`): every field of the text is of a fixed
  width, and the calendar date of a day number determines the day (`civil_injective`).
-/

import ContextEngine.Python.Hashlib

namespace ContextEngine.Python

/-- `datetime.min ≤ t ≤ datetime.max`, in UTC. -/
def Instant.Representable (t : Instant) : Prop :=
  -62135596800000000 ≤ t.micros ∧ t.micros < 253402300800000000

instance (t : Instant) : Decidable t.Representable := inferInstanceAs (Decidable (_ ∧ _))

/-! ## Padded numbers -/

theorem toList_padded {width : Nat} {n : Int} (hn : 0 ≤ n) : (padded width n).toList =
    List.replicate (width - (Nat.toDigits 10 n.toNat).length) '0' ++ Nat.toDigits 10 n.toNat := by
  obtain ⟨k, rfl⟩ := Int.eq_ofNat_of_zero_le hn
  have hrepr : (toString (k : Int)).toList = Nat.toDigits 10 k := Nat.toList_repr
  have hlength : (toString (k : Int)).length = (Nat.toDigits 10 k).length := by rw [← hrepr, String.length_toList]
  rw [padded, String.toList_append, String.toList_ofList, hrepr, hlength]
  rfl

theorem length_padded {width : Nat} {n : Int} (hn : 0 ≤ n) (hw : 0 < width) (hlt : n < 10 ^ width) :
    (padded width n).toList.length = width := by
  have hnat : n.toNat < 10 ^ width := by
    have : ((n.toNat : Int)) < ((10 ^ width : Nat) : Int) := by
      rw [Int.toNat_of_nonneg hn]
      push_cast
      exact hlt
    exact_mod_cast this
  have hlen : (Nat.toDigits 10 n.toNat).length ≤ width := (Nat.length_toDigits_le_iff (by decide) hw).mpr hnat
  rw [toList_padded hn, List.length_append, List.length_replicate]
  omega

theorem ofDigitChars_padded (width : Nat) {n : Int} (hn : 0 ≤ n) :
    Nat.ofDigitChars 10 (padded width n).toList 0 = n.toNat := by
  rw [toList_padded hn, Nat.ofDigitChars_append, Nat.ofDigitChars_replicate_zero, Nat.mul_zero, Nat.ofDigitChars_ten_toDigits]

theorem padded_injective {width : Nat} {n m : Int} (hn : 0 ≤ n) (hm : 0 ≤ m)
    (h : (padded width n).toList = (padded width m).toList) : n = m := by
  have := ofDigitChars_padded width hn
  rw [h, ofDigitChars_padded width hm] at this
  omega

/-- A field of a fixed width, inside a text. -/
theorem padded_append {width : Nat} {n m : Int} {x y : List Char} (hn : 0 ≤ n ∧ n < 10 ^ width) (hm : 0 ≤ m ∧ m < 10 ^ width)
    (hw : 0 < width) (h : (padded width n).toList ++ x = (padded width m).toList ++ y) : n = m ∧ x = y := by
  obtain ⟨hnm, hxy⟩ := List.append_inj h ((length_padded hn.1 hw hn.2).trans (length_padded hm.1 hw hm.2).symm)
  exact ⟨padded_injective hn.1 hm.1 hnm, hxy⟩

/-! ## Calendar dates -/

/-- A day of a 400-year era: its year, and its day of the year that starts in March. -/
theorem era_bounds {doe yoe doy : Int} (h0 : 0 ≤ doe) (h1 : doe < 146097)
    (hyoe : yoe = (doe - doe / 1460 + doe / 36524 - doe / 146096) / 365) (hdoy : doy = doe - (365 * yoe + yoe / 4 - yoe / 100)) :
    0 ≤ yoe ∧ yoe ≤ 399 ∧ 0 ≤ doy ∧ doy ≤ 365 := by
  obtain ⟨century, hcentury⟩ : ∃ b, doe / 36524 = b := ⟨_, rfl⟩
  have hcenturies : 0 ≤ century ∧ century ≤ 4 := by omega
  have hyears : 0 ≤ yoe ∧ yoe ≤ 399 := by omega
  -- The leap days that were counted are those of the years before, or one more on a leap day.
  have hleap : doe / 1460 = yoe / 4 ∨ doe / 1460 = yoe / 4 + 1 := by omega
  obtain ⟨hundreds, hhundreds⟩ : ∃ h, yoe / 100 = h := ⟨_, rfl⟩
  have hrange : 0 ≤ hundreds ∧ hundreds ≤ 3 := by omega
  have hskipped : century = hundreds ∨ century = hundreds + 1 := by omega
  refine ⟨hyears.1, hyears.2, ?_, ?_⟩
  · rcases hleap with hleap | hleap <;> rcases hskipped with hskipped | hskipped <;> omega
  · rcases hleap with hleap | hleap <;> rcases hskipped with hskipped | hskipped <;> omega

/-- The parts that `civil` computes. -/
structure CivilParts (days : Int) where
  era : Int
  doe : Int
  yoe : Int
  doy : Int
  mp : Int
  m : Int
  days_eq : days + 719468 = era * 146097 + doe
  doe_range : 0 ≤ doe ∧ doe < 146097
  yoe_range : 0 ≤ yoe ∧ yoe ≤ 399
  doy_range : 0 ≤ doy ∧ doy ≤ 365
  doe_eq : doe = 365 * yoe + yoe / 4 - yoe / 100 + doy
  mp_eq : mp = (5 * doy + 2) / 153
  m_eq : m = if mp < 10 then mp + 3 else mp - 9
  civil_eq : civil days = (yoe + era * 400 + (if m ≤ 2 then 1 else 0), m, doy - (153 * mp + 2) / 5 + 1)

def civilParts (days : Int) : CivilParts days :=
  let z := days + 719468
  let doe := z % 146097
  let yoe := (doe - doe / 1460 + doe / 36524 - doe / 146096) / 365
  let doy := doe - (365 * yoe + yoe / 4 - yoe / 100)
  let mp := (5 * doy + 2) / 153
  have hdoe : 0 ≤ doe ∧ doe < 146097 := ⟨Int.emod_nonneg z (by decide), Int.emod_lt_of_pos z (by decide)⟩
  have hbounds : 0 ≤ yoe ∧ yoe ≤ 399 ∧ 0 ≤ doy ∧ doy ≤ 365 := era_bounds hdoe.1 hdoe.2 rfl rfl
  { era := z / 146097
    doe := doe
    yoe := yoe
    doy := doy
    mp := mp
    m := if mp < 10 then mp + 3 else mp - 9
    days_eq := (Int.ediv_mul_add_emod z 146097).symm
    doe_range := hdoe
    yoe_range := ⟨hbounds.1, hbounds.2.1⟩
    doy_range := ⟨hbounds.2.2.1, hbounds.2.2.2⟩
    doe_eq := by omega
    mp_eq := rfl
    m_eq := rfl
    civil_eq := rfl }

theorem CivilParts.mp_range {days : Int} (p : CivilParts days) : 0 ≤ p.mp ∧ p.mp ≤ 11 := by
  have := p.mp_eq
  have := p.doy_range
  omega

theorem CivilParts.m_range {days : Int} (p : CivilParts days) : 1 ≤ p.m ∧ p.m ≤ 12 := by
  have := p.mp_range
  rw [p.m_eq]
  split <;> omega

theorem civil_injective {a b : Int} (h : civil a = civil b) : a = b := by
  let p := civilParts a
  let q := civilParts b
  rw [p.civil_eq, q.civil_eq, Prod.mk.injEq, Prod.mk.injEq] at h
  obtain ⟨hyear, hmonth, hday⟩ := h
  rw [hmonth] at hyear
  have hmp : p.mp = q.mp := by
    have hp := p.mp_range
    have hq := q.mp_range
    have hm := hmonth
    rw [p.m_eq, q.m_eq] at hm
    split_ifs at hm <;> omega
  have hdoy : p.doy = q.doy := by
    rw [hmp] at hday
    omega
  have hyears : p.yoe + p.era * 400 = q.yoe + q.era * 400 := by omega
  have hp := p.yoe_range
  have hq := q.yoe_range
  have hyoe : p.yoe = q.yoe := by omega
  have hera : p.era = q.era := by omega
  have hdoe : p.doe = q.doe := by rw [p.doe_eq, q.doe_eq, hyoe, hdoy]
  have ha := p.days_eq
  have hb := q.days_eq
  rw [hera, hdoe] at ha
  omega

/-- The year of a representable day has four digits, and the month and the day two. -/
theorem civil_range (days : Int) (h0 : -719162 ≤ days) (h1 : days < 2932897) :
    (0 ≤ (civil days).1 ∧ (civil days).1 < 10 ^ 4) ∧ (0 ≤ (civil days).2.1 ∧ (civil days).2.1 < 10 ^ 2) ∧
      0 ≤ (civil days).2.2 ∧ (civil days).2.2 < 10 ^ 2 := by
  let p := civilParts days
  have hm := p.m_range
  have hmp := p.mp_range
  have hdoy := p.doy_range
  have hyoe := p.yoe_range
  have hdays := p.days_eq
  have hdoe := p.doe_range
  have hera : 0 ≤ p.era ∧ p.era ≤ 24 := by omega
  have hmpdef := p.mp_eq
  rw [p.civil_eq]
  refine ⟨⟨?_, ?_⟩, ⟨by simp only; omega, by simp only; omega⟩, by simp only; omega, by simp only; omega⟩
  · simp only
    split <;> omega
  · simp only
    split
    · rename_i hwinter
      have hmdef := p.m_eq
      have hdoedef := p.doe_eq
      split at hmdef <;> omega
    · omega

/-! ## The text -/

theorem isoformat_injective {t t' : Instant} (ht : t.Representable) (ht' : t'.Representable)
    (h : isoformat t = isoformat t') : t = t' := by
  obtain ⟨micros⟩ := t
  obtain ⟨micros'⟩ := t'
  obtain ⟨ht0, ht1⟩ := ht
  obtain ⟨ht0', ht1'⟩ := ht'
  dsimp only at ht0 ht1 ht0' ht1'
  have hdate := civil_range (micros / 1000000 / 86400) (by omega) (by omega)
  have hdate' := civil_range (micros' / 1000000 / 86400) (by omega) (by omega)
  have h := congrArg String.toList h
  simp only [isoformat, String.toList_append, List.append_assoc] at h
  obtain ⟨hyear, h⟩ := padded_append hdate.1 hdate'.1 (by decide) h
  have h := List.append_cancel_left h
  obtain ⟨hmonth, h⟩ := padded_append hdate.2.1 hdate'.2.1 (by decide) h
  have h := List.append_cancel_left h
  obtain ⟨hday, h⟩ := padded_append hdate.2.2 hdate'.2.2 (by decide) h
  have h := List.append_cancel_left h
  obtain ⟨hhour, h⟩ := padded_append (by omega) (by omega) (by decide) h
  have h := List.append_cancel_left h
  obtain ⟨hminute, h⟩ := padded_append (by omega) (by omega) (by decide) h
  have h := List.append_cancel_left h
  obtain ⟨hsecond, h⟩ := padded_append (by omega) (by omega) (by decide) h
  have h := List.append_cancel_left h
  obtain ⟨hmicro, h⟩ := padded_append (by omega) (by omega) (by decide) h
  have hdays : micros / 1000000 / 86400 = micros' / 1000000 / 86400 :=
    civil_injective (Prod.ext hyear (Prod.ext hmonth hday))
  have hmicros : micros = micros' := by omega
  rw [hmicros]

end ContextEngine.Python
