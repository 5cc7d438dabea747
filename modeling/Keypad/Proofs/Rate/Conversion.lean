import Keypad.Proofs.Binary64.Stretch
import Keypad.Rate.Table

/-!
# Keypad.Proofs.Rate.Conversion — converted amounts keep their order and their sign

* `RateTable.Usable`: a code with a positive finite rate; `rate_of_usable`, `rate_of_not_usable`: what is looked up.
* `convert_eq_error_iff`: a conversion fails by its codes alone, and names the first one that has no such rate.
* `convert_of_usable`: otherwise every amount is divided by one such rate and multiplied by another.
* `convert_mono`: so conversion is monotone, whatever is listed.
-/

namespace Keypad

open Binary64

/-! ## Usable rates -/

/-- The code is listed, and the last rate listed for it is finite and positive. -/
def RateTable.Usable (table : RateTable) (code : String) : Prop :=
  ∃ r, table.listed? code = some r ∧ r.isFinite ∧ zero < r

variable {table : RateTable} {code source target : String}

theorem isUsableRate_iff {r : Binary64} : isUsableRate r ↔ r.isFinite ∧ zero < r := by
  simp [isUsableRate]

theorem RateTable.rate_of_usable (h : table.Usable code) :
    ∃ r, table.rate code = .ok r ∧ r.isFinite ∧ zero < r := by
  obtain ⟨r, hlisted, hr⟩ := h
  refine ⟨r, ?_, hr⟩
  rw [rate, hlisted]
  exact if_pos (isUsableRate_iff.mpr hr)

theorem RateTable.rate_of_not_usable (h : ¬ table.Usable code) : table.rate code = .error (.unavailable code) := by
  unfold rate
  cases hlisted : table.listed? code with
  | none => rfl
  | some r => exact if_neg fun hr => h ⟨r, hlisted, isUsableRate_iff.mp hr⟩

/-! ## Conversions -/

/-- Two usable codes convert every amount, by a quotient and a product. -/
theorem convert_of_usable (hsource : table.Usable source) (htarget : table.Usable target) :
    ∃ p q, p.isFinite ∧ zero < p ∧ q.isFinite ∧ zero < q ∧
      ∀ value, convert value source target table = .ok (value / p * q) := by
  obtain ⟨p, hp, hpfinite, hppos⟩ := RateTable.rate_of_usable hsource
  obtain ⟨q, hq, hqfinite, hqpos⟩ := RateTable.rate_of_usable htarget
  refine ⟨p, q, hpfinite, hppos, hqfinite, hqpos, fun value => ?_⟩
  rw [convert, hp, hq]
  rfl

/-- **Failures**: the source is looked up first, and the amount does not matter. -/
theorem convert_eq_error_iff (value : Binary64) (e : RateError) :
    convert value source target table = .error e ↔
      ¬ table.Usable source ∧ e = .unavailable source ∨
      table.Usable source ∧ ¬ table.Usable target ∧ e = .unavailable target := by
  by_cases hsource : table.Usable source
  · by_cases htarget : table.Usable target
    · obtain ⟨p, q, -, -, -, -, hconvert⟩ := convert_of_usable hsource htarget
      simp [hconvert, hsource, htarget]
    · obtain ⟨p, hp, -⟩ := RateTable.rate_of_usable hsource
      rw [convert, hp, RateTable.rate_of_not_usable htarget]
      simp [hsource, htarget, bind, Except.bind, eq_comm]
  · rw [convert, RateTable.rate_of_not_usable hsource]
    simp [hsource, bind, Except.bind, eq_comm]

/-- A quotient and a product by positive numbers: NaN does not come up, and the sign is kept. -/
theorem isNegative_exchange {x p q : Binary64} (hx : x ≠ nan) (hp : p.isFinite) (hppos : zero < p) (hq : q.isFinite)
    (hqpos : zero < q) : x / p * q ≠ nan ∧ (x / p * q).isNegative = x.isNegative := by
  have hquotient := stretches_div hx hp hppos
  have hproduct := stretches_mul hquotient.ne_nan hq hqpos
  exact ⟨hproduct.ne_nan, hproduct.isNegative.trans hquotient.isNegative⟩

/-- **Conversion is monotone** for every table: of two amounts either both are converted or both fail, with the error
that names the first code without a positive finite rate.  Converted amounts are numbers in the same order, each with
the sign of the amount. -/
theorem convert_mono (table : RateTable) (source target : String) {v w : Binary64} (hv : v.isFinite) (hw : w.isFinite)
    (h : v ≤ w) :
    (∀ e, convert v source target table = .error e ↔ convert w source target table = .error e) ∧
    (∀ e, convert v source target table = .error e ↔
      ¬ table.Usable source ∧ e = .unavailable source ∨
      table.Usable source ∧ ¬ table.Usable target ∧ e = .unavailable target) ∧
    (table.Usable source → table.Usable target → ∃ x y,
      convert v source target table = .ok x ∧ convert w source target table = .ok y ∧
      x ≠ nan ∧ y ≠ nan ∧ x ≤ y ∧ x.isNegative = v.isNegative ∧ y.isNegative = w.isNegative) := by
  refine ⟨fun e => ?_, convert_eq_error_iff v, fun hsource htarget => ?_⟩
  · rw [convert_eq_error_iff, convert_eq_error_iff]
  · obtain ⟨p, q, hp, hppos, hq, hqpos, hconvert⟩ := convert_of_usable hsource htarget
    obtain ⟨hx, hxsign⟩ := isNegative_exchange (ne_nan_of_isFinite hv) hp hppos hq hqpos
    obtain ⟨hy, hysign⟩ := isNegative_exchange (ne_nan_of_isFinite hw) hp hppos hq hqpos
    have horder : v / p * q ≤ w / p * q := mul_le_mul_of_pos hq hqpos (div_le_div_of_pos hp hppos h)
    exact ⟨v / p * q, w / p * q, hconvert v, hconvert w, hx, hy, horder, hxsign, hysign⟩

/-- From the least rate there is to an ordinary one both amounts overflow; a rate of zero is none. -/
theorem convert_mono_overflow :
    let table : RateTable := { base := "USD", rates := [("LOW", ofUnits false 1), ("TWD", ofNat 32), ("XXX", zero)] }
    let v := -ofNat 2
    let w := ofNat 3
    v.isFinite ∧ w.isFinite ∧ v ≤ w ∧ table.Usable "LOW" ∧ table.Usable "TWD" ∧ ¬ table.Usable "XXX" ∧
      (∃ x y, convert v "LOW" "TWD" table = .ok x ∧ convert w "LOW" "TWD" table = .ok y ∧
        x ≠ nan ∧ y ≠ nan ∧ x ≤ y ∧ x.isNegative = v.isNegative ∧ y.isNegative = w.isNegative) ∧
      convert v "LOW" "XXX" table = .error (.unavailable "XXX") ∧
      convert w "LOW" "XXX" table = .error (.unavailable "XXX") := by
  intro table v w
  have hv : v.isFinite := by decide +kernel
  have hw : w.isFinite := by decide +kernel
  have hle : v ≤ w := by decide +kernel
  have hlow : table.Usable "LOW" :=
    ⟨ofUnits false 1, by decide +kernel, by decide +kernel, by decide +kernel⟩
  have htwd : table.Usable "TWD" :=
    ⟨ofNat 32, by decide +kernel, by decide +kernel, by decide +kernel⟩
  have hzero : ¬ table.Usable "XXX" := by
    rintro ⟨r, hlisted, -, hpos⟩
    have hrate : table.listed? "XXX" = some zero := by decide +kernel
    obtain rfl := Option.some.inj (hrate.symm.trans hlisted)
    revert hpos
    decide +kernel
  obtain ⟨hboth, herror, -⟩ := convert_mono table "LOW" "XXX" hv hw hle
  have hmissing : convert v "LOW" "XXX" table = .error (.unavailable "XXX") :=
    (herror _).mpr (Or.inr ⟨hlow, hzero, rfl⟩)
  exact ⟨hv, hw, hle, hlow, htwd, hzero, (convert_mono table "LOW" "TWD" hv hw hle).2.2 hlow htwd, hmissing,
    (hboth _).mp hmissing⟩

/-- To the least rate an amount below zero underflows, and stays a negative zero. -/
example :
    convert (-ofNat 1) "TWD" "LOW" { base := "USD", rates := [("LOW", ofUnits false 1), ("TWD", ofNat 32)] } =
      .ok (signedZero true) := by
  decide +kernel

end Keypad
