import Keypad.Decimal.Shortest
import Keypad.Proofs.Binary64.Spacing
import Keypad.Proofs.Decimal.Scientific

/-!
# Keypad.Proofs.Decimal.Shortest — no shorter decimal reads back

* `readsBack_iff`: what the test of the search says.
* `gridBelow`: the multiple of a power of ten next below a magnitude; `gridBelow_eq` in any common scale.
* `Neighbour`: the two multiples that are tried; `Neighbour.cut` on a coarser grid.
* `pointPosition_lower`, `pointPosition_upper`: the powers of ten around a magnitude.
* `readsBackAt?_seventeen`: of seventeen digits, one of the two neighbours reads back, so the search always ends.
* `shortest_spec`: the shortest decimal is the first that was found; `shortest_reads`: it reads back.
* `shortest_cut`: with digits cut off, unless they are zeros, it reads as another number.
-/

namespace Keypad.Decimal

open Binary64

variable {n c : Nat} {e : Int}

/-! ## Reading back -/

theorem units?_infinite (s : Bool) : (infinite s).units? = some (if s then -(unitsLimit : Int) else unitsLimit) := rfl

theorem units?_finite (s : Bool) (hn : Representable n) :
    (finite s n hn).units? = some (if s then -(n : Int) else n) := rfl

/-- A decimal reads back when it has the right count of units; the sign is left to the text. -/
theorem readsBack_iff (s : Bool) (hn : Representable n) (hpos : n ≠ 0) :
    readsBack n c e = true ↔ ofScientific s c e = finite s n hn := by
  rw [readsBack, beq_iff_eq]
  constructor
  · intro h
    refine ofScientific_sign (t := false) ?_
    have hlimit := hn.lt
    cases hx : ofScientific false c e with
    | nan => rw [hx] at h; cases h
    | infinite t =>
      rw [hx, units?_infinite] at h
      have hunits := Option.some.inj h
      split at hunits <;> omega
    | finite t m hm =>
      rw [hx, units?_finite] at h
      have hunits := Option.some.inj h
      cases t with
      | false =>
        obtain rfl : m = n := Int.ofNat.inj hunits
        rfl
      | true =>
        rw [if_pos rfl] at hunits
        omega
  · intro h
    rw [ofScientific_sign (s := false) h, units?_finite, if_neg nofun]

theorem readsBack_zero (hpos : n ≠ 0) : readsBack n 0 e = false := by
  have hzero : (ofScientific false 0 e).units? = some 0 := rfl
  rw [readsBack, hzero, beq_eq_false_iff_ne]
  intro h
  exact hpos (Int.ofNat.inj (Option.some.inj h)).symm

theorem readsBack_of_readsBackAt? (h : readsBackAt? n e = some c) : readsBack n c e = true := by
  unfold readsBackAt? at h
  dsimp only at h
  split at h
  · rename_i hbelow habove
    obtain rfl := Option.some.inj h
    split
    · exact hbelow
    · exact habove
  · rename_i hbelow _
    obtain rfl := Option.some.inj h
    exact hbelow
  · rename_i _ habove
    obtain rfl := Option.some.inj h
    exact habove
  · cases h

/-! ## Grids -/

/-- The multiple of `10 ^ exponent` next below a number of units. -/
def gridBelow (units : Nat) (exponent : Int) : Nat := (gridRatio units exponent).1 / (gridRatio units exponent).2

theorem gridBelow_eq {places : Nat} (h : 0 ≤ e + places) :
    gridBelow n e = n * tenPow places / (tenPow (e + places).toNat * unitsPerOne) := by
  unfold gridBelow gridRatio
  by_cases he : 0 ≤ e
  · have hexp : (e + places).toNat = e.toNat + places := by omega
    have hden : tenPow (e + places).toNat * unitsPerOne = unitsPerOne * tenPow e.toNat * tenPow places := by
      rw [hexp, tenPow_add]; ring
    rw [if_pos he, hden, Nat.mul_div_mul_right _ _ (tenPow_pos places)]
  · obtain ⟨more, rfl⟩ : ∃ more, places = (-e).toNat + more := ⟨places - (-e).toNat, by omega⟩
    have hexp : (e + ((-e).toNat + more : Nat)).toNat = more := by omega
    rw [if_neg he, hexp, tenPow_add, ← Nat.mul_assoc, Nat.mul_comm (tenPow more),
      Nat.mul_div_mul_right _ _ (tenPow_pos more)]

/-- On a grid `10 ^ k` times as coarse. -/
theorem gridBelow_add (n : Nat) (e : Int) (k : Nat) : gridBelow n (e + k) = gridBelow n e / tenPow k := by
  have h : 0 ≤ e + ((-e).toNat : Nat) := by omega
  have h' : 0 ≤ e + k + ((-e).toNat : Nat) := by omega
  have hexp : (e + k + ((-e).toNat : Nat)).toNat = (e + ((-e).toNat : Nat)).toNat + k := by omega
  have hden : tenPow ((e + ((-e).toNat : Nat)).toNat + k) * unitsPerOne =
      tenPow (e + ((-e).toNat : Nat)).toNat * unitsPerOne * tenPow k := by
    rw [tenPow_add]; ring
  rw [gridBelow_eq h', gridBelow_eq h, hexp, hden, Nat.div_div_eq_div_mul]

/-- One of the two multiples of `10 ^ exponent` around a number of units. -/
def Neighbour (units : Nat) (exponent : Int) (c : Nat) : Prop :=
  c = gridBelow units exponent ∨ c = gridBelow units exponent + 1

theorem neighbour_of_readsBackAt? (h : readsBackAt? n e = some c) : Neighbour n e c := by
  unfold readsBackAt? at h
  dsimp only at h
  split at h
  · obtain rfl := Option.some.inj h
    split
    · exact Or.inl rfl
    · exact Or.inr rfl
  · exact Or.inl (Option.some.inj h).symm
  · exact Or.inr (Option.some.inj h).symm
  · cases h

theorem readsBack_of_readsBackAt?_eq_none (h : readsBackAt? n e = none) (hc : Neighbour n e c) :
    readsBack n c e = false := by
  unfold readsBackAt? at h
  dsimp only at h
  split at h
  · cases h
  · cases h
  · cases h
  · rename_i hbelow habove
    rcases hc with rfl | rfl
    · exact hbelow
    · exact habove

/-- A neighbour without its last digits is a neighbour on the coarser grid. -/
theorem Neighbour.cut (h : Neighbour n e c) (k : Nat) : Neighbour n (e + k) (c / tenPow k) := by
  unfold Neighbour
  rw [gridBelow_add]
  rcases h with rfl | rfl
  · exact Or.inl rfl
  · rw [Nat.succ_div]
    split
    · exact Or.inr rfl
    · exact Or.inl rfl

/-! ## The position of the point -/

/-- Two scales that leave no fraction. -/
theorem tenPow_scale {p q : Nat} (hp : 0 ≤ e + p) (hq : 0 ≤ e + q) :
    tenPow (e + p).toNat * tenPow q = tenPow (e + q).toNat * tenPow p := by
  rw [← tenPow_add, ← tenPow_add]
  congr 1
  omega

theorem tenPow_scale_le_iff {p q : Nat} (hp : 0 ≤ e + p) (hq : 0 ≤ e + q) :
    tenPow (e + p).toNat * unitsPerOne ≤ n * tenPow p ↔ tenPow (e + q).toNat * unitsPerOne ≤ n * tenPow q := by
  have hleft : tenPow (e + p).toNat * unitsPerOne * tenPow q = tenPow (e + q).toNat * unitsPerOne * tenPow p := by
    rw [Nat.mul_right_comm, tenPow_scale hp hq, Nat.mul_right_comm]
  rw [← Nat.mul_le_mul_right_iff (tenPow_pos q), hleft, Nat.mul_right_comm n, Nat.mul_le_mul_right_iff (tenPow_pos p)]

/-- The digits of the scaled magnitude, from which the position of the point is read. -/
theorem scaled_ne_zero (hpos : n ≠ 0) : n * tenPow 400 / unitsPerOne ≠ 0 := by
  have hunits : unitsPerOne ≤ tenPow 400 := le_trans (twoPow_le (by omega)) (twoPow_mul_three_le 400)
  refine Nat.ne_of_gt (Nat.div_pos ?_ unitsPerOne_pos)
  exact le_trans hunits (Nat.le_mul_of_pos_left _ (Nat.pos_of_ne_zero hpos))

theorem pointPosition_upper {places : Nat} (h : 0 ≤ pointPosition n + places) :
    n * tenPow places < tenPow (pointPosition n + places).toNat * unitsPerOne := by
  have h400 : 0 ≤ pointPosition n + (400 : Nat) := by unfold pointPosition; omega
  refine Nat.lt_of_not_le fun hle => ?_
  rw [tenPow_scale_le_iff h h400, ← Nat.le_div_iff_mul_le unitsPerOne_pos] at hle
  have hlength : (pointPosition n + (400 : Nat)).toNat = (Nat.toDigits 10 (n * tenPow 400 / unitsPerOne)).length := by
    unfold pointPosition; omega
  have hpositive : 0 < (Nat.toDigits 10 (n * tenPow 400 / unitsPerOne)).length :=
    List.length_pos_iff.mpr Nat.toDigits_ne_nil
  have hlt := (Nat.length_toDigits_le_iff (b := 10) (by omega) hpositive).mp le_rfl
  rw [hlength] at hle
  exact absurd hlt (Nat.not_lt.mpr hle)

theorem pointPosition_lower {places : Nat} (hpos : n ≠ 0) (h : 0 ≤ pointPosition n - 1 + places) :
    tenPow (pointPosition n - 1 + places).toNat * unitsPerOne ≤ n * tenPow places := by
  have hpositive : 0 < (Nat.toDigits 10 (n * tenPow 400 / unitsPerOne)).length :=
    List.length_pos_iff.mpr Nat.toDigits_ne_nil
  have h400 : 0 ≤ pointPosition n - 1 + (400 : Nat) := by unfold pointPosition; omega
  have hlength : (pointPosition n - 1 + (400 : Nat)).toNat =
      (Nat.toDigits 10 (n * tenPow 400 / unitsPerOne)).length - 1 := by
    unfold pointPosition; omega
  rw [tenPow_scale_le_iff h h400, ← Nat.le_div_iff_mul_le unitsPerOne_pos, hlength]
  rcases Nat.eq_zero_or_pos ((Nat.toDigits 10 (n * tenPow 400 / unitsPerOne)).length - 1) with hone | hmore
  · rw [hone]
    exact Nat.pos_of_ne_zero (scaled_ne_zero hpos)
  · -- with one digit less the number could not be written
    refine Nat.le_of_not_lt fun hlt => ?_
    have hle := (Nat.length_toDigits_le_iff (b := 10) (by omega) hmore).mpr hlt
    omega

/-- A grid that is `k` digits finer than the position of the point has `k` digits in front of it. -/
theorem gridBelow_lt {k : Nat} (hk : pointPosition n ≤ e + k) : gridBelow n e < tenPow k := by
  obtain ⟨places, h, h'⟩ : ∃ places : Nat, 0 ≤ e + places ∧ 0 ≤ pointPosition n + places :=
    ⟨(-e).toNat + (-pointPosition n).toNat, by omega, by omega⟩
  have hexp : (pointPosition n + places).toNat ≤ (e + places).toNat + k := by omega
  rw [gridBelow_eq h, Nat.div_lt_iff_lt_mul (Nat.mul_pos (tenPow_pos _) unitsPerOne_pos), Nat.mul_left_comm]
  calc n * tenPow places < tenPow (pointPosition n + places).toNat * unitsPerOne := pointPosition_upper h'
    _ ≤ tenPow ((e + places).toNat + k) * unitsPerOne := Nat.mul_le_mul_right _ (tenPow_le hexp)
    _ = tenPow (e + places).toNat * (tenPow k * unitsPerOne) := by rw [tenPow_add, Nat.mul_assoc]

/-! ## Seventeen digits -/

/-- A neighbour on a grid that is fine enough for seventeen digits is rounded to the magnitude: the nearer one, or for a
power of two, below which the spacing is finer, the one above. -/
theorem exists_nearest_eq {den grid : Nat} (hn : ulp n ∣ n) (hpos : n ≠ 0) (hgrid : 0 < grid)
    (hfine : grid * tenPow 16 ≤ n * den) :
    ∃ m, (m = n * den / grid ∨ m = n * den / grid + 1) ∧ nearest (m * grid) den = n := by
  have hsplit := Nat.div_add_mod' (n * den) grid
  have hmod := Nat.mod_lt (n * den) hgrid
  generalize n * den / grid = below at hsplit ⊢
  generalize n * den % grid = rest at hsplit hmod
  have habove : (below + 1) * grid = below * grid + grid := Nat.succ_mul _ _
  have hten : tenPow 16 = 10000000000000000 := rfl
  rw [hten] at hfine
  rcases Nat.lt_or_ge (twoPow n.log2) n with hlt | hge
  · have hbits : n * den ≤ 9007199254740992 * (den * ulp n) := by
      have hdigits : n < twoPow 53 * ulp n := (Nat.div_lt_iff_lt_mul (ulp_pos n)).mp (div_ulp_lt n)
      calc n * den ≤ twoPow 53 * ulp n * den := Nat.mul_le_mul_right den (Nat.le_of_lt hdigits)
        _ = 9007199254740992 * (den * ulp n) := by rw [Nat.mul_assoc, Nat.mul_comm (ulp n)]; rfl
    rcases Nat.le_total (2 * rest) grid with hnear | hfar
    · refine ⟨below, Or.inl rfl, nearest_div_eq hn hpos ?_ (Or.inr hlt)⟩
      unfold Nat.dist
      omega
    · refine ⟨below + 1, Or.inr rfl, nearest_div_eq hn hpos ?_ (Or.inr hlt)⟩
      unfold Nat.dist
      omega
  · have hbits : n * den ≤ 4503599627370496 * (den * ulp n) := by
      have hpower : twoPow n.log2 ≤ twoPow 52 * ulp n := by
        rw [ulp, ← twoPow_add]
        exact twoPow_le (by omega)
      calc n * den ≤ twoPow 52 * ulp n * den := Nat.mul_le_mul_right den (le_trans hge hpower)
        _ = 4503599627370496 * (den * ulp n) := by rw [Nat.mul_assoc, Nat.mul_comm (ulp n)]; rfl
    refine ⟨below + 1, Or.inr rfl, nearest_div_eq hn hpos ?_ (Or.inl (by omega))⟩
    unfold Nat.dist
    omega

/-- **Seventeen digits** suffice: one of the two neighbours reads back. -/
theorem readsBackAt?_seventeen (hn : Representable n) (hpos : n ≠ 0) :
    readsBackAt? n (pointPosition n - 17) ≠ none := by
  obtain ⟨places, h, h'⟩ : ∃ places : Nat, 0 ≤ pointPosition n - 17 + places ∧ 0 ≤ pointPosition n - 1 + places :=
    ⟨(17 - pointPosition n).toNat, by omega, by omega⟩
  have hexp : (pointPosition n - 1 + places).toNat = (pointPosition n - 17 + places).toNat + 16 := by omega
  have hfine : tenPow (pointPosition n - 17 + places).toNat * unitsPerOne * tenPow 16 ≤ n * tenPow places := by
    have hlower := pointPosition_lower hpos h'
    rwa [hexp, tenPow_add, Nat.mul_right_comm] at hlower
  obtain ⟨m, hm, hnearest⟩ :=
    exists_nearest_eq hn.2 hpos (Nat.mul_pos (tenPow_pos _) unitsPerOne_pos) hfine
  rw [← Nat.mul_assoc] at hnearest
  have hreads := (readsBack_iff false hn hpos).mpr ((ofScientific_eq_finite_iff h).mpr hnearest)
  rw [← gridBelow_eq h] at hm
  intro hnone
  rw [readsBack_of_readsBackAt?_eq_none hnone hm] at hreads
  cases hreads

/-! ## The shortest decimal -/

/-- An attempt of the search, with `j + 1` digits. -/
def attempt (n j : Nat) : Option (Nat × Int) :=
  (readsBackAt? n (pointPosition n - (j + 1 : Nat))).map (·, pointPosition n - ((j + 1 : Nat) : Int))

theorem shortest_eq (n : Nat) : shortest n = ((List.range 17).findSome? (attempt n)).getD (exactDecimal 1074 n) := rfl

/-- A search through the first numbers stops at the least one that succeeds. -/
theorem exists_least_of_findSome?_range {α : Type} {f : Nat → Option α} {m : Nat} {found : α}
    (h : (List.range m).findSome? f = some found) : ∃ j, f j = some found ∧ ∀ i < j, f i = none := by
  induction m with
  | zero => cases h
  | succ m ih =>
    rw [List.range_succ, List.findSome?_append] at h
    cases hbefore : (List.range m).findSome? f with
    | some found' =>
      rw [hbefore] at h
      exact ih (hbefore.trans h)
    | none =>
      rw [hbefore, Option.none_or, List.findSome?_singleton] at h
      exact ⟨m, h, fun i hi => List.findSome?_eq_none_iff.mp hbefore i (List.mem_range.mpr hi)⟩

/-- The shortest decimal is the first that was found, from one digit up to seventeen. -/
theorem shortest_spec (hn : Representable n) (hpos : n ≠ 0) :
    ∃ j : Nat, (shortest n).2 = pointPosition n - (j + 1 : Nat) ∧
      readsBackAt? n (shortest n).2 = some (shortest n).1 ∧
      ∀ i < j, readsBackAt? n (pointPosition n - (i + 1 : Nat)) = none := by
  cases hfound : (List.range 17).findSome? (attempt n) with
  | none =>
    have hnone : attempt n 16 = none := List.findSome?_eq_none_iff.mp hfound 16 (by decide)
    exact absurd (Option.map_eq_none_iff.mp hnone) (readsBackAt?_seventeen hn hpos)
  | some found =>
    obtain ⟨j, hj, hbefore⟩ := exists_least_of_findSome?_range hfound
    obtain ⟨c, hc, rfl⟩ := Option.map_eq_some_iff.mp hj
    rw [shortest_eq, hfound, Option.getD_some]
    exact ⟨j, rfl, hc, fun i hi => Option.map_eq_none_iff.mp (hbefore i hi)⟩

/-- **Shortest digits** read back. -/
theorem shortest_reads (hn : Representable n) (hpos : n ≠ 0) :
    ofScientific false (shortest n).1 (shortest n).2 = finite false n hn := by
  obtain ⟨j, -, hfound, -⟩ := shortest_spec hn hpos
  exact (readsBack_iff false hn hpos).mp (readsBack_of_readsBackAt? hfound)

/-- **Cut off**: without its last digits, unless they are zeros, the shortest decimal reads as another number. -/
theorem shortest_cut (hn : Representable n) (hpos : n ≠ 0) {k : Nat} (hcut : ¬ tenPow k ∣ (shortest n).1) :
    readsBack n ((shortest n).1 / tenPow k) ((shortest n).2 + k) = false := by
  obtain ⟨j, hexponent, hfound, hnone⟩ := shortest_spec hn hpos
  generalize (shortest n).1 = c at hcut hfound ⊢
  generalize (shortest n).2 = e at hexponent hfound ⊢
  have hc := neighbour_of_readsBackAt? hfound
  rcases Nat.lt_or_ge j k with hlt | hge
  · -- nothing is left of the digits
    have hbelow : gridBelow n e < tenPow k := gridBelow_lt (by omega)
    have hsmall : c < tenPow k := by
      refine lt_of_le_of_ne (by rcases hc with rfl | rfl <;> omega) ?_
      rintro rfl
      exact hcut dvd_rfl
    rw [Nat.div_eq_of_lt hsmall, readsBack_zero hpos]
  · -- the coarser grid was tried before, and neither of its neighbours read back
    have hk : k ≠ 0 := by
      rintro rfl
      exact hcut (one_dvd c)
    have hindex : e + k = pointPosition n - ((j - k : Nat) + 1 : Nat) := by omega
    have htried : readsBackAt? n (e + k) = none := by
      rw [hindex]
      exact hnone _ (by omega)
    exact readsBack_of_readsBackAt?_eq_none htried (hc.cut k)

end Keypad.Decimal
