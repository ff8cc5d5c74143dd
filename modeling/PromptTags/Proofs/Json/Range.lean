/-
Numbers that are read are finite.

A number is computed in doubles, and none of the steps leaves their range: the significand and the
powers of ten are in it (`isFinite_nearest`), a product that is not stays out, and a quotient by ten
or more is in it again. So every number of a JSON text that is in the range of doubles at all stands
for a finite one (`isFinite_toFloat`), and a value that was read holds no other numbers
(`finite_of_read?`).
-/
import PromptTags.Json.Reader
import PromptTags.Proofs.Decimal.Nearest
import PromptTags.Proofs.Decimal.Quotients

set_option autoImplicit false

namespace PromptTags.Json

open Decimal

/-! ## 1. Significands and powers of ten -/

theorem tenTo_le {d e : Nat} (h : d ≤ e) : tenTo d ≤ tenTo e := Nat.pow_le_pow_right (by decide) h

/-- The last finite pattern is beyond the greatest power of ten. -/
theorem isFinite_nearest {n : Nat} (h : n ≤ tenTo greatestPower) :
    (nearest n 1).isFinite = true := by
  rw [isFinite_iff, magnitudeBits_nearest]
  refine @nearestBits_lt_of_le n 1 (infinityBits - 1) (by decide +kernel) Nat.one_pos ?_
  refine Nat.le_trans (Nat.mul_le_mul_right _ h) ?_
  decide +kernel

theorem isFinite_nearest_of_lt {n : Nat} (h : n ≤ twoTo 64) : (nearest n 1).isFinite = true :=
  isFinite_nearest (Nat.le_trans h (by decide +kernel))

theorem isFinite_powerOfTen {e : Nat} (h : e ≤ greatestPower) :
    (powerOfTen e).isFinite = true := isFinite_nearest (tenTo_le h)

/-- The pattern of eight is not beyond a power of ten that is not one. -/
theorem le_magnitude_powerOfTen {e : Nat} (hpos : 0 < e) (h : e ≤ greatestPower) :
    8 * unitsPerOne ≤ magnitude (powerOfTen e) := by
  have hfin := (isFinite_iff _).mp (isFinite_powerOfTen h)
  have hunits : units (1026 * patternsPerExponent) = 8 * unitsPerOne := by decide +kernel
  rw [powerOfTen, magnitudeBits_nearest] at hfin
  rw [powerOfTen, magnitude, magnitudeBits_nearest, ← hunits]
  refine units_le_nearestBits Nat.one_pos hfin ?_
  rw [hunits, Nat.mul_one]
  refine Nat.mul_le_mul_right _ (Nat.le_trans ?_ (tenTo_le hpos))
  decide

/-! ## 2. Numbers -/

theorem isFinite_of_timesPower {x y : Float} {e : Nat} (hx : x.isFinite = true)
    (h : timesPower x e = some y) : y.isFinite = true := by
  unfold timesPower at h
  dsimp only at h
  split_ifs at h with hpower hinf
  · obtain rfl := Option.some.inj h
    exact isFinite_mul hx (isFinite_powerOfTen hpower) (Bool.eq_false_of_not_eq_true hinf)
  · obtain rfl := Option.some.inj h
    exact hx

theorem isFinite_overPower {x : Float} {e : Nat} (hx : x.isFinite = true) (hpos : 0 < e) :
    (overPower x e).isFinite = true := by
  have hdiv : ∀ {x : Float} {e : Nat}, x.isFinite = true → 0 < e → e ≤ greatestPower →
      (x / powerOfTen e).isFinite = true := fun hx hpos h =>
    isFinite_div hx (isFinite_powerOfTen h) (le_magnitude_powerOfTen hpos h)
  unfold overPower
  split_ifs with hone htwo
  · exact hdiv hx hpos hone
  · exact hdiv (hdiv hx (by decide) (Nat.le_refl _)) (by omega) (by omega)
  · rfl

theorem isFinite_of_scaled {s : Nat} {e : Int} {x : Float} (hs : s < twoTo 64)
    (h : scaled s e = some x) : x.isFinite = true := by
  have hsignificand := isFinite_nearest_of_lt (Nat.le_of_lt hs)
  cases e with
  | ofNat e => exact isFinite_of_timesPower hsignificand h
  | negSucc e =>
    obtain rfl := Option.some.inj h
    exact isFinite_overPower hsignificand (Nat.succ_pos e)

/-- The significand fits in 64 bits. -/
theorem gather_lt {s : Nat} (hs : s < twoTo 64) (ds : List Char) : (gather s ds).1 < twoTo 64 := by
  induction ds generalizing s with
  | nil => exact hs
  | cons d ds ih =>
    unfold gather
    dsimp only
    split_ifs with hnext
    · exact ih hnext
    · exact hs

theorem isFinite_of_double? {t : NumberText} {x : Float} (h : t.double? = some x) :
    x.isFinite = true := by
  obtain ⟨y, hy, rfl⟩ := Option.map_eq_some_iff.mp h
  have hfinite := isFinite_of_scaled (gather_lt (gather_lt (by decide) _) _) hy
  split_ifs
  · exact isFinite_neg hfinite
  · exact hfinite

theorem natAbs_le_of_whole? {t : NumberText} {n : Int} (h : t.whole? = some n) :
    n.natAbs ≤ twoTo 64 := by
  have hhalf : twoTo 63 ≤ twoTo 64 := by decide
  unfold NumberText.whole? at h
  dsimp only at h
  split_ifs at h with _ _ hfits hfits <;> obtain rfl := Option.some.inj h <;> omega

/-- **A number in the range of doubles stands for a finite one.** -/
theorem isFinite_toFloat {t : NumberText} {n : Number} (h : t.number? = some n) :
    n.toFloat.isFinite = true := by
  unfold NumberText.number? at h
  split at h
  next n hn =>
    obtain rfl := Option.some.inj h
    have hfinite := isFinite_nearest_of_lt (natAbs_le_of_whole? hn)
    rw [Number.toFloat, nearestTo]
    split_ifs
    · exact isFinite_neg hfinite
    · exact hfinite
  next =>
    obtain ⟨x, hx, rfl⟩ := Option.map_eq_some_iff.mp h
    exact isFinite_of_double? hx

/-! ## 3. Values -/

/-- A value all of whose numbers stand for finite doubles. -/
inductive Value.Finite : Value → Prop where
  | null : Finite .null
  | bool (b : Bool) : Finite (.bool b)
  | number {n? : Option Number} (h : ∀ n ∈ n?, n.toFloat.isFinite = true) : Finite (.number n?)
  | text (s? : Option String) : Finite (.text s?)
  | list {vs : List Value} (h : ∀ v ∈ vs, Finite v) : Finite (.list vs)
  | object {fs : List (Option String × Value)} (h : ∀ f ∈ fs, Finite f.2) : Finite (.object fs)

variable {cs r : List Char} {v : Value}

theorem finite_of_readUnsigned {negative : Bool} (h : readUnsigned negative cs = some (v, r)) :
    v.Finite := by
  unfold readUnsigned at h
  simp only [Option.bind_eq_bind, Option.bind_eq_some_iff] at h
  obtain ⟨⟨front, behindFront⟩, -, h⟩ := h
  split at h
  · cases h
  · simp only [Option.bind_eq_some_iff] at h
    obtain ⟨⟨behind, behindPlaces⟩, -, ⟨exponent?, rest⟩, -, h⟩ := h
    obtain ⟨rfl, -⟩ := Prod.mk.inj (Option.some.inj h)
    exact .number fun n hn => isFinite_toFloat hn

theorem finite_of_readNumber (h : readNumber cs = some (v, r)) : v.Finite := by
  unfold readNumber at h
  split at h <;> exact finite_of_readUnsigned h

mutual
theorem finite_of_readValue : ∀ {fuel : Nat} {cs r : List Char} {v : Value},
    readValue fuel cs = some (v, r) → v.Finite
  | 0, cs, r, v, h => by cases h
  | fuel + 1, cs, r, v, h => by
    rw [readValue] at h
    split at h
    · obtain ⟨⟨s?, behind⟩, -, heq⟩ := Option.map_eq_some_iff.mp h
      obtain ⟨rfl, -⟩ := Prod.mk.inj heq
      exact .text s?
    · split at h
      · obtain ⟨rfl, -⟩ := Prod.mk.inj (Option.some.inj h)
        exact .list fun _ hv => absurd hv List.not_mem_nil
      · obtain ⟨⟨vs, behind⟩, hvs, heq⟩ := Option.map_eq_some_iff.mp h
        obtain ⟨rfl, -⟩ := Prod.mk.inj heq
        exact .list (finite_of_readItems hvs)
    · split at h
      · obtain ⟨rfl, -⟩ := Prod.mk.inj (Option.some.inj h)
        exact .object fun _ hf => absurd hf List.not_mem_nil
      · obtain ⟨⟨fs, behind⟩, hfs, heq⟩ := Option.map_eq_some_iff.mp h
        obtain ⟨rfl, -⟩ := Prod.mk.inj heq
        exact .object (finite_of_readFields hfs)
    · obtain ⟨rfl, -⟩ := Prod.mk.inj (Option.some.inj h)
      exact .null
    · obtain ⟨rfl, -⟩ := Prod.mk.inj (Option.some.inj h)
      exact .bool true
    · obtain ⟨rfl, -⟩ := Prod.mk.inj (Option.some.inj h)
      exact .bool false
    · exact finite_of_readNumber h

theorem finite_of_readItems : ∀ {fuel : Nat} {cs r : List Char} {vs : List Value},
    readItems fuel cs = some (vs, r) → ∀ v ∈ vs, v.Finite
  | 0, cs, r, vs, h => by cases h
  | fuel + 1, cs, r, vs, h => by
    rw [readItems] at h
    split at h
    · cases h
    next v behind hv =>
      have hfirst := finite_of_readValue hv
      split at h
      · obtain ⟨⟨ws, rest⟩, hws, heq⟩ := Option.map_eq_some_iff.mp h
        obtain ⟨rfl, -⟩ := Prod.mk.inj heq
        exact List.forall_mem_cons.mpr ⟨hfirst, finite_of_readItems hws⟩
      · obtain ⟨rfl, -⟩ := Prod.mk.inj (Option.some.inj h)
        exact List.forall_mem_singleton.mpr hfirst
      · cases h

theorem finite_of_readFields : ∀ {fuel : Nat} {cs r : List Char}
    {fs : List (Option String × Value)}, readFields fuel cs = some (fs, r) → ∀ f ∈ fs, f.2.Finite
  | 0, cs, r, fs, h => by cases h
  | fuel + 1, cs, r, fs, h => by
    rw [readFields] at h
    -- A name, a colon, and then the value.
    split at h
    swap
    · cases h
    split at h
    · cases h
    split at h
    swap
    · cases h
    split at h
    · cases h
    next v behind hv =>
      have hfirst := finite_of_readValue hv
      split at h
      · obtain ⟨⟨gs, rest⟩, hgs, heq⟩ := Option.map_eq_some_iff.mp h
        obtain ⟨rfl, -⟩ := Prod.mk.inj heq
        exact List.forall_mem_cons.mpr ⟨hfirst, finite_of_readFields hgs⟩
      · obtain ⟨rfl, -⟩ := Prod.mk.inj (Option.some.inj h)
        exact List.forall_mem_singleton.mpr hfirst
      · cases h
end

/-- **A value that was read holds finite numbers only.** -/
theorem finite_of_read? {text : String} (h : read? text = some v) : v.Finite := by
  unfold read? at h
  split at h
  next hv =>
    split_ifs at h
    obtain rfl := Option.some.inj h
    exact finite_of_readValue hv
  next => cases h

end PromptTags.Json
