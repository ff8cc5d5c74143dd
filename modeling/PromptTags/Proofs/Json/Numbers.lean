/-
Numbers that are written in JSON and read again.

Every number is written as digits, none of them superfluous, then perhaps digits behind a point, and
then perhaps an exponent (`IsUnsigned`); it does not matter here which digits these are. The reader
takes the parts one after the other, and what comes behind a number goes on with none of them. So
how a number is read does not depend on what comes behind it (`readNumber_numberChars`).
-/
import PromptTags.Json.Reader
import PromptTags.Json.Writer
import PromptTags.Proofs.Decimal.Digits

set_option autoImplicit false

namespace PromptTags.Json

open Decimal (digits Layout AllDigits NoDigitFirst)

variable {ds r : List Char}

/-! ## 1. What comes behind a number -/

/-- Text that does not go on with digits or with a point. -/
structure NoPlaces (r : List Char) : Prop where
  noDigit : NoDigitFirst r
  noPoint : r.head? ≠ some '.'

/-- Text that a number in front of it does not go on with. -/
structure NumberEnds (r : List Char) : Prop extends NoPlaces r where
  noPower : r.head? ≠ some 'e' ∧ r.head? ≠ some 'E'

/-! ## 2. The parts of a number -/

/-- Digits, at least one. -/
structure IsDigits (ds : List Char) : Prop where
  ne_nil : ds ≠ []
  all : AllDigits ds

/-- Digits in front of the point; only a single one can be zero in front. -/
structure IsFront (ds : List Char) : Prop extends IsDigits ds where
  noZero : ds.head? = some '0' → ds.length = 1

/-- Digits behind a point, or nothing. -/
def IsPlaces (cs : List Char) : Prop := cs = [] ∨ ∃ ds, IsDigits ds ∧ cs = '.' :: ds

/-- An exponent, or nothing. -/
def IsPower (cs : List Char) : Prop :=
  cs = [] ∨ ∃ sign ds, sign ∈ [[], ['-'], ['+']] ∧ IsDigits ds ∧ cs = 'e' :: (sign ++ ds)

/-- A number without its sign. -/
def IsUnsigned (cs : List Char) : Prop :=
  ∃ front places power, IsFront front ∧ IsPlaces places ∧ IsPower power ∧
    cs = front ++ (places ++ power)

theorem isDigits_digits (n : Nat) : IsDigits (digits n) :=
  ⟨Decimal.digits_ne_nil n, Decimal.allDigits_digits n⟩

theorem isFront_digits (n : Nat) : IsFront (digits n) := by
  refine ⟨isDigits_digits n, fun h => ?_⟩
  rcases eq_or_ne n 0 with rfl | hne
  · rfl
  · exact absurd h (Decimal.head?_digits_ne_zero hne)

/-! ## 3. Reading the parts -/

theorem readDigits_append (hds : IsDigits ds) (hr : NoDigitFirst r) :
    readDigits (ds ++ r) = some (ds, r) := by
  have hempty : ds.isEmpty = false := by simpa using hds.ne_nil
  rw [readDigits, Text.takeWhile_run hds.all hr, Text.dropWhile_run hds.all hr]
  simp only [hempty, Bool.false_eq_true, if_false]

theorem exists_readPlaces {places : List Char} (h : IsPlaces places) :
    ∃ behind, ∀ r, NoPlaces r → readPlaces (places ++ r) = some (behind, r) := by
  obtain rfl | ⟨ds, hds, rfl⟩ := h
  · refine ⟨[], fun r hr => ?_⟩
    rw [List.nil_append]
    unfold readPlaces
    split
    · exact absurd rfl hr.noPoint
    · rfl
  · exact ⟨ds, fun r hr => readDigits_append hds hr.noDigit⟩

theorem exists_readExponent {power : List Char} (h : IsPower power) :
    ∃ exponent?, ∀ r, NumberEnds r → readExponent (power ++ r) = some (exponent?, r) := by
  obtain rfl | ⟨sign, ds, hsign, hds, rfl⟩ := h
  · refine ⟨none, fun r hr => ?_⟩
    cases r with
    | nil => rfl
    | cons c r =>
      have hpower : (c == 'e' || c == 'E') = false := by
        have h := hr.noPower
        simpa using h
      unfold readExponent
      simp only [List.nil_append, hpower, Bool.false_eq_true, if_false]
  · have hread : ∀ r, NumberEnds r → readDigits (ds ++ r) = some (ds, r) := fun r hr =>
      readDigits_append hds hr.noDigit
    simp only [List.mem_cons, List.not_mem_nil, or_false] at hsign
    obtain rfl | rfl | rfl := hsign
    · refine ⟨some (Decimal.ofDigits ds : Int), fun r hr => ?_⟩
      obtain ⟨d, rest, rfl⟩ := List.exists_cons_of_ne_nil hds.ne_nil
      have hd := hds.all d List.mem_cons_self
      have hnext := hread r hr
      rw [List.cons_append] at hnext
      unfold readExponent
      simp only [List.nil_append, List.cons_append]
      rw [if_pos (by rfl)]
      split
      · next heq => exact absurd heq (Decimal.cons_ne_cons_of_isDigit hd (by decide))
      · next heq => exact absurd heq (Decimal.cons_ne_cons_of_isDigit hd (by decide))
      · rw [hnext]
        rfl
    · refine ⟨some (-(Decimal.ofDigits ds : Int)), fun r hr => ?_⟩
      show (readDigits (ds ++ r)).map _ = _
      rw [hread r hr]
      rfl
    · refine ⟨some (Decimal.ofDigits ds : Int), fun r hr => ?_⟩
      show (readDigits (ds ++ r)).map _ = _
      rw [hread r hr]
      rfl

/-- What can stand behind the digits in front of the point: no more digits. -/
theorem noDigit_places {places power : List Char} (hplaces : IsPlaces places)
    (hpower : IsPower power) (hr : NumberEnds r) : NoDigitFirst (places ++ (power ++ r)) := by
  obtain rfl | ⟨ds, -, rfl⟩ := hplaces
  · obtain rfl | ⟨sign, ds, -, -, rfl⟩ := hpower
    · exact hr.noDigit
    · rintro c hc
      obtain rfl : 'e' = c := by simpa using hc
      rfl
  · rintro c hc
    obtain rfl : '.' = c := by simpa using hc
    rfl

theorem noPlaces_power {power : List Char} (hpower : IsPower power) (hr : NumberEnds r) :
    NoPlaces (power ++ r) := by
  obtain rfl | ⟨sign, ds, -, -, rfl⟩ := hpower
  · exact hr.toNoPlaces
  · refine ⟨?_, by simp⟩
    rintro c hc
    obtain rfl : 'e' = c := by simpa using hc
    rfl

/-- A number is read in the same way whatever comes behind it. -/
theorem exists_readUnsigned (negative : Bool) {cs : List Char} (h : IsUnsigned cs) :
    ∃ v, ∀ r, NumberEnds r → readUnsigned negative (cs ++ r) = some (v, r) := by
  obtain ⟨front, places, power, hfront, hplaces, hpower, rfl⟩ := h
  obtain ⟨behind, hbehind⟩ := exists_readPlaces hplaces
  obtain ⟨exponent?, hexponent⟩ := exists_readExponent hpower
  have hzero : (front.head? == some '0' && front.length != 1) = false := by
    cases hhead : front.head? == some '0' with
    | false => rfl
    | true => simp [hfront.noZero (by simpa using hhead)]
  refine ⟨.number (NumberText.number? { negative, front, behind, exponent? }), fun r hr => ?_⟩
  rw [readUnsigned, List.append_assoc, List.append_assoc,
    readDigits_append hfront.toIsDigits (noDigit_places hplaces hpower hr)]
  simp only [Option.bind_eq_bind, Option.bind_some, hzero, Bool.false_eq_true, if_false,
    hbehind _ (noPlaces_power hpower hr), hexponent r hr]

/-! ## 4. What is written -/

theorem isPower_sign {sign : List Char} (hsign : sign ∈ [[], ['-'], ['+']]) (n : Nat) :
    IsPower ('e' :: (sign ++ digits n)) :=
  Or.inr ⟨sign, _, hsign, isDigits_digits n, rfl⟩

/-- Digits without a point, of which the first one is not zero. -/
theorem isFront_of_head? (hds : IsDigits ds) (hzero : ds.head? ≠ some '0') : IsFront ds :=
  ⟨hds, fun h => absurd h hzero⟩

theorem isUnsigned_positionalChars (hds : IsDigits ds) (hzero : ds.head? ≠ some '0') (e : Int) :
    IsUnsigned (Layout.positionalChars ds e) := by
  unfold Layout.positionalChars
  dsimp only
  split_ifs with hwhole hpoint
  · -- A whole number, with zeros for the places that have no digits.
    have hall : IsDigits (ds ++ List.replicate e.toNat '0') :=
      ⟨by simp [hds.ne_nil], Decimal.allDigits_append hds.all (Decimal.allDigits_zeros _)⟩
    have hfront : IsFront (ds ++ List.replicate e.toNat '0') := by
      refine isFront_of_head? hall ?_
      rw [List.head?_append_of_ne_nil _ hds.ne_nil]
      exact hzero
    exact ⟨_, ['.', '0'], [], hfront, Or.inr ⟨['0'], isDigits_digits 0, rfl⟩, Or.inl rfl, by simp⟩
  · -- The point is between two of the digits.
    obtain ⟨point, hpoints⟩ : ∃ point, (ds.length + e).toNat = point := ⟨_, rfl⟩
    rw [hpoints]
    have hbehind : IsDigits (ds.drop point) :=
      ⟨fun h => by have := List.drop_eq_nil_iff.mp h; omega,
        fun c hc => hds.all c (List.mem_of_mem_drop hc)⟩
    have hfront : IsFront (ds.take point) := by
      refine isFront_of_head? ⟨fun h => ?_, fun c hc => hds.all c (List.mem_of_mem_take hc)⟩ ?_
      · exact (List.take_eq_nil_iff.mp h).elim (by omega) hds.ne_nil
      · rw [List.head?_take, if_neg (by omega)]
        exact hzero
    exact ⟨_, _, [], hfront, Or.inr ⟨_, hbehind, rfl⟩, Or.inl rfl, by simp⟩
  · -- The point is in front of all digits.
    have hbehind : IsDigits (List.replicate (-(ds.length + e)).toNat '0' ++ ds) :=
      ⟨by simp [hds.ne_nil], Decimal.allDigits_append (Decimal.allDigits_zeros _) hds.all⟩
    exact ⟨['0'], _, [], isFront_digits 0, Or.inr ⟨_, hbehind, rfl⟩, Or.inl rfl, by simp⟩

theorem isUnsigned_exponentChars (l : Layout) (hds : IsDigits ds) (hzero : ds.head? ≠ some '0')
    (e : Int) : IsUnsigned (l.exponentChars ds e) := by
  unfold Layout.exponentChars
  dsimp only
  obtain ⟨sign, hsigns⟩ : ∃ sign, (if (ds.length + e - 1 : Int) < 0 then ['-']
      else if l.plus = true then ['+'] else []) = sign := ⟨_, rfl⟩
  have hsign : sign ∈ [[], ['-'], ['+']] := by
    rw [← hsigns]
    split_ifs <;> simp
  have hpower := isPower_sign hsign (ds.length + e - 1 : Int).natAbs
  rw [hsigns]
  -- The first digit is in front of the point, if there are more of them.
  match ds, hds, hzero with
  | [d], hds, hzero =>
    exact ⟨[d], [], _, isFront_of_head? hds hzero, Or.inl rfl, hpower, by simp⟩
  | d :: d' :: rest, hds, hzero =>
    have hfront : IsFront [d] :=
      ⟨⟨by simp, List.forall_mem_singleton.mpr (hds.all d List.mem_cons_self)⟩, fun _ => rfl⟩
    have hbehind : IsDigits (d' :: rest) :=
      ⟨by simp, fun c hc => hds.all c (List.mem_cons_of_mem d hc)⟩
    exact ⟨[d], _, _, hfront, Or.inr ⟨_, hbehind, rfl⟩, hpower, by simp⟩

/-- Text of a number, with a sign or without one. -/
def IsNumber (cs : List Char) : Prop := IsUnsigned cs ∨ ∃ ds, IsUnsigned ds ∧ cs = '-' :: ds

theorem isNumber_numeralChars (l : Layout) (n : Decimal.Numeral) : IsNumber (l.numeralChars n) := by
  have hunsigned : IsUnsigned (if n.coefficient = 0 then ['0', '.', '0']
      else if l.positional ((digits n.coefficient).length + n.exponent - 1) then
        Layout.positionalChars (digits n.coefficient) n.exponent
      else l.exponentChars (digits n.coefficient) n.exponent) := by
    split_ifs with hzero
    · exact ⟨['0'], ['.', '0'], [], isFront_digits 0, Or.inr ⟨['0'], isDigits_digits 0, rfl⟩,
        Or.inl rfl, rfl⟩
    · exact isUnsigned_positionalChars (isDigits_digits _) (Decimal.head?_digits_ne_zero hzero) _
    · exact isUnsigned_exponentChars l (isDigits_digits _) (Decimal.head?_digits_ne_zero hzero) _
  unfold Layout.numeralChars
  dsimp only
  cases n.negative with
  | true => exact Or.inr ⟨_, hunsigned, rfl⟩
  | false => exact Or.inl hunsigned

theorem isNumber_numberChars (n : Number) : IsNumber (numberChars (some n)) := by
  have hwhole : ∀ m : Nat, IsUnsigned (toString m).toList := fun m =>
    ⟨_, [], [], isFront_digits m, Or.inl rfl, Or.inl rfl, by simp [Decimal.digits]⟩
  cases n with
  | double x => exact isNumber_numeralChars layout _
  | whole n =>
    cases n with
    | ofNat m => exact Or.inl (hwhole m)
    | negSucc m =>
      refine Or.inr ⟨_, hwhole (m + 1), ?_⟩
      show ("-" ++ toString (m + 1)).toList = _
      simp

/-! ## 5. Reading what is written -/

/-- How a number is read again that was written. -/
def Number.reread (n : Number) : Value :=
  match readNumber (numberChars (some n)) with
  | some (v, _) => v
  | none => .null

theorem exists_readNumber {cs : List Char} (h : IsNumber cs) :
    ∃ v, ∀ r, NumberEnds r → readNumber (cs ++ r) = some (v, r) := by
  obtain h | ⟨ds, h, rfl⟩ := h
  · obtain ⟨v, hv⟩ := exists_readUnsigned false h
    obtain ⟨front, places, power, hfront, -, -, rfl⟩ := h
    obtain ⟨d, rest, rfl⟩ := List.exists_cons_of_ne_nil hfront.ne_nil
    refine ⟨v, fun r hr => ?_⟩
    rw [← hv r hr, List.cons_append, List.cons_append]
    unfold readNumber
    split
    · next heq =>
      have hd := hfront.all d List.mem_cons_self
      exact absurd heq (Decimal.cons_ne_cons_of_isDigit hd (by decide))
    · rfl
  · exact exists_readUnsigned true h

/-- **A number that was written is read in the same way** whatever comes behind it. -/
theorem readNumber_numberChars (n : Number) (hr : NumberEnds r) :
    readNumber (numberChars (some n) ++ r) = some (n.reread, r) := by
  obtain ⟨v, hv⟩ := exists_readNumber (isNumber_numberChars n)
  have hend : NumberEnds [] := ⟨⟨nofun, by simp⟩, by simp⟩
  have halone := hv [] hend
  rw [List.append_nil] at halone
  rw [hv r hr, Number.reread, halone]

/-- A number starts with a sign or with a digit. -/
theorem exists_numberChars_eq_cons (n : Number) :
    ∃ c cs, numberChars (some n) = c :: cs ∧ (c = '-' ∨ c.isDigit = true) := by
  obtain h | ⟨ds, -, h⟩ := isNumber_numberChars n
  · obtain ⟨front, places, power, hfront, -, -, h⟩ := h
    obtain ⟨d, rest, rfl⟩ := List.exists_cons_of_ne_nil hfront.ne_nil
    exact ⟨d, _, h, Or.inr (hfront.all d List.mem_cons_self)⟩
  · exact ⟨'-', ds, h, Or.inl rfl⟩

end PromptTags.Json
