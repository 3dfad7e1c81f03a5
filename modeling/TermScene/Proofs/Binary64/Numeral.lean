import Mathlib.Tactic.Ring
import TermScene.Proofs.Binary64.Rounding
import TermScene.Proofs.Token.Pattern

/-!
# The values of numerals

A numeral of a program always stands for a number: the double nearest to its decimal value. Nothing
in it is trimmed, ungrouped or mistaken for a word, and the shortcuts for very small numbers give what
rounding gives.
-/

namespace TermScene

/-- The number that decimal digits write. -/
def digitsValue (digits : List Char) : ℕ := ofDigits (digits.map (·.toNat - '0'.toNat))

/-- The exact value of a numeral. -/
def decimalValue (numeral : List Char) : ℚ :=
  let whole := numeral.takeWhile (· ≠ '.')
  let fraction := numeral.drop (whole.length + 1)
  digitsValue whole + digitsValue fraction / 10 ^ fraction.length

section Digits

variable {digits : List Char} {char : Char}

theorem digitValue?_of_isDigit (digit : char.isDigit = true) :
    digitValue? char = some (char.toNat - '0'.toNat) := by
  have bounds := toNat_of_isDigit digit
  have inRun : (decide (0x30 ≤ char.toNat) && decide (char.toNat < 0x30 + 10)) = true := by
    simp only [Bool.and_eq_true, decide_eq_true_eq]
    omega
  simp only [digitValue?, decimalZeros, List.find?_cons, inRun, Option.map_some]
  rfl

theorem takeDigits_append (isDigits : ∀ char ∈ digits, char.isDigit = true) (rest : List Char)
    (stops : ∀ char ∈ rest.head?, digitValue? char = none) :
    takeDigits (digits ++ rest) = (digits.map (·.toNat - '0'.toNat), rest) := by
  induction digits with
  | nil =>
      rcases rest with _ | ⟨char, later⟩
      · rfl
      · simp [takeDigits, stops char rfl]
  | cons digit later ih =>
      have isLater := ih fun char inLater => isDigits char (by simp [inLater])
      simp only [List.cons_append, takeDigits, digitValue?_of_isDigit (isDigits digit (by simp)),
        isLater, List.map_cons]

theorem ungroup?_eq_self {chars : List Char} (noScore : '_' ∉ chars) (afterDigit : Bool) :
    ungroup? afterDigit chars = some chars := by
  induction chars generalizing afterDigit with
  | nil => rfl
  | cons char rest ih =>
      simp only [List.mem_cons, not_or] at noScore
      rw [ungroup?, ih noScore.2]
      · rfl
      · rintro next later rfl
        exact absurd rfl noScore.1
      · rintro rfl
        exact absurd rfl noScore.1

theorem isNumberPadding_of_isDigit (digit : char.isDigit = true) : isNumberPadding char = false := by
  simp [isNumberPadding, isBlank_of_isDigit digit]

theorem ofDigits_append (first second : List ℕ) :
    ofDigits (first ++ second) = ofDigits first * 10 ^ second.length + ofDigits second := by
  have shifted : ∀ (values : List ℕ) (start : ℕ),
      values.foldl (fun number value => 10 * number + value) start =
        start * 10 ^ values.length + ofDigits values := by
    intro values
    induction values with
    | nil => simp [ofDigits]
    | cons value later ih =>
        intro start
        rw [ofDigits, List.foldl_cons, List.foldl_cons, ih, ih]
        simp only [List.length_cons]
        ring
  rw [ofDigits, List.foldl_append, shifted]
  rfl

end Digits

theorem trimPadding_eq_self {chars : List Char}
    (first : ∀ char ∈ chars.head?, isNumberPadding char = false)
    (last : ∀ char ∈ chars.getLast?, isNumberPadding char = false) : trimPadding chars = chars := by
  have atStart : chars.dropWhile isNumberPadding = chars := by
    rcases chars with _ | ⟨char, later⟩
    · rfl
    · simp [first char rfl]
  have atEnd : chars.reverse.dropWhile isNumberPadding = chars.reverse := by
    rcases shape : chars.reverse with _ | ⟨char, earlier⟩
    · rfl
    · have isLast : char ∈ chars.getLast? := by
        rw [← List.head?_reverse, shape]
        rfl
      simp [last char isLast]
  rw [trimPadding, atStart, atEnd, List.reverse_reverse]

section DecimalValue

variable {whole : List Char}

theorem IsDigits.ne_point (isWhole : IsDigits whole) : ∀ char ∈ whole, decide (char ≠ '.') = true := by
  intro char inside
  rw [decide_eq_true_eq]
  rintro rfl
  exact absurd (isWhole.digits '.' inside) (by decide)

theorem decimalValue_whole (isWhole : IsDigits whole) :
    decimalValue whole = digitsValue whole + digitsValue [] / 10 ^ ([] : List Char).length := by
  have cut : whole.takeWhile (· ≠ '.') = whole := List.takeWhile_eq_self_iff.mpr isWhole.ne_point
  have rest : whole.drop (whole.length + 1) = [] := by simp
  simp only [decimalValue, cut, rest]

theorem decimalValue_decimal (isWhole : IsDigits whole) (fraction : List Char) :
    decimalValue (whole ++ '.' :: fraction) =
      digitsValue whole + digitsValue fraction / 10 ^ fraction.length := by
  have cut : (whole ++ '.' :: fraction).takeWhile (· ≠ '.') = whole := by
    rw [List.takeWhile_append_of_pos isWhole.ne_point]
    simp
  have rest : (whole ++ '.' :: fraction).drop (whole.length + 1) = fraction := by simp
  simp only [decimalValue, cut, rest]

end DecimalValue

namespace Binary64

/-- Digits behind a power of ten are read as the double nearest to their value, also where the answer
is given without computing that power. -/
theorem ofScientific_eq_round (digits places : ℕ) :
    ofScientific digits (0 - (places : ℤ)) = round ((digits : ℚ) / 10 ^ places) := by
  have exact : (digits : ℚ) * tenPow (0 - (places : ℤ)) = (digits : ℚ) / 10 ^ places := by
    rw [zero_sub, tenPow_neg, mul_one_div]
  unfold ofScientific
  split
  · rename_i isZero
    simp [isZero]
  · rename_i nonzero
    split
    · omega
    · split
      · rename_i tiny
        have positive : 0 < (digits : ℚ) := by exact_mod_cast Nat.pos_of_ne_zero nonzero
        have digitsBelow : (digits : ℚ) < 2 ^ (digits.log2 + 1) := by
          exact_mod_cast Nat.lt_log2_self
        have powerAbove : (2 : ℚ) ^ (3 * places) ≤ 10 ^ places := by
          rw [pow_mul]
          exact pow_le_pow_left₀ (by norm_num) (by norm_num) places
        symm
        apply round_eq_zero (by positivity)
        calc (digits : ℚ) / 10 ^ places
            ≤ digits / 2 ^ (3 * places) := by gcongr
          _ < 2 ^ (digits.log2 + 1) / 2 ^ (3 * places) := by gcongr
          _ = (2 : ℚ) ^ ((digits.log2 + 1 : ℤ) - 3 * places) := by
              rw [zpow_sub₀ (by norm_num)]
              norm_cast
          _ ≤ (2 : ℚ) ^ (-1075 : ℤ) := by
              apply zpow_le_zpow_right₀ (by norm_num)
              omega
      · rw [exact]

/-- The digits on both sides of the point give the value of a numeral, once they are read as one. -/
theorem ofScientific_eq_round_decimalValue {numeral whole fraction : List Char}
    (value : decimalValue numeral = digitsValue whole + digitsValue fraction / 10 ^ fraction.length) :
    ofScientific
        (ofDigits (whole.map (·.toNat - '0'.toNat) ++ fraction.map (·.toNat - '0'.toNat)))
        (0 - ((fraction.map (·.toNat - '0'.toNat)).length : ℤ)) =
      round (decimalValue numeral) := by
  rw [ofScientific_eq_round, ofDigits_append, value, List.length_map]
  congr 1
  simp only [digitsValue]
  push_cast
  field_simp

theorem readMagnitude?_numeral {chars : List Char} (isNumeral : IsNumeral chars) :
    readMagnitude? chars = some (round (decimalValue chars)) := by
  cases isNumeral with
  | whole isWhole =>
      have taken := takeDigits_append isWhole.digits [] (by simp)
      rw [List.append_nil] at taken
      rw [← ofScientific_eq_round_decimalValue (decimalValue_whole isWhole)]
      simp [readMagnitude?, taken, takeFraction, isWhole.nonempty, readExponent?]
  | @decimal whole fraction isWhole isFraction =>
      have takenWhole := takeDigits_append isWhole.digits ('.' :: fraction) (by simp; decide)
      have takenFraction := takeDigits_append isFraction.digits [] (by simp)
      rw [List.append_nil] at takenFraction
      rw [← ofScientific_eq_round_decimalValue (decimalValue_decimal isWhole fraction)]
      simp [readMagnitude?, takenWhole, takeFraction, takenFraction, isWhole.nonempty, readExponent?]

theorem ofWord?_of_isDigit {first : Char} {later : List Char} (digit : first.isDigit = true) :
    ofWord? (first :: later) = none := by
  have sameCase : first.toLower = first := by
    have bounds := toNat_of_isDigit digit
    unfold Char.toLower
    split
    · rename_i upper
      have letter : 0x41 ≤ first.toNat := UInt32.le_iff_toNat_le.mp upper.1
      omega
    · rfl
  have noLetter : ∀ letter word, letter.isDigit = false →
      String.ofList ((first :: later).map Char.toLower) ≠ String.ofList (letter :: word) := by
    intro letter word notDigit same
    have sameChars := congrArg String.toList same
    simp only [String.toList_ofList, List.map_cons, List.cons.injEq, sameCase] at sameChars
    rw [← sameChars.1, digit] at notDigit
    simp at notDigit
  have notInf := noLetter 'i' ['n', 'f'] (by decide)
  have notInfinity := noLetter 'i' ['n', 'f', 'i', 'n', 'i', 't', 'y'] (by decide)
  have notNan := noLetter 'n' ['a', 'n'] (by decide)
  simp only [ofWord?]
  rw [if_neg (not_or.mpr ⟨notInf, notInfinity⟩), if_neg notNan]

/-- A numeral stands for the double nearest to its decimal value. -/
theorem ofText?_numeral {text : String} (isNumeral : IsNumeral text.toList) :
    ofText? text = some (round (decimalValue text.toList)) := by
  rcases isNumeral.first_isDigit with ⟨first, later, shape, digit⟩
  have trimmed : trimPadding text.toList = text.toList := by
    apply trimPadding_eq_self
    · intro char isFirst
      rw [shape, List.head?_cons, Option.mem_def, Option.some.injEq] at isFirst
      exact isNumberPadding_of_isDigit (isFirst ▸ digit)
    · intro char isLast
      exact isNumberPadding_of_isDigit (isNumeral.last_isDigit char isLast)
  have noScore : '_' ∉ text.toList := by
    intro score
    rcases isNumeral.mem_isDigit '_' score with isDigit | isPoint
    · exact absurd isDigit (by decide)
    · exact absurd isPoint (by decide)
  have noSign : takeSign text.toList = (false, text.toList) := by
    rw [shape]
    unfold takeSign
    split
    · exact absurd digit (by simp_all)
    · exact absurd digit (by simp_all)
    · rfl
  have noWord : ofWord? text.toList = none := by
    rw [shape]
    exact ofWord?_of_isDigit digit
  simp [ofText?, trimmed, ungroup?_eq_self noScore, noSign, noWord,
    readMagnitude?_numeral isNumeral]

end Binary64

end TermScene
