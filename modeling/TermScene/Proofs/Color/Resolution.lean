import TermScene.Editor.Lint
import TermScene.Proofs.Binary64.Numeral

/-!
# The amounts in a colour

Every text is a colour. Its amounts are those of the first stretch of hexadecimal digits that is long
enough, of six digits where there are so many from its start and of three otherwise; `Reads` says so by
places in the text and not by how the text is searched. Quotes and the case of letters do not count.

A colour that an editor takes for a known one is read whole: it is a name of the palette, or the stretch
is all of it but for the mark.
-/

namespace TermScene

/-- The amounts in a number of 24 bits, eight for each. -/
def Rgb.ofNumber (number : ℕ) : Rgb :=
  ⟨number >>> 16 &&& 255, number >>> 8 &&& 255, number &&& 255⟩

namespace Color

/-- The value of a hexadecimal digit. -/
def hexDigit (char : Char) : ℕ := (hexValue? char).getD 0

/-- The number that hexadecimal digits write. -/
def hexNumber (digits : List Char) : ℕ :=
  digits.foldl (fun number digit => 16 * number + hexDigit digit) 0

/-- The digits of a colour, of which three are doubled. -/
def fullDigits (digits : List Char) : List Char :=
  if digits.length = 3 then digits.flatMap fun digit => [digit, digit] else digits

/-- The amounts that six digits write, or three. -/
def literalRgb (digits : List Char) : Rgb := .ofNumber (hexNumber (fullDigits digits))

/-- At an offset of a text stand so many hexadecimal digits in a row. -/
structure DigitsAt (chars : List Char) (start size : ℕ) : Prop where
  inside : start + size ≤ chars.length
  digits : ∀ char ∈ (chars.drop start).take size, (hexValue? char).isSome

/-- The first stretch of digits in a text that makes a colour. -/
structure IsFirstStretch (chars : List Char) (start size : ℕ) : Prop where
  digits : DigitsAt chars start size
  size : size = 6 ∨ size = 3 ∧ ¬DigitsAt chars start 6
  first : ∀ earlier < start, ¬DigitsAt chars earlier 3

/-- The amounts that a text writes. -/
inductive Reads (chars : List Char) : Rgb → Prop where
  | digits {start size : ℕ} (isFirst : IsFirstStretch chars start size) :
      Reads chars (literalRgb ((chars.drop start).take size))
  | black (none : ∀ start, ¬DigitsAt chars start 3) : Reads chars ⟨0, 0, 0⟩

section Stretches

variable {char : Char} {chars rest : List Char} {start size : ℕ}

theorem digitsAt_cons_succ :
    DigitsAt (char :: rest) (start + 1) size ↔ DigitsAt rest start size := by
  constructor
  · rintro ⟨inside, digits⟩
    exact ⟨by simp only [List.length_cons] at inside; omega, digits⟩
  · rintro ⟨inside, digits⟩
    exact ⟨by simp only [List.length_cons]; omega, digits⟩

theorem DigitsAt.mono {shorter : ℕ} (digitsAt : DigitsAt chars start size) (short : shorter ≤ size) :
    DigitsAt chars start shorter :=
  ⟨by have := digitsAt.inside; omega,
    fun char inside => digitsAt.digits char ((List.take_subset_take_left _ short) inside)⟩

theorem IsFirstStretch.three_le (isFirst : IsFirstStretch chars start size) : 3 ≤ size := by
  rcases isFirst.size with rfl | ⟨rfl, -⟩ <;> omega

theorem IsFirstStretch.unique {start' size' : ℕ} (isFirst : IsFirstStretch chars start size)
    (isFirst' : IsFirstStretch chars start' size') : start = start' ∧ size = size' := by
  have start_le : start' ≤ start := by
    by_contra before
    exact isFirst'.first start (by omega) (isFirst.digits.mono isFirst.three_le)
  have le_start : start ≤ start' := by
    by_contra before
    exact isFirst.first start' (by omega) (isFirst'.digits.mono isFirst'.three_le)
  have sameStart : start = start' := by omega
  subst sameStart
  refine ⟨rfl, ?_⟩
  rcases isFirst.size with rfl | ⟨rfl, noSix⟩ <;> rcases isFirst'.size with rfl | ⟨rfl, noSix'⟩
  · rfl
  · exact absurd isFirst.digits noSix'
  · exact absurd isFirst'.digits noSix
  · rfl

/-- A text writes one colour only. -/
theorem Reads.unique {amounts amounts' : Rgb} (reads : Reads chars amounts)
    (reads' : Reads chars amounts') : amounts = amounts' := by
  cases reads with
  | digits isFirst =>
      cases reads' with
      | digits isFirst' =>
          rcases isFirst.unique isFirst' with ⟨rfl, rfl⟩
          rfl
      | black none => exact absurd (isFirst.digits.mono isFirst.three_le) (none _)
  | black none =>
      cases reads' with
      | digits isFirst' => exact absurd (isFirst'.digits.mono isFirst'.three_le) (none _)
      | black _ => rfl

end Stretches

section Search

variable {char : Char} {chars rest : List Char} {count : ℕ}

theorem digitsAt_zero_cons_succ :
    DigitsAt (char :: rest) 0 (count + 1) ↔ (hexValue? char).isSome ∧ DigitsAt rest 0 count := by
  constructor
  · rintro ⟨inside, digits⟩
    exact ⟨digits char (by simp), by simpa using inside, fun later isLater => digits later (by simp_all)⟩
  · rintro ⟨digit, inside, digits⟩
    exact ⟨by simpa using inside, by simpa [digit] using digits⟩

theorem leadingHex_of_digitsAt (digitsAt : DigitsAt chars 0 count) :
    leadingHex chars count = some ((chars.take count).map hexDigit) := by
  induction count generalizing chars with
  | zero => simp [leadingHex]
  | succ count ih =>
      cases chars with
      | nil => exact absurd digitsAt.inside (by simp)
      | cons char rest =>
          rcases digitsAt_zero_cons_succ.mp digitsAt with ⟨digit, later⟩
          rcases Option.isSome_iff_exists.mp digit with ⟨value, isValue⟩
          simp [leadingHex, isValue, ih later, hexDigit]

theorem leadingHex_of_not_digitsAt (noDigits : ¬DigitsAt chars 0 count) :
    leadingHex chars count = none := by
  induction count generalizing chars with
  | zero => exact absurd ⟨by simp, by simp⟩ noDigits
  | succ count ih =>
      cases chars with
      | nil => rfl
      | cons char rest =>
          rw [digitsAt_zero_cons_succ, not_and] at noDigits
          cases isValue : hexValue? char with
          | none => simp [leadingHex, isValue]
          | some value => simp [leadingHex, ih (noDigits (by simp [isValue]))]

theorem IsFirstStretch.cons {start size : ℕ} (isFirst : IsFirstStretch rest start size)
    (noDigits : ¬DigitsAt (char :: rest) 0 3) : IsFirstStretch (char :: rest) (start + 1) size where
  digits := digitsAt_cons_succ.mpr isFirst.digits
  size := isFirst.size.imp_right fun short => ⟨short.1, mt digitsAt_cons_succ.mp short.2⟩
  first
    | 0, _ => noDigits
    | earlier + 1, before => mt digitsAt_cons_succ.mp (isFirst.first earlier (by omega))

/-- What the search finds: the values of the digits of the first stretch, or nothing where there is none. -/
theorem findHex?_eq (chars : List Char) :
    (∃ start size, IsFirstStretch chars start size ∧
      findHex? chars = some ((fullDigits ((chars.drop start).take size)).map hexDigit)) ∨
    (∀ start, ¬DigitsAt chars start 3) ∧ findHex? chars = none := by
  induction chars with
  | nil => exact .inr ⟨fun start digitsAt => by simpa using digitsAt.inside, rfl⟩
  | cons char rest ih =>
      by_cases six : DigitsAt (char :: rest) 0 6
      · have length : ((char :: rest).take 6).length = 6 := by simpa using six.inside
        refine .inl ⟨0, 6, ⟨six, .inl rfl, by simp⟩, ?_⟩
        rw [findHex?, leadingHex_of_digitsAt six, List.drop_zero, fullDigits, if_neg (by omega)]
      by_cases three : DigitsAt (char :: rest) 0 3
      · have length : ((char :: rest).take 3).length = 3 := by simpa using three.inside
        refine .inl ⟨0, 3, ⟨three, .inr ⟨rfl, six⟩, by simp⟩, ?_⟩
        rw [findHex?, leadingHex_of_not_digitsAt six, leadingHex_of_digitsAt three, List.drop_zero,
          fullDigits, if_pos length]
        simp only [List.map_flatMap, List.flatMap_map, List.map_cons, List.map_nil]
      have further : findHex? (char :: rest) = findHex? rest := by
        rw [findHex?, leadingHex_of_not_digitsAt six, leadingHex_of_not_digitsAt three]
      rw [further]
      rcases ih with ⟨start, size, isFirst, found⟩ | ⟨noDigits, found⟩
      · exact .inl ⟨start + 1, size, isFirst.cons three, found⟩
      · refine .inr ⟨?_, found⟩
        rintro (_ | start)
        · exact three
        · exact mt digitsAt_cons_succ.mp (noDigits start)

end Search

section Amounts

theorem hexDigit_lt (char : Char) : hexDigit char < 16 := by
  cases isValue : hexValue? char with
  | none => simp [hexDigit, isValue]
  | some value => simpa [hexDigit, isValue] using hexValue?_lt isValue

theorem length_fullDigits {chars : List Char} {start size : ℕ}
    (isFirst : IsFirstStretch chars start size) :
    (fullDigits ((chars.drop start).take size)).length = 6 := by
  have length : ((chars.drop start).take size).length = size := by
    have := isFirst.digits.inside
    simp only [List.length_take, List.length_drop]
    omega
  rcases isFirst.size with rfl | ⟨rfl, -⟩
  · rw [fullDigits, if_neg (by omega), length]
  · rw [fullDigits, if_pos length, List.length_flatMap]
    simpa using congrArg (· * 2) length

/-- The amounts are those of the digits in pairs. -/
theorem ofNumber_hexNumber (r1 r2 g1 g2 b1 b2 : Char) :
    Rgb.ofNumber (hexNumber [r1, r2, g1, g2, b1, b2]) =
      ⟨16 * hexDigit r1 + hexDigit r2, 16 * hexDigit g1 + hexDigit g2,
        16 * hexDigit b1 + hexDigit b2⟩ := by
  have small := hexDigit_lt
  have amount (number : ℕ) : number &&& 255 = number % 256 := Nat.and_two_pow_sub_one_eq_mod number 8
  simp only [Rgb.ofNumber, hexNumber, List.foldl_cons, List.foldl_nil, amount,
    Nat.shiftRight_eq_div_pow, Rgb.mk.injEq]
  have := small r1
  have := small r2
  have := small g1
  have := small g2
  have := small b1
  have := small b2
  omega

theorem exists_of_length_six {digits : List Char} (length : digits.length = 6) :
    ∃ r1 r2 g1 g2 b1 b2, digits = [r1, r2, g1, g2, b1, b2] := by
  match digits, length with
  | [r1, r2, g1, g2, b1, b2], _ => exact ⟨r1, r2, g1, g2, b1, b2, rfl⟩

/-- A text is given the colour that it writes. -/
theorem reads_rgbOfHex (hex : String) : Reads hex.toList (rgbOfHex hex) := by
  rcases findHex?_eq hex.toList with ⟨start, size, isFirst, found⟩ | ⟨noDigits, found⟩
  · rcases exists_of_length_six (length_fullDigits isFirst) with ⟨r1, r2, g1, g2, b1, b2, digits⟩
    have reads := Reads.digits isFirst
    rw [literalRgb, digits, ofNumber_hexNumber] at reads
    rw [rgbOfHex, found, digits]
    exact reads
  · rw [rgbOfHex, found]
    exact .black noDigits

end Amounts

/-- Only the capital letters of ASCII have another lower case. -/
theorem toLower_eq_self_or (char : Char) :
    char.toLower = char ∨ ∃ index < 26, char = Char.ofNat (65 + index) := by
  by_cases upper : char.val ≥ 'A'.val ∧ char.val ≤ 'Z'.val
  · have first := UInt32.le_iff_toNat_le.mp upper.1
    have last := UInt32.le_iff_toNat_le.mp upper.2
    change 65 ≤ char.toNat at first
    change char.toNat ≤ 90 at last
    refine .inr ⟨char.toNat - 65, by omega, ?_⟩
    rw [Nat.add_sub_cancel' first, Char.ofNat_toNat]
  · exact .inl (dif_neg upper)

/-- What does not tell the cases of the letters of ASCII apart does not do so for any character. -/
theorem apply_toLower {α : Type} {take : Char → α}
    (letters : ∀ index < 26, take (Char.ofNat (65 + index)).toLower = take (Char.ofNat (65 + index)))
    (char : Char) : take char.toLower = take char := by
  rcases toLower_eq_self_or char with same | ⟨index, isLetter, rfl⟩
  · rw [same]
  · exact letters index isLetter

theorem hexValue?_toLower (char : Char) : hexValue? char.toLower = hexValue? char :=
  apply_toLower (by decide) char

theorem lowerChar_toLower (char : Char) : Palette.lowerChar char.toLower = Palette.lowerChar char :=
  apply_toLower (by decide) char

/-- A character that is no letter of ASCII is the lower case of itself only. -/
theorem toLower_eq_iff {char mark : Char} (noLetter : mark.isAlpha = false) :
    char.toLower = mark ↔ char = mark := by
  have letters : ∀ index < 26, (Char.ofNat (65 + index)).isAlpha = true ∧
      (Char.ofNat (65 + index)).toLower.isAlpha = true := by
    decide
  rcases toLower_eq_self_or char with same | ⟨index, isLetter, rfl⟩
  · rw [same]
  · rcases letters index isLetter with ⟨capital, small⟩
    constructor <;> rintro rfl
    · rw [small] at noLetter
      cases noLetter
    · rw [capital] at noLetter
      cases noLetter

section Lowered

/-- A text with the letters of ASCII in lower case. -/
def lowered (text : String) : String := String.ofList (text.toList.map Char.toLower)

theorem leadingHex_map_toLower (chars : List Char) (count : ℕ) :
    leadingHex (chars.map Char.toLower) count = leadingHex chars count := by
  induction count generalizing chars with
  | zero => simp only [leadingHex]
  | succ count ih =>
      cases chars with
      | nil => rfl
      | cons char rest => simp only [List.map_cons, leadingHex, hexValue?_toLower, ih]

theorem findHex?_map_toLower (chars : List Char) :
    findHex? (chars.map Char.toLower) = findHex? chars := by
  induction chars with
  | nil => rfl
  | cons char rest ih =>
      have leading (count : ℕ) := leadingHex_map_toLower (char :: rest) count
      simp only [List.map_cons] at leading
      simp only [List.map_cons, findHex?, leading, ih]

theorem unquoted_lowered (color : String) : unquoted (lowered color) = lowered (unquoted color) := by
  have quotes : (fun char : Char => decide (char.toLower ≠ '"')) = fun char => decide (char ≠ '"') := by
    funext char
    simp only [ne_eq, toLower_eq_iff (by decide : '"'.isAlpha = false)]
  simp only [unquoted, lowered, String.toList_ofList, List.filter_map, Function.comp_def, quotes]

theorem find?_lowered (name : String) : Palette.find? (lowered name) = Palette.find? name := by
  simp only [Palette.find?, lowered, String.toList_ofList, List.map_map, Function.comp_def,
    lowerChar_toLower]

/-- The form of a colour with a mark in front of it. -/
def marked (plain : String) : String := if plain.toList.head? = some '#' then plain else "#" ++ plain

theorem resolve_eq (color : String) :
    resolve color = (Palette.find? (unquoted color)).getD (marked (unquoted color)) := by
  simp only [resolve]
  cases Palette.find? (unquoted color) with
  | none => simp only [Option.getD_none, marked]
  | some hex => simp only [Option.getD_some]

theorem marked_lowered (plain : String) : marked (lowered plain) = lowered (marked plain) := by
  have isMark := fun char => @toLower_eq_iff char '#' (by decide)
  have head : (lowered plain).toList.head? = some '#' ↔ plain.toList.head? = some '#' := by
    rw [lowered, String.toList_ofList, List.head?_map, Option.map_eq_some_iff]
    simp [isMark]
  simp only [marked, head]
  split
  · rfl
  · simp [lowered]

theorem rgb_lowered (color : String) : rgb (lowered color) = rgb color := by
  simp only [rgb, resolve_eq, unquoted_lowered, find?_lowered, marked_lowered]
  cases Palette.find? (unquoted color) with
  | some hex => simp only [Option.getD_some]
  | none =>
      simp only [Option.getD_none, rgbOfHex, lowered, String.toList_ofList, findHex?_map_toLower]

end Lowered

section Resolved

theorem unquoted_eq_self_iff {text : String} : unquoted text = text ↔ '"' ∉ text.toList := by
  rw [unquoted, ← String.toList_inj, String.toList_ofList, List.filter_eq_self]
  simp only [ne_eq, decide_not, Bool.not_eq_eq_eq_not, Bool.not_true, decide_eq_false_iff_not]
  exact ⟨fun none inside => none _ inside rfl, fun none char inside same => none (same ▸ inside)⟩

theorem unquoted_unquoted (color : String) : unquoted (unquoted color) = unquoted color := by
  simp [unquoted, List.filter_filter]

/-- No name of the palette begins with a mark. -/
theorem find?_of_marked {name : String} (isMarked : name.toList.head? = some '#') :
    Palette.find? name = none := by
  have noMark : ∀ entry ∈ Palette.entries, entry.1.toList.head? ≠ some '#' := by decide
  rw [Palette.find?, Option.map_eq_none_iff, List.find?_eq_none]
  intro entry isEntry same
  simp only [decide_eq_true_eq] at same
  apply noMark entry isEntry
  rw [same, String.toList_ofList, List.head?_map, isMarked]
  rfl

theorem head?_marked (plain : String) : (marked plain).toList.head? = some '#' := by
  unfold marked
  split
  · assumption
  · simp

/-- The form of a colour begins with a mark and has no quotes. -/
theorem resolve_form (color : String) :
    (resolve color).toList.head? = some '#' ∧ unquoted (resolve color) = resolve color := by
  have entries : ∀ entry ∈ Palette.entries,
      entry.2.toList.head? = some '#' ∧ unquoted entry.2 = entry.2 := by
    decide
  rw [resolve_eq]
  cases found : Palette.find? (unquoted color) with
  | some hex =>
      rw [Palette.find?, Option.map_eq_some_iff] at found
      rcases found with ⟨entry, isEntry, rfl⟩
      exact entries entry (List.mem_of_find?_eq_some isEntry)
  | none =>
      refine ⟨head?_marked _, ?_⟩
      have noQuote := unquoted_eq_self_iff.mp (unquoted_unquoted color)
      rw [Option.getD_none, unquoted_eq_self_iff, marked]
      split
      · exact noQuote
      · simpa using noQuote

/-- The form of a colour is its own form. -/
theorem resolve_resolve (color : String) : resolve (resolve color) = resolve color := by
  rcases resolve_form color with ⟨isMarked, noQuotes⟩
  rw [resolve_eq (resolve color), noQuotes, find?_of_marked isMarked, Option.getD_none, marked,
    if_pos isMarked]

end Resolved

section Known

variable {color : String} {digits : List Char}

/-- The amounts of a name of the palette are those of its entry. -/
def IsNamed (color : String) (amounts : Rgb) : Prop :=
  ∃ entry ∈ Palette.entries, entry.1.toList = (unquoted color).toList.map Palette.lowerChar ∧
    amounts = literalRgb (entry.2.toList.drop 1)

/-- The amounts of a literal are those of all its digits, which a mark may stand in front of. -/
def IsLiteral (color : String) (amounts : Rgb) : Prop :=
  ∃ digits, ((unquoted color).toList = digits ∨ (unquoted color).toList = '#' :: digits) ∧
    (digits.length = 3 ∨ digits.length = 6) ∧ (∀ digit ∈ digits, isAsciiHex digit = true) ∧
      amounts = literalRgb digits

theorem hexValue?_of_isAsciiHex {char : Char} (isHex : isAsciiHex char = true) :
    (hexValue? char).isSome := by
  rw [isAsciiHex, Bool.or_eq_true, Bool.or_eq_true] at isHex
  rw [hexValue?]
  split_ifs with small capital
  · rfl
  · rfl
  · rcases isHex with (isDigit | isSmall) | isCapital
    · rw [digitValue?_of_isDigit isDigit]
      rfl
    · exact absurd isSmall small
    · exact absurd isCapital capital

theorem isNamed_of_find? {hex : String} (found : Palette.find? (unquoted color) = some hex) :
    IsNamed color (rgb color) := by
  have whole : ∀ entry ∈ Palette.entries, rgbOfHex entry.2 = literalRgb (entry.2.toList.drop 1) := by
    decide +kernel
  rw [rgb, resolve_eq, found, Option.getD_some]
  rw [Palette.find?, Option.map_eq_some_iff] at found
  rcases found with ⟨entry, isEntry, rfl⟩
  have inside := List.mem_of_find?_eq_some isEntry
  have name := List.find?_some isEntry
  rw [decide_eq_true_eq] at name
  exact ⟨entry, inside, by rw [name, String.toList_ofList], whole entry inside⟩

/-- The names of the palette are known, in any case and with quotes anywhere, and their forms are those
of their entries. -/
theorem isKnown_of_entry {entry : String × String} (isEntry : entry ∈ Palette.entries)
    (spells : entry.1.toList = (unquoted color).toList.map Palette.lowerChar) :
    isKnown color = true ∧ resolve color = entry.2 := by
  have first : ∀ entry ∈ Palette.entries,
      Palette.entries.find? (fun other => other.1 = entry.1) = some entry := by
    decide
  have found : Palette.find? (unquoted color) = some entry.2 := by
    rw [Palette.find?, ← spells, String.ofList_toList, first entry isEntry]
    rfl
  constructor
  · rw [isKnown, found]
    rfl
  · rw [resolve_eq, found]
    rfl

/-- Behind a mark a literal is the first stretch of digits, and nothing of it is left over. -/
theorem isFirstStretch_of_literal (length : digits.length = 3 ∨ digits.length = 6)
    (areHex : ∀ digit ∈ digits, isAsciiHex digit = true) :
    IsFirstStretch ('#' :: digits) 1 digits.length where
  digits := ⟨by simp [Nat.add_comm], by simpa using fun digit inside => hexValue?_of_isAsciiHex (areHex digit inside)⟩
  size := by
    refine length.symm.imp_right fun three => ⟨three, fun six => ?_⟩
    have := six.inside
    simp [three] at this
  first := by
    intro earlier before digitsAt
    obtain rfl : earlier = 0 := by omega
    exact absurd (digitsAt.digits '#' (by simp)) (by decide)

theorem isLiteral_of_isKnown (noName : Palette.find? (unquoted color) = none)
    (known : isKnown color = true) : IsLiteral color (rgb color) := by
  obtain ⟨digits, plain, isMarked, isHex⟩ : ∃ digits,
      ((unquoted color).toList = digits ∨ (unquoted color).toList = '#' :: digits) ∧
        (marked (unquoted color)).toList = '#' :: digits ∧
          ((digits.length == 3 || digits.length == 6) && digits.all isAsciiHex) = true := by
    simp only [isKnown, noName, Option.isSome_none, Bool.false_or] at known
    split at known
    · rename_i rest plain
      exact ⟨rest, .inr plain, by rw [marked, plain, List.head?_cons, if_pos rfl, plain], known⟩
    · rename_i noMark
      refine ⟨_, .inl rfl, ?_, known⟩
      have noHead : (unquoted color).toList.head? ≠ some '#' := by
        intro head
        rcases List.head?_eq_some_iff.mp head with ⟨rest, plain⟩
        exact noMark rest plain
      rw [marked, if_neg noHead, String.toList_append]
      rfl
  simp only [Bool.and_eq_true, Bool.or_eq_true, beq_iff_eq, List.all_eq_true] at isHex
  rcases isHex with ⟨length, areHex⟩
  have reads := reads_rgbOfHex (marked (unquoted color))
  rw [isMarked] at reads
  have isWhole := reads.unique (.digits (isFirstStretch_of_literal length areHex))
  refine ⟨digits, plain, length, areHex, ?_⟩
  rw [rgb, resolve_eq, noName, Option.getD_none, isWhole]
  simp

end Known

/-- What the amounts of a colour are. They fit eight bits each and are what the form of the colour writes;
quotes and the case of ASCII letters do not count, and the form stands for itself. The names of the palette
are known, and of a colour that is known nothing is passed over. -/
structure HasAmounts (color : String) (amounts : Rgb) : Prop where
  bytes : amounts.red ≤ 255 ∧ amounts.green ≤ 255 ∧ amounts.blue ≤ 255
  written : ∀ other, Reads (resolve color).toList other ↔ other = amounts
  quotes : ∀ other : String,
    other.toList.filter (· ≠ '"') = color.toList.filter (· ≠ '"') → rgb other = amounts
  letters : ∀ other : String,
    other.toList.map Char.toLower = color.toList.map Char.toLower → rgb other = amounts
  formed : resolve (resolve color) = resolve color
  named : ∀ entry ∈ Palette.entries,
    entry.1.toList = (unquoted color).toList.map Palette.lowerChar →
      isKnown color = true ∧ resolve color = entry.2
  known : isKnown color = true →
    IsNamed color amounts ∨ Palette.find? (unquoted color) = none ∧ IsLiteral color amounts

theorem Reads.bytes {chars : List Char} {amounts : Rgb} (reads : Reads chars amounts) :
    amounts.red ≤ 255 ∧ amounts.green ≤ 255 ∧ amounts.blue ≤ 255 := by
  cases reads with
  | digits isFirst => exact ⟨Nat.and_le_right, Nat.and_le_right, Nat.and_le_right⟩
  | black none => decide

/-- Every text has one colour. -/
theorem hasAmounts_rgb (color : String) : HasAmounts color (rgb color) where
  bytes := (reads_rgbOfHex (resolve color)).bytes
  written := by
    intro other
    constructor
    · intro reads
      exact reads.unique (reads_rgbOfHex (resolve color))
    · intro same
      rw [same]
      exact reads_rgbOfHex (resolve color)
  quotes := by
    intro other same
    have plain : unquoted other = unquoted color := congrArg String.ofList same
    rw [rgb, resolve_eq, plain, ← resolve_eq, ← rgb]
  letters := by
    intro other same
    have small : lowered other = lowered color := congrArg String.ofList same
    rw [← rgb_lowered other, small, rgb_lowered]
  formed := resolve_resolve color
  named := fun _ => isKnown_of_entry
  known := by
    intro known
    cases found : Palette.find? (unquoted color) with
    | some hex => exact .inl (isNamed_of_find? found)
    | none => exact .inr ⟨rfl, isLiteral_of_isKnown found known⟩

/-- A name of the palette, in quotes and not in small letters. -/
example : isKnown "\"Red\"" = true ∧ rgb "\"Red\"" = ⟨255, 0, 0⟩ := by decide +kernel

/-- Decimal digits of any script count as digits of a colour, which an editor does not take for known. -/
example : rgb "\u0663\u0663\u0663" = ⟨0x33, 0x33, 0x33⟩ ∧ isKnown "\u0663\u0663\u0663" = false := by
  decide +kernel

end Color

end TermScene
