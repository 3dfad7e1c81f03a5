import TermScene.Color.Hue
import TermScene.Proofs.Binary64.Bounds

/-!
# Rainbow text can always be drawn

The hues of rainbow text stay of the size of a full turn however long the text is, so every one of them
has a colour. What is drawn is the text with its visible characters painted one by one, each in some
colour, and everything else left as it is. Offsets a full turn apart give the same.
-/

namespace TermScene

namespace Hue

open Binary64

variable {size : ℕ} {hue step least greatest turn lightness saturation : Binary64}

theorem third_within : Within 1 third :=
  .round (by norm_num [abs_le]) (by norm_num)

theorem twoThirds_within : Within 1 twoThirds :=
  .round (by norm_num [abs_le]) (by norm_num)

theorem channel_within (leastWithin : Within size least) (greatestWithin : Within size greatest)
    {turnSize : ℕ} (turnWithin : Within turnSize turn) (small : size < 1000) :
    Within (size + 13) (channel least greatest turn) := by
  have hue : Within 1 (turn.modNat 1) := .modNat turnWithin (by norm_num) (by norm_num) (by norm_num)
  have six : Within 4 (ofInt 6) := .ofInt (by norm_num) (by norm_num)
  have range : Within (size + 2) (greatest - least) := .sub greatestWithin leastWithin (by omega)
  have fallen : Within 3 (twoThirds - turn.modNat 1) := .sub twoThirds_within hue (by norm_num)
  have slope {part : Binary64} (within : Within 3 part) :
      Within (size + 13) (least + (greatest - least) * part * ofInt 6) := by
    have risen := (range.mul within (by omega)).mul six (by omega)
    exact .add (leastWithin.mono (by omega)) (risen.mono (by omega)) (by omega)
  simp only [channel]
  split_ifs
  · exact slope (hue.mono (by norm_num))
  · exact greatestWithin.mono (by omega)
  · exact slope fallen
  · exact leastWithin.mono (by omega)

theorem channels_within (lightnessWithin : Within 9 lightness) (saturationWithin : Within 9 saturation)
    (turnWithin : Within 11 turn) :
    Within 36 (channels turn lightness saturation).1 ∧
      Within 36 (channels turn lightness saturation).2.1 ∧
      Within 36 (channels turn lightness saturation).2.2 := by
  have one : Within 9 (ofInt 1) := .ofInt (by norm_num) (by norm_num)
  have two : Within 2 (ofInt 2) := .ofInt (by norm_num) (by norm_num)
  have product : Within 19 (lightness * saturation) :=
    .mul lightnessWithin saturationWithin (by norm_num)
  have sum : Within 11 (lightness + saturation) := .add lightnessWithin saturationWithin (by norm_num)
  have light : Within 21 (lightness * (ofInt 1 + saturation)) :=
    .mul lightnessWithin (.add one saturationWithin (by norm_num)) (by norm_num)
  have dark : Within 21 (lightness + saturation - lightness * saturation) :=
    .sub (sum.mono (by norm_num)) product (by norm_num)
  have later : Within 13 (turn + third) := .add turnWithin (third_within.mono (by norm_num)) (by norm_num)
  have earlier : Within 13 (turn - third) :=
    .sub turnWithin (third_within.mono (by norm_num)) (by norm_num)
  have painted {most : Binary64} (within : Within 21 most) {angle : Binary64} {angleSize : ℕ}
      (angleWithin : Within angleSize angle) :
      Within 36 (channel (ofInt 2 * lightness - most) most angle) := by
    have rest : Within 23 (ofInt 2 * lightness - most) :=
      .sub (.mono (.mul two lightnessWithin (by norm_num)) (by norm_num)) within (by norm_num)
    exact channel_within rest (within.mono (by norm_num)) angleWithin (by norm_num)
  unfold channels
  split
  · have grey := lightnessWithin.mono (show 9 ≤ 36 by norm_num)
    exact ⟨grey, grey, grey⟩
  · split
    · exact ⟨painted light later, painted light turnWithin, painted light earlier⟩
    · exact ⟨painted dark later, painted dark turnWithin, painted dark earlier⟩

theorem toHex_total (within : Within size hue) :
    ∃ color, toHex hue (ofInt 100) (ofInt 50) = .ok color := by
  have hundred : Within 8 (ofInt 100) := .ofInt (by norm_num) (by norm_num)
  have fifty : Within 7 (ofInt 50) := .ofInt (by norm_num) (by norm_num)
  have reduced : Within 10 (hue.modNat 360) :=
    .modNat within (by norm_num) (by norm_num) (by norm_num)
  have angle : Within 11 ((hue.modNat 360).divNat 360) :=
    .divNat reduced (by norm_num) (by norm_num)
  have saturation : Within 9 ((ofInt 100).divNat 100) :=
    .divNat hundred (by norm_num) (by norm_num)
  have lightness : Within 9 ((ofInt 50).divNat 100) :=
    .mono (.divNat fifty (by norm_num) (by norm_num)) (by norm_num)
  have full : Within 9 (ofInt 255) := .ofInt (by norm_num) (by norm_num)
  have whole {part : Binary64} (within : Within 36 part) :
      ∃ value, (part * ofInt 255).toNearestInt = .ok value :=
    (within.mul full (by norm_num)).toNearestInt
  rcases channels_within lightness saturation angle with ⟨redWithin, greenWithin, blueWithin⟩
  rcases whole redWithin with ⟨red, isRed⟩
  rcases whole greenWithin with ⟨green, isGreen⟩
  rcases whole blueWithin with ⟨blue, isBlue⟩
  simp only [toHex, isRed, isGreen, isBlue]
  exact ⟨_, rfl⟩

/-- Characters of which the visible ones, and no others, are painted, each in some colour. -/
inductive PaintedVisible : List Char → List Char → Prop where
  | nil : PaintedVisible [] []
  | visible {char : Char} {rest painted : List Char} (color : String) (isVisible : isVisible char = true)
      (more : PaintedVisible rest painted) :
      PaintedVisible (char :: rest)
        ((paint .foreground color true (String.singleton char)).toList ++ painted)
  | plain {char : Char} {rest painted : List Char} (isPlain : Hue.isVisible char = false)
      (more : PaintedVisible rest painted) : PaintedVisible (char :: rest) (char :: painted)

theorem PaintedVisible.self {chars : List Char} (plain : ∀ char ∈ chars, isVisible char = false) :
    PaintedVisible chars chars := by
  induction chars with
  | nil => exact .nil
  | cons char rest ih =>
      exact .plain (plain char (by simp)) (ih fun char inside => plain char (by simp [inside]))

theorem paintTurning_paintedVisible (stepWithin : Within 10 step) (chars : List Char)
    (hueWithin : Within 10 hue) :
    ∃ painted, paintTurning step hue chars = .ok painted ∧ PaintedVisible chars painted := by
  induction chars generalizing hue with
  | nil => exact ⟨_, rfl, .nil⟩
  | cons char rest ih =>
      cases visible : isVisible char with
      | true =>
          have next : Within 10 ((hue + step).modNat 360) :=
            .modNat (.add hueWithin stepWithin (by norm_num)) (by norm_num) (by norm_num) (by norm_num)
          rcases toHex_total hueWithin with ⟨color, isColor⟩
          rcases ih next with ⟨painted, isPainted, more⟩
          refine ⟨_, ?_, .visible color visible more⟩
          simp [paintTurning, visible, isColor, isPainted, bind, Except.bind, pure, Except.pure]
      | false =>
          rcases ih hueWithin with ⟨painted, isPainted, more⟩
          refine ⟨_, ?_, .plain visible more⟩
          simp [paintTurning, visible, isPainted, bind, Except.bind, pure, Except.pure]

theorem rainbow_disabled (text : String) (offset : Int) : rainbow text offset false = .ok text := by
  simp [rainbow]

theorem rainbow_paintedVisible (text : String) (offset : Int) :
    ∃ painted, rainbow text offset true = .ok painted ∧
      PaintedVisible text.toList painted.toList := by
  unfold rainbow
  by_cases none : text.toList.countP isVisible = 0
  · rw [if_pos (.inl none)]
    exact ⟨text, rfl, .self (by simpa using List.countP_eq_zero.mp none)⟩
  · have low := Int.emod_nonneg offset (show (360 : ℤ) ≠ 0 by norm_num)
    have high := Int.emod_lt_of_pos offset (show (0 : ℤ) < 360 by norm_num)
    have start : Within 10 (ofInt (offset % 360)) :=
      .ofInt (abs_le.mpr ⟨by omega, by omega⟩) (by norm_num)
    have step : Within 10 (Binary64.round (360 / (text.toList.countP isVisible : ℚ))) := by
      have atLeast : (1 : ℚ) ≤ text.toList.countP isVisible := by
        exact_mod_cast Nat.one_le_iff_ne_zero.mpr none
      have bound : |360 / (text.toList.countP isVisible : ℚ)| ≤ 2 ^ 9 := by
        rw [abs_of_nonneg (by positivity)]
        exact (div_le_self (by norm_num) atLeast).trans (by norm_num)
      exact .round bound (by norm_num)
    rcases paintTurning_paintedVisible step text.toList start with ⟨painted, isPainted, visible⟩
    rw [if_neg (by simpa using none)]
    simp only [isPainted, Except.map]
    exact ⟨_, rfl, by simpa using visible⟩

/-- What rainbow text gives at every offset, the same a full turn later. -/
structure IsPaint (text : String) (enabled : Bool) (paint : ℤ → String) : Prop where
  drawn : ∀ offset, rainbow text offset enabled = .ok (paint offset)
  turned : ∀ offset, paint (offset % 360) = paint offset

theorem exists_paint (text : String) (enabled : Bool) : ∃ paint, IsPaint text enabled paint := by
  have each (offset : ℤ) : ∃ painted, rainbow text offset enabled = .ok painted := by
    cases enabled with
    | false => exact ⟨text, rainbow_disabled text offset⟩
    | true =>
        rcases rainbow_paintedVisible text offset with ⟨painted, isPainted, -⟩
        exact ⟨painted, isPainted⟩
  choose paint drawn using each
  refine ⟨paint, drawn, fun offset => ?_⟩
  have turned := rainbow_emod text offset enabled
  rwa [drawn, drawn, Except.ok.injEq] at turned

theorem IsPaint.eq_text {text : String} {paint : ℤ → String} (isPaint : IsPaint text false paint)
    (offset : ℤ) : paint offset = text := by
  have isText := rainbow_disabled text offset
  rwa [isPaint.drawn, Except.ok.injEq] at isText

end Hue

end TermScene
