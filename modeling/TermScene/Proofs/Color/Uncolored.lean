import TermScene.Drawing
import TermScene.Proofs.Color.Rainbow
import TermScene.Proofs.Terminal.Uncolored

/-!
# What is drawn, without its colours

Whatever is drawn in colour reads, without its codes, as what is drawn in plain text, and one drawing
fails exactly if the other does. This is so for text without an escape character of its own, in fonts
that do not bring one in.
-/

namespace TermScene

open Terminal

namespace Layer

variable (layer : Layer) (color : Rgb)

/-- What stands in the code that sets a colour, between its bracket and its last letter. -/
def parameters : List Char :=
  layer.setCode.toList ++ ';' :: '2' :: ';' ::
    (Nat.toDigits 10 color.red ++ ';' ::
      (Nat.toDigits 10 color.green ++ ';' :: Nat.toDigits 10 color.blue))

theorem toList_openCode :
    (layer.openCode color).toList = '\x1b' :: '[' :: (layer.parameters color ++ ['m']) := by
  simp [openCode, parameters]

theorem isColorParameter_of_mem_parameters :
    ∀ char ∈ layer.parameters color, isColorParameter char = true := by
  have digits (value : ℕ) : ∀ char ∈ Nat.toDigits 10 value, isColorParameter char = true := by
    intro char inside
    simp [isColorParameter, Nat.isDigit_of_mem_toDigits (by decide) (by decide) inside]
  have number : ∀ char ∈ layer.setCode.toList, isColorParameter char = true := by
    cases layer <;> exact List.all_eq_true.mp (by decide)
  intro char inside
  simp only [parameters, List.mem_append, List.mem_cons] at inside
  rcases inside with inside | rfl | rfl | rfl | inside | rfl | inside | rfl | inside
  · exact number char inside
  · rfl
  · rfl
  · rfl
  · exact digits _ char inside
  · rfl
  · exact digits _ char inside
  · rfl
  · exact digits _ char inside

theorem isColorCode_openCode : IsColorCode (layer.openCode color) :=
  ⟨_, layer.isColorParameter_of_mem_parameters color, layer.toList_openCode color⟩

theorem isColorCode_closeCode : IsColorCode layer.closeCode := by
  cases layer
  · exact ⟨['3', '9'], List.all_eq_true.mp rfl, rfl⟩
  · exact ⟨['4', '9'], List.all_eq_true.mp rfl, rfl⟩

end Layer

/-- What two functions make of the same items, side by side. -/
theorem forall₂_map_map {α β γ : Type} {related : β → γ → Prop} {make : α → β} {other : α → γ}
    {items : List α} (each : ∀ item ∈ items, related (make item) (other item)) :
    List.Forall₂ related (items.map make) (items.map other) := by
  rw [List.forall₂_map_left_iff, List.forall₂_map_right_iff, List.forall₂_same]
  exact each

section Painted

variable {text : String} (layer : Layer) (color : String)

theorem paint_reads (text : String) : ReadsAs (paint layer color true text) (uncolored text) :=
  .enclose (layer.isColorCode_openCode _) layer.isColorCode_closeCode text

theorem paint_reads_self (isPlain : '\x1b' ∉ text.toList) : ReadsAs (paint layer color true text) text := by
  simpa [(ReadsAs.self isPlain).uncolored_eq] using paint_reads layer color text

/-- A background is deleted with the colour codes of what is shown over it. -/
theorem uncolored_compose (settings : Settings) (background content : String) :
    uncolored (compose { settings with color := true } background content) =
      compose { settings with color := false } background (uncolored content) :=
  (paint_reads .background background content).uncolored_eq

theorem Mask.text_reads (mask : Mask) {glyph : String} (isPlain : '\x1b' ∉ glyph.toList) :
    ReadsAs (mask.text glyph color true) (mask.text glyph color false) := by
  have cell (isSet : Bool) :
      ReadsAs (if isSet then paint .foreground color true glyph else " ") (if isSet then glyph else " ") := by
    cases isSet with
    | true => exact paint_reads_self .foreground color isPlain
    | false =>
        have blank : '\x1b' ∉ " ".toList := by decide
        exact .self blank
  have line (row : List Bool) :
      ReadsAs (rowText (paint .foreground color true glyph) row) (rowText glyph row) := by
    exact .append (.join (forall₂_map_map fun isSet _ => cell isSet)) (.self (by decide))
  exact .join (forall₂_map_map fun row _ => line row)

end Painted

namespace Hue

theorem PaintedVisible.withoutColors_append {chars painted : List Char}
    (visible : PaintedVisible chars painted) (isPlain : '\x1b' ∉ chars) (rest : List Char) :
    withoutColors (painted ++ rest) = chars ++ withoutColors rest := by
  induction visible with
  | nil => rfl
  | @visible char later painted color isVisible _ ih =>
      rw [List.mem_cons, not_or] at isPlain
      have reads : ReadsAs (paint .foreground color true (String.singleton char)) (String.singleton char) :=
        paint_reads_self .foreground color (by simpa using isPlain.1)
      rw [List.append_assoc, reads, ih isPlain.2]
      simp
  | plain _ _ ih =>
      rw [List.mem_cons, not_or] at isPlain
      rw [List.cons_append, withoutColors_cons_of_ne (Ne.symm isPlain.1), ih isPlain.2,
        List.cons_append]

theorem IsPaint.reads {text : String} {paint : ℤ → String} (isPaint : IsPaint text true paint)
    (isPlain : '\x1b' ∉ text.toList) (offset : ℤ) : ReadsAs (paint offset) text := by
  rcases rainbow_paintedVisible text offset with ⟨painted, isPainted, visible⟩
  rw [isPaint.drawn, Except.ok.injEq] at isPainted
  rw [isPainted]
  exact visible.withoutColors_append isPlain

end Hue

/-- Two results that are the same failure or related values. -/
inductive Alike {ε α β : Type} (related : α → β → Prop) : Except ε α → Except ε β → Prop where
  | ok {value : α} {other : β} (values : related value other) :
      Alike related (.ok value) (.ok other)
  | error (failure : ε) : Alike related (.error failure) (.error failure)

/-- A font in which text without an escape character is drawn without one. -/
def Lettering.IsPlain (lettering : Lettering) (font : String) : Prop :=
  ∀ text lines, '\x1b' ∉ text.toList → lettering font text = .drawn lines → '\x1b' ∉ lines.toList

theorem Lettering.builtin_isPlain (font : String) : builtin.IsPlain font := by
  intro text lines isPlain drawn
  unfold builtin at drawn
  split_ifs at drawn with known
  have fontPlain : '\x1b' ∉ font.toList := by
    have plain : ∀ name ∈ plainFonts, '\x1b' ∉ name.toList := by decide
    exact plain font (by simpa using known)
  cases drawn
  unfold underlined
  split
  · simp
  · simp [isPlain, fontPlain]

def Settings.HasPlainFonts (settings : Settings) (lettering : Lettering) : Prop :=
  lettering.IsPlain settings.font ∧ lettering.IsPlain settings.smallFont

theorem Settings.HasPlainFonts.fontFor {settings : Settings} {lettering : Lettering}
    (plainFonts : settings.HasPlainFonts lettering) (size : Int) :
    lettering.IsPlain (settings.fontFor size) := by
  unfold Settings.fontFor
  split
  · exact plainFonts.1
  · exact plainFonts.2

def Drawing.text? : Drawing → Option String
  | .text content .. => some content
  | _ => none

section Drawings

variable {settings : Settings} {lettering : Lettering}

/-- The same drawing twice, in colour and in plain text. -/
abbrev SameDrawing : Except DrawFailure (String × List Notice) →
    Except DrawFailure (String × List Notice) → Prop :=
  Alike fun colored plain => ReadsAs colored.1 plain.1 ∧ colored.2 = plain.2

theorem drawMask_sameDrawing (mask : Except MaskFailure Mask) {glyph : String} (color : String)
    (isPlain : '\x1b' ∉ glyph.toList) :
    SameDrawing (drawMask mask glyph color true) (drawMask mask glyph color false) := by
  cases mask with
  | ok cells => exact .ok ⟨cells.text_reads color isPlain, rfl⟩
  | error cause => exact .error _

theorem drawText_sameDrawing {font text : String} (color : String) (isPlain : '\x1b' ∉ text.toList)
    (plainFont : lettering.IsPlain font) :
    SameDrawing (drawText lettering font text color true) (drawText lettering font text color false) := by
  unfold drawText
  cases drawn : lettering font text with
  | drawn lines => exact .ok ⟨paint_reads_self _ _ (plainFont _ _ isPlain drawn), rfl⟩
  | unusable reason => exact .ok ⟨paint_reads_self _ _ isPlain, rfl⟩
  | broken reason => exact .error _

theorem Drawing.render_sameDrawing (drawing : Drawing)
    (isPlain : ∀ text ∈ drawing.text?, '\x1b' ∉ text.toList)
    (plainFonts : settings.HasPlainFonts lettering) :
    SameDrawing (drawing.render { settings with color := true } lettering)
      (drawing.render { settings with color := false } lettering) := by
  have dot : '\x1b' ∉ dotGlyph.toList := by decide
  have block : '\x1b' ∉ blockGlyph.toList := by decide
  cases drawing <;> simp only [Drawing.render]
  case circle => exact drawMask_sameDrawing _ _ dot
  case rect => exact drawMask_sameDrawing _ _ block
  case text content x y size color =>
    exact drawText_sameDrawing color (isPlain content rfl) (plainFonts.fontFor size)
  case line => exact drawMask_sameDrawing _ _ dot

end Drawings

end TermScene
