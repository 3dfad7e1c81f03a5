import TermScene.Proofs.Color.Pen

/-!
# Inks

What is drawn is displayed in inks: characters, each with a colour of its own or none. The inks of a
shape are coloured in its set cells and nowhere else, those of large text everywhere, and those of rainbow
text in its visible characters. Over a background no colour is on at a newline or in the end.
-/

namespace TermScene

open Terminal

/-- A character with the colour that it is displayed in, if it has one. -/
structure Ink where
  char : Char
  color : Option Rgb
  deriving DecidableEq

/-- An ink over a background, which does not reach under a newline. -/
def Ink.over (background : Rgb) (ink : Ink) : Cell :=
  if ink.char = '\n' then ⟨'\n', none, none⟩ else ⟨ink.char, ink.color, some background⟩

def plainInks (chars : List Char) : List Ink := chars.map (⟨·, none⟩)

/-- Characters in a colour, newlines apart. -/
def paintedInks (color : Rgb) (chars : List Char) : List Ink :=
  chars.map fun char => ⟨char, if char = '\n' then none else some color⟩

/-- Characters that a background is closed and opened again in. -/
def overlaid (background : Rgb) (chars : List Char) : List Char :=
  relined (Layer.background.openCode background) Layer.background.closeCode chars

/-- Characters that are displayed in inks over any background, which stays on after them. -/
def Inked (chars : List Char) (inks : List Ink) : Prop :=
  ∀ (background : Rgb) (rest : List Char),
    Pen.read ⟨none, some background⟩ (overlaid background chars ++ rest) =
      (Pen.read ⟨none, some background⟩ rest).after (inks.map (Ink.over background))

theorem toList_paint (layer : Layer) (color : String) {text : String} (nonempty : text ≠ "") :
    (paint layer color true text).toList =
      (layer.openCode (Color.rgb color)).toList ++
        (relined (layer.openCode (Color.rgb color)) layer.closeCode text.toList ++
          (layer.closeCode.toList ++ [])) := by
  simp [paint, toList_enclose nonempty]

section Overlaid

variable {background : Rgb} (foreground : Option Rgb) {char : Char} (chars rest : List Char)

theorem read_overlaid_code {code : String} (isCode : IsColorCode code) :
    overlaid background (code.toList ++ chars) = code.toList ++ overlaid background chars := by
  rw [overlaid, relined_append, relined_of_no_newline isCode.newline_not_mem, overlaid]

/-- A newline under a background is displayed without it. -/
theorem read_overlaid_newline :
    Pen.read ⟨none, some background⟩ (overlaid background ('\n' :: chars) ++ rest) =
      (Pen.read ⟨none, some background⟩ (overlaid background chars ++ rest)).after [⟨'\n', none, none⟩] := by
  rw [overlaid, relined_newline, List.append_assoc, List.append_assoc, Layer.read_closeCode,
    List.cons_append, Pen.read_cons_of_ne _ (by decide), Layer.read_openCode]
  rfl

theorem read_overlaid_cons (isPlain : char ≠ '\x1b') (line : char ≠ '\n') :
    Pen.read ⟨foreground, some background⟩ (overlaid background (char :: chars) ++ rest) =
      (Pen.read ⟨foreground, some background⟩ (overlaid background chars ++ rest)).after
        [⟨char, foreground, some background⟩] := by
  rw [overlaid, relined_cons_of_ne chars line, List.cons_append, Pen.read_cons_of_ne _ isPlain, overlaid]

end Overlaid

namespace Inked

variable {chars later : List Char} {inks laterInks : List Ink}

theorem nil : Inked [] [] := fun background rest => by
  simp [overlaid, relined, Displayed.after]

theorem append (first : Inked chars inks) (second : Inked later laterInks) :
    Inked (chars ++ later) (inks ++ laterInks) := by
  intro background rest
  rw [overlaid, relined_append, List.append_assoc, ← overlaid, ← overlaid, first, second,
    Displayed.after_after, List.map_append]

theorem flatten {pieces : List (List Char)} {each : List (List Ink)}
    (inked : List.Forall₂ Inked pieces each) : Inked pieces.flatten each.flatten := by
  induction inked with
  | nil => exact nil
  | cons first _ ih =>
      rw [List.flatten_cons, List.flatten_cons]
      exact first.append ih

theorem cons_plain {char : Char} (isPlain : char ≠ '\x1b') (more : Inked chars inks) :
    Inked (char :: chars) (⟨char, none⟩ :: inks) := by
  intro background rest
  by_cases newline : char = '\n'
  · subst newline
    rw [read_overlaid_newline, more, Displayed.after_after]
    rfl
  · rw [read_overlaid_cons _ _ _ isPlain newline, more, Displayed.after_after]
    simp [Ink.over, newline]

theorem plain (isPlain : '\x1b' ∉ chars) : Inked chars (plainInks chars) := by
  induction chars with
  | nil => exact nil
  | cons char rest ih =>
      rw [List.mem_cons, not_or] at isPlain
      exact cons_plain (Ne.symm isPlain.1) (ih isPlain.2)

/-- Characters of a painted text, the colour being on before and after them. -/
theorem read_painted (color background : Rgb) (isPlain : '\x1b' ∉ chars) (rest : List Char) :
    Pen.read ⟨some color, some background⟩
        (overlaid background
          (relined (Layer.foreground.openCode color) Layer.foreground.closeCode chars) ++ rest) =
      (Pen.read ⟨some color, some background⟩ rest).after
        ((paintedInks color chars).map (Ink.over background)) := by
  induction chars with
  | nil => simp [relined, overlaid, paintedInks, Displayed.after]
  | cons char others ih =>
      rw [List.mem_cons, not_or] at isPlain
      have more := ih isPlain.2
      by_cases newline : char = '\n'
      -- Before a newline the colours are taken back from the inside out, and after it set the other way.
      · subst newline
        rw [relined_newline, List.append_assoc, read_overlaid_code _ (Layer.isColorCode_closeCode _),
          List.append_assoc, Layer.read_closeCode, List.cons_append]
        change Pen.read ⟨none, some background⟩ _ = _
        rw [read_overlaid_newline, read_overlaid_code _ (Layer.isColorCode_openCode _ _),
          List.append_assoc, Layer.read_openCode]
        change Displayed.after _ (Pen.read ⟨some color, some background⟩ _) = _
        rw [more, Displayed.after_after]
        rfl
      · rw [relined_cons_of_ne others newline, read_overlaid_cons _ _ _ (Ne.symm isPlain.1) newline,
          more, Displayed.after_after]
        simp [paintedInks, Ink.over, newline]

theorem painted (color : String) {text : String} (isPlain : '\x1b' ∉ text.toList) :
    Inked (paint .foreground color true text).toList (paintedInks (Color.rgb color) text.toList) := by
  by_cases isEmpty : text = ""
  · simpa [isEmpty, paintedInks] using nil
  · intro background rest
    rw [toList_paint _ _ isEmpty, read_overlaid_code _ (Layer.isColorCode_openCode _ _), List.append_assoc,
      Layer.read_openCode, overlaid, relined_append, List.append_assoc]
    change Pen.read ⟨some (Color.rgb color), some background⟩ (overlaid background _ ++ _) = _
    rw [read_painted _ _ isPlain, ← overlaid, read_overlaid_code _ (Layer.isColorCode_closeCode _),
      List.append_assoc, Layer.read_closeCode]
    rfl

end Inked

/-- Text that is displayed in inks when it is composed over any background: all of it over that
background but for the newlines, and no colour is on in the end. -/
def ShowsInks (settings : Settings) (text : String) (inks : List Ink) : Prop :=
  ∀ background, Pen.read {} (compose settings background text).toList =
    ⟨inks.map (Ink.over (Color.rgb background)), {}⟩

theorem Inked.showsInks {settings : Settings} (isOn : settings.color = true) {text : String}
    {inks : List Ink} (inked : Inked text.toList inks) : ShowsInks settings text inks := by
  intro background
  unfold compose
  rw [isOn]
  by_cases isEmpty : text = ""
  · have none := inked (Color.rgb background) []
    simp only [isEmpty, overlaid, relined, String.toList_empty, List.flatMap_nil, List.append_nil,
      Displayed.after, Displayed.mk.injEq, Pen.read, List.nil_eq, List.map_eq_nil_iff, and_true] at none
    simp [isEmpty, none, Pen.read]
  · rw [toList_paint _ _ isEmpty, Layer.read_openCode, ← overlaid]
    change Pen.read ⟨none, some (Color.rgb background)⟩ _ = _
    rw [inked, Layer.read_closeCode]
    simp [Pen.read, Pen.put, Displayed.after]

theorem Inked.flatMap {α : Type} {text : α → List Char} {inks : α → List Ink}
    (each : ∀ item, Inked (text item) (inks item)) (items : List α) :
    Inked (items.flatMap text) (items.flatMap inks) := by
  rw [List.flatMap_def, List.flatMap_def]
  exact flatten (forall₂_map_map fun item _ => each item)

/-- The inks of a shape: a set cell is in the colour of the shape, a clear one in none. -/
def Mask.inks (mask : Mask) (glyph : String) (color : Rgb) : List Ink :=
  mask.rows.flatMap fun row =>
    (row.flatMap fun isSet => if isSet then paintedInks color glyph.toList else plainInks [' ']) ++
      plainInks ['\n']

theorem Mask.inked_text (mask : Mask) {glyph : String} (color : String)
    (isPlain : '\x1b' ∉ glyph.toList) :
    Inked (mask.text glyph color true).toList (mask.inks glyph (Color.rgb color)) := by
  have cell (isSet : Bool) :
      Inked (if isSet then paint .foreground color true glyph else " ").toList
        (if isSet then paintedInks (Color.rgb color) glyph.toList else plainInks [' ']) := by
    cases isSet with
    | true => exact .painted color isPlain
    | false =>
        have blank : '\x1b' ∉ [' '] := by decide
        simpa using Inked.plain blank
  simp only [text, String.toList_join, List.flatMap_map, Mask.inks]
  refine .flatMap (fun row => ?_) mask.rows
  simp only [rowText, String.toList_append, String.toList_join, List.flatMap_map]
  exact (Inked.flatMap cell row).append (.plain (by decide))

def maskInks (mask : Except MaskFailure Mask) (glyph color : String) :
    Except DrawFailure (List Ink) :=
  (mask.map fun cells => cells.inks glyph (Color.rgb color)).mapError .noMask

/-- The inks of large text, or of the text as it is if the font cannot be used. -/
def letteredInks (lettering : Lettering) (font text color : String) : Except DrawFailure (List Ink) :=
  match lettering font text with
  | .drawn lines => .ok (paintedInks (Color.rgb color) lines.toList)
  | .unusable _ => .ok (paintedInks (Color.rgb color) text.toList)
  | .broken reason => .error (.lettering reason)

def Drawing.inks (settings : Settings) (lettering : Lettering) :
    Drawing → Except DrawFailure (List Ink)
  | .circle _ _ radius fill => maskInks (discMask radius) dotGlyph fill
  | .rect _ _ width height fill => maskInks (rectMask width height) blockGlyph fill
  | .text content _ _ size color => letteredInks lettering (settings.fontFor size) content color
  | .line x1 y1 x2 y2 color => maskInks (segmentMask x1 y1 x2 y2) dotGlyph color

section Drawings

variable {settings : Settings} {lettering : Lettering} {text : String} {notices : List Notice}

theorem inked_of_drawMask {mask : Except MaskFailure Mask} {glyph color : String}
    (isPlain : '\x1b' ∉ glyph.toList) (drawn : drawMask mask glyph color true = .ok (text, notices)) :
    ∃ inks, maskInks mask glyph color = .ok inks ∧ Inked text.toList inks := by
  cases mask with
  | ok cells =>
      cases drawn
      exact ⟨_, rfl, cells.inked_text color isPlain⟩
  | error cause => cases drawn

theorem inked_of_drawText {font content color : String} (isPlain : '\x1b' ∉ content.toList)
    (plainFont : lettering.IsPlain font)
    (drawn : drawText lettering font content color true = .ok (text, notices)) :
    ∃ inks, letteredInks lettering font content color = .ok inks ∧ Inked text.toList inks := by
  unfold drawText at drawn
  unfold letteredInks
  cases lettered : lettering font content with
  | drawn lines =>
      simp only [lettered, Except.ok.injEq, Prod.mk.injEq] at drawn
      exact ⟨_, rfl, drawn.1 ▸ .painted color (plainFont _ _ isPlain lettered)⟩
  | unusable reason =>
      simp only [lettered, Except.ok.injEq, Prod.mk.injEq] at drawn
      exact ⟨_, rfl, drawn.1 ▸ .painted color isPlain⟩
  | broken reason => simp [lettered] at drawn

/-- A drawing in colour is displayed in its inks. -/
theorem Drawing.inked_of_render {drawing : Drawing} (isOn : settings.color = true)
    (isPlain : ∀ content ∈ drawing.text?, '\x1b' ∉ content.toList)
    (plainFonts : settings.HasPlainFonts lettering)
    (drawn : drawing.render settings lettering = .ok (text, notices)) :
    ∃ inks, drawing.inks settings lettering = .ok inks ∧ Inked text.toList inks := by
  have dot : '\x1b' ∉ dotGlyph.toList := by decide
  have block : '\x1b' ∉ blockGlyph.toList := by decide
  cases drawing <;> simp only [render, isOn] at drawn <;> simp only [inks]
  case circle => exact inked_of_drawMask dot drawn
  case rect => exact inked_of_drawMask block drawn
  case text content x y size color =>
    exact inked_of_drawText (isPlain content rfl) (plainFonts.fontFor size) drawn
  case line => exact inked_of_drawMask dot drawn

end Drawings

/-- Inks of rainbow text: the visible characters are in some colour, the others in none. -/
def IsRainbow (chars : List Char) (inks : List Ink) : Prop :=
  inks.map Ink.char = chars ∧ ∀ ink ∈ inks, ink.color.isSome = Hue.isVisible ink.char

theorem Hue.PaintedVisible.exists_inks {chars painted : List Char}
    (visible : PaintedVisible chars painted) (isPlain : '\x1b' ∉ chars) :
    ∃ inks, IsRainbow chars inks ∧ Inked painted inks := by
  induction visible with
  | nil => exact ⟨[], ⟨rfl, by simp⟩, .nil⟩
  | @visible char rest painted color isVisible _ ih =>
      rw [List.mem_cons, not_or] at isPlain
      rcases ih isPlain.2 with ⟨inks, ⟨same, each⟩, inked⟩
      have line : char ≠ '\n' := by
        rintro rfl
        exact absurd isVisible (by decide)
      have painted : Inked (paint .foreground color true (String.singleton char)).toList
          [⟨char, some (Color.rgb color)⟩] := by
        have alone := @Inked.painted color (String.singleton char) (by simpa using isPlain.1)
        simpa [paintedInks, line] using alone
      refine ⟨⟨char, some (Color.rgb color)⟩ :: inks, ⟨by simp [same], ?_⟩, painted.append inked⟩
      rw [List.forall_mem_cons]
      exact ⟨by simp [isVisible], each⟩
  | @plain char rest painted isPlainChar _ ih =>
      rw [List.mem_cons, not_or] at isPlain
      rcases ih isPlain.2 with ⟨inks, ⟨same, each⟩, inked⟩
      refine ⟨⟨char, none⟩ :: inks, ⟨by simp [same], ?_⟩, inked.cons_plain (Ne.symm isPlain.1)⟩
      rw [List.forall_mem_cons]
      exact ⟨by simp [isPlainChar], each⟩

theorem Hue.inked_of_rainbow {text overlay : String} {offset : Int} (isPlain : '\x1b' ∉ text.toList)
    (drawn : rainbow text offset true = .ok overlay) :
    ∃ inks, IsRainbow text.toList inks ∧ Inked overlay.toList inks := by
  rcases rainbow_paintedVisible text offset with ⟨painted, isPainted, visible⟩
  rw [drawn, Except.ok.injEq] at isPainted
  subst isPainted
  exact visible.exists_inks isPlain

end TermScene
