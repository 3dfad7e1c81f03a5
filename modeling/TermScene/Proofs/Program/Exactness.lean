import TermScene.Proofs.Binary64.Numeral
import TermScene.Proofs.Program.Reading

/-!
# Exactness of the parser

A parser returns a program exactly when the tokens begin with a program of the grammar. No more and no
fewer tokens are read than that, the tokens behind it do not count, and everything else is an error at a
token.

Faults of numerals do not come up: a numeral always has a value, and the numerals are assumed to be
within the range of finite doubles, so that they have an integer part.
-/

namespace TermScene

/-- A numeral whose nearest double is finite. -/
structure Token.IsFiniteNumeral (token : Token) : Prop where
  isNumeral : IsNumeral token.text.toList
  isFinite : ∃ value, Binary64.round (decimalValue token.text.toList) = .finite value

/-- Every numeral among some tokens has a finite value. -/
def FiniteNumerals (tokens : List Token) : Prop :=
  ∀ token ∈ tokens, token.kind = .number → token.IsFiniteNumeral

section Faults

variable {front rest : List Token} {fault : Fault}

theorem Token.IsFiniteNumeral.slot_check {token : Token} (finite : token.IsFiniteNumeral) (slot : Slot) :
    slot.check token.text = .ok () := by
  rcases finite.isFinite with ⟨value, isValue⟩
  have read := Binary64.ofText?_numeral finite.isNumeral
  rw [isValue, ← numberOf_eq_ok_iff] at read
  cases slot with
  | number => simp [Slot.check, read, Except.map]
  | count =>
      rw [Slot.check, countOf_of_ok read (Binary64.truncate_finite value)]
      rfl
  | _ => rfl

theorem Slot.check_of_kind {slot : Slot} {token : Token} (fits : token.kind = slot.kind)
    (finite : token.kind = .number → token.IsFiniteNumeral) : slot.check token.text = .ok () := by
  by_cases isNumber : token.kind = .number
  · exact (finite isNumber).slot_check slot
  · cases slot <;> first | rfl | exact absurd fits isNumber

theorem ProgramHalts.fault_of_finite (halts : ProgramHalts front fault rest)
    (finite : FiniteNumerals front) : ∃ wanted, fault = .wanted wanted := by
  rcases halts.isFaultOf with isWanted | ⟨before, token, slot, rfl, fits, useless⟩
  · exact isWanted
  · have useful := Slot.check_of_kind fits (finite token (by simp))
    rw [useful] at useless
    simp at useless

end Faults

/-- At most one program begins some tokens. -/
theorem DerivesProgram.unique {tokens front front' : List Token} {program program' : Program}
    (derives : DerivesProgram front program) (begins : front <+: tokens)
    (derives' : DerivesProgram front' program') (begins' : front' <+: tokens) :
    front' = front ∧ program' = program := by
  rcases begins with ⟨rest, rfl⟩
  rcases begins' with ⟨rest', same⟩
  have read := readProgram_of_derives derives rest
  rw [← same, readProgram_of_derives derives' rest'] at read
  simp only [Reading.done.injEq] at read
  rcases read with ⟨rfl, rfl⟩
  exact ⟨List.append_cancel_right same, rfl⟩

namespace Parser

/-- What the parser makes of tokens is what the grammar says of them. -/
structure IsExact (tokens : List Token) (source filename : String) : Prop where
  accepts_iff : Accepts tokens source filename ↔
    ∃ front program, front <+: tokens ∧ DerivesProgram front program
  unique : ∀ front program front' program', front <+: tokens → DerivesProgram front program →
    front' <+: tokens → DerivesProgram front' program' → front' = front ∧ program' = program
  returned : ∀ front program, front <+: tokens → DerivesProgram front program →
    ((ofTokens tokens source filename).parse).1 = .ok ⟨program, tokens.length - front.length⟩
  position : ∀ front program, front <+: tokens → DerivesProgram front program →
    ((ofTokens tokens source filename).parse).2.position = front.length
  blind : ∀ front program, front <+: tokens → DerivesProgram front program →
    ∀ later source' filename', ∃ ignored,
      ((ofTokens (front ++ later) source' filename').parse).1 = .ok ⟨program, ignored⟩
  otherwise : (¬∃ front program, front <+: tokens ∧ DerivesProgram front program) →
    ∃ message location expected found, ((ofTokens tokens source filename).parse).1 =
      .error (.source (.strayToken message location expected found))

/-- Soundness, completeness and unambiguity of the parser, for tokens whose numerals have finite
values. -/
theorem parse_exact (tokens : List Token) (source filename : String)
    (noEnd : ∀ token ∈ tokens, token.kind ≠ .endOfFile) (finite : FiniteNumerals tokens) :
    IsExact tokens source filename := by
  have returns : ∀ front program rest, front ++ rest = tokens → DerivesProgram front program →
      (ofTokens tokens source filename).parse =
        (.ok ⟨program, tokens.length - front.length⟩,
          { ofTokens tokens source filename with position := front.length }) := by
    rintro front program rest rfl derives
    rw [parse_of_done source filename (readProgram_of_derives derives rest)]
    have ends : ∀ token ∈ rest, token.kind ≠ .endOfFile := by
      intro token inside
      exact noEnd token (List.mem_append_right front inside)
    simp only [current_kind source filename ends, List.length_append, Nat.add_sub_cancel,
      Nat.add_sub_cancel_left]
    split <;> simp_all
  refine ⟨accepts_iff source filename, ?_, ?_, ?_, ?_, ?_⟩
  · intro front program front' program' begins derives begins' derives'
    exact derives.unique begins derives' begins'
  · rintro front program ⟨rest, split⟩ derives
    rw [returns front program rest split derives]
  · rintro front program ⟨rest, split⟩ derives
    rw [returns front program rest split derives]
  · intro front program begins derives later source' filename'
    have read := readProgram_of_derives derives later
    exact ⟨_, congrArg Prod.fst (parse_of_done source' filename' read)⟩
  · intro nothing
    cases reading : readProgram tokens with
    | done program rest =>
        rcases readProgram_eq_done_iff.mp reading with ⟨front, rfl, derives⟩
        exact absurd ⟨front, program, List.prefix_append front rest, derives⟩ nothing
    | stuck fault rest =>
        rcases readProgram_eq_stuck_iff.mp reading with ⟨front, rfl, halts⟩
        have early : FiniteNumerals front := by
          intro token inside
          exact finite token (List.mem_append_left rest inside)
        rcases halts.fault_of_finite early with ⟨wanted, rfl⟩
        rw [parse_of_stuck source filename reading]
        exact ⟨_, _, _, _, rfl⟩

/-- A text and a rainbow in a frame, and a token behind the program. Both texts lose their quotation marks,
the colour keeps them, and fractions of counts are cut off. -/
theorem parse_exact_nested :
    ∃ tokens : List Token, tokens.map Token.text =
        ["scene", "\x7b", "frame", "\x7b", "text", "\"Hi\"", "at", "(", "1", ",", "2.5", ")", "size", "3.7",
          "color", "\"red\"", ";", "rainbow", "\"Ho\"", "at", "(", "1", ",", "2.5", ")", "for", "3.7", ";",
          "\x7d", "\x7d", ";"] ∧
      (∀ token ∈ tokens, token.kind ≠ .endOfFile) ∧ FiniteNumerals tokens ∧
      IsExact tokens "" inputName ∧
      ((ofTokens tokens "" inputName).parse).1 = .ok ⟨⟨[.frame
        [.draw (.text "Hi" (.finite 1) (.finite (5 / 2)) 3 "\"red\"") none,
          .rainbow "Ho" (.finite 1) (.finite (5 / 2)) 3 none] none], none⟩, 1⟩ := by
  let word (text : String) : Token := ⟨.identifier, text, none⟩
  let string (text : String) : Token := ⟨.string, text, none⟩
  let numeral (text : String) : Token := ⟨.number, text, none⟩
  let point : List Token :=
    [⟨.leftParen, "(", none⟩, numeral "1", ⟨.comma, ",", none⟩, numeral "2.5", ⟨.rightParen, ")", none⟩]
  let stop : Token := ⟨.semicolon, ";", none⟩
  let opening : Token := ⟨.leftBrace, "\x7b", none⟩
  let closing : Token := ⟨.rightBrace, "\x7d", none⟩
  let text : List Token := word "text" :: string "\"Hi\"" :: word "at" :: point ++
    [word "size", numeral "3.7", word "color", string "\"red\"", stop]
  let rainbow : List Token := word "rainbow" :: string "\"Ho\"" :: word "at" :: point ++
    [word "for", numeral "3.7", stop]
  let frame : List Token := word "frame" :: opening :: (text ++ (rainbow ++ [])) ++ [closing]
  let front : List Token := word "scene" :: opening :: (frame ++ []) ++ [closing]
  have isPoint : DerivesPoint point (.finite 1) (.finite (5 / 2)) :=
    .point rfl ⟨rfl, by decide +kernel⟩ rfl ⟨rfl, by decide +kernel⟩ rfl
  have isCount : (numeral "3.7").HasCount 3 :=
    ⟨.round (37 / 10), ⟨rfl, by decide +kernel⟩, by decide +kernel⟩
  have isText : DerivesPlain text (.draw (.text "Hi" (.finite 1) (.finite (5 / 2)) 3 "\"red\"") none) :=
    .text ⟨rfl, rfl⟩ (Token.hasContent_iff.mpr ⟨rfl, by decide⟩) rfl isPoint rfl isCount rfl rfl rfl
  have isRainbow : DerivesPlain rainbow (.rainbow "Ho" (.finite 1) (.finite (5 / 2)) 3 none) :=
    .rainbow ⟨rfl, rfl⟩ (Token.hasContent_iff.mpr ⟨rfl, by decide⟩) rfl isPoint rfl isCount rfl
  have isFrame : DerivesCommand frame (.frame _ none) :=
    .frame ⟨rfl, rfl⟩ rfl (.some (.plain isText) (.some (.plain isRainbow) .none)) rfl
  have derives : DerivesProgram front _ := .program rfl rfl (.some isFrame .none) rfl
  have noEnd : ∀ token ∈ front ++ [stop], token.kind ≠ .endOfFile := by decide
  have finite : FiniteNumerals (front ++ [stop]) := by
    intro token inside isNumber
    have written : ∀ token ∈ front ++ [stop], token.kind = .number →
        token.text = "1" ∨ token.text = "2.5" ∨ token.text = "3.7" := by decide
    have whole : IsNumeral ['1'] := .whole ⟨by simp, by simp⟩
    have half : IsNumeral (['2'] ++ '.' :: ['5']) := .decimal ⟨by simp, by simp⟩ ⟨by simp, by simp⟩
    have other : IsNumeral (['3'] ++ '.' :: ['7']) := .decimal ⟨by simp, by simp⟩ ⟨by simp, by simp⟩
    rcases written token inside isNumber with isText | isText | isText
    · exact ⟨by rw [isText]; exact whole, 1, by rw [isText]; decide +kernel⟩
    · exact ⟨by rw [isText]; exact half, 5 / 2, by rw [isText]; decide +kernel⟩
    · exact ⟨by rw [isText]; exact other, Binary64.nearest (37 / 10), by rw [isText]; decide +kernel⟩
  have isExact := parse_exact (front ++ [stop]) "" inputName noEnd finite
  exact ⟨front ++ [stop], rfl, noEnd, finite, isExact,
    isExact.returned front _ (List.prefix_append front [stop]) derives⟩

end Parser

end TermScene
