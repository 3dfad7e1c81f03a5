import Mathlib.Algebra.Group.Nat.Even
import TermScene.Editor.Completion
import TermScene.Proofs.Editor.Line

/-!
# Quotes and strings

Inside a string the colours are offered for completion. An editor takes a place to be inside a string if
the quotes before it on its line are odd in number; the tokens of a program know better, since a string
may go on over several lines and a comment may hold a quote. Every token but a string has no quotes and a
string has one at each of its ends, so the quotes of strings before an offset are odd in number exactly if
the offset is inside a string. The editor is therefore right exactly if its line begins inside a string
just when the quotes before the place that belong to no string are odd in number.
-/

namespace TermScene

/-- Whether the character at an offset belongs to a string. -/
def belongsToString (tokens : List Token) (offset : ℕ) : Bool :=
  tokens.any fun token =>
    token.kind == .string && (decide (token.start ≤ offset) && decide (offset < token.stop))

/-- An offset between the opening quote of a string and the closing one. -/
def InsideString (tokens : List Token) (offset : ℕ) : Prop :=
  ∃ token ∈ tokens, token.kind = .string ∧ token.start < offset ∧ offset < token.stop

instance {tokens : List Token} : DecidablePred (InsideString tokens) := fun offset =>
  inferInstanceAs
    (Decidable (∃ token ∈ tokens, token.kind = .string ∧ token.start < offset ∧ offset < token.stop))

/-- The quotes of strings among characters that stand from an offset on. -/
def stringQuotes (tokens : List Token) (first : ℕ) (chars : List Char) : ℕ :=
  (chars.zipIdx first).countP fun (char, offset) => char == '"' && belongsToString tokens offset

/-- The quotes among characters that stand from an offset on which belong to no string. -/
def strayQuotes (tokens : List Token) (first : ℕ) (chars : List Char) : ℕ :=
  (chars.zipIdx first).countP fun (char, offset) => char == '"' && !belongsToString tokens offset

section Quotes

variable {tokens : List Token} {first : ℕ} {chars later : List Char}

theorem count_eq_stringQuotes_add (tokens : List Token) (first : ℕ) (chars : List Char) :
    chars.count '"' = stringQuotes tokens first chars + strayQuotes tokens first chars := by
  induction chars generalizing first with
  | nil => rfl
  | cons char rest ih =>
      have isLater := ih (first + 1)
      simp only [stringQuotes, strayQuotes] at isLater ⊢
      rw [List.zipIdx_cons, List.countP_cons, List.countP_cons, List.count_cons, isLater]
      cases char == '"' <;> cases belongsToString tokens first <;> simp <;> omega

theorem stringQuotes_append :
    stringQuotes tokens first (chars ++ later) =
      stringQuotes tokens first chars + stringQuotes tokens (first + chars.length) later := by
  simp [stringQuotes, List.zipIdx_append]

theorem stringQuotes_congr {others : List Token}
    (same : ∀ index < chars.length,
      belongsToString tokens (first + index) = belongsToString others (first + index)) :
    stringQuotes tokens first chars = stringQuotes others first chars := by
  apply List.countP_congr
  rintro ⟨char, offset⟩ inside
  have bounds := List.mem_zipIdx inside
  have isSame := same (offset - first) (by omega)
  rw [Nat.add_sub_cancel' bounds.1] at isSame
  simp only [isSame]

theorem stringQuotes_eq_zero
    (none : ∀ index < chars.length, belongsToString tokens (first + index) = false) :
    stringQuotes tokens first chars = 0 := by
  rw [@stringQuotes_congr tokens first chars [] none]
  simp [stringQuotes, belongsToString]

theorem stringQuotes_eq_count
    (all : ∀ index < chars.length, belongsToString tokens (first + index) = true) :
    stringQuotes tokens first chars = chars.count '"' := by
  have noStray : strayQuotes tokens first chars = 0 := by
    rw [strayQuotes, List.countP_eq_zero]
    rintro ⟨char, offset⟩ inside
    have bounds := List.mem_zipIdx inside
    have belongs := all (offset - first) (by omega)
    rw [Nat.add_sub_cancel' bounds.1] at belongs
    simp [belongs]
  rw [count_eq_stringQuotes_add tokens first, noStray, Nat.add_zero]

theorem stringQuotes_eq_zero_of_not_mem (noQuote : '"' ∉ chars) : stringQuotes tokens first chars = 0 := by
  have split := count_eq_stringQuotes_add tokens first chars
  rw [List.count_eq_zero.mpr noQuote] at split
  omega

end Quotes

/-- A front of a string holds one quote, and the whole string two. -/
theorem count_take_string {body : List Char} (closed : '"' ∉ body) {size : ℕ} (positive : 0 < size) :
    (('"' :: body ++ ['"']).take size).count '"' = if size < body.length + 2 then 1 else 2 := by
  obtain ⟨size, rfl⟩ := Nat.exists_eq_add_one.mpr positive
  have noQuote : (body.take size).count '"' = 0 :=
    List.count_eq_zero.mpr fun inside => closed (List.mem_of_mem_take inside)
  rw [List.cons_append, List.take_succ_cons, List.take_append, List.count_cons_self, List.count_append,
    noQuote]
  split
  · rw [Nat.sub_eq_zero_of_le (by omega)]
    rfl
  · obtain ⟨more, isMore⟩ := Nat.exists_eq_add_one.mpr (show 0 < size - body.length by omega)
    rw [isMore]
    simp

section Tokens

variable {token : Token} {tokens : List Token} {offset : ℕ}

theorem belongsToString_cons_of_past (past : token.stop ≤ offset) :
    belongsToString (token :: tokens) offset = belongsToString tokens offset := by
  simp [belongsToString, past]

theorem belongsToString_of_before (before : ∀ token ∈ tokens, offset < token.start) :
    belongsToString tokens offset = false := by
  simp only [belongsToString, List.any_eq_false, Bool.and_eq_true, decide_eq_true_eq, not_and]
  intro token inside _ starts
  have := before token inside
  omega

theorem stringQuotes_of_before {first : ℕ} {chars : List Char}
    (before : ∀ token ∈ tokens, first + chars.length ≤ token.start) :
    stringQuotes tokens first chars = 0 := by
  refine stringQuotes_eq_zero fun index isIndex => belongsToString_of_before fun token inside => ?_
  have := before token inside
  omega

theorem stringQuotes_cons_of_past {first : ℕ} {chars : List Char} (past : token.stop ≤ first) :
    stringQuotes (token :: tokens) first chars = stringQuotes tokens first chars :=
  stringQuotes_congr fun _ _ => belongsToString_cons_of_past (by omega)

theorem insideString_cons_of_past (past : token.stop ≤ offset) :
    InsideString (token :: tokens) offset ↔ InsideString tokens offset := by
  simp only [InsideString, List.mem_cons, exists_eq_or_imp, or_iff_right_iff_imp]
  rintro ⟨-, -, inside⟩
  omega

theorem insideString_cons_of_le (after : ∀ later ∈ tokens, token.stop ≤ later.start)
    (before : offset ≤ token.stop) :
    InsideString (token :: tokens) offset ↔
      token.kind = .string ∧ token.start < offset ∧ offset < token.stop := by
  simp only [InsideString, List.mem_cons, exists_eq_or_imp, or_iff_left_iff_imp]
  rintro ⟨later, isLater, -, starts, -⟩
  have := after later isLater
  omega

/-- The quotes in a front of a token: none but for a string, which has one at each end. -/
theorem stringQuotes_take_token (lexeme : token.IsLexeme) {size : ℕ} (positive : 0 < size) :
    stringQuotes (token :: tokens) token.start (token.text.toList.take size) =
      if token.kind = .string then if size < token.text.length then 1 else 2 else 0 := by
  rcases lexeme with ⟨kept, full⟩
  split
  · rename_i isString
    rw [stringQuotes_eq_count]
    · rw [isString] at full
      rw [← String.length_toList]
      generalize token.text.toList = chars at full
      cases full with
      | string closed =>
          rw [count_take_string closed positive, List.length_append, List.length_cons]
          rfl
    · intro index isIndex
      have isShort := isIndex.trans_le (List.length_take_le' _ _)
      rw [String.length_toList] at isShort
      simp [belongsToString, isString, Token.stop, isShort]
  · rename_i other
    refine stringQuotes_eq_zero_of_not_mem fun inside => ?_
    exact (full.visible kept.1 other _ (List.mem_of_mem_take inside)).2 rfl

end Tokens

/-- Before an offset the quotes of strings are odd in number exactly if the offset is inside a string. -/
theorem Tiled.odd_stringQuotes_iff {filename : Option String} {before chars : List Char}
    {tokens : List Token} (tiled : Tiled filename before chars tokens) {size : ℕ}
    (inside : size ≤ chars.length) :
    Odd (stringQuotes tokens before.length (chars.take size)) ↔
      InsideString tokens (before.length + size) := by
  induction tiled generalizing size with
  | spacing isSpacing => simp [stringQuotes, belongsToString, InsideString]
  | @token before gap chars rest kind tokens isSpacing kept full more ih =>
      let token : Token := ⟨kind, String.ofList chars, some (placeAfter (before ++ gap) filename)⟩
      change Odd (stringQuotes (token :: tokens) _ _) ↔ InsideString (token :: tokens) _
      have start : token.start = before.length + gap.length := by simp [token]
      have stop : token.stop = before.length + gap.length + chars.length := by simp [token]
      have after : ∀ later ∈ tokens, token.stop ≤ later.start := by
        simpa [stop, Nat.add_assoc] using more.start_ge
      have lexeme : token.IsLexeme := ⟨kept, by simpa [token] using full⟩
      have inGap (part : List Char) (short : part.length ≤ gap.length) :
          stringQuotes (token :: tokens) before.length part = 0 := by
        refine stringQuotes_of_before (List.forall_mem_cons.mpr ⟨by omega, fun later isLater => ?_⟩)
        have := after later isLater
        omega
      have inFront {size : ℕ} (positive : 0 < size) :
          stringQuotes (token :: tokens) token.start (chars.take size) =
            if kind = .string then if size < chars.length then 1 else 2 else 0 := by
        simpa [token] using @stringQuotes_take_token token tokens lexeme size positive
      rcases Nat.lt_or_ge gap.length size with long | short
      · obtain ⟨size, rfl⟩ := Nat.exists_eq_add_of_le long.le
        have positive : 0 < size := by omega
        rw [List.append_assoc, List.take_length_add_append, stringQuotes_append, inGap gap le_rfl,
          Nat.zero_add, ← start]
        rcases Nat.lt_or_ge size chars.length with short | past
        · -- The offset is inside the token, which has its first quote before it.
          rw [List.take_append_of_le_length short.le, inFront positive,
            insideString_cons_of_le after (by omega)]
          by_cases isString : kind = .string
          · rw [if_pos isString, if_pos short]
            exact iff_of_true odd_one ⟨isString, by omega, by omega⟩
          · rw [if_neg isString]
            exact iff_of_false (by decide) fun inString => isString inString.1
        · -- The token is over, with none of its quotes or both before the offset.
          obtain ⟨size, rfl⟩ := Nat.exists_eq_add_of_le past
          have isLater := @ih size (by simpa [Nat.add_assoc] using inside)
          have whole := @inFront chars.length (List.length_pos_iff.mpr full.ne_nil)
          rw [List.take_length, if_neg (Nat.lt_irrefl _)] at whole
          have even : Even (stringQuotes (token :: tokens) token.start chars) := by
            rw [whole]
            split <;> decide
          have past : stringQuotes (token :: tokens) (token.start + chars.length) (rest.take size) =
              stringQuotes tokens (before ++ gap ++ chars).length (rest.take size) := by
            rw [stringQuotes_cons_of_past (by omega)]
            simp [start, Nat.add_assoc]
          have place : before.length + (gap.length + (chars.length + size)) =
              (before ++ gap ++ chars).length + size := by
            simp [Nat.add_assoc]
          rw [List.take_length_add_append, stringQuotes_append, past, Nat.odd_add', iff_true_right even,
            isLater, place, insideString_cons_of_past (by simp [stop, Nat.add_assoc])]
      · -- Nothing but spacing comes before the offset.
        rw [List.append_assoc, List.take_append_of_le_length short, inGap _ (by simp),
          insideString_cons_of_le after (by omega)]
        simp only [Nat.not_odd_zero, false_iff]
        omega

theorem odd_add_iff_odd_iff (front line stray : ℕ) :
    Odd (line + stray) ↔ (Odd (front + line) ↔ (Odd front ↔ Odd stray)) := by
  simp only [Nat.odd_add, ← Nat.not_odd_iff_even]
  tauto

/-- The quotes before a place on its line tell whether it is inside a string: the line begins inside a
string exactly if those quotes on it that belong to no string are odd in number. -/
def QuotesTell (tokens : List Token) (before : List Char) : Prop :=
  InsideString tokens (lineStart before) ↔
    Odd (strayQuotes tokens (lineStart before) (lineSoFar before))

namespace Editor

/-- Where the quotes on its line tell whether a place is inside a string, the colours are offered inside
of strings and the commands everywhere else. Where they do not, it is the other way round. -/
theorem completions_eq {source : String} {filename : Option String} {tokens : List Token}
    (read : tokensOf source filename = .ok tokens) {offset : ℕ} (inside : offset ≤ source.toList.length)
    (breaks : BreaksAtNewlines source.toList offset) :
    let before := source.toList.take offset
    let offered := completions source (.after before)
    (QuotesTell tokens before →
      offered = if InsideString tokens offset then colorCompletions else commandCompletions) ∧
    (¬QuotesTell tokens before →
      offered = if InsideString tokens offset then commandCompletions else colorCompletions) := by
  intro before offered
  have tiled := tiled_of_tokensOf read
  have parts : before.rdropWhile (· ≠ '\n') ++ lineSoFar before = before :=
    rdropWhile_append_lineSoFar before
  have isFront : before.rdropWhile (· ≠ '\n') = source.toList.take (lineStart before) :=
    List.prefix_iff_eq_take.mp
      ((List.rdropWhile_prefix _ before).trans (List.take_prefix offset source.toList))
  have startInside : lineStart before ≤ source.toList.length := by
    have := congrArg List.length parts
    simp only [List.length_append, before, List.length_take] at this
    simp only [lineStart, before]
    omega
  have whole : stringQuotes tokens 0 before =
      stringQuotes tokens 0 (source.toList.take (lineStart before)) +
        stringQuotes tokens (lineStart before) (lineSoFar before) := by
    conv_lhs => rw [← parts]
    rw [stringQuotes_append, isFront, ← isFront, Nat.zero_add, lineStart]
  have atPlace : Odd (stringQuotes tokens 0 before) ↔ InsideString tokens offset := by
    simpa using tiled.odd_stringQuotes_iff inside
  have atStart : Odd (stringQuotes tokens 0 (source.toList.take (lineStart before))) ↔
      InsideString tokens (lineStart before) := by
    simpa using tiled.odd_stringQuotes_iff startInside
  have colors : insideString source (.after before) = true ↔
      (InsideString tokens offset ↔ QuotesTell tokens before) := by
    rw [insideString_after_iff, count_take_lineOf breaks inside,
      count_eq_stringQuotes_add tokens (lineStart before), QuotesTell, ← atPlace, ← atStart, whole]
    exact odd_add_iff_odd_iff _ _ _
  constructor
  · intro tell
    rw [iff_true_right tell] at colors
    by_cases inString : InsideString tokens offset <;> simp [offered, completions, colors, inString]
  · intro tell
    rw [iff_false_right tell] at colors
    by_cases inString : InsideString tokens offset <;> simp [offered, completions, colors, inString]

/-- The commands are offered on the second line of a string. -/
theorem completions_second_line :
    ∃ tokens,
      tokensOf "x \"\nred\"" none = .ok tokens ∧
        Position.after ("x \"\nred\"".toList.take 5) = ⟨1, 1⟩ ∧ InsideString tokens 5 ∧
        completions "x \"\nred\"" ⟨1, 1⟩ = commandCompletions ∧
        commandCompletions ≠ colorCompletions := by
  let tokens : List Token :=
    [⟨.identifier, "x", some ⟨1, 1, 0, none⟩⟩, ⟨.string, "\"\nred\"", some ⟨1, 3, 2, none⟩⟩]
  have read : tokensOf "x \"\nred\"" none = .ok tokens := by decide +kernel
  refine ⟨tokens, read, by decide +kernel, by decide, ?_, by decide⟩
  rw [completions, show insideString "x \"\nred\"" ⟨1, 1⟩ = false by decide +kernel]
  rfl

/-- A string within the second line, where the first line ends with a carriage return. -/
theorem completions_eq_return :
    ∃ tokens,
      tokensOf "x\r\n\"red\"" none = .ok tokens ∧ 5 ≤ "x\r\n\"red\"".toList.length ∧
        BreaksAtNewlines "x\r\n\"red\"".toList 5 ∧
        QuotesTell tokens ("x\r\n\"red\"".toList.take 5) ∧
        completions "x\r\n\"red\"" (.after ("x\r\n\"red\"".toList.take 5)) = colorCompletions := by
  let tokens : List Token :=
    [⟨.identifier, "x", some ⟨1, 1, 0, none⟩⟩, ⟨.string, "\"red\"", some ⟨2, 1, 3, none⟩⟩]
  have read : tokensOf "x\r\n\"red\"" none = .ok tokens := by decide +kernel
  have breaks : BreaksAtNewlines "x\r\n\"red\"".toList 5 := by decide
  have inside : 5 ≤ "x\r\n\"red\"".toList.length := by decide
  have tell : QuotesTell tokens ("x\r\n\"red\"".toList.take 5) := by
    rw [QuotesTell]
    decide +kernel
  exact ⟨tokens, read, inside, breaks, tell, (completions_eq read inside breaks).1 tell⟩

end Editor

end TermScene
