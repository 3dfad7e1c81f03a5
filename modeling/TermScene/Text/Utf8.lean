import TermScene.Text.Quoted

/-!
# UTF-8

Decoding of octets to characters. The first octet of a character fixes how many follow and the range
of each; a fault covers the octets that could still have begun a character.
-/

namespace TermScene

namespace Utf8

/-- Why octets are no character. -/
inductive Reason where
  | invalidStart
  | invalidContinuation
  | unexpectedEnd
  deriving DecidableEq, Repr

/-- Octets that are no character, and where they stand. -/
structure Fault where
  offset : Nat
  octets : List UInt8
  reason : Reason
  deriving DecidableEq, Repr

/-- What a first octet promises: the bits it carries and the range of each octet that follows. -/
def following? (first : Nat) : Option (Nat × List (Nat × Nat)) :=
  let any : Nat × Nat := (0x80, 0xbf)
  if first < 0x80 then some (first, [])
  else if 0xc2 ≤ first ∧ first ≤ 0xdf then some (first - 0xc0, [any])
  else if first = 0xe0 then some (0, [(0xa0, 0xbf), any])
  else if first = 0xed then some (0xd, [(0x80, 0x9f), any])
  else if 0xe1 ≤ first ∧ first ≤ 0xef then some (first - 0xe0, [any, any])
  else if first = 0xf0 then some (0, [(0x90, 0xbf), any, any])
  else if 0xf1 ≤ first ∧ first ≤ 0xf3 then some (first - 0xf0, [any, any, any])
  else if first = 0xf4 then some (4, [(0x80, 0x8f), any, any])
  else none

/-- Reads the octets that follow a first one: the code point and the rest, or how many octets fit
their ranges and why the next does not. -/
def follow (bits : Nat) : List (Nat × Nat) → List UInt8 → Except (Nat × Reason) (Nat × List UInt8)
  | [], rest => .ok (bits, rest)
  | _ :: _, [] => .error (0, .unexpectedEnd)
  | (low, high) :: ranges, octet :: rest =>
      if low ≤ octet.toNat ∧ octet.toNat ≤ high then
        match follow (bits * 64 + (octet.toNat - 0x80)) ranges rest with
        | .ok decoded => .ok decoded
        | .error (count, reason) => .error (count + 1, reason)
      else .error (0, .invalidContinuation)

theorem follow_length {bits point : Nat} {ranges : List (Nat × Nat)} {octets rest : List UInt8}
    (read : follow bits ranges octets = .ok (point, rest)) : rest.length ≤ octets.length := by
  induction ranges generalizing bits octets with
  | nil =>
      simp only [follow, Except.ok.injEq, Prod.mk.injEq] at read
      simp [read.2]
  | cons range ranges ih =>
      cases octets with
      | nil => simp [follow] at read
      | cons octet later =>
          simp only [follow] at read
          split at read
          · split at read
            · rename_i decoded tail
              simp only [Except.ok.injEq] at read
              subst read
              exact Nat.le_succ_of_le (ih tail)
            · simp at read
          · simp at read

/-- Decodes octets, the first of which stands at `offset`. -/
def decodeFrom (offset : Nat) (octets : List UInt8) : Except Fault (List Char) :=
  match octets with
  | [] => .ok []
  | first :: later =>
      match following? first.toNat with
      | none => .error ⟨offset, [first], .invalidStart⟩
      | some (bits, ranges) =>
          match _read : follow bits ranges later with
          | .error (count, reason) => .error ⟨offset, first :: later.take count, reason⟩
          | .ok (point, rest) =>
              (decodeFrom (offset + (later.length + 1 - rest.length)) rest).map
                (Char.ofNat point :: ·)
  termination_by octets.length
  decreasing_by
    have := follow_length _read
    simp only [List.length_cons]
    omega

def decode (octets : List UInt8) : Except Fault String :=
  (decodeFrom 0 octets).map String.ofList

/-- The characters that octets encode, where a replacement character stands for every fault. -/
def decodeReplacing (octets : List UInt8) : List Char :=
  match octets with
  | [] => []
  | first :: later =>
      match following? first.toNat with
      | none => '\ufffd' :: decodeReplacing later
      | some (bits, ranges) =>
          match _read : follow bits ranges later with
          | .error (count, _) => '\ufffd' :: decodeReplacing (later.drop count)
          | .ok (point, rest) => Char.ofNat point :: decodeReplacing rest
  termination_by octets.length
  decreasing_by
    · simp
    · simp only [List.length_drop, List.length_cons]
      omega
    · have := follow_length _read
      simp only [List.length_cons]
      omega

def Reason.message : Reason → String
  | .invalidStart => "invalid start byte"
  | .invalidContinuation => "invalid continuation byte"
  | .unexpectedEnd => "unexpected end of data"

def Fault.message (fault : Fault) : String :=
  let place :=
    match fault.octets with
    | [octet] =>
        "byte 0x" ++ String.ofList (hexDigits 2 octet.toNat) ++ " in position "
          ++ toString fault.offset
    | octets =>
        "bytes in position " ++ toString fault.offset ++ "-"
          ++ toString (fault.offset + octets.length - 1)
  "'utf-8' codec can't decode " ++ place ++ ": " ++ fault.reason.message

end Utf8

end TermScene
