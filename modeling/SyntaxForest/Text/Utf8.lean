import SyntaxForest.Text.Quoted

/-!
Reading bytes as UTF-8.

A character takes one to four bytes; the first tells how many. The others lie between `80` and `BF`,
the second one within narrower limits after a few first bytes, so that every character has one
spelling and halves of characters have none. Bytes that spell no text are refused with the place of
the first bad ones.
-/

namespace SyntaxForest.Text.Utf8

open SyntaxForest.Text

/-- Why bytes are refused. -/
inductive Reason where
  | invalidStart
  | invalidContinuation
  | unexpectedEnd
deriving DecidableEq, Repr

def Reason.text : Reason → String
  | invalidStart => "invalid start byte"
  | invalidContinuation => "invalid continuation byte"
  | unexpectedEnd => "unexpected end of data"

/-- Bad bytes: the place of the first, how many they are, and the first itself. -/
structure Flaw where
  position : Nat
  length : Nat
  byte : UInt8
  reason : Reason
deriving DecidableEq, Repr

/-- The flaw in words. -/
def Flaw.message (f : Flaw) : String :=
  let place :=
    if f.length = 1 then
      "byte 0x" ++ String.ofList (hexDigits 2 f.byte.toNat) ++ s!" in position {f.position}"
    else s!"bytes in position {f.position}-{f.position + f.length - 1}"
  "'utf-8' codec can't decode " ++ place ++ ": " ++ f.reason.text

/-- How many bytes follow a first byte; nothing for a byte that no character begins with. -/
def following? (first : Nat) : Option Nat :=
  if first < 0x80 then some 0
  else if first < 0xC2 then none
  else if first < 0xE0 then some 1
  else if first < 0xF0 then some 2
  else if first < 0xF5 then some 3
  else none

/-- The least and the greatest second byte after a first byte. -/
def secondLimits (first : Nat) : Nat × Nat :=
  if first = 0xE0 then (0xA0, 0xBF)
  else if first = 0xED then (0x80, 0x9F)
  else if first = 0xF0 then (0x90, 0xBF)
  else if first = 0xF4 then (0x80, 0x8F)
  else (0x80, 0xBF)

/-- The bits that a first byte gives to a character of `count` further bytes. -/
def firstBits (first count : Nat) : Nat :=
  if count = 0 then first
  else if count = 1 then first - 0xC0
  else if count = 2 then first - 0xE0
  else first - 0xF0

/-- Takes `count` further bytes, the next one within limits, onto the bits so far. On refusal it
tells how many bytes were taken and whether the data ended. -/
def takeBytes (limits : Nat × Nat) (bits taken : Nat) :
    Nat → List UInt8 → Except (Nat × Bool) (Nat × List UInt8)
  | 0, bytes => .ok (bits, bytes)
  | _ + 1, [] => .error (taken, true)
  | count + 1, b :: rest =>
    if limits.1 ≤ b.toNat && b.toNat ≤ limits.2 then
      takeBytes (0x80, 0xBF) (bits * 64 + (b.toNat - 0x80)) (taken + 1) count rest
    else .error (taken, false)

/-- Decodes bytes, the first of which stands at `position`; at most `fuel` characters. -/
def decodeFrom (position : Nat) : Nat → List UInt8 → Except Flaw (List Char)
  | 0, _ => .ok []
  | _, [] => .ok []
  | fuel + 1, b :: rest =>
    match following? b.toNat with
    | none => .error ⟨position, 1, b, .invalidStart⟩
    | some count =>
      match takeBytes (secondLimits b.toNat) (firstBits b.toNat count) 1 count rest with
      | .error (taken, isEnd) =>
        .error ⟨position, taken, b, if isEnd then .unexpectedEnd else .invalidContinuation⟩
      | .ok (code, after) => do
        return Char.ofNat code :: (← decodeFrom (position + count + 1) fuel after)

/-- The text that bytes spell. -/
def decode (bytes : List UInt8) : Except Flaw (List Char) := decodeFrom 0 bytes.length bytes

example : decode [0xC3, 0xA9, 0x41] = .ok ['é', 'A'] := rfl

example : decode [0x41, 0xE2, 0x82] = .error ⟨1, 2, 0xE2, .unexpectedEnd⟩ := rfl

end SyntaxForest.Text.Utf8
