import TypedTables.Text.Quoted

/-!
UTF-8: the bytes of a text, the strict reading of bytes, and the lenient reading in which each
maximal broken sequence stands for one replacement character.
-/

namespace TypedTables.Text.Utf8

def encode (text : String) : List UInt8 :=
  text.toList.flatMap String.utf8EncodeChar

inductive Fault where
  | invalidStart
  | invalidContinuation
  | unexpectedEnd
  deriving DecidableEq, Repr

/-- What stands at the head of some bytes: a character or a fault, and how many bytes it takes
beyond the first. -/
structure Step where
  read : Except Fault Char
  more : Nat

/-- A character read from bytes, or the replacement of a broken sequence, and its size. -/
structure Glyph where
  char : Char
  width : Nat
  deriving DecidableEq, Repr

def replacement : Char := '\ufffd'

def isTail (b : UInt8) : Bool := 0x80 ≤ b && b ≤ 0xBF

def secondBounds (lead : UInt8) : UInt8 × UInt8 :=
  if lead == 0xE0 then (0xA0, 0xBF)
  else if lead == 0xED then (0x80, 0x9F)
  else if lead == 0xF0 then (0x90, 0xBF)
  else if lead == 0xF4 then (0x80, 0x8F)
  else (0x80, 0xBF)

def announced (lead : UInt8) : Option Nat :=
  if lead < 0x80 then some 0
  else if 0xC2 ≤ lead && lead ≤ 0xDF then some 1
  else if 0xE0 ≤ lead && lead ≤ 0xEF then some 2
  else if 0xF0 ≤ lead && lead ≤ 0xF4 then some 3
  else none

def leadBits (lead : UInt8) (n : Nat) : Nat :=
  match n with
  | 0 => lead.toNat
  | 1 => lead.toNat % 0x20
  | 2 => lead.toNat % 0x10
  | _ => lead.toNat % 0x08

def readTail (taken bits : Nat) : Nat → List UInt8 → Step
  | 0, _ => ⟨.ok (Char.ofNat bits), taken⟩
  | _ + 1, [] => ⟨.error .unexpectedEnd, taken⟩
  | n + 1, b :: bs =>
      if isTail b then readTail (taken + 1) (bits * 0x40 + b.toNat % 0x40) n bs
      else ⟨.error .invalidContinuation, taken⟩

def step (lead : UInt8) (rest : List UInt8) : Step :=
  match announced lead with
  | none => ⟨.error .invalidStart, 0⟩
  | some 0 => ⟨.ok (Char.ofNat lead.toNat), 0⟩
  | some (n + 1) =>
      match rest with
      | [] => ⟨.error .unexpectedEnd, 0⟩
      | b :: bs =>
          let (low, high) := secondBounds lead
          if low ≤ b && b ≤ high then
            readTail 1 (leadBits lead (n + 1) * 0x40 + b.toNat % 0x40) n bs
          else ⟨.error .invalidContinuation, 0⟩

/-- The lenient reading: one glyph per character and per maximal broken sequence. -/
def glyphs : List UInt8 → List Glyph
  | [] => []
  | lead :: rest =>
      let s := step lead rest
      let char := match s.read with
        | .ok c => c
        | .error _ => replacement
      ⟨char, s.more + 1⟩ :: glyphs (rest.drop s.more)
termination_by bytes => bytes.length
decreasing_by simp only [List.length_drop, List.length_cons]; omega

def decodeLenient (bytes : List UInt8) : String :=
  String.ofList ((glyphs bytes).map Glyph.char)

structure DecodeError where
  fault : Fault
  offset : Nat
  width : Nat
  lead : UInt8
  deriving DecidableEq, Repr

def decodeFrom (offset : Nat) : List UInt8 → Except DecodeError (List Char)
  | [] => .ok []
  | lead :: rest =>
      let s := step lead rest
      match s.read with
      | .error fault => .error ⟨fault, offset, s.more + 1, lead⟩
      | .ok c => (decodeFrom (offset + s.more + 1) (rest.drop s.more)).map (c :: ·)
termination_by bytes => bytes.length
decreasing_by simp only [List.length_drop, List.length_cons]; omega

/-- The strict reading: fails at the first broken sequence. -/
def decode (bytes : List UInt8) : Except DecodeError String :=
  (decodeFrom 0 bytes).map String.ofList

def Fault.message : Fault → String
  | .invalidStart => "invalid start byte"
  | .invalidContinuation => "invalid continuation byte"
  | .unexpectedEnd => "unexpected end of data"

def DecodeError.message (e : DecodeError) : String :=
  let place :=
    if e.width = 1 then
      s!"byte 0x{String.ofList (hexDigits 2 e.lead.toNat)} in position {e.offset}"
    else s!"bytes in position {e.offset}-{e.offset + e.width - 1}"
  s!"'utf-8' codec can't decode {place}: {e.fault.message}"

end TypedTables.Text.Utf8
