/-!
Bytes as text.

`utf8?` accepts the bytes of a text and nothing else. `utf8Lossy` reads any bytes: where a character
breaks off, what is there of it becomes one replacement character. It works byte for byte, with the
character that has begun as its state.
-/

namespace ParamSweep.Text

/-- The text that bytes are the encoding of. -/
def utf8? (bytes : ByteArray) : Option String := String.fromUTF8? bytes

/-- What stands for bytes that are no character. -/
def replacement : Char := '\uFFFD'

/-- A character of which some bytes are still to come; the next one lies from `low` to `high`. -/
structure Unfinished where
  code : Nat
  missing : Nat
  low : UInt8 := 0x80
  high : UInt8 := 0xBF
  deriving DecidableEq, Inhabited

/-- The effect of the first byte of a character. -/
def firstByte (b : UInt8) : List Char × Option Unfinished :=
  let n := b.toNat
  if n < 0x80 then ([Char.ofNat n], none)
  else if n < 0xC2 then ([replacement], none)
  else if n < 0xE0 then ([], some { code := n - 0xC0, missing := 1 })
  else if n = 0xE0 then ([], some { code := 0, missing := 2, low := 0xA0 })
  else if n = 0xED then ([], some { code := 13, missing := 2, high := 0x9F })
  else if n < 0xF0 then ([], some { code := n - 0xE0, missing := 2 })
  else if n = 0xF0 then ([], some { code := 0, missing := 3, low := 0x90 })
  else if n < 0xF4 then ([], some { code := n - 0xF0, missing := 3 })
  else if n = 0xF4 then ([], some { code := 4, missing := 3, high := 0x8F })
  else ([replacement], none)

/-- The effect of a byte: the characters that it ends and the one that is unfinished after it. -/
def nextByte (b : UInt8) : Option Unfinished → List Char × Option Unfinished
  | none => firstByte b
  | some u =>
    if u.low ≤ b && b ≤ u.high then
      let code := u.code * 64 + (b.toNat - 0x80)
      if u.missing ≤ 1 then ([Char.ofNat code], none)
      else ([], some { code := code, missing := u.missing - 1 })
    else
      let (cs, u') := firstByte b
      (replacement :: cs, u')

/-- The characters of bytes that continue an unfinished one. -/
def lossyFrom : Option Unfinished → List UInt8 → List Char
  | none, [] => []
  | some _, [] => [replacement]
  | u, b :: rest =>
    let (cs, u') := nextByte b u
    cs ++ lossyFrom u' rest

/-- The text of any bytes. -/
def utf8Lossy (bytes : ByteArray) : String :=
  String.ofList (lossyFrom none bytes.data.toList)

end ParamSweep.Text
