/-
# Percent-decoding

Path segments of requests are percent-decoded: `%` and two hexadecimal digits stand for a
byte, everything else for its own bytes, and the bytes together have to be UTF-8.
-/
import StagedRollout.Text.Number

namespace StagedRollout.Text

/-- The bytes that percent-encoded bytes stand for.  A percent sign without two hexadecimal
digits behind it stands for itself. -/
def percentDecodeBytes : List UInt8 → List UInt8
  | [] => []
  | b :: bs =>
    if b = 37 then
      match bs with
      | hi :: lo :: rest =>
        match hexValue (Char.ofNat hi.toNat), hexValue (Char.ofNat lo.toNat) with
        | some h, some l => UInt8.ofNat (h * 16 + l) :: percentDecodeBytes rest
        | _, _ => b :: percentDecodeBytes (hi :: lo :: rest)
      | bs => b :: percentDecodeBytes bs
    else b :: percentDecodeBytes bs
termination_by bs => bs.length

/-- The text that a path segment stands for, if its bytes are UTF-8. -/
def percentDecode (segment : String) : Option String :=
  String.fromUTF8? (ByteArray.mk (percentDecodeBytes segment.toUTF8.toList).toArray)

end StagedRollout.Text
