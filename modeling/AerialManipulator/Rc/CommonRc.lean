/-
What the decoders for remote control receivers share: a checksum, the signal strength in percent,
and the scaling of the channels.

Numbers of type `float` are natural numbers, of which a fixed number of binary digits is behind the
point; every operation is rounded to 24 digits.
-/
import AerialManipulator.Lib.ByteStore

namespace CommonRc

def crc8DvbS2 (crc a : UInt8) : UInt8 :=
  (List.range 8).foldl (fun crc _ => if crc &&& 0x80 ≠ 0 then (crc <<< 1) ^^^ 0xd5 else crc <<< 1)
    (crc ^^^ a)

/-- `lu_dbm_percent`; behind the last entry there are only zeros. -/
def luDbmPercent : List ℤ := [
  100, 100, 100, 100, 100, 100, 100, 100, 100, 100, 100, 100, 100, 100, 100, 100,
  100, 100, 100, 100, 100, 100, 100, 100, 100, 100, 100, 100, 100, 100, 100, 100,
  100, 100, 100, 100, 100, 100, 100, 100, 100, 100, 100, 99, 98, 98, 97, 96,
  95, 94, 93, 92, 91, 90, 89, 88, 87, 86, 85, 84, 83, 82, 81, 79,
  78, 77, 75, 74, 73, 71, 70, 68, 66, 65, 63, 61, 59, 57, 55, 52,
  50, 47, 45, 42, 39, 35, 32, 28, 24, 19, 13, 7, 0]

def spekDbmToPercent (dbm : Int8) : ℤ := luDbmPercent.getD dbm.toInt.natAbs 0

/-- A number rounded to 24 binary digits, to the even one of two that are as near. -/
def roundToFloat (n : ℕ) : ℕ :=
  let k := n.log2 - 23
  let q := n >>> k
  let r := n % 2 ^ k
  if 2 * r < 2 ^ k ∨ 2 * r = 2 ^ k ∧ q % 2 = 0 then q <<< k else (q + 1) <<< k

/-- `(2012.f - 988.f) / (1811.f - 172.f)`, with 24 digits behind the point. -/
def scale : ℕ := 10481921

/-- `988.f - 172.f * scale`. -/
def scaleOffset : ℕ := 14772999168

/-- `convert_channel_value`, which is the same in both decoders that have it. -/
def convertChannelValue (chan_value : ℕ) : ℕ :=
  roundToFloat (roundToFloat (scale * chan_value) + scaleOffset) / 2 ^ 24

end CommonRc
