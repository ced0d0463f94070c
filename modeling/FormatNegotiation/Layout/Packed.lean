import FormatNegotiation.Layout.Basic

/-! Channel layouts packed into one 64-bit word, whose top bit marks a bare count. -/
namespace FormatNegotiation.ChannelLayout

/-- The bit that marks a bare count. -/
def countFlag : UInt64 := 0x8000000000000000

/-- The 31 bits that hold a bare count. -/
def countMask : UInt64 := 0x7FFFFFFF

/-- The packed form. There is none for a speaker mask that uses the marking bit, nor for a count
that takes more than 31 bits. -/
def toBits? : ChannelLayout → Option UInt64
  | .known mask => if mask &&& countFlag = 0 then some mask else none
  | .count n => if n.toUInt64 ≤ countMask then some (countFlag ||| n.toUInt64) else none

/-- The layout that a word stands for; of a marked word only the 31 bits of the count matter. -/
def ofBits (bits : UInt64) : ChannelLayout :=
  if bits &&& countFlag ≠ 0 then .count (bits &&& countMask).toUInt32 else .known bits

/-- The bare count that a word stands for, and 0 if it stands for a known layout. -/
def countOfBits (bits : UInt64) : UInt32 :=
  match ofBits bits with
  | .count n => n
  | .known _ => 0

end FormatNegotiation.ChannelLayout
