/-! Channel layouts: a set of speakers, or a bare number of channels. -/
namespace FormatNegotiation

/-- A channel layout with a known disposition of speakers, one bit for each, or a bare count that
stands for any arrangement of that many channels. -/
inductive ChannelLayout where
  | known (mask : UInt64)
  | count (channels : UInt32)
deriving DecidableEq, Repr

namespace Speaker

def frontLeft : UInt64 := 0x1
def frontRight : UInt64 := 0x2
def frontCenter : UInt64 := 0x4
def lowFrequency : UInt64 := 0x8
def backLeft : UInt64 := 0x10
def backRight : UInt64 := 0x20
def backCenter : UInt64 := 0x100
def sideLeft : UInt64 := 0x200
def sideRight : UInt64 := 0x400

end Speaker

namespace ChannelLayout

open Speaker

def mono : ChannelLayout := .known frontCenter
def stereo : ChannelLayout := .known (frontLeft ||| frontRight)
def stereoLfe : ChannelLayout := .known (frontLeft ||| frontRight ||| lowFrequency)
def surround : ChannelLayout := .known (frontLeft ||| frontRight ||| frontCenter)
def quad : ChannelLayout := .known (frontLeft ||| frontRight ||| backLeft ||| backRight)
def surroundSide : ChannelLayout :=
  .known (frontLeft ||| frontRight ||| frontCenter ||| sideLeft ||| sideRight)
def surroundSideLfe : ChannelLayout :=
  .known (frontLeft ||| frontRight ||| frontCenter ||| lowFrequency ||| sideLeft ||| sideRight)
def surroundBackSideLfe : ChannelLayout :=
  .known (frontLeft ||| frontRight ||| frontCenter ||| lowFrequency ||| backLeft ||| backRight |||
    sideLeft ||| sideRight)

/-- The usual name of each layout that has one. -/
def named : List (String × ChannelLayout) :=
  [("MONO", mono), ("STEREO", stereo), ("2POINT1", stereoLfe), ("SURROUND", surround),
    ("QUAD", quad), ("5POINT0", surroundSide), ("5POINT1", surroundSideLfe),
    ("7POINT1", surroundBackSideLfe)]

/-- The number of channels: one for each speaker of a mask. -/
def channels : ChannelLayout → UInt32
  | .known mask => .ofNat mask.toBitVec.cpop.toNat
  | .count n => n

def isKnown : ChannelLayout → Bool
  | .known _ => true
  | .count _ => false

def bare (l : ChannelLayout) : ChannelLayout := .count l.channels

/-- Some layout is admitted by both: they are equal, or one is a known layout and the other the bare
count of its channels. -/
def meets (x y : ChannelLayout) : Bool :=
  x = y || x.isKnown && y = x.bare || y.isKnown && x = y.bare

/-- Of the two only one has a known disposition, and they describe as many channels: a list that
holds both is ambiguous. -/
def clashes (x y : ChannelLayout) : Bool := x.isKnown != y.isKnown && x.channels == y.channels

/-- A word in hexadecimal: lower case, no leading zeros. -/
def hexadecimal (word : UInt64) : String := "0x" ++ String.ofList (Nat.toDigits 16 word.toNat)

/-- A layout as written in messages. -/
def text : ChannelLayout → String
  | .known mask => hexadecimal mask
  | .count n => s!"{n} channels"

end ChannelLayout

end FormatNegotiation
