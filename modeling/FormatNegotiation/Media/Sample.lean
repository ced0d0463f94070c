import FormatNegotiation.Media.Basic

/-! Audio sample formats: their descriptors and the built-in table. -/
namespace FormatNegotiation

/-- How the samples of an audio format are stored. -/
structure SampleDescriptor where
  /-- Size of one sample of one channel. -/
  bytesPerSample : Nat
  /-- Whether each channel lies in a plane of its own. -/
  planar : Bool
deriving DecidableEq, Repr

/-- The built-in sample formats, in the order of their identifiers. -/
inductive SampleFormat where
  | u8
  | s16
  | s32
  | flt
  | dbl
  | u8p
  | s16p
  | s32p
  | fltp
  | dblp
  | s64
  | s64p
deriving DecidableEq, Repr

namespace SampleFormat

def all : List SampleFormat :=
  [u8, s16, s32, flt, dbl, u8p, s16p, s32p, fltp, dblp, s64, s64p]

/-- The identifier of a built-in sample format is its position in the table. -/
def id (f : SampleFormat) : FormatId := f.ctorIdx

/-- The built-in sample format with this identifier. -/
def ofId? : FormatId → Option SampleFormat
  | .ofNat i => all[i]?
  | .negSucc _ => none

def name : SampleFormat → String
  | u8 => "U8"
  | s16 => "S16"
  | s32 => "S32"
  | flt => "Flt"
  | dbl => "Dbl"
  | u8p => "U8p"
  | s16p => "S16p"
  | s32p => "S32p"
  | fltp => "Fltp"
  | dblp => "Dblp"
  | s64 => "S64"
  | s64p => "S64p"

def descriptor : SampleFormat → SampleDescriptor
  | u8 => ⟨1, false⟩
  | s16 => ⟨2, false⟩
  | s32 | flt => ⟨4, false⟩
  | dbl | s64 => ⟨8, false⟩
  | u8p => ⟨1, true⟩
  | s16p => ⟨2, true⟩
  | s32p | fltp => ⟨4, true⟩
  | dblp | s64p => ⟨8, true⟩

end SampleFormat

end FormatNegotiation
