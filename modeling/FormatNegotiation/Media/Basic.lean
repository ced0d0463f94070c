/-! The sorts of media that pads and links carry, and the identifiers by which sets name formats. -/
namespace FormatNegotiation

/-- A discrete format of a catalog, or a sample rate in Hz. -/
abbrev FormatId := Int

inductive Media where
  | video
  | audio
  | subtitle
  | data
deriving DecidableEq, Repr

/-- Audio links negotiate sample rates and channel layouts beside formats; no other link does. -/
def Media.isAudio : Media → Bool
  | .audio => true
  | _ => false

end FormatNegotiation
