import FormatNegotiation.Media.Catalog

/-! Lists of acceptable formats or sample rates, and the lists that a catalog gives rise to. -/
namespace FormatNegotiation

/-- The formats (or sample rates) acceptable at one end of a link. Order has no meaning but is kept,
and so are duplicates. As a list of rates, the empty list stands for any rate. -/
abbrev FormatList := List FormatId

namespace FormatList

/-- Every format that the catalog registers for a sort of media. -/
def allFormats (media : Media) (catalog : Catalog) : FormatList := catalog.formats media

/-- The list that accepts any sample rate. -/
def allSampleRates : FormatList := []

/-- The pixel formats whose flags have every bit of `want` and no bit of `reject`; a bit of both
counts as one of `want`. -/
def ofFlags (catalog : Catalog) (want reject : PixelFlags) : FormatList :=
  (catalog.formats .video).filter fun f =>
    (catalog.pixel? f).any fun d => d.filterFlags &&& (want ||| reject) = want

/-- The software pixel formats in one plane with sub-sampled chroma. -/
def flatSubsampled (catalog : Catalog) : FormatList := ofFlags catalog .flatSubsampled 0

/-- The sample formats that keep each channel in a plane of its own. -/
def planarSamples (catalog : Catalog) : FormatList :=
  (catalog.formats .audio).filter fun f => (catalog.sample? f).any (·.planar)

/-- Appends a value, starting a list if there is none. -/
def add (list? : Option FormatList) (value : FormatId) : FormatList :=
  list?.getD [] ++ [value]

end FormatList

end FormatNegotiation
