import FormatNegotiation.Media.Pixel
import FormatNegotiation.Media.Sample

/-! Catalogs: which formats exist for each sort of media, and what each of them is. -/
namespace FormatNegotiation

/-- An enumeration of formats together with their descriptors. Nothing ties the two together: an
enumerated format may lack a descriptor, and a described one need not be enumerated. -/
structure Catalog where
  /-- Every format registered for a sort of media, in catalog order. -/
  formats : Media → List FormatId
  /-- What a pixel format looks like, if the catalog knows it. -/
  pixel? : FormatId → Option PixelDescriptor
  /-- What a sample format looks like, if the catalog knows it. -/
  sample? : FormatId → Option SampleDescriptor

namespace Catalog

/-- The catalog of the built-in pixel and sample formats. -/
def builtin : Catalog where
  formats
    | .video => PixelFormat.all.map PixelFormat.id
    | .audio => SampleFormat.all.map SampleFormat.id
    | .subtitle | .data => []
  pixel? f := (PixelFormat.ofId? f).map PixelFormat.descriptor
  sample? f := (SampleFormat.ofId? f).map SampleFormat.descriptor

/-- The catalog given by tables: the first row of an identifier describes it, and the first
enumeration of a sort of media is the one that counts. -/
def ofTables (formats : List (Media × List FormatId)) (pixel : List (FormatId × PixelDescriptor))
    (sample : List (FormatId × SampleDescriptor)) : Catalog where
  formats m := (formats.lookup m).getD []
  pixel? f := pixel.lookup f
  sample? f := sample.lookup f

end Catalog

end FormatNegotiation
