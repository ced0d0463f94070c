import FormatNegotiation.Media.Basic

/-! Pixel formats: their descriptors, the flags by which they are chosen, and the built-in table. -/
namespace FormatNegotiation

/-- A word of pixel-format properties, one bit for each. -/
abbrev PixelFlags := UInt32

namespace PixelFlags

/-- Components are stored big-endian. -/
def bigEndian : PixelFlags := 0x1
/-- Samples index a palette. -/
def palette : PixelFlags := 0x2
/-- Components are packed bitwise. -/
def bitstream : PixelFlags := 0x4
/-- The frame is a hardware surface. -/
def hardware : PixelFlags := 0x8
/-- At least one component lies in a plane of its own. -/
def planar : PixelFlags := 0x10
def rgb : PixelFlags := 0x20
def alpha : PixelFlags := 0x80
def float : PixelFlags := 0x200
/-- A software format in one plane with sub-sampled chroma. No descriptor stores this bit; it is
derived by `PixelDescriptor.filterFlags`. -/
def flatSubsampled : PixelFlags := 0x1000000

end PixelFlags

/-- How the components of a pixel format are laid out. -/
structure PixelDescriptor where
  /-- Number of components, alpha included. -/
  components : Nat
  /-- Chroma is sub-sampled horizontally by this power of two. -/
  chromaShiftWidth : Nat
  /-- Chroma is sub-sampled vertically by this power of two. -/
  chromaShiftHeight : Nat
  flags : PixelFlags
deriving DecidableEq, Repr

namespace PixelDescriptor

/-- A single component is luminance, so chroma needs a second one. -/
def hasChroma (d : PixelDescriptor) : Bool := 1 < d.components

def hasAlpha (d : PixelDescriptor) : Bool := d.flags &&& .alpha != 0

/-- The stored flags, with `flatSubsampled` added to a format that is neither a hardware surface
nor planar and that sub-samples chroma in some direction. -/
def filterFlags (d : PixelDescriptor) : PixelFlags :=
  if d.flags &&& (.hardware ||| .planar) = 0 ∧
      (d.chromaShiftWidth ≠ 0 ∨ d.chromaShiftHeight ≠ 0) then
    d.flags ||| .flatSubsampled
  else
    d.flags

end PixelDescriptor

/-- The built-in pixel formats, in the order of their identifiers. -/
inductive PixelFormat where
  | yuv420p
  | yuyv422
  | rgb24
  | bgr24
  | yuv422p
  | yuv444p
  | yuv410p
  | yuv411p
  | gray8
  | monoWhite
  | monoBlack
  | pal8
  | uyvy422
  | nv12
  | nv21
  | argb
  | rgba
  | abgr
  | bgra
  | gray16be
  | yuva420p
  | yuva444p
  | rgb48be
  | gbrp
  | gbrap
  | grayf32le
  | vaapi
  | cuda
deriving DecidableEq, Repr

namespace PixelFormat

def all : List PixelFormat :=
  [yuv420p, yuyv422, rgb24, bgr24, yuv422p, yuv444p, yuv410p, yuv411p, gray8, monoWhite, monoBlack,
    pal8, uyvy422, nv12, nv21, argb, rgba, abgr, bgra, gray16be, yuva420p, yuva444p, rgb48be, gbrp,
    gbrap, grayf32le, vaapi, cuda]

/-- The identifier of a built-in pixel format is its position in the table. -/
def id (f : PixelFormat) : FormatId := f.ctorIdx

/-- The built-in pixel format with this identifier. -/
def ofId? : FormatId → Option PixelFormat
  | .ofNat i => all[i]?
  | .negSucc _ => none

def name : PixelFormat → String
  | yuv420p => "Yuv420p"
  | yuyv422 => "Yuyv422"
  | rgb24 => "Rgb24"
  | bgr24 => "Bgr24"
  | yuv422p => "Yuv422p"
  | yuv444p => "Yuv444p"
  | yuv410p => "Yuv410p"
  | yuv411p => "Yuv411p"
  | gray8 => "Gray8"
  | monoWhite => "MonoWhite"
  | monoBlack => "MonoBlack"
  | pal8 => "Pal8"
  | uyvy422 => "Uyvy422"
  | nv12 => "Nv12"
  | nv21 => "Nv21"
  | argb => "Argb"
  | rgba => "Rgba"
  | abgr => "Abgr"
  | bgra => "Bgra"
  | gray16be => "Gray16be"
  | yuva420p => "Yuva420p"
  | yuva444p => "Yuva444p"
  | rgb48be => "Rgb48be"
  | gbrp => "Gbrp"
  | gbrap => "Gbrap"
  | grayf32le => "Grayf32le"
  | vaapi => "Vaapi"
  | cuda => "Cuda"

def descriptor : PixelFormat → PixelDescriptor
  | yuv420p | nv12 | nv21 => ⟨3, 1, 1, .planar⟩
  | yuyv422 | uyvy422 => ⟨3, 1, 0, 0⟩
  | rgb24 | bgr24 => ⟨3, 0, 0, .rgb⟩
  | yuv422p => ⟨3, 1, 0, .planar⟩
  | yuv444p => ⟨3, 0, 0, .planar⟩
  | yuv410p => ⟨3, 2, 2, .planar⟩
  | yuv411p => ⟨3, 2, 0, .planar⟩
  | gray8 => ⟨1, 0, 0, 0⟩
  | monoWhite | monoBlack => ⟨1, 0, 0, .bitstream⟩
  | pal8 => ⟨1, 0, 0, .palette⟩
  | argb | rgba | abgr | bgra => ⟨4, 0, 0, .rgb ||| .alpha⟩
  | gray16be => ⟨1, 0, 0, .bigEndian⟩
  | yuva420p => ⟨4, 1, 1, .planar ||| .alpha⟩
  | yuva444p => ⟨4, 0, 0, .planar ||| .alpha⟩
  | rgb48be => ⟨3, 0, 0, .rgb ||| .bigEndian⟩
  | gbrp => ⟨3, 0, 0, .rgb ||| .planar⟩
  | gbrap => ⟨4, 0, 0, .rgb ||| .planar ||| .alpha⟩
  | grayf32le => ⟨1, 0, 0, .float⟩
  | vaapi | cuda => ⟨0, 1, 1, .hardware⟩

end PixelFormat

end FormatNegotiation
