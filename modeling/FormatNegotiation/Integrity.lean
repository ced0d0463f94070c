import FormatNegotiation.Error
import FormatNegotiation.Layout.Set
import FormatNegotiation.Media.FormatList

/-! Checks of lists before they are trusted for negotiation. A check reports at most one defect,
both to the diagnostics and as its error. -/
namespace FormatNegotiation

/-- A finding of a check. -/
structure Diagnostic where
  /-- What the caller was checking, such as the name of a filter. -/
  context : String
  message : String
deriving DecidableEq, Repr

/-- What a list of numbers stands for. -/
inductive ListKind where
  | pixelFormats
  | sampleFormats
  | sampleRates
deriving DecidableEq, Repr

def ListKind.name : ListKind → String
  | .pixelFormats => "pixel format"
  | .sampleFormats => "sample format"
  | .sampleRates => "sample rate"

namespace Integrity

/-- Diagnostics are appended to those that are there already. -/
abbrev Check := EStateM FormatError (List Diagnostic) Unit

/-- Reports a defect of the list of this name. -/
def report (context name : String) : Option Defect → Check
  | none => pure ()
  | some defect => fun sink =>
    .error (.integrity name defect) (sink ++ [⟨context, s!"{defect.text} in {name} list"⟩])

/-- A list that must hold something, and nothing twice. -/
def valuesDefect? (list : FormatList) : Option Defect :=
  if list.isEmpty then some .empty
  else if list.Nodup then none
  else some .duplicate

/-- Formats must be described, be there, and not repeat; the first of these that fails is reported.
-/
def formatsDefect? (isDescribed : FormatId → Bool) (list : FormatList) : Option Defect :=
  if list.all isDescribed then valuesDefect? list else some .invalidValue

/-- Rates must be positive and not repeat; none at all means any. -/
def ratesDefect? (list : FormatList) : Option Defect :=
  if list.isEmpty then none
  else if list.all (0 < ·) then valuesDefect? list
  else some .invalidValue

/-- What is wrong with two entries of one list. -/
def pairDefect? (x y : ChannelLayout) : Option Defect :=
  if x = y then some .duplicate
  else if x.clashes y then some .ambiguous
  else none

/-- The defect of the first pair of entries that has one; pairs are ordered by their first entry,
then by their second. -/
def entriesDefect? : List ChannelLayout → Option Defect
  | [] => none
  | l :: rest => (rest.findSome? (pairDefect? l)).or (entriesDefect? rest)

/-- A list of layouts must hold something, and no two entries that are equal or clash. A wildcard is
always sound. -/
def layoutsDefect? : LayoutSet → Option Defect
  | .listed [] => some .empty
  | .listed entries => entriesDefect? entries
  | _ => none

def checkPixelFormats (context : String) (catalog : Catalog) (list : FormatList) : Check :=
  report context ListKind.pixelFormats.name
    (formatsDefect? (fun f => (catalog.pixel? f).isSome) list)

def checkSampleFormats (context : String) (catalog : Catalog) (list : FormatList) : Check :=
  report context ListKind.sampleFormats.name
    (formatsDefect? (fun f => (catalog.sample? f).isSome) list)

def checkSampleRates (context : String) (list : FormatList) : Check :=
  report context ListKind.sampleRates.name (ratesDefect? list)

def checkChannelLayouts (context : String) (set : LayoutSet) : Check :=
  report context "channel layout" (layoutsDefect? set)

/-- Checks a list as what it stands for. -/
def validate (context : String) (catalog : Catalog) (list : FormatList) : ListKind → Check
  | .pixelFormats => checkPixelFormats context catalog list
  | .sampleFormats => checkSampleFormats context catalog list
  | .sampleRates => checkSampleRates context list

end Integrity

end FormatNegotiation
