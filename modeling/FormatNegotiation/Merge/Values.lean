import FormatNegotiation.Media.FormatList
import FormatNegotiation.Merge.Intersection

/-! Merging lists of formats, where video must not lose chroma or alpha, and lists of sample rates,
where the empty list accepts any rate. -/
namespace FormatNegotiation

namespace FormatList

/-- How many values of `a`, counted as often as they occur there, are in `b`. -/
def commonCount (a b : FormatList) : Nat := a.countP (b.contains ·)

/-- The values of `a` that are in `b`, in the order of `a` and as often as there. -/
def common (a b : FormatList) : FormatList := a.filter (b.contains ·)

/-- An operand is kept where it lies within the other one, the first before the second. -/
def intersect (a b : FormatList) : Intersection FormatList :=
  if commonCount a b = 0 then .disjoint
  else if commonCount a b = a.length then .keep .first
  else if b.all (a.contains ·) then .keep .second
  else .replace (common a b)

/-- New contents are checked against both operands. -/
def intersectFindings (a b : FormatList) : List Finding :=
  match intersect a b with
  | .replace values => [⟨.mergeIsIntersection, values.all fun v => a.contains v && b.contains v⟩]
  | _ => []

/-- Some format of each list has the property. -/
def offersBoth (catalog : Catalog) (has : PixelDescriptor → Bool) (a b : FormatList) : Bool :=
  a.any fun f => b.any fun g =>
    match catalog.pixel? f, catalog.pixel? g with
    | some d, some e => has d && has e
    | _, _ => false

/-- Some format of both lists has the property. -/
def shares (catalog : Catalog) (has : PixelDescriptor → Bool) (a b : FormatList) : Bool :=
  a.any fun f => b.any fun g => f = g && (catalog.pixel? f).any has

/-- Both lists offer the property, but no format that they share has it. -/
def loses (catalog : Catalog) (has : PixelDescriptor → Bool) (a b : FormatList) : Bool :=
  offersBoth catalog has a b && !shares catalog has a b

/-- A merge would give up alpha or chroma that each side could deliver. -/
def losesChromaOrAlpha (catalog : Catalog) (a b : FormatList) : Bool :=
  loses catalog (·.hasAlpha) a b || loses catalog (·.hasChroma) a b

/-- Whether two lists of formats share one. For video, a merge that would lose chroma or alpha is no
better than none. -/
def formatsCompatible (media : Media) (catalog : Catalog) (a b : FormatList) : Bool :=
  !(media = .video && losesChromaOrAlpha catalog a b) && a.any (b.contains ·)

/-- Whether two lists of rates share one. -/
def ratesCompatible (a b : FormatList) : Bool :=
  a.isEmpty || b.isEmpty || a.any (b.contains ·)

def intersectFormats (media : Media) (catalog : Catalog) (a b : FormatList) :
    Intersection FormatList :=
  if media = .video && losesChromaOrAlpha catalog a b then .disjoint else intersect a b

/-- The intersection of two lists of rates: the other one if either accepts any rate. -/
def intersectRates (a b : FormatList) : Intersection FormatList :=
  if a.isEmpty then .keep .second
  else if b.isEmpty then .keep .first
  else intersect a b

end FormatList

/-- The two rules for lists of numbers. -/
inductive ValueRule where
  | formats (media : Media) (catalog : Catalog)
  | rates

open FormatList in
instance : Mergeable FormatList where
  Rule := ValueRule
  compatible
    | .formats media catalog => formatsCompatible media catalog
    | .rates => ratesCompatible
  intersect
    | .formats media catalog => intersectFormats media catalog
    | .rates => intersectRates
  intersectFindings
    | .formats media catalog, a, b =>
      if media = .video && losesChromaOrAlpha catalog a b then [] else intersectFindings a b
    | .rates, a, b => if a.isEmpty || b.isEmpty then [] else intersectFindings a b

end FormatNegotiation
