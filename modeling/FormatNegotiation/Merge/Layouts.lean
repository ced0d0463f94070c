import FormatNegotiation.Layout.Set
import FormatNegotiation.Merge.Intersection

/-! Merging sets of channel layouts, where a bare count admits the known layouts of as many channels
and the wildcard for known layouts drops bare counts. -/
namespace FormatNegotiation

/-- The outcome of pairing known layouts of two lists. -/
structure LayoutPairing where
  /-- The layouts that found an equal partner. -/
  paired : List ChannelLayout
  /-- What is left of the first list. -/
  first : List ChannelLayout
  second : List ChannelLayout
deriving DecidableEq, Repr

namespace LayoutSet

/-- Pairs each known layout of the first list with the first equal entry of the second list that has
no partner yet. -/
def pair : List ChannelLayout → List ChannelLayout → LayoutPairing
  | [], b => ⟨[], [], b⟩
  | l :: a, b =>
    if l.isKnown && b.contains l then
      let p := pair a (b.erase l)
      { p with paired := l :: p.paired }
    else
      let p := pair a b
      { p with first := l :: p.first }

/-- The known layouts of `rest` that some bare count of `counts` admits. -/
def admitted (rest counts : List ChannelLayout) : List ChannelLayout :=
  rest.filter fun l => l.isKnown && counts.contains l.bare

/-- The bare counts of `a` that `b` lists too. -/
def sharedCounts (a b : List ChannelLayout) : List ChannelLayout :=
  a.filter fun l => !l.isKnown && b.contains l

/-- What two lists have in common: known layouts of both, then those of either that the other admits
by a bare count, then bare counts of both. -/
def meet (a b : List ChannelLayout) : List ChannelLayout :=
  let p := pair a b
  p.paired ++ admitted p.first b ++ admitted p.second a ++ sharedCounts a b

/-- Whether a list is as long as what was computed and has all its entries there. -/
def sameAs (out side : List ChannelLayout) : Bool :=
  side.length = out.length && side.all (out.contains ·)

/-- An operand that is the same as what was computed is kept, the first before the second. -/
def intersectListed (a b : List ChannelLayout) : Intersection LayoutSet :=
  if (meet a b).isEmpty then .disjoint
  else if sameAs (meet a b) a then .keep .first
  else if sameAs (meet a b) b then .keep .second
  else .replace (.listed (meet a b))

/-- What is computed for two lists is checked against both, if there is anything. -/
def intersectListedFindings (a b : List ChannelLayout) : List Finding :=
  if (meet a b).isEmpty then []
  else [⟨.mergeIsIntersection,
    (meet a b).all fun l => a.any (·.meets l) && b.any (·.meets l)⟩]

/-- The known layouts of a list, which stands on this side and meets the wildcard for them. Bare
counts are dropped, though a later merge could have made them known. -/
def intersectKnown (side : Side) (entries : List ChannelLayout) : Intersection LayoutSet :=
  if entries.countP (·.isKnown) = 0 then .disjoint
  else if entries.countP (·.isKnown) = entries.length then .keep side
  else .replace (.listed (entries.filter (·.isKnown)))

/-- The side of the less generic set, and the second one if both are alike. -/
def moreSpecific (a b : LayoutSet) : Side :=
  if b.genericity ≤ a.genericity then .second else .first

/-- Beside a list, a wildcard yields to it, and the wildcard for counts yields to the other one. -/
def intersect : LayoutSet → LayoutSet → Intersection LayoutSet
  | .listed a, .listed b => intersectListed a b
  | .allLayouts, .listed b => intersectKnown .second b
  | .listed a, .allLayouts => intersectKnown .first a
  | a, b => .keep (moreSpecific a b)

/-- Whether two sets can be merged: some entries of two lists meet, and a list beside the wildcard
for known layouts has one. -/
def compatible : LayoutSet → LayoutSet → Bool
  | .listed a, .listed b => a.any fun x => b.any fun y => x.meets y
  | .allLayouts, .listed b => b.any (·.isKnown)
  | .listed a, .allLayouts => a.any (·.isKnown)
  | _, _ => true

end LayoutSet

/-- There is one rule for layouts. -/
instance : Mergeable LayoutSet where
  Rule := Unit
  compatible _ := LayoutSet.compatible
  intersect _ := LayoutSet.intersect
  intersectFindings
    | _, .listed a, .listed b => LayoutSet.intersectListedFindings a b
    | _, _, _ => []

end FormatNegotiation
