import FormatNegotiation.Error
import FormatNegotiation.Law
import FormatNegotiation.Layout.Basic

/-! Sets of acceptable channel layouts: lists, and the two wildcards. -/
namespace FormatNegotiation

/-- The channel layouts acceptable at one end of an audio link. -/
inductive LayoutSet where
  | listed (entries : List ChannelLayout)
  /-- Any layout with a known disposition. -/
  | allLayouts
  /-- Any layout and any bare count. -/
  | allCounts
deriving DecidableEq, Repr

namespace LayoutSet

/-- The explicit entries; a wildcard has none. -/
def layouts : LayoutSet → List ChannelLayout
  | .listed entries => entries
  | _ => []

def acceptsAllLayouts : LayoutSet → Bool
  | .listed _ => false
  | _ => true

/-- Whether the set is the wildcard that also takes every bare count. -/
def acceptsAllCounts : LayoutSet → Bool
  | .allCounts => true
  | _ => false

/-- How much the set leaves open: least as a list, most as the wildcard for counts. -/
def genericity : LayoutSet → Nat
  | .listed _ => 0
  | .allLayouts => 1
  | .allCounts => 2

/-- An entry of a list accepts itself, and a bare count also accepts the known layouts of as many
channels. -/
def accepts (s : LayoutSet) (l : ChannelLayout) : Bool :=
  match s with
  | .allCounts => true
  | .allLayouts => l.isKnown
  | .listed entries => entries.any fun e => e = l || l.isKnown && e = l.bare

/-- Appends an entry, starting a list if there is none. A wildcard takes no entry, and a list none
that clashes with one of its own; the set is then left as it was. -/
def add (l : ChannelLayout) : EStateM FormatError (Option LayoutSet) Unit
  | some (.listed entries) =>
    if entries.any (·.clashes l) then .error (.ambiguousLayout l.text) (some (.listed entries))
    else .ok () (some (.listed (entries ++ [l])))
  | some wildcard => .error .wildcardList (some wildcard)
  | none => .ok () (some (.listed [l]))

/-- The list of these entries, unless two of them clash. Equal entries are kept. -/
def ofList (entries : List ChannelLayout) : Except FormatError LayoutSet :=
  match entries.forM add none with
  | .ok _ set? => .ok (set?.getD (.listed []))
  | .error e _ => .error e

/-- What `add` checks: beside the new entry of a list that there was before, all entries of as many
channels are known layouts if it is one, and bare counts otherwise. -/
def addFindings (l : ChannelLayout) (set? : Option LayoutSet) : List Finding :=
  match set?, add l set? with
  | some _, .ok _ (some (.listed entries)) =>
    [⟨.layoutsUnambiguous,
      (entries.filter (·.channels = l.channels)).all (·.isKnown = l.isKnown)⟩]
  | _, _ => []

/-- What `ofList` checks, up to the first entry that is refused. -/
def ofListFindings (set? : Option LayoutSet) : List ChannelLayout → List Finding
  | [] => []
  | l :: rest =>
    addFindings l set? ++
      match add l set? with
      | .ok _ set? => ofListFindings set? rest
      | .error _ _ => []

end LayoutSet

end FormatNegotiation
