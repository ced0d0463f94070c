import FormatNegotiation.Graph.Basic

/-! Negotiating a link: the sets at its two ends are merged, kind by kind. All kinds are tested
before any is merged, so that a link is either negotiated or left alone. -/
namespace FormatNegotiation

/-- How a negotiation ends, if the link exists. -/
inductive Negotiation where
  /-- Every kind with sets at both ends was merged. -/
  | merged
  /-- The sets of this kind share nothing. -/
  | incompatible (kind : SetKind)
deriving DecidableEq, Repr

namespace Graph

/-- The sets that the two ends of a link hold, if both hold one. -/
def endSets? (g : Graph) (l : Link) (kind : SetKind) : Option (SetId × SetId) :=
  match (g.registry kind).held? (l.sourceEnd.slot kind),
    (g.registry kind).held? (l.targetEnd.slot kind) with
  | some a, some b => some (a, b)
  | _, _ => none

/-- Nothing stands against a link with one set at both ends, or without one at either, or with two
that can be merged. -/
def endsCompatible (g : Graph) (catalog : Catalog) (l : Link) (kind : SetKind) : Bool :=
  match g.endSets? l kind with
  | some (a, b) =>
    a = b || ((g.registry kind).canMerge? (kind.rule l.media catalog) a b).getD true
  | none => true

/-- Merges the sets of each kind that both ends hold. -/
def mergeEnds (catalog : Catalog) (l : Link) : List SetKind → Action Negotiation
  | [] => pure .merged
  | kind :: rest => fun g =>
    match g.endSets? l kind with
    | none => mergeEnds catalog l rest g
    | some (a, b) =>
      match onRegistry kind (Registry.merge (kind.rule l.media catalog) a b) g with
      | .error e g' => .error e g'
      | .ok .incompatible g' => .ok (.incompatible kind) g'
      | .ok .merged g' => mergeEnds catalog l rest g'

/-- Negotiates a link. The first kind that cannot be merged decides against it. -/
def negotiateLink (catalog : Catalog) (link : LinkId) : Action Negotiation := fun g =>
  match g.link? link with
  | none => .error (.graph .invalidLink) g
  | some l =>
    match (SetKind.applicable l.media).find? (!g.endsCompatible catalog l ·) with
    | some kind => .ok (.incompatible kind) g
    | none => mergeEnds catalog l (SetKind.applicable l.media) g

/-! ## What a negotiation checks -/

def endsAgree (g : Graph) (l : Link) (kind : SetKind) : Bool :=
  (g.registry kind).held? (l.sourceEnd.slot kind) = (g.registry kind).held? (l.targetEnd.slot kind)

/-- After each merge both ends of the link must agree. -/
def mergeEndsFindings (catalog : Catalog) (l : Link) : List SetKind → Graph → List Finding
  | [], _ => []
  | kind :: rest, g =>
    match g.endSets? l kind with
    | none => mergeEndsFindings catalog l rest g
    | some (a, b) =>
      (g.registry kind).mergeFindings (kind.rule l.media catalog) a b ++
        match onRegistry kind (Registry.merge (kind.rule l.media catalog) a b) g with
        | .ok .merged g' =>
          ⟨.linkEndsAgree, g'.endsAgree l kind⟩ :: mergeEndsFindings catalog l rest g'
        | _ => []

def negotiateLinkFindings (catalog : Catalog) (link : LinkId) (g : Graph) : List Finding :=
  match g.link? link with
  | none => []
  | some l =>
    if (SetKind.applicable l.media).all (g.endsCompatible catalog l) then
      mergeEndsFindings catalog l (SetKind.applicable l.media) g
    else []

end Graph

end FormatNegotiation
