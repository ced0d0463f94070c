import FormatNegotiation.Proofs.Graph.Registries
import FormatNegotiation.Proofs.Merge.Layouts
import FormatNegotiation.Proofs.Merge.Values
import FormatNegotiation.Proofs.Registry.Joining

/-! A link is negotiated as a whole: if the sets of one kind cannot be merged, those of the other
kinds are not merged either. -/
namespace FormatNegotiation

instance : (kind : SetKind) → LawfulMergeable kind.Contents
  | .formats => inferInstanceAs (LawfulMergeable FormatList)
  | .sampleRates => inferInstanceAs (LawfulMergeable FormatList)
  | .channelLayouts => inferInstanceAs (LawfulMergeable LayoutSet)

theorem SetKind.applicable_nodup (media : Media) : (SetKind.applicable media).Nodup :=
  List.Nodup.filter _ (by decide)

namespace Graph

variable {g g' : Graph} {catalog : Catalog} {link : LinkId} {l : Link} {kind : SetKind}
  {kinds : List SetKind}

/-! ## The test of a kind -/

/-- The ends of a link hold different sets of a kind, and they cannot be merged. -/
def Refuses (g : Graph) (catalog : Catalog) (l : Link) (kind : SetKind) : Prop :=
  (g.registry kind).Refuses (kind.rule l.media catalog) (l.sourceEnd.slot kind)
    (l.targetEnd.slot kind)

theorem endSets?_cases (g : Graph) (l : Link) (kind : SetKind) :
    (g.endSets? l kind = none ∧ ((g.registry kind).held? (l.sourceEnd.slot kind) = none ∨
      (g.registry kind).held? (l.targetEnd.slot kind) = none)) ∨
    ∃ a b, g.endSets? l kind = some (a, b) ∧
      (g.registry kind).held? (l.sourceEnd.slot kind) = some a ∧
      (g.registry kind).held? (l.targetEnd.slot kind) = some b := by
  unfold endSets?
  cases (g.registry kind).held? (l.sourceEnd.slot kind) with
  | none => exact .inl ⟨rfl, .inl rfl⟩
  | some a =>
    cases (g.registry kind).held? (l.targetEnd.slot kind) with
    | none => exact .inl ⟨rfl, .inr rfl⟩
    | some b => exact .inr ⟨a, b, rfl, rfl, rfl⟩

theorem endsCompatible_eq_false_iff :
    g.endsCompatible catalog l kind = false ↔ g.Refuses catalog l kind := by
  unfold endsCompatible Refuses Registry.Refuses
  rcases g.endSets?_cases l kind with ⟨hends, hnone⟩ | ⟨a, b, hends, hs, ht⟩
  · rw [hends]
    rcases hnone with hn | hn <;> simp [hn]
  · rw [hends, hs, ht]
    cases hcan : (g.registry kind).canMerge? (kind.rule l.media catalog) a b with
    | none => simp [hcan]
    | some can => simp [hcan]

/-- The first kind, in the order of negotiation, that stands against a link. -/
def FirstRefusal (g : Graph) (catalog : Catalog) (l : Link) (kind : SetKind) : Prop :=
  ∃ before after, SetKind.applicable l.media = before ++ kind :: after ∧
    g.Refuses catalog l kind ∧ ∀ earlier ∈ before, ¬ g.Refuses catalog l earlier

theorem find?_endsCompatible_eq_some :
    (SetKind.applicable l.media).find? (!g.endsCompatible catalog l ·) = some kind ↔
      g.FirstRefusal catalog l kind := by
  rw [List.find?_eq_some_iff_append]
  simp only [FirstRefusal, ← endsCompatible_eq_false_iff, Bool.not_eq_true', Bool.not_not,
    Bool.not_eq_false]
  constructor
  · rintro ⟨hfalse, before, after, heq, hbefore⟩
    exact ⟨before, after, heq, hfalse, hbefore⟩
  · rintro ⟨before, after, heq, hfalse, hbefore⟩
    exact ⟨hfalse, before, after, heq, hbefore⟩

theorem find?_endsCompatible_eq_none :
    (SetKind.applicable l.media).find? (!g.endsCompatible catalog l ·) = none ↔
      ∀ kind ∈ SetKind.applicable l.media, ¬ g.Refuses catalog l kind := by
  simp [← endsCompatible_eq_false_iff]

/-! ## The merging pass -/

/-- How a graph comes out when the ends of a link are joined for each of these kinds. -/
structure JoinsEnds (catalog : Catalog) (l : Link) (kinds : List SetKind) (g g' : Graph) :
    Prop where
  nodes_eq : g'.nodes = g.nodes
  links_eq : g'.links = g.links
  registry_eq (kind : SetKind) : kind ∉ kinds → g'.registry kind = g.registry kind
  joins (kind : SetKind) : kind ∈ kinds →
    (g.registry kind).Joins (kind.rule l.media catalog) (l.sourceEnd.slot kind)
      (l.targetEnd.slot kind) (g'.registry kind)

/-- The kinds do not get into each other's way. -/
theorem JoinsEnds.cons {kind : SetKind} {rest : List SetKind} {r : Registry kind.Contents}
    (h : JoinsEnds catalog l rest (g.setRegistry kind r) g') (hkind : kind ∉ rest)
    (hr : (g.registry kind).Joins (kind.rule l.media catalog) (l.sourceEnd.slot kind)
      (l.targetEnd.slot kind) r) : JoinsEnds catalog l (kind :: rest) g g' where
  nodes_eq := h.nodes_eq
  links_eq := h.links_eq
  registry_eq kind' hkind' := by
    rw [List.mem_cons, not_or] at hkind'
    rw [h.registry_eq kind' hkind'.2, registry_setRegistry_of_ne g r hkind'.1]
  joins kind' hkind' := by
    rcases List.mem_cons.mp hkind' with rfl | hrest
    · rw [h.registry_eq kind' hkind, registry_setRegistry_self]
      exact hr
    · have hne : kind' ≠ kind := ne_of_mem_of_not_mem hrest hkind
      have hjoins := h.joins kind' hrest
      rwa [registry_setRegistry_of_ne g r hne] at hjoins

/-- The merging pass cannot get stuck on a kind that passed the test, since the kinds merged before
it are others. -/
theorem mergeEnds_of_not_refuses (h : ∀ kind, (g.registry kind).WellFormed) (hnd : kinds.Nodup)
    (hn : ∀ kind ∈ kinds, ¬ g.Refuses catalog l kind) :
    ∃ g', mergeEnds catalog l kinds g = .ok .merged g' ∧ JoinsEnds catalog l kinds g g' := by
  induction kinds generalizing g with
  | nil => exact ⟨g, rfl, rfl, rfl, fun _ _ => rfl, fun _ hkind => by simp at hkind⟩
  | cons kind rest ih =>
    rw [List.nodup_cons] at hnd
    -- Whatever the join of this kind leads to, the rest of the pass meets registries as they were.
    have hstep : ∀ r, (g.registry kind).Joins (kind.rule l.media catalog) (l.sourceEnd.slot kind)
        (l.targetEnd.slot kind) r →
        ∃ g', mergeEnds catalog l rest (g.setRegistry kind r) = .ok .merged g' ∧
          JoinsEnds catalog l (kind :: rest) g g' := by
      intro r hr
      have hwf : ∀ kind', ((g.setRegistry kind r).registry kind').WellFormed :=
        Registries.set_wellFormed h (hr.wellFormed (h kind))
      have hrest : ∀ kind' ∈ rest, ¬ (g.setRegistry kind r).Refuses catalog l kind' := by
        intro kind' hkind'
        have hne : kind' ≠ kind := ne_of_mem_of_not_mem hkind' hnd.1
        unfold Refuses
        rw [registry_setRegistry_of_ne g r hne]
        exact hn kind' (List.mem_cons_of_mem kind hkind')
      obtain ⟨g', heq, hjoins⟩ := ih hwf hnd.2 hrest
      exact ⟨g', heq, hjoins.cons hnd.1 hr⟩
    rcases g.endSets?_cases l kind with ⟨hends, hnone⟩ | ⟨a, b, hends, hs, ht⟩
    · have hskip := hstep (g.registry kind) (.skip hnone)
      rwa [setRegistry_self, ← mergeEnds_of_endSets?_none hends rest] at hskip
    · obtain ⟨r, hmerge, hr⟩ := Registry.merge_of_not_refuses (h kind) hs ht
        (hn kind (List.mem_cons_self))
      rw [mergeEnds_of_endSets?_some hends, hmerge]
      exact hstep r hr

/-! ## Negotiating a link -/

theorem negotiateLink_of_link?_none (h : g.link? link = none) (catalog : Catalog) :
    negotiateLink catalog link g = .error (.graph .invalidLink) g := by
  simp only [negotiateLink, h]

theorem negotiateLink_of_firstRefusal (hl : g.link? link = some l)
    (hkind : g.FirstRefusal catalog l kind) :
    negotiateLink catalog link g = .ok (.incompatible kind) g := by
  simp only [negotiateLink, hl, find?_endsCompatible_eq_some.mpr hkind]

theorem FirstRefusal.refuses (h : g.FirstRefusal catalog l kind) :
    kind ∈ SetKind.applicable l.media ∧ g.Refuses catalog l kind := by
  obtain ⟨before, after, happ, hrefuses, -⟩ := h
  rw [happ]
  exact ⟨by simp, hrefuses⟩

/-- Either some kind is the first to stand against a live link, and nothing happens, or none does,
and its ends are joined. -/
theorem negotiateLink_cases (h : ∀ kind, (g.registry kind).WellFormed)
    (hl : g.link? link = some l) (catalog : Catalog) :
    (∃ kind, g.FirstRefusal catalog l kind ∧
      negotiateLink catalog link g = .ok (.incompatible kind) g) ∨
    (∀ kind ∈ SetKind.applicable l.media, ¬ g.Refuses catalog l kind) ∧
      ∃ g', negotiateLink catalog link g = .ok .merged g' ∧
        JoinsEnds catalog l (SetKind.applicable l.media) g g' := by
  cases hfind : (SetKind.applicable l.media).find? (!g.endsCompatible catalog l ·) with
  | some kind =>
    have hkind := find?_endsCompatible_eq_some.mp hfind
    exact .inl ⟨kind, hkind, negotiateLink_of_firstRefusal hl hkind⟩
  | none =>
    have hn := find?_endsCompatible_eq_none.mp hfind
    refine .inr ⟨hn, ?_⟩
    simp only [negotiateLink, hl, hfind]
    exact mergeEnds_of_not_refuses h (SetKind.applicable_nodup l.media) hn

/-- Negotiation fails exactly on links that are not live. -/
theorem negotiateLink_error_iff (h : ∀ kind, (g.registry kind).WellFormed) :
    (∃ e g', negotiateLink catalog link g = .error e g') ↔ g.link? link = none := by
  constructor
  · rintro ⟨e, g', hres⟩
    cases hl : g.link? link with
    | none => rfl
    | some l =>
      rcases negotiateLink_cases h hl catalog with ⟨kind, -, heq⟩ | ⟨-, g'', heq, -⟩
      · cases hres.symm.trans heq
      · cases hres.symm.trans heq
  · exact fun hnone => ⟨_, g, negotiateLink_of_link?_none hnone catalog⟩

/-- A kind is named exactly if it is the first to stand against the link. -/
theorem negotiateLink_incompatible_iff (h : ∀ kind, (g.registry kind).WellFormed)
    (hl : g.link? link = some l) :
    negotiateLink catalog link g = .ok (.incompatible kind) g' ↔
      g.FirstRefusal catalog l kind ∧ g' = g := by
  constructor
  · intro hres
    rcases negotiateLink_cases h hl catalog with ⟨kind', hkind', heq⟩ | ⟨-, g'', heq, -⟩
    · cases hres.symm.trans heq
      exact ⟨hkind', rfl⟩
    · cases hres.symm.trans heq
  · rintro ⟨hkind, rfl⟩
    exact negotiateLink_of_firstRefusal hl hkind

theorem negotiateLink_merged_iff (h : ∀ kind, (g.registry kind).WellFormed)
    (hl : g.link? link = some l) :
    (∃ g', negotiateLink catalog link g = .ok .merged g') ↔
      ∀ kind ∈ SetKind.applicable l.media, ¬ g.Refuses catalog l kind := by
  rcases negotiateLink_cases h hl catalog with ⟨kind, hkind, heq⟩ | ⟨hn, g', heq, -⟩
  · refine iff_of_false ?_ fun hn => hn kind hkind.refuses.1 hkind.refuses.2
    rintro ⟨g', hres⟩
    cases hres.symm.trans heq
  · exact iff_of_true ⟨g', heq⟩ hn

theorem joinsEnds_of_merged (h : ∀ kind, (g.registry kind).WellFormed)
    (hl : g.link? link = some l) (hres : negotiateLink catalog link g = .ok .merged g') :
    JoinsEnds catalog l (SetKind.applicable l.media) g g' := by
  rcases negotiateLink_cases h hl catalog with ⟨kind, -, heq⟩ | ⟨-, g'', heq, hjoins⟩
  · cases hres.symm.trans heq
  · cases hres.symm.trans heq
    exact hjoins

/-- How a graph comes out of the successful negotiation of a link. For each kind that matters on the
link and of which both ends hold a set, all slots that held either set hold one and the same;
everything else is as it was. -/
structure EndsMerged (l : Link) (g g' : Graph) : Prop where
  nodes_eq : g'.nodes = g.nodes
  links_eq : g'.links = g.links
  unites (kind : SetKind) (a b : SetId) : kind ∈ SetKind.applicable l.media →
    (g.registry kind).held? (l.sourceEnd.slot kind) = some a →
    (g.registry kind).held? (l.targetEnd.slot kind) = some b →
    (g.registry kind).Unites (g'.registry kind) a b
  registry_eq (kind : SetKind) :
    kind ∉ SetKind.applicable l.media ∨
      (g.registry kind).held? (l.sourceEnd.slot kind) = none ∨
      (g.registry kind).held? (l.targetEnd.slot kind) = none ∨
      (g.registry kind).held? (l.sourceEnd.slot kind) =
        (g.registry kind).held? (l.targetEnd.slot kind) →
    g'.registry kind = g.registry kind

theorem JoinsEnds.endsMerged (h : JoinsEnds catalog l (SetKind.applicable l.media) g g') :
    EndsMerged l g g' where
  nodes_eq := h.nodes_eq
  links_eq := h.links_eq
  unites kind _ _ hkind hs ht := (h.joins kind hkind).unites hs ht
  registry_eq kind hskip := by
    by_cases hkind : kind ∈ SetKind.applicable l.media
    · have hjoins := h.joins kind hkind
      rcases hskip with hn | hs | ht | hsame
      · exact absurd hkind hn
      · exact hjoins.eq_of_none (.inl hs)
      · exact hjoins.eq_of_none (.inr ht)
      · exact hjoins.eq_of_same hsame
    · exact h.registry_eq kind hkind

/-- Negotiation fails exactly on links that are not live. On a live one it answers with the first
kind that stands against the link, and then changes nothing, or it merges the sets of every kind. A
kind that passes the test is never refused by the merging pass. -/
theorem negotiateLink_all_or_nothing (cs : List Command) (catalog : Catalog) (link : LinkId) :
    let g := run .empty cs
    ((∃ e g', negotiateLink catalog link g = .error e g') ↔ g.link? link = none) ∧
    (g.link? link = none → negotiateLink catalog link g = .error (.graph .invalidLink) g) ∧
    ∀ l, g.link? link = some l →
      (∀ kind g', negotiateLink catalog link g = .ok (.incompatible kind) g' ↔
        g.FirstRefusal catalog l kind ∧ g' = g) ∧
      ((∀ kind, ¬ g.FirstRefusal catalog l kind) →
        ∃ g', negotiateLink catalog link g = .ok .merged g' ∧ EndsMerged l g g') ∧
      ((∀ kind ∈ SetKind.applicable l.media, g.endsCompatible catalog l kind) →
        ∃ g', mergeEnds catalog l (SetKind.applicable l.media) g = .ok .merged g') := by
  intro g
  have hwf : ∀ kind, (g.registry kind).WellFormed := registry_wellFormed cs
  refine ⟨negotiateLink_error_iff hwf, fun hnone => negotiateLink_of_link?_none hnone catalog,
    fun l hl => ⟨fun kind g' => negotiateLink_incompatible_iff hwf hl, fun hn => ?_, ?_⟩⟩
  · rcases negotiateLink_cases hwf hl catalog with ⟨kind, hkind, -⟩ | ⟨-, g', heq, hjoins⟩
    · exact absurd hkind (hn kind)
    · exact ⟨g', heq, hjoins.endsMerged⟩
  · intro hcompatible
    have hrefuses : ∀ kind ∈ SetKind.applicable l.media, ¬ g.Refuses catalog l kind := by
      intro kind hkind
      rw [← endsCompatible_eq_false_iff, hcompatible kind hkind]
      simp
    have hmerged := mergeEnds_of_not_refuses hwf (SetKind.applicable_nodup l.media) hrefuses
    obtain ⟨g', heq, -⟩ := hmerged
    exact ⟨g', heq⟩

end Graph

end FormatNegotiation
