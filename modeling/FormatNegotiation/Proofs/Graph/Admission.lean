import FormatNegotiation.Proofs.Graph.Changes
import FormatNegotiation.Proofs.Graph.Paths

/-! What the checks before a connection and before an insertion establish. -/
namespace FormatNegotiation.Graph

variable {g : Graph} {e : Edge} {link : LinkId} {l : Link}

/-- The pads that a connection joins exist, and carry its media. -/
structure Fits (g : Graph) (e : Edge) : Prop where
  source : ∃ n, g.node? e.source.node = some n ∧ n.outputs[e.source.pad]? = some e.media
  target : ∃ n, g.node? e.target.node = some n ∧ n.inputs[e.target.pad]? = some e.media

/-- The graph can take on a connection: both pads are unused, and no path leads back. -/
structure Admits (g : Graph) (e : Edge) : Prop where
  fits : g.Fits e
  source_unused {id : LinkId} {l : Link} : g.link? id = some l → l.source ≠ e.source
  target_unused {id : LinkId} {l : Link} : g.link? id = some l → l.target ≠ e.target
  no_path_back : ¬ HasPath g.edges e.target.node e.source.node

/-- A link that a filter can be inserted into. -/
structure Splits (g : Graph) (link : LinkId) (l : Link) (node : NodeId) (inPad outPad : PadId) :
    Prop where
  live : g.link? link = some l
  pads : ∃ n, g.node? node = some n ∧ n.inputs[inPad]? = some l.media ∧
    n.outputs[outPad]? = some l.media
  input_unused {id : LinkId} {l' : Link} : g.link? id = some l' → l'.target ≠ ⟨node, inPad⟩
  output_unused {id : LinkId} {l' : Link} : g.link? id = some l' → l'.source ≠ ⟨node, outPad⟩
  not_before : ¬ HasPath g.edges node l.source.node
  not_behind : ¬ HasPath g.edges l.target.node node

/-! ## What is checked -/

/-- Looking for a link by one of its ports, on the side that `side` selects. -/
theorem find?_liveLinks_eq_none_iff {side : Link → Port} {port : Port} :
    g.liveLinks.find? (side · = port) = none ↔ ∀ id l, g.link? id = some l → side l ≠ port := by
  simp only [List.find?_eq_none, mem_liveLinks, decide_eq_true_eq]
  constructor
  · intro h id l hl
    exact h l ⟨id, hl⟩
  · intro h l ⟨id, hl⟩
    exact h id l hl

theorem find?_liveLinks_eq_some_iff {side : Link → Port} {port : Port}
    (hinj : ∀ id id' l l', g.link? id = some l → g.link? id' = some l' → side l = side l' →
      id = id') :
    g.liveLinks.find? (side · = port) = some l ↔ (∃ id, g.link? id = some l) ∧ side l = port := by
  constructor
  · intro h
    have hlive : l ∈ g.liveLinks := List.mem_of_find?_eq_some h
    exact ⟨mem_liveLinks.mp hlive, by simpa using List.find?_some h⟩
  · intro ⟨⟨id, hl⟩, hport⟩
    cases hfound : g.liveLinks.find? (side · = port) with
    | none => exact absurd hport (find?_liveLinks_eq_none_iff.mp hfound id l hl)
    | some l' =>
      obtain ⟨id', hl'⟩ := mem_liveLinks.mp (List.mem_of_find?_eq_some hfound)
      have hport' : side l' = port := by simpa using List.find?_some hfound
      obtain rfl : id = id' := hinj _ _ _ _ hl hl' (hport.trans hport'.symm)
      exact hl'.symm.trans hl

theorem reaches_iff (g : Graph) (start target : NodeId) :
    g.reaches start target ↔ HasPath g.edges start target :=
  FormatNegotiation.reaches_iff g.edges start target

theorem admits_of_checkEdge (h : g.checkEdge e = .ok ()) : g.Admits e := by
  unfold checkEdge at h
  split at h
  · rename_i source target hsource htarget
    split at h
    · rename_i outMedia inMedia hout hin
      split_ifs at h with hmedia hused hpath
      push Not at hmedia
      obtain ⟨hsourceUnused, htargetUnused⟩ : g.outputLink? e.source = none ∧
          g.inputLink? e.target = none := by simpa using hused
      refine ⟨⟨⟨source, hsource, hmedia.1 ▸ hout⟩, ⟨target, htarget, hmedia.2 ▸ hin⟩⟩, ?_, ?_, ?_⟩
      · exact find?_liveLinks_eq_none_iff.mp hsourceUnused _ _
      · exact find?_liveLinks_eq_none_iff.mp htargetUnused _ _
      · rwa [← reaches_iff]
    · cases h
  · cases h

theorem splits_of_checkInsertion {node : NodeId} {inPad outPad : PadId}
    (h : g.checkInsertion link node inPad outPad = .ok l) : g.Splits link l node inPad outPad := by
  unfold checkInsertion at h
  split at h
  · cases h
  · cases h
  · rename_i l' n hlink hnode
    split at h
    · rename_i inMedia outMedia hin hout
      split_ifs at h with hmedia hused hpath
      obtain rfl : l' = l := Except.ok.inj h
      push Not at hmedia
      obtain ⟨hinUnused, houtUnused⟩ : g.inputLink? ⟨node, inPad⟩ = none ∧
          g.outputLink? ⟨node, outPad⟩ = none := by simpa using hused
      simp only [Bool.or_eq_true, not_or, reaches_iff] at hpath
      refine ⟨hlink, ⟨n, hnode, hmedia.1 ▸ hin, hmedia.2 ▸ hout⟩, ?_, ?_, hpath.1.2, hpath.2⟩
      · exact find?_liveLinks_eq_none_iff.mp hinUnused _ _
      · exact find?_liveLinks_eq_none_iff.mp houtUnused _ _
    · cases h

end FormatNegotiation.Graph
