import FormatNegotiation.Proofs.Builder
import FormatNegotiation.Proofs.Graph.Admission
import FormatNegotiation.Proofs.Graph.Numbers

/-! The structure of a graph: numbers are positions, links join pads of their media, no pad carries
two links, and no links form a cycle. Every change keeps it. -/
namespace FormatNegotiation.Graph

variable {g g' : Graph} {e : Edge} {link : LinkId} {l : Link}

structure Structured (g : Graph) : Prop where
  node_id {id : NodeId} {n : FilterNode} : g.node? id = some n → n.id = id
  link_id {id : LinkId} {l : Link} : g.link? id = some l → l.id = id
  fits {id : LinkId} {l : Link} : g.link? id = some l → g.Fits l.toEdge
  source_inj {id id' : LinkId} {l l' : Link} :
    g.link? id = some l → g.link? id' = some l' → l.source = l'.source → id = id'
  target_inj {id id' : LinkId} {l l' : Link} :
    g.link? id = some l → g.link? id' = some l' → l.target = l'.target → id = id'
  acyclic : Acyclic g.edges

/-! ## Keeping the structure -/

theorem empty_structured : empty.Structured := by
  constructor <;> simp [empty, node?, link?, edges, liveLinks, acyclic_nil]

theorem Fits.congr (h : g.Fits e) (hsource : g'.node? e.source.node = g.node? e.source.node)
    (htarget : g'.node? e.target.node = g.node? e.target.node) : g'.Fits e := by
  constructor
  · rw [hsource]
    exact h.source
  · rw [htarget]
    exact h.target

theorem edges_subset_of_links (h : ∀ id l, g'.link? id = some l → g.link? id = some l) :
    g'.edges ⊆ g.edges := by
  intro ⟨u, v⟩ huv
  obtain ⟨id, l, hl, hu, hv⟩ := mem_edges.mp huv
  exact mem_edges.mpr ⟨id, l, h id l hl, hu, hv⟩

theorem edges_appendLink_subset (g : Graph) (l : Link) :
    (g.appendLink l).edges ⊆ (l.source.node, l.target.node) :: g.edges := by
  rw [edges_appendLink]
  exact (List.perm_append_singleton _ _).subset

theorem edges_redirect_subset (hl : g.link? link = some l) (target : Port) :
    (g.redirect link target).edges ⊆ (l.source.node, target.node) :: g.edges := by
  have hedges := (edges_redirect_perm hl target).subset
  exact List.Subset.trans hedges (List.cons_subset_cons _ List.erase_subset)

namespace Structured

/-- The structure is kept as long as no link is new or different. -/
theorem of_links (hg : g.Structured) (hnodes : ∀ id n, g'.node? id = some n → n.id = id)
    (hlinks : ∀ id l, g'.link? id = some l → g.link? id = some l)
    (hfits : ∀ id l, g'.link? id = some l → g'.Fits l.toEdge) : g'.Structured where
  node_id := hnodes _ _
  link_id hl := hg.link_id (hlinks _ _ hl)
  fits := hfits _ _
  source_inj hl hl' := hg.source_inj (hlinks _ _ hl) (hlinks _ _ hl')
  target_inj hl hl' := hg.target_inj (hlinks _ _ hl) (hlinks _ _ hl')
  acyclic := hg.acyclic.mono (edges_subset_of_links hlinks)

theorem congr (hg : g.Structured) (hnodes : ∀ id, g'.node? id = g.node? id)
    (hlinks : ∀ id, g'.link? id = g.link? id) : g'.Structured := by
  apply hg.of_links
  · intro id n hn
    rw [hnodes] at hn
    exact hg.node_id hn
  · intro id l hl
    rwa [hlinks] at hl
  · intro id l hl
    rw [hlinks] at hl
    exact (hg.fits hl).congr (hnodes _) (hnodes _)

theorem addFilter (hg : g.Structured) (name : String) (inputs outputs : List Media) :
    (g.addFilter name inputs outputs).2.Structured := by
  have hkept : ∀ {id n}, g.node? id = some n →
      (g.addFilter name inputs outputs).2.node? id = g.node? id := by
    intro id n hn
    rw [node?_addFilter, if_neg (Nat.ne_of_lt (lt_size_of_node? hn))]
  apply hg.of_links
  · intro id n hn
    rw [node?_addFilter] at hn
    split_ifs at hn with hid
    · obtain rfl := Option.some.inj hn
      exact hid.symm
    · exact hg.node_id hn
  · exact fun _ _ hl => hl
  · intro id l hl
    have hfits : g.Fits l.toEdge := hg.fits hl
    obtain ⟨⟨n, hn, -⟩, ⟨n', hn', -⟩⟩ := hfits
    exact (hg.fits hl).congr (hkept hn) (hkept hn')

theorem withoutNode (hg : g.Structured) (node : NodeId) : (g.withoutNode node).Structured := by
  have hkept : ∀ {id}, id ≠ node → (g.withoutNode node).node? id = g.node? id := by
    intro id hid
    rw [node?_withoutNode, if_neg hid]
  apply hg.of_links
  · intro id n hn
    rw [node?_withoutNode] at hn
    split_ifs at hn
    exact hg.node_id hn
  · exact fun id l hl => (link?_withoutNode_eq_some_iff.mp hl).1
  · intro id l hl
    obtain ⟨hold, hsource, htarget⟩ := link?_withoutNode_eq_some_iff.mp hl
    exact (hg.fits hold).congr (hkept hsource) (hkept htarget)

theorem appendLink (hg : g.Structured) (hid : l.id = g.links.size) (hl : g.Admits l.toEdge) :
    (g.appendLink l).Structured where
  node_id := hg.node_id
  link_id {id l'} hl' := by
    rw [link?_appendLink] at hl'
    split_ifs at hl' with hnew
    · obtain rfl := Option.some.inj hl'
      rw [hid, hnew]
    · exact hg.link_id hl'
  fits {id l'} hl' := by
    rw [link?_appendLink] at hl'
    split_ifs at hl' with hnew
    · obtain rfl := Option.some.inj hl'
      exact hl.fits.congr rfl rfl
    · exact (hg.fits hl').congr rfl rfl
  source_inj {id id' l₁ l₂} h₁ h₂ heq := by
    rw [link?_appendLink] at h₁ h₂
    split_ifs at h₁ h₂ with hid₁ hid₂ hid₂
    · rw [hid₁, hid₂]
    · obtain rfl := Option.some.inj h₁
      exact absurd heq.symm (hl.source_unused h₂)
    · obtain rfl := Option.some.inj h₂
      exact absurd heq (hl.source_unused h₁)
    · exact hg.source_inj h₁ h₂ heq
  target_inj {id id' l₁ l₂} h₁ h₂ heq := by
    rw [link?_appendLink] at h₁ h₂
    split_ifs at h₁ h₂ with hid₁ hid₂ hid₂
    · rw [hid₁, hid₂]
    · obtain rfl := Option.some.inj h₁
      exact absurd heq.symm (hl.target_unused h₂)
    · obtain rfl := Option.some.inj h₂
      exact absurd heq (hl.target_unused h₁)
    · exact hg.target_inj h₁ h₂ heq
  acyclic := (hg.acyclic.cons hl.no_path_back).mono (edges_appendLink_subset g l)

end Structured

section Insertion

variable {node : NodeId} {inPad outPad : PadId}

/-- What a link of the redirected graph was before: the one that is redirected, or itself. -/
theorem link?_redirect_cases (hl : g.link? link = some l) {target : Port} {id : LinkId} {l' : Link}
    (hl' : (g.redirect link target).link? id = some l') :
    id = link ∧ l' = { l with target } ∨ id ≠ link ∧ g.link? id = some l' := by
  rw [link?_redirect] at hl'
  split_ifs at hl' with hid
  · subst hid
    rw [hl] at hl'
    exact .inl ⟨rfl, (Option.some.inj hl').symm⟩
  · exact .inr ⟨hid, hl'⟩

theorem Structured.redirect (hg : g.Structured) (h : g.Splits link l node inPad outPad) :
    (g.redirect link ⟨node, inPad⟩).Structured where
  node_id := hg.node_id
  link_id {id l'} hl' := by
    rcases link?_redirect_cases h.live hl' with ⟨rfl, rfl⟩ | ⟨-, hold⟩
    · exact (hg.link_id h.live : l.id = id)
    · exact hg.link_id hold
  fits {id l'} hl' := by
    rcases link?_redirect_cases h.live hl' with ⟨rfl, rfl⟩ | ⟨-, hold⟩
    · obtain ⟨n, hn, hin, -⟩ := h.pads
      exact ⟨(hg.fits h.live).source, n, hn, hin⟩
    · exact (hg.fits hold).congr rfl rfl
  source_inj {id id' l₁ l₂} h₁ h₂ heq := by
    rcases link?_redirect_cases h.live h₁ with ⟨rfl, rfl⟩ | ⟨-, hold₁⟩ <;>
      rcases link?_redirect_cases h.live h₂ with ⟨rfl, rfl⟩ | ⟨-, hold₂⟩
    · rfl
    · exact hg.source_inj h.live hold₂ heq
    · exact hg.source_inj hold₁ h.live heq
    · exact hg.source_inj hold₁ hold₂ heq
  target_inj {id id' l₁ l₂} h₁ h₂ heq := by
    rcases link?_redirect_cases h.live h₁ with ⟨rfl, rfl⟩ | ⟨-, hold₁⟩ <;>
      rcases link?_redirect_cases h.live h₂ with ⟨rfl, rfl⟩ | ⟨-, hold₂⟩
    · rfl
    · exact absurd heq.symm (h.input_unused hold₂)
    · exact absurd heq (h.input_unused hold₁)
    · exact hg.target_inj hold₁ hold₂ heq
  acyclic := (hg.acyclic.cons h.not_before).mono (edges_redirect_subset h.live _)

/-- Once the link ends at the node, a link can lead from there to where it ended before. -/
theorem Splits.admits (h : g.Splits link l node inPad outPad) (hg : g.Structured) :
    (g.redirect link ⟨node, inPad⟩).Admits ⟨⟨node, outPad⟩, l.target, l.media⟩ where
  fits := by
    obtain ⟨n, hn, -, hout⟩ := h.pads
    exact ⟨⟨n, hn, hout⟩, (hg.fits h.live).target⟩
  source_unused {id l'} hl' := by
    rcases link?_redirect_cases h.live hl' with ⟨rfl, rfl⟩ | ⟨-, hold⟩
    · exact (h.output_unused h.live : l.source ≠ _)
    · exact h.output_unused hold
  target_unused {id l'} hl' := by
    rcases link?_redirect_cases h.live hl' with ⟨rfl, rfl⟩ | ⟨hne, hold⟩
    · exact fun heq => h.input_unused h.live heq.symm
    · exact fun heq => hne (hg.target_inj hold h.live heq)
  no_path_back := by
    intro hback
    have hlink : (l.source.node, l.target.node) ∈ g.edges :=
      mem_edges.mpr ⟨link, l, h.live, rfl, rfl⟩
    rcases (hback.mono (edges_redirect_subset h.live _)).of_cons with hpath | ⟨hpath, -⟩
    · exact h.not_behind hpath
    · exact acyclic_iff.mp hg.acyclic _ _ hlink hpath

end Insertion

/-- A link that is there is not the one that is added, so either change can come first. -/
theorem link?_redirect_appendLink (hl : g.link? link = some l) (hlinks : g'.links = g.links)
    (target : Port) (added : Link) (id : LinkId) :
    ((g'.appendLink added).redirect link target).link? id =
      ((g.redirect link target).appendLink added).link? id := by
  have hne : link ≠ g.links.size := Nat.ne_of_lt (lt_size_of_link? hl)
  have hsize : (g.redirect link target).links.size = g.links.size := Array.size_modify
  have hlink : g'.link? id = g.link? id := by rw [link?, hlinks, link?]
  rw [link?_redirect, link?_appendLink, link?_appendLink, link?_redirect, hsize, hlinks, hlink]
  by_cases hid : id = link
  · subst hid
    rw [if_pos rfl, if_pos rfl, if_neg hne, if_neg hne]
  · rw [if_neg hid, if_neg hid]

theorem Rereferenced.structured (h : Rereferenced g g') (hg : g.Structured) : g'.Structured := by
  apply hg.congr
  · simp only [node?, h.nodes_eq, implies_true]
  · simp only [link?, h.links_eq, implies_true]

theorem Structured.withFreshEnds (hg : g.Structured) : g.withFreshEnds.Structured :=
  hg.congr (fun _ => rfl) fun _ => rfl

theorem Change.structured {c : Command} (h : Change g c g') (hg : g.Structured) :
    g'.Structured := by
  cases h with
  | references h => exact h.structured hg
  | slots c hc => exact hg.congr (fun _ => rfl) fun _ => rfl
  | filter name inputs outputs => exact hg.addFilter name inputs outputs
  | link h =>
    rw [pushLink_eq]
    exact hg.withFreshEnds.appendLink rfl (admits_of_checkEdge h)
  | removal h => exact hg.withoutNode _
  | stuck h hmove =>
    have hmoved := (moveReferences_rereferences _ _ _).of_error hmove
    exact hmoved.structured hg.withFreshEnds
  | @insertion _ g' link node inPad outPad l h hmove =>
    have hmoved := (moveReferences_rereferences _ _ _).of_ok hmove
    have hsplits := splits_of_checkInsertion h
    -- Between the two changes the pad has two links if the new one is added first, but none if the
    -- old one is redirected first.
    have hid : g.links.size = (g.redirect link ⟨node, inPad⟩).links.size := Array.size_modify.symm
    have hboth := (hg.redirect hsplits).appendLink
      (l := g.nextLink ⟨⟨node, outPad⟩, l.target, l.media⟩) hid (hsplits.admits hg)
    apply hboth.congr
    · intro id
      show (g'.nodes[id]?).join = (g.nodes[id]?).join
      rw [hmoved.nodes_eq, Graph.withFreshEnds]
    · exact link?_redirect_appendLink hsplits.live hmoved.links_eq _ _

/-! ## The link at a pad -/

namespace Structured

theorem inputLink?_eq_some_iff (hg : g.Structured) {port : Port} :
    g.inputLink? port = some l ↔ (∃ id, g.link? id = some l) ∧ l.target = port :=
  find?_liveLinks_eq_some_iff fun _ _ _ _ => hg.target_inj

theorem outputLink?_eq_some_iff (hg : g.Structured) {port : Port} :
    g.outputLink? port = some l ↔ (∃ id, g.link? id = some l) ∧ l.source = port :=
  find?_liveLinks_eq_some_iff fun _ _ _ _ => hg.source_inj

/-- A pad has an end exactly if a link leads to it, and then it is the end of that link. -/
theorem padEnd_input_iff (hg : g.Structured) {node : NodeId} {pad : PadId} {e : LinkEnd} :
    g.padEnd node (.input pad) = .ok e ↔
      ∃ id l, g.link? id = some l ∧ l.target = ⟨node, pad⟩ ∧ l.targetEnd = e := by
  constructor
  · intro h
    unfold padEnd at h
    cases hn : g.node? node with
    | none => simp [hn] at h
    | some n =>
      cases hpad : n.inputs[pad]? with
      | none => simp [hn, hpad] at h
      | some media =>
        cases hfound : g.inputLink? ⟨node, pad⟩ with
        | none => simp [hn, hpad, hfound] at h
        | some l =>
          obtain ⟨⟨id, hl⟩, hport⟩ := hg.inputLink?_eq_some_iff.mp hfound
          exact ⟨id, l, hl, hport, by simpa [hn, hpad, hfound] using h⟩
  · intro ⟨id, l, hl, hport, hend⟩
    obtain ⟨n, hn, hpad⟩ := (hg.fits hl).target
    have hfound := hg.inputLink?_eq_some_iff.mpr ⟨⟨id, hl⟩, hport⟩
    rw [hport] at hn hpad
    simp [padEnd, hn, hpad, hfound, hend]

theorem padEnd_output_iff (hg : g.Structured) {node : NodeId} {pad : PadId} {e : LinkEnd} :
    g.padEnd node (.output pad) = .ok e ↔
      ∃ id l, g.link? id = some l ∧ l.source = ⟨node, pad⟩ ∧ l.sourceEnd = e := by
  constructor
  · intro h
    unfold padEnd at h
    cases hn : g.node? node with
    | none => simp [hn] at h
    | some n =>
      cases hpad : n.outputs[pad]? with
      | none => simp [hn, hpad] at h
      | some media =>
        cases hfound : g.outputLink? ⟨node, pad⟩ with
        | none => simp [hn, hpad, hfound] at h
        | some l =>
          obtain ⟨⟨id, hl⟩, hport⟩ := hg.outputLink?_eq_some_iff.mp hfound
          exact ⟨id, l, hl, hport, by simpa [hn, hpad, hfound] using h⟩
  · intro ⟨id, l, hl, hport, hend⟩
    obtain ⟨n, hn, hpad⟩ := (hg.fits hl).source
    have hfound := hg.outputLink?_eq_some_iff.mpr ⟨⟨id, hl⟩, hport⟩
    rw [hport] at hn hpad
    simp [padEnd, hn, hpad, hfound, hend]

end Structured

/-! ## Runs -/

theorem Structured.run (hg : g.Structured) (cs : List Command) : (g.run cs).Structured := by
  induction cs generalizing g with
  | nil => exact hg
  | cons c cs ih => exact ih ((after_change g c).structured hg)

/-- Whatever is built, and whatever happens to it then, a graph keeps its structure, what is removed
from it never comes back, and a pad leads to the end of the one link that uses it. -/
theorem run_structured (building : List Builder.Command) (cs later : List Command) :
    let g := (Builder.run .empty building).build.run cs
    g.Structured ∧ g.KeepsRemoved (g.run later) ∧
      (∀ node pad e, g.padEnd node (.input pad) = .ok e ↔
        ∃ id l, g.link? id = some l ∧ l.target = ⟨node, pad⟩ ∧ l.targetEnd = e) ∧
      ∀ node pad e, g.padEnd node (.output pad) = .ok e ↔
        ∃ id l, g.link? id = some l ∧ l.source = ⟨node, pad⟩ ∧ l.sourceEnd = e := by
  obtain ⟨commands, hbuilt⟩ := Builder.exists_graph_run building
  have hg : ((Builder.run .empty building).build.run cs).Structured := by
    rw [hbuilt]
    exact (empty_structured.run commands).run cs
  exact ⟨hg, run_keepsRemoved _ later, fun _ _ _ => hg.padEnd_input_iff,
    fun _ _ _ => hg.padEnd_output_iff⟩

end FormatNegotiation.Graph
