import FormatNegotiation.Proofs.Graph.Changes

/-! The numbers of nodes and links are given once: what is removed does not come back. -/
namespace FormatNegotiation.Graph

variable {g g' : Graph}

/-- What was removed from the first graph is not part of the second one either. -/
structure KeepsRemoved (g g' : Graph) : Prop where
  nodes_le : g.nodes.size ≤ g'.nodes.size
  links_le : g.links.size ≤ g'.links.size
  node_removed {id : NodeId} : id < g.nodes.size → g.node? id = none → g'.node? id = none
  link_removed {id : LinkId} : id < g.links.size → g.link? id = none → g'.link? id = none

namespace KeepsRemoved

theorem of_eq (hnodes : g'.nodes = g.nodes) (hlinks : g'.links = g.links) : g.KeepsRemoved g' where
  nodes_le := hnodes ▸ Nat.le_refl _
  links_le := hlinks ▸ Nat.le_refl _
  node_removed _ h := by rwa [node?, hnodes]
  link_removed _ h := by rwa [link?, hlinks]

theorem trans {g'' : Graph} (h : g.KeepsRemoved g') (h' : g'.KeepsRemoved g'') :
    g.KeepsRemoved g'' where
  nodes_le := Nat.le_trans h.nodes_le h'.nodes_le
  links_le := Nat.le_trans h.links_le h'.links_le
  node_removed hid hnone :=
    h'.node_removed (Nat.lt_of_lt_of_le hid h.nodes_le) (h.node_removed hid hnone)
  link_removed hid hnone :=
    h'.link_removed (Nat.lt_of_lt_of_le hid h.links_le) (h.link_removed hid hnone)

theorem addFilter (g : Graph) (name : String) (inputs outputs : List Media) :
    g.KeepsRemoved (g.addFilter name inputs outputs).2 where
  nodes_le := by simp [Graph.addFilter]
  links_le := Nat.le_refl _
  node_removed hid hnone := by rwa [node?_addFilter, if_neg (Nat.ne_of_lt hid)]
  link_removed _ hnone := hnone

theorem appendLink (g : Graph) (l : Link) : g.KeepsRemoved (g.appendLink l) where
  nodes_le := Nat.le_refl _
  links_le := by simp [Graph.appendLink]
  node_removed _ hnone := hnone
  link_removed hid hnone := by rwa [link?_appendLink, if_neg (Nat.ne_of_lt hid)]

theorem redirect (g : Graph) (link : LinkId) (target : Port) :
    g.KeepsRemoved (g.redirect link target) where
  nodes_le := Nat.le_refl _
  links_le := by simp [Graph.redirect]
  node_removed _ hnone := hnone
  link_removed _ hnone := by simp [link?_redirect, hnone]

theorem withoutNode (g : Graph) (node : NodeId) : g.KeepsRemoved (g.withoutNode node) where
  nodes_le := by simp [Graph.withoutNode]
  links_le := by simp [Graph.withoutNode]
  node_removed _ hnone := by simp [node?_withoutNode, hnone]
  link_removed _ hnone := by simp [link?_withoutNode, hnone]

end KeepsRemoved

theorem Rereferenced.keepsRemoved (h : Rereferenced g g') : g.KeepsRemoved g' :=
  .of_eq h.nodes_eq h.links_eq

theorem Change.keepsRemoved {c : Command} (h : Change g c g') : g.KeepsRemoved g' := by
  have hfresh : g.KeepsRemoved g.withFreshEnds := .of_eq rfl rfl
  cases h with
  | references h => exact h.keepsRemoved
  | slots c hc => exact .of_eq rfl rfl
  | filter name inputs outputs => exact .addFilter g name inputs outputs
  | link h => exact hfresh.trans (.appendLink _ _)
  | removal h => exact .withoutNode g _
  | stuck h hmove =>
    exact hfresh.trans ((moveReferences_rereferences _ _ _).of_error hmove).keepsRemoved
  | insertion h hmove =>
    have hmoved := ((moveReferences_rereferences _ _ _).of_ok hmove).keepsRemoved
    exact ((hfresh.trans hmoved).trans (.appendLink _ _)).trans (.redirect _ _ _)

theorem run_keepsRemoved (g : Graph) (cs : List Command) : g.KeepsRemoved (g.run cs) := by
  induction cs generalizing g with
  | nil => exact .of_eq rfl rfl
  | cons c cs ih => exact (after_change g c).keepsRemoved.trans (ih (g.after c))

end FormatNegotiation.Graph
