import FormatNegotiation.Proofs.Graph.References

/-! What a command can do to a graph, said once: it moves references, or it adds or removes a filter
or a link in one of a few ways. The nodes and links afterwards are looked up by number. -/
namespace FormatNegotiation.Graph

variable {g g' : Graph}

/-! ## The parts of a change -/

/-- The ends that the next new link gets. -/
def freshEnds (g : Graph) : LinkEnd × LinkEnd :=
  (g.registries.newEnd.1, g.registries.newEnd.2.newEnd.1)

/-- The slots of two new ends are taken. -/
def withFreshEnds (g : Graph) : Graph := { g with registries := g.registries.newEnd.2.newEnd.2 }

/-- The next new link, if it makes this connection. -/
def nextLink (g : Graph) (e : Edge) : Link :=
  { e with id := g.links.size, sourceEnd := g.freshEnds.1, targetEnd := g.freshEnds.2 }

def appendLink (g : Graph) (l : Link) : Graph := { g with links := g.links.push (some l) }

/-- The node and its links are gone, and their slots are handed back. -/
def withoutNode (g : Graph) (node : NodeId) : Graph where
  nodes := g.nodes.setIfInBounds node none
  links := g.links.map (·.filter (!·.touches node))
  registries := (g.touching node).foldl
    (fun rs l => (rs.releaseEnd l.sourceEnd).releaseEnd l.targetEnd) g.registries

theorem pushLink_eq (g : Graph) (e : Edge) :
    g.pushLink e = g.withFreshEnds.appendLink (g.nextLink e) := rfl

theorem insertFilter_of_check {link : LinkId} {node : NodeId} {inPad outPad : PadId} {l : Link}
    (h : g.checkInsertion link node inPad outPad = .ok l) :
    insertFilter link node inPad outPad g =
      match moveReferences l.targetEnd g.freshEnds.2 SetKind.all g.withFreshEnds with
      | .error e g' => .error e g'
      | .ok _ g' => .ok g.links.size
        ((g'.appendLink (g.nextLink ⟨⟨node, outPad⟩, l.target, l.media⟩)).redirect link
          ⟨node, inPad⟩) := by
  unfold insertFilter
  rw [h]
  rfl

/-! ## Lookups -/

private theorem join_getElem?_push {α : Type} (xs : Array (Option α)) (x : Option α) (i : Nat) :
    ((xs.push x)[i]?).join = if i = xs.size then x else (xs[i]?).join := by
  rw [Array.getElem?_push]
  split <;> rfl

theorem lt_size_of_node? {id : NodeId} {n : FilterNode} (h : g.node? id = some n) :
    id < g.nodes.size := by
  by_contra hout
  have hnone : g.nodes[id]? = none := Array.getElem?_eq_none (Nat.le_of_not_lt hout)
  simp [node?, hnone] at h

theorem lt_size_of_link? {id : LinkId} {l : Link} (h : g.link? id = some l) :
    id < g.links.size := by
  by_contra hout
  have hnone : g.links[id]? = none := Array.getElem?_eq_none (Nat.le_of_not_lt hout)
  simp [link?, hnone] at h

theorem node?_addFilter (g : Graph) (name : String) (inputs outputs : List Media) (id : NodeId) :
    (g.addFilter name inputs outputs).2.node? id =
      if id = g.nodes.size then some ⟨g.nodes.size, name, inputs, outputs⟩ else g.node? id :=
  join_getElem?_push _ _ _

theorem link?_appendLink (g : Graph) (l : Link) (id : LinkId) :
    (g.appendLink l).link? id = if id = g.links.size then some l else g.link? id :=
  join_getElem?_push _ _ _

theorem link?_redirect (g : Graph) (link : LinkId) (target : Port) (id : LinkId) :
    (g.redirect link target).link? id =
      if id = link then (g.link? id).map fun l => { l with target } else g.link? id := by
  simp only [link?, redirect, Array.getElem?_modify]
  by_cases hid : id = link
  · subst hid
    rcases g.links[id]? with _ | _ | l <;> simp
  · rw [if_neg (Ne.symm hid), if_neg hid]

theorem node?_withoutNode (g : Graph) (node id : NodeId) :
    (g.withoutNode node).node? id = if id = node then none else g.node? id := by
  simp only [node?, withoutNode]
  by_cases hid : id = node
  · subst hid
    by_cases hb : id < g.nodes.size <;> simp [hb]
  · rw [Array.getElem?_setIfInBounds_ne (Ne.symm hid), if_neg hid]

theorem link?_withoutNode (g : Graph) (node : NodeId) (id : LinkId) :
    (g.withoutNode node).link? id = (g.link? id).filter (!·.touches node) := by
  simp only [link?, withoutNode, Array.getElem?_map]
  rcases g.links[id]? with _ | _ | l <;> rfl

theorem link?_withoutNode_eq_some_iff {node : NodeId} {id : LinkId} {l : Link} :
    (g.withoutNode node).link? id = some l ↔
      g.link? id = some l ∧ l.source.node ≠ node ∧ l.target.node ≠ node := by
  rw [link?_withoutNode, Option.filter_eq_some_iff]
  simp [Link.touches]

theorem mem_liveLinks {l : Link} : l ∈ g.liveLinks ↔ ∃ id, g.link? id = some l := by
  simp only [liveLinks, link?, List.mem_filterMap, id_eq, exists_eq_right, Array.mem_toList_iff,
    Array.mem_iff_getElem?, Option.join_eq_some_iff]

theorem mem_edges {u v : NodeId} : (u, v) ∈ g.edges ↔
    ∃ id l, g.link? id = some l ∧ l.source.node = u ∧ l.target.node = v := by
  simp only [edges, List.mem_map, mem_liveLinks, Prod.mk.injEq]
  constructor
  · rintro ⟨l, ⟨id, hl⟩, hu, hv⟩
    exact ⟨id, l, hl, hu, hv⟩
  · rintro ⟨id, l, hl, hu, hv⟩
    exact ⟨l, ⟨id, hl⟩, hu, hv⟩

theorem edges_appendLink (g : Graph) (l : Link) :
    (g.appendLink l).edges = g.edges ++ [(l.source.node, l.target.node)] := by
  simp [edges, liveLinks, appendLink, List.filterMap_append]

private theorem map_modify_perm {α β : Type} (f : α → β) (u : α → α) {xs : List (Option α)}
    {i : Nat} {x : α} (hx : xs[i]? = some (some x)) :
    (f x :: ((xs.modify i (·.map u)).filterMap id).map f).Perm
      (f (u x) :: (xs.filterMap id).map f) := by
  induction xs generalizing i with
  | nil => simp at hx
  | cons y xs ih =>
    cases i with
    | zero =>
      obtain rfl : y = some x := by simpa using hx
      exact .swap _ _ _
    | succ i =>
      have hrest := ih (by simpa using hx : xs[i]? = some (some x))
      cases y with
      | none => simpa using hrest
      | some y =>
        have hswapped := (List.Perm.swap (f y) (f x) _).trans (hrest.cons (f y))
        simpa using hswapped.trans (.swap (f (u x)) (f y) _)

/-- One edge gives way to another. Other links between the same two nodes keep theirs. -/
theorem edges_redirect_perm {link : LinkId} {l : Link} (hl : g.link? link = some l)
    (target : Port) :
    (g.redirect link target).edges.Perm
      ((l.source.node, target.node) :: g.edges.erase (l.source.node, l.target.node)) := by
  have hedge : (l.source.node, l.target.node) ∈ g.edges := mem_edges.mpr ⟨link, l, hl, rfl, rfl⟩
  have hat : g.links.toList[link]? = some (some l) := by
    rw [Array.getElem?_toList]
    exact Option.join_eq_some_iff.mp hl
  have hmoved := map_modify_perm (fun l : Link => (l.source.node, l.target.node))
    (fun l => { l with target }) hat
  have hold := (List.perm_cons_erase hedge).cons (l.source.node, target.node)
  -- The edge that is erased is put back on both sides, where it cancels.
  apply List.Perm.cons_inv (a := (l.source.node, l.target.node))
  rw [edges, liveLinks, redirect, Array.toList_modify]
  exact hmoved.trans (hold.trans (.swap _ _ _))

/-! ## The registries -/

theorem registry_withFreshEnds (g : Graph) (kind : SetKind) :
    g.withFreshEnds.registry kind = (g.registry kind).newSlot.2.newSlot.2 := by
  cases kind <;> rfl

theorem slot_freshEnds (g : Graph) (kind : SetKind) :
    g.freshEnds.1.slot kind = (g.registry kind).newSlot.1 ∧
      g.freshEnds.2.slot kind = (g.registry kind).newSlot.2.newSlot.1 := by
  cases kind <;> exact ⟨rfl, rfl⟩

theorem registry_withoutNode (g : Graph) (node : NodeId) (kind : SetKind) :
    (g.withoutNode node).registry kind =
      (g.slotsTouching node kind).foldl Registry.releaseSlot (g.registry kind) := by
  have hend : ∀ (rs : Registries) (e : LinkEnd),
      (rs.releaseEnd e).of kind = (rs.of kind).releaseSlot (e.slot kind) := by
    intro rs e
    cases kind <;> rfl
  have hfold : ∀ (ls : List Link) (rs : Registries),
      (ls.foldl (fun rs l => (rs.releaseEnd l.sourceEnd).releaseEnd l.targetEnd) rs).of kind =
        (ls.flatMap fun l => [l.sourceEnd.slot kind, l.targetEnd.slot kind]).foldl
          Registry.releaseSlot (rs.of kind) := by
    intro ls
    induction ls with
    | nil => exact fun _ => rfl
    | cons l ls ih =>
      intro rs
      rw [List.foldl_cons, ih, hend, hend]
      rfl
  exact hfold _ g.registries

/-! ## The changes -/

/-- The ways in which a command, whether it succeeds or fails, changes a graph. -/
inductive Change (g : Graph) : Command → Graph → Prop where
  | references {c : Command} {g' : Graph} (h : Rereferenced g g') : Change g c g'
  /-- A registry hands out a slot or takes one back, past the graph. -/
  | slots {kind : SetKind} (c : Registry.Command kind.Contents) (hc : c.movesSlot = true) :
    Change g (.onRegistry kind c) (g.setRegistry kind ((g.registry kind).after c))
  | filter {c : Command} (name : String) (inputs outputs : List Media) :
    Change g c (g.addFilter name inputs outputs).2
  | link {c : Command} {e : Edge} (h : g.checkEdge e = .ok ()) : Change g c (g.pushLink e)
  | removal {c : Command} {node : NodeId} {n : FilterNode} (h : g.node? node = some n) :
    Change g c (g.withoutNode node)
  /-- The new ends are taken, but the references cannot be moved to them. -/
  | stuck {c : Command} {g' : Graph} {link : LinkId} {node : NodeId} {inPad outPad : PadId}
    {l : Link} {err : FormatError} (h : g.checkInsertion link node inPad outPad = .ok l)
    (hmove : moveReferences l.targetEnd g.freshEnds.2 SetKind.all g.withFreshEnds =
      .error err g') : Change g c g'
  | insertion {c : Command} {g' : Graph} {link : LinkId} {node : NodeId} {inPad outPad : PadId}
    {l : Link} (h : g.checkInsertion link node inPad outPad = .ok l)
    (hmove : moveReferences l.targetEnd g.freshEnds.2 SetKind.all g.withFreshEnds = .ok () g') :
    Change g c ((g'.appendLink (g.nextLink ⟨⟨node, outPad⟩, l.target, l.media⟩)).redirect link
      ⟨node, inPad⟩)

theorem addLink_change (c : Command) (e : Edge) (g : Graph) :
    Change g c (stateAfter (addLink e) g) := by
  unfold stateAfter addLink
  cases hcheck : g.checkEdge e with
  | error err => exact .references (.refl g)
  | ok u => exact .link hcheck

theorem removeNode_change (c : Command) (node : NodeId) (g : Graph) :
    Change g c (stateAfter (removeNode node) g) := by
  unfold stateAfter removeNode
  cases hn : g.node? node with
  | none => exact .references (.refl g)
  | some n => exact .removal hn

theorem insertFilter_change (c : Command) (link : LinkId) (node : NodeId) (inPad outPad : PadId)
    (g : Graph) : Change g c (stateAfter (insertFilter link node inPad outPad) g) := by
  cases hcheck : g.checkInsertion link node inPad outPad with
  | error err =>
    have hres : insertFilter link node inPad outPad g = .error (.graph err) g := by
      unfold insertFilter
      rw [hcheck]
    rw [stateAfter_of_error hres]
    exact .references (.refl g)
  | ok l =>
    rw [stateAfter, insertFilter_of_check hcheck]
    cases hmove : moveReferences l.targetEnd g.freshEnds.2 SetKind.all g.withFreshEnds with
    | error err g' => exact .stuck hcheck hmove
    | ok u g' => exact .insertion hcheck hmove

/-- Every command changes the graph in one of these ways. -/
theorem after_change (g : Graph) (c : Command) : Change g c (g.after c) := by
  rw [after_eq_stateAfter]
  cases c with
  | addFilter name inputs outputs => exact .filter name inputs outputs
  | addLink edge =>
    rw [exec, stateAfter_map, stateAfter_liftStructural]
    exact addLink_change _ edge g
  | removeNode node =>
    rw [exec, stateAfter_map, stateAfter_liftStructural]
    exact removeNode_change _ node g
  | install kind contents node =>
    exact .references ((install_rereferences kind contents node).map _ g)
  | installLayouts entries node =>
    exact .references ((installLayouts_rereferences entries node).map _ g)
  | installAnyRate node => exact .references ((install_rereferences .sampleRates _ node).map _ g)
  | installAnyLayout node =>
    exact .references ((install_rereferences .channelLayouts _ node).map _ g)
  | installDefaults catalog node =>
    exact .references ((installDefaults_rereferences catalog node).map _ g)
  | negotiateLink catalog link =>
    exact .references ((negotiateLink_rereferences catalog link).map _ g)
  | insertFilter link node inPad outPad =>
    rw [exec, stateAfter_map]
    exact insertFilter_change _ link node inPad outPad g
  | onRegistry kind command =>
    rw [exec, stateAfter_map, stateAfter_onRegistry, ← Registry.after_eq_stateAfter]
    cases hmoves : command.movesSlot with
    | false => exact .references (.of_command command hmoves)
    | true => exact .slots command hmoves

end FormatNegotiation.Graph
