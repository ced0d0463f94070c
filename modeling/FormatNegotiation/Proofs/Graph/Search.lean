import FormatNegotiation.Proofs.Graph.Structure

/-! The depth-first search with a mark for each vertex. All branches of a search share the marks, so
a branch that fails keeps the later ones from where it was. On any table of edges between vertices
that have a mark the search ends. It answers like the one that takes edges out of the table. -/
namespace FormatNegotiation

/-- A search from a vertex takes the marks made so far. It answers whether it found what it is for,
with the marks made by then. -/
abbrev MarkedSearch := Nat → Array Bool → Option (Bool × Array Bool)

/-- Searches from each of the vertices in turn, until one of the searches succeeds. -/
def searchEach (search : MarkedSearch) : List Nat → Array Bool → Option (Bool × Array Bool)
  | [], marks => some (false, marks)
  | v :: rest, marks =>
    match search v marks with
    | some (false, marks') => searchEach search rest marks'
    | answer => answer

/-- Searches for the target from a vertex, unless the vertex is marked already. There is no answer
if the search comes to a vertex that has no mark, or to more vertices, one behind the other, than
its depth allows. -/
def searchMarked (edges : List (Nat × Nat)) (target : Nat) : Nat → MarkedSearch
  | 0, _, _ => none
  | depth + 1, v, marks =>
    if v = target then some (true, marks)
    else
      match marks[v]? with
      | none => none
      | some true => some (false, marks)
      | some false =>
        let marks := marks.setIfInBounds v true
        searchEach (searchMarked edges target depth) (successors edges v) marks

/-! ## What a search leaves -/

/-- What a search from some vertices leaves. If it fails, nothing is left to do where it was: the
vertices that it marked are not the target, and their edges lead to marked ones. -/
structure Searched (edges : List (Nat × Nat)) (target : Nat) (starts : List Nat)
    (marks : Array Bool) (found : Bool) (marks' : Array Bool) : Prop where
  size_eq : marks'.size = marks.size
  unmarked_le : marks'.count false ≤ marks.count false
  keeps {u : Nat} : marks[u]? = some true → marks'[u]? = some true
  sound : found = true → ∃ v ∈ starts, HasPath edges v target
  covers : found = false → ∀ v ∈ starts, marks'[v]? = some true
  closed : found = false → ∀ u, marks'[u]? = some true →
    marks[u]? = some true ∨ u ≠ target ∧ ∀ w, (u, w) ∈ edges → marks'[w]? = some true

section Search

variable {edges : List (Nat × Nat)} {target v : Nat} {starts rest : List Nat}
  {marks marks₁ marks' : Array Bool} {found : Bool}

theorem count_false_mark (h : marks[v]? = some false) :
    (marks.setIfInBounds v true).count false + 1 = marks.count false := by
  obtain ⟨hv, hmark⟩ := Array.getElem?_eq_some_iff.mp h
  have hpos : 0 < marks.count false := Array.count_pos_iff.mpr (hmark ▸ Array.getElem_mem hv)
  rw [Array.setIfInBounds_def, dif_pos hv, Array.count_set, hmark, if_pos BEq.rfl,
    if_neg (by decide)]
  omega

namespace Searched

theorem nil (edges : List (Nat × Nat)) (target : Nat) (marks : Array Bool) :
    Searched edges target [] marks false marks where
  size_eq := rfl
  unmarked_le := Nat.le_refl _
  keeps := id
  sound h := by simp at h
  covers _ v hv := by simp at hv
  closed _ _ hu := .inl hu

theorem at_target (edges : List (Nat × Nat)) (target : Nat) (marks : Array Bool) :
    Searched edges target [target] marks true marks where
  size_eq := rfl
  unmarked_le := Nat.le_refl _
  keeps := id
  sound _ := ⟨target, List.mem_singleton_self target, .refl edges target⟩
  covers h := by simp at h
  closed h := by simp at h

theorem at_marked (h : marks[v]? = some true) : Searched edges target [v] marks false marks where
  size_eq := rfl
  unmarked_le := Nat.le_refl _
  keeps := id
  sound h := by simp at h
  covers _ u hu := by rwa [List.mem_singleton.mp hu]
  closed _ _ hu := .inl hu

/-- The search from a vertex is one from its successors, with the vertex itself marked before. -/
theorem visit (hmark : marks[v]? = some false) (hne : v ≠ target)
    (h : Searched edges target (successors edges v) (marks.setIfInBounds v true) found marks') :
    Searched edges target [v] marks found marks' := by
  have hlt : v < marks.size := (Array.getElem?_eq_some_iff.mp hmark).choose
  have hv : marks'[v]? = some true :=
    h.keeps (by rw [Array.getElem?_setIfInBounds, if_pos rfl, if_pos hlt])
  constructor
  · rw [h.size_eq, Array.size_setIfInBounds]
  · have hcount := count_false_mark hmark
    have hle := h.unmarked_le
    omega
  · intro u hu
    apply h.keeps
    rw [Array.getElem?_setIfInBounds]
    split_ifs
    · rfl
    · exact hu
  · intro hfound
    obtain ⟨s, hs, hpath⟩ := h.sound hfound
    exact ⟨v, List.mem_singleton_self v, (HasPath.of_edge (mem_successors.mp hs)).trans hpath⟩
  · intro _ u hu
    rwa [List.mem_singleton.mp hu]
  · intro hfound u hu
    by_cases huv : v = u
    · subst huv
      exact .inr ⟨hne, fun w hw => h.covers hfound w (mem_successors.mpr hw)⟩
    · have hclosed := h.closed hfound u hu
      rwa [Array.getElem?_setIfInBounds, if_neg huv] at hclosed

theorem found_first (h : Searched edges target [v] marks true marks') :
    Searched edges target (v :: rest) marks true marks' where
  size_eq := h.size_eq
  unmarked_le := h.unmarked_le
  keeps := h.keeps
  sound hfound := by
    obtain ⟨u, hu, hpath⟩ := h.sound hfound
    exact ⟨u, List.mem_cons.mpr (.inl (List.mem_singleton.mp hu)), hpath⟩
  covers h := by simp at h
  closed h := by simp at h

/-- What a search marks before it fails stays closed when others follow. -/
theorem cons (h : Searched edges target [v] marks false marks₁)
    (hrest : Searched edges target rest marks₁ found marks') :
    Searched edges target (v :: rest) marks found marks' where
  size_eq := hrest.size_eq.trans h.size_eq
  unmarked_le := Nat.le_trans hrest.unmarked_le h.unmarked_le
  keeps hu := hrest.keeps (h.keeps hu)
  sound hfound := by
    obtain ⟨u, hu, hpath⟩ := hrest.sound hfound
    exact ⟨u, List.mem_cons_of_mem v hu, hpath⟩
  covers hfound u hu := by
    rcases List.mem_cons.mp hu with rfl | hu
    · exact hrest.keeps (h.covers rfl u (List.mem_singleton_self u))
    · exact hrest.covers hfound u hu
  closed hfound u hu := by
    rcases hrest.closed hfound u hu with hmarked | hnew
    · rcases h.closed rfl u hmarked with hbefore | ⟨hne, hheads⟩
      · exact .inl hbefore
      · exact .inr ⟨hne, fun w hw => hrest.keeps (hheads w hw)⟩
    · exact .inr hnew

/-- A search that begins without marks is exact. When it fails, the marked vertices are closed under
the edges, and the target is not among them. -/
theorem found_iff {count : Nat}
    (h : Searched edges target starts (Array.replicate count false) found marks') :
    found = true ↔ ∃ v ∈ starts, HasPath edges v target := by
  refine ⟨h.sound, fun ⟨v, hv, hpath⟩ => ?_⟩
  by_contra hfound
  rw [Bool.not_eq_true] at hfound
  have hnew : ∀ u, marks'[u]? = some true →
      u ≠ target ∧ ∀ w, (u, w) ∈ edges → marks'[w]? = some true := by
    intro u hu
    refine (h.closed hfound u hu).resolve_left ?_
    simp [Array.getElem?_replicate]
  have hmarked : ∀ w, HasPath edges v w → marks'[w]? = some true := by
    intro w hw
    induction hw with
    | refl => exact h.covers hfound v hv
    | @tail u w _ hedge ih => exact (hnew u ih).2 w hedge
  exact (hnew target (hmarked target hpath)).1 rfl

end Searched

/-! ## The search ends -/

/-- From a vertex a search ends and leaves what it should, with these marks or, later on, with more
of them. -/
def Ends (search : MarkedSearch) (edges : List (Nat × Nat)) (target : Nat) (marks : Array Bool)
    (v : Nat) : Prop :=
  ∀ later : Array Bool, later.size = marks.size → later.count false ≤ marks.count false →
    ∃ found marks', search v later = some (found, marks') ∧
      Searched edges target [v] later found marks'

theorem Ends.after {search : MarkedSearch} {u : Nat} (h : Ends search edges target marks u)
    (hfirst : Searched edges target [v] marks found marks₁) :
    Ends search edges target marks₁ u := by
  intro later hsize hcount
  exact h later (hsize.trans hfirst.size_eq) (Nat.le_trans hcount hfirst.unmarked_le)

theorem searchEach_searched {search : MarkedSearch}
    (h : ∀ v ∈ starts, Ends search edges target marks v) :
    ∃ found marks', searchEach search starts marks = some (found, marks') ∧
      Searched edges target starts marks found marks' := by
  induction starts generalizing marks with
  | nil => exact ⟨false, marks, rfl, .nil edges target marks⟩
  | cons v rest ih =>
    obtain ⟨found, marks₁, hfirst, hsearched⟩ := h v List.mem_cons_self marks rfl (Nat.le_refl _)
    cases found with
    | true => exact ⟨true, marks₁, by rw [searchEach, hfirst], hsearched.found_first⟩
    | false =>
      obtain ⟨found, marks', hrest, hsearched'⟩ :=
        ih fun u hu => (h u (List.mem_cons_of_mem v hu)).after hsearched
      exact ⟨found, marks', by rw [searchEach, hfirst]; exact hrest, hsearched.cons hsearched'⟩

/-- On the way from one vertex to the next a mark is made, so a search gets no deeper than there are
vertices without a mark. -/
theorem searchMarked_searched {depth : Nat} (hheads : ∀ u w, (u, w) ∈ edges → w < marks.size)
    (hv : v < marks.size) (hdepth : marks.count false < depth) :
    ∃ found marks', searchMarked edges target depth v marks = some (found, marks') ∧
      Searched edges target [v] marks found marks' := by
  induction depth generalizing v marks with
  | zero => omega
  | succ depth ih =>
    rw [searchMarked]
    by_cases htarget : v = target
    · subst htarget
      exact ⟨true, marks, if_pos rfl, .at_target edges v marks⟩
    · rw [if_neg htarget]
      cases hmark : marks[v]? with
      | none => simp [hv] at hmark
      | some marked =>
        cases marked with
        | true => exact ⟨false, marks, rfl, .at_marked hmark⟩
        | false =>
          have hcount := count_false_mark hmark
          have hnext : ∀ w ∈ successors edges v, Ends (searchMarked edges target depth) edges target
              (marks.setIfInBounds v true) w := by
            intro w hw later hsize hle
            rw [Array.size_setIfInBounds] at hsize
            refine ih (fun u w hedge => hsize ▸ hheads u w hedge) ?_ (by omega)
            exact hsize ▸ hheads v w (mem_successors.mp hw)
          obtain ⟨found, marks', heq, hsearched⟩ := searchEach_searched hnext
          exact ⟨found, marks', heq, hsearched.visit hmark htarget⟩

theorem searchMarked_eq_reaches {count start depth : Nat}
    (hheads : ∀ u w, (u, w) ∈ edges → w < count) (hstart : start < count) (hdepth : count < depth) :
    ∃ marks, searchMarked edges target depth start (Array.replicate count false) =
      some (reaches edges start target, marks) := by
  have hsize : (Array.replicate count false).size = count := Array.size_replicate
  have hunmarked : (Array.replicate count false).count false < depth := by
    rwa [Array.count_replicate_self]
  have hends : ∃ found marks,
      searchMarked edges target depth start (Array.replicate count false) = some (found, marks) ∧
        Searched edges target [start] (Array.replicate count false) found marks :=
    searchMarked_searched (fun u w hedge => hsize.symm ▸ hheads u w hedge) (hsize.symm ▸ hstart)
      hunmarked
  obtain ⟨found, marks, heq, hsearched⟩ := hends
  have hfound : found = reaches edges start target := by
    rw [Bool.eq_iff_iff, hsearched.found_iff, reaches_iff]
    simp
  exact ⟨marks, hfound ▸ heq⟩

end Search

/-- A target is reached if it is the start, or a path along one edge or more leads to it. -/
theorem reaches_iff_eq_or_transGen (edges : List (Nat × Nat)) (start target : Nat) :
    reaches edges start target ↔
      start = target ∨ Relation.TransGen (fun u v => (u, v) ∈ edges) start target := by
  rw [reaches_iff, HasPath, Relation.reflTransGen_iff_eq_or_transGen, eq_comm]

/-- The marked search is exact on any table of edges that lead to vertices with a mark, cycles or
not, if it may get deeper than there are vertices. It is so for the live links of a graph, whatever
is done to it, and then the graph's own search from a number that was issued agrees with it. -/
theorem searches_exact :
    (∀ (edges : List (Nat × Nat)) (count start target depth : Nat),
      (∀ u v, (u, v) ∈ edges → v < count) → start < count → count < depth →
        (∃ marks, searchMarked edges target depth start (Array.replicate count false) =
          some (reaches edges start target, marks)) ∧
        (reaches edges start target ↔
          start = target ∨ Relation.TransGen (fun u v => (u, v) ∈ edges) start target)) ∧
    ∀ (building : List Builder.Command) (cs : List Graph.Command),
      let g := (Builder.run .empty building).build.run cs
      ∀ start target depth, start < g.nodes.size → g.nodes.size < depth →
        (∃ marks, searchMarked g.edges target depth start (Array.replicate g.nodes.size false) =
          some (g.reaches start target, marks)) ∧
        (g.reaches start target ↔ start = target ∨ Relation.TransGen (fun u v =>
          ∃ id l, g.link? id = some l ∧ l.source.node = u ∧ l.target.node = v) start target) := by
  constructor
  · intro edges count start target depth hheads hstart hdepth
    have hpath := reaches_iff_eq_or_transGen edges start target
    exact ⟨searchMarked_eq_reaches hheads hstart hdepth, hpath⟩
  · intro building cs g start target depth hstart hdepth
    obtain ⟨commands, hbuilt⟩ := Builder.exists_graph_run building
    have hg : g.Structured := by
      show ((Builder.run .empty building).build.run cs).Structured
      rw [hbuilt]
      exact (Graph.empty_structured.run commands).run cs
    have hheads : ∀ u v, (u, v) ∈ g.edges → v < g.nodes.size := by
      intro u v huv
      obtain ⟨id, l, hl, -, rfl⟩ := Graph.mem_edges.mp huv
      obtain ⟨n, hn, -⟩ := (hg.fits hl).target
      exact Graph.lt_size_of_node? hn
    have hpath := reaches_iff_eq_or_transGen g.edges start target
    simp only [Graph.mem_edges] at hpath
    exact ⟨searchMarked_eq_reaches hheads hstart hdepth, hpath⟩

/-- On a cycle with a way out the search goes round once. It finds the vertex behind the way out,
and fails to find one that no edge leads to. -/
theorem searches_exact_cycle :
    let edges := [(0, 1), (1, 2), (2, 0), (1, 3)]
    (∃ marks, searchMarked edges 3 6 2 (Array.replicate 5 false) = some (true, marks)) ∧
      ∃ marks, searchMarked edges 4 6 2 (Array.replicate 5 false) = some (false, marks) := by
  intro edges
  have hheads : ∀ u v, (u, v) ∈ edges → v < 5 := by
    intro u v huv
    simp only [edges, List.mem_cons, Prod.mk.injEq, List.not_mem_nil, or_false] at huv
    omega
  have hfound : reaches edges 2 3 = true := by
    simp [edges, reaches, searchEdges, successors, edgesElsewhere]
  have hmissed : reaches edges 2 4 = false := by
    simp [edges, reaches, searchEdges, successors, edgesElsewhere]
  obtain ⟨⟨marks, hmarks⟩, -⟩ := searches_exact.1 edges 5 2 3 6 hheads (by decide) (by decide)
  obtain ⟨⟨marks', hmarks'⟩, -⟩ := searches_exact.1 edges 5 2 4 6 hheads (by decide) (by decide)
  rw [hfound] at hmarks
  rw [hmissed] at hmarks'
  exact ⟨⟨marks, hmarks⟩, marks', hmarks'⟩

end FormatNegotiation
