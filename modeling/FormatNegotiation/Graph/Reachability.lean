/-! Reachability in a finite table of directed edges, by a search that follows each edge at most
once. -/
namespace FormatNegotiation

variable {α : Type} [DecidableEq α]

/-- The heads of the edges that leave a vertex. -/
def successors (edges : List (α × α)) (v : α) : List α := (edges.filter (·.1 = v)).map (·.2)

/-- The edges that leave some other vertex. -/
def edgesElsewhere (edges : List (α × α)) (v : α) : List (α × α) := edges.filter (·.1 ≠ v)

theorem length_edgesElsewhere_add_length_successors (edges : List (α × α)) (v : α) :
    (edgesElsewhere edges v).length + (successors edges v).length = edges.length := by
  induction edges with
  | nil => rfl
  | cons e rest ih =>
    simp only [edgesElsewhere, successors, List.length_map] at ih ⊢
    by_cases h : e.1 = v <;> simp [h] <;> simp at ih <;> omega

/-- Whether the target is among the vertices to do, or can be reached from one of them. The edges
that leave a vertex are taken out of the table when it is visited, so the search ends on any table,
with cycles or without. -/
def searchEdges (target : α) (edges : List (α × α)) : List α → Bool
  | [] => false
  | v :: todo =>
    if v = target then true
    else searchEdges target (edgesElsewhere edges v) (successors edges v ++ todo)
termination_by todo => edges.length + todo.length
decreasing_by
  have := length_edgesElsewhere_add_length_successors edges v
  simp only [List.length_append, List.length_cons]
  omega

/-- Whether there is a path, of any length, along the edges. -/
def reaches (edges : List (α × α)) (start target : α) : Bool := searchEdges target edges [start]

end FormatNegotiation
