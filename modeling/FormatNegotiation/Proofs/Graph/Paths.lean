import FormatNegotiation.Graph.Reachability
import Mathlib.Logic.Relation

/-! Paths in a table of directed edges. The search for a path is exact on any table, and a table
without cycles keeps none when edges are added that no path leads back along. -/
namespace FormatNegotiation

variable {α : Type} {edges edges' : List (α × α)} {x y u v w : α}

/-- The edges lead from one vertex to another, in any number of steps. -/
def HasPath (edges : List (α × α)) : α → α → Prop := Relation.ReflTransGen fun u v => (u, v) ∈ edges

/-- No path along one edge or more comes back to where it began. -/
def Acyclic (edges : List (α × α)) : Prop :=
  ∀ v, ¬ Relation.TransGen (fun u w => (u, w) ∈ edges) v v

namespace HasPath

theorem refl (edges : List (α × α)) (v : α) : HasPath edges v v := Relation.ReflTransGen.refl

theorem of_edge (h : (u, v) ∈ edges) : HasPath edges u v := Relation.ReflTransGen.single h

theorem trans (h : HasPath edges u v) (h' : HasPath edges v w) : HasPath edges u w :=
  Relation.ReflTransGen.trans h h'

theorem mono (h : HasPath edges u v) (hsub : edges ⊆ edges') : HasPath edges' u v :=
  Relation.ReflTransGen.mono (fun _ _ he => hsub he) u v h

/-- A path that uses a new edge gets to where it starts, and goes on from where it ends. -/
theorem of_cons (h : HasPath ((x, y) :: edges) u v) :
    HasPath edges u v ∨ HasPath edges u x ∧ HasPath edges y v := by
  induction h with
  | refl => exact .inl (refl edges u)
  | @tail v w _ hstep ih =>
    rcases List.mem_cons.mp hstep with hnew | hold
    · obtain ⟨rfl, rfl⟩ := Prod.mk.inj hnew
      have hto : HasPath edges u v := ih.elim id And.left
      exact .inr ⟨hto, refl edges w⟩
    · have hlast : HasPath edges v w := of_edge hold
      rcases ih with huv | ⟨hux, hyv⟩
      · exact .inl (huv.trans hlast)
      · exact .inr ⟨hux, hyv.trans hlast⟩

end HasPath

/-! ## The search -/

section Search

variable [DecidableEq α]

theorem mem_successors : w ∈ successors edges v ↔ (v, w) ∈ edges := by
  simp [successors]

theorem mem_edgesElsewhere : (u, w) ∈ edgesElsewhere edges v ↔ (u, w) ∈ edges ∧ u ≠ v := by
  simp [edgesElsewhere]

theorem edgesElsewhere_subset (edges : List (α × α)) (v : α) : edgesElsewhere edges v ⊆ edges :=
  List.filter_sublist.subset

/-- After its last visit to a vertex a path uses none of the edges that leave it. -/
theorem HasPath.avoids (h : HasPath edges u w) (v : α) :
    HasPath (edgesElsewhere edges v) u w ∨
      ∃ s ∈ successors edges v, HasPath (edgesElsewhere edges v) s w := by
  induction h using Relation.ReflTransGen.head_induction_on with
  | refl => exact .inl (.refl _ _)
  | @head p q hstep _ ih =>
    by_cases hp : p = v
    · subst hp
      rcases ih with hq | hlater
      · exact .inr ⟨q, mem_successors.mpr hstep, hq⟩
      · exact .inr hlater
    · have hkept : HasPath (edgesElsewhere edges v) p q :=
        .of_edge (mem_edgesElsewhere.mpr ⟨hstep, hp⟩)
      exact ih.imp hkept.trans id

/-- From a vertex that is not the target, a path goes on from one of its successors and does not
come back. -/
theorem HasPath.from_successor (h : HasPath edges v w) (hne : v ≠ w) :
    ∃ s ∈ successors edges v, HasPath (edgesElsewhere edges v) s w := by
  rcases h.avoids v with hstuck | hfrom
  · rcases Relation.ReflTransGen.cases_head hstuck with heq | ⟨s, hs, -⟩
    · exact absurd heq hne
    · exact absurd rfl (mem_edgesElsewhere.mp hs).2
  · exact hfrom

/-- The search succeeds exactly if the target can be reached from a vertex to do, though edges that
were followed before are gone. -/
theorem searchEdges_iff (target : α) (edges : List (α × α)) (todo : List α) :
    searchEdges target edges todo ↔ ∃ v ∈ todo, HasPath edges v target := by
  induction edges, todo using searchEdges.induct target with
  | case1 edges => simp [searchEdges]
  | case2 edges todo =>
    rw [searchEdges, if_pos rfl]
    exact iff_of_true rfl ⟨target, List.mem_cons_self, .refl edges target⟩
  | case3 edges v todo hne ih =>
    rw [searchEdges, if_neg hne, ih]
    simp only [List.mem_append, List.mem_cons]
    constructor
    · rintro ⟨s, hs | hs, hpath⟩
      · have hrest := hpath.mono (edgesElsewhere_subset edges v)
        exact ⟨v, .inl rfl, (HasPath.of_edge (mem_successors.mp hs)).trans hrest⟩
      · exact ⟨s, .inr hs, hpath.mono (edgesElsewhere_subset edges v)⟩
    · rintro ⟨s, rfl | hs, hpath⟩
      · obtain ⟨s', hs', hpath'⟩ := hpath.from_successor hne
        exact ⟨s', .inl hs', hpath'⟩
      · rcases hpath.avoids v with hpath' | ⟨s', hs', hpath'⟩
        · exact ⟨s, .inr hs, hpath'⟩
        · exact ⟨s', .inl hs', hpath'⟩

theorem reaches_iff (edges : List (α × α)) (start target : α) :
    FormatNegotiation.reaches edges start target ↔ HasPath edges start target := by
  rw [FormatNegotiation.reaches, searchEdges_iff]
  simp

end Search

/-! ## Cycles -/

theorem acyclic_iff : Acyclic edges ↔ ∀ u v, (u, v) ∈ edges → ¬ HasPath edges v u := by
  simp only [Acyclic, Relation.TransGen.head'_iff, not_exists, not_and]
  rfl

theorem acyclic_nil : Acyclic ([] : List (α × α)) := by
  rw [acyclic_iff]
  simp

namespace Acyclic

theorem mono (h : Acyclic edges') (hsub : edges ⊆ edges') : Acyclic edges := by
  rw [acyclic_iff] at h ⊢
  intro u v huv hpath
  exact h u v (hsub huv) (hpath.mono hsub)

/-- A new edge closes no cycle if no path leads back from its target to its source. -/
theorem cons (h : Acyclic edges) (hback : ¬ HasPath edges y x) : Acyclic ((x, y) :: edges) := by
  rw [acyclic_iff] at h ⊢
  intro u v huv hpath
  rcases List.mem_cons.mp huv with hnew | hold
  · obtain ⟨rfl, rfl⟩ := Prod.mk.inj hnew
    exact hback (hpath.of_cons.elim id And.right)
  · rcases hpath.of_cons with hvu | ⟨hvx, hyu⟩
    · exact h u v hold hvu
    · exact hback (hyu.trans ((HasPath.of_edge hold).trans hvx))

/-- A new edge closes a cycle exactly if a path leads back along the old ones. An edge from a vertex
to itself always does. -/
theorem cons_iff (h : Acyclic edges) : Acyclic ((x, y) :: edges) ↔ ¬ HasPath edges y x := by
  refine ⟨fun hnew hback => ?_, h.cons⟩
  have hback' : HasPath ((x, y) :: edges) y x := hback.mono (List.subset_cons_self _ _)
  exact acyclic_iff.mp hnew x y List.mem_cons_self hback'

/-- Splitting an edge around a vertex closes a cycle exactly if a path led from the vertex to where
the edge starts, or to the vertex from where it ends. The edge that is split goes away, but no such
path needs it. -/
theorem split_iff [DecidableEq α] (h : Acyclic edges) (hedge : (x, y) ∈ edges) (v : α) :
    Acyclic ((x, v) :: (v, y) :: edges.erase (x, y)) ↔
      ¬ HasPath edges v x ∧ ¬ HasPath edges y v := by
  have hsub : edges.erase (x, y) ⊆ edges := List.erase_subset
  have hsplit : edges ⊆ (x, y) :: edges.erase (x, y) := (List.perm_cons_erase hedge).subset
  constructor
  · intro hnew
    rw [acyclic_iff] at hnew
    have hrest : edges.erase (x, y) ⊆ (x, v) :: (v, y) :: edges.erase (x, y) :=
      fun _ he => List.mem_cons_of_mem _ (List.mem_cons_of_mem _ he)
    constructor
    · intro hpath
      have hkept : HasPath (edges.erase (x, y)) v x := (hpath.mono hsplit).of_cons.elim id And.left
      exact hnew x v List.mem_cons_self (hkept.mono hrest)
    · intro hpath
      have hkept : HasPath (edges.erase (x, y)) y v := (hpath.mono hsplit).of_cons.elim id And.right
      exact hnew v y (List.mem_cons_of_mem _ List.mem_cons_self) (hkept.mono hrest)
  · intro ⟨hbefore, hbehind⟩
    have hout : Acyclic ((v, y) :: edges.erase (x, y)) :=
      (h.mono hsub).cons fun hpath => hbehind (hpath.mono hsub)
    apply hout.cons
    intro hpath
    rcases hpath.of_cons with hvx | ⟨-, hyx⟩
    · exact hbefore (hvx.mono hsub)
    · exact acyclic_iff.mp h x y hedge (hyx.mono hsub)

end Acyclic

end FormatNegotiation
