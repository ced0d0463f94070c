import FormatNegotiation.Registry.Command

/-! The handles of a registry in their stored form. A handle keeps its index in 32 bits, like its
generation, so that the set in cell 2^32 gets the handle of the one in cell 0. Up to that many cells
the unbounded index of `nextId` is exact. -/
namespace FormatNegotiation

/-- The handle as it is handed out, with what fits into 32 bits of its index. -/
def SetId.narrow (id : SetId) : SetId := { id with index := id.index % UInt32.size }

namespace Registry

variable {σ : Type}

/-- Stores a new set like `attach`. The slots point at the narrow handle, which is also the result.
-/
def attachNarrow (contents : σ) (slots : List SlotId) : Action σ (Option SetId) := fun r =>
  if slots.isEmpty then .ok none r
  else
    match r.checkDistinctVacant [] slots with
    | .error e => .error e r
    | .ok () =>
      let id := r.nextId.narrow
      .ok (some id) ((r.store ⟨contents, slots⟩).pointAll slots id)

variable [Mergeable σ]

/-- No other command hands out a handle. -/
def execNarrow : Command σ → Action σ (Reply σ)
  | .attach contents slots => .attached <$> attachNarrow contents slots
  | c => exec c

/-- The registry after a command with narrow handles, whether it succeeded or failed. -/
def afterNarrow (r : Registry σ) (c : Command σ) : Registry σ :=
  match execNarrow c r with
  | .ok _ r' => r'
  | .error _ r' => r'

def runNarrow (r : Registry σ) (cs : List (Command σ)) : Registry σ := cs.foldl afterNarrow r

end Registry

end FormatNegotiation
