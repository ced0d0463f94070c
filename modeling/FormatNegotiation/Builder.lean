import FormatNegotiation.Graph.Structure

/-! Building a graph from named filters. -/
namespace FormatNegotiation

/-- Why a step of the building fails. -/
inductive BuildError where
  /-- The graph refuses the connection. -/
  | graph (error : GraphError)
  /-- No filter has this name. -/
  | missingFilter (name : String)
  /-- Another filter has this name already. -/
  | duplicateName (name : String)
deriving DecidableEq, Repr

/-- The text of an error: what the graph calls it, or the name at fault. -/
def BuildError.message : BuildError → String
  | .graph error => error.name
  | .missingFilter name => name
  | .duplicateName name => name

/-- A graph under construction, and the names of the filters added so far. -/
structure Builder where
  graph : Graph
  names : List (String × NodeId)
deriving DecidableEq, Repr

namespace Builder

/-- A step that may fail; after a failure the builder is the one that comes with the error. -/
abbrev Action (α : Type) := EStateM BuildError Builder α

def empty : Builder := ⟨.empty, []⟩

/-- Adds a filter under a name of its own. -/
def filter (name : String) (inputs outputs : List Media) : Action NodeId := fun b =>
  match b.names.lookup name with
  | some _ => .error (.duplicateName name) b
  | none =>
    let (node, graph) := b.graph.addFilter name inputs outputs
    .ok node ⟨graph, (name, node) :: b.names⟩

/-- The filter of this name. -/
def handle (b : Builder) (name : String) : Except BuildError NodeId :=
  match b.names.lookup name with
  | some node => .ok node
  | none => .error (.missingFilter name)

/-- Joins an output pad to an input pad. -/
def connect (edge : Edge) : Action Unit := fun b =>
  match Graph.addLink edge b.graph with
  | .ok _ graph => .ok () { b with graph }
  | .error e graph => .error (.graph e) { b with graph }

/-- Joins the first output of one named filter to the first input of another. -/
def connectNamed (source target : String) (media : Media) : Action Unit := fun b =>
  match b.handle source with
  | .error e => .error e b
  | .ok s =>
    match b.handle target with
    | .error e => .error e b
    | .ok t => connect ⟨⟨s, 0⟩, ⟨t, 0⟩, media⟩ b

/-- Joins each of the named filters to the next. The links made before a pair that fails stay. -/
def chain (media : Media) : List String → Action Unit
  | [] => pure ()
  | [_] => pure ()
  | source :: target :: rest => do
    connectNamed source target media
    chain media (target :: rest)

def build (b : Builder) : Graph := b.graph

/-- A step of the building, as data. Nodes may be any, issued or not. -/
inductive Command where
  | filter (name : String) (inputs outputs : List Media)
  | handle (name : String)
  | connect (edge : Edge)
  | chain (names : List String) (media : Media)
deriving DecidableEq, Repr

inductive Reply where
  | done
  | node (id : NodeId)
deriving DecidableEq, Repr

def exec : Command → Action Reply
  | .filter name inputs outputs => .node <$> filter name inputs outputs
  | .handle name => fun b =>
    match b.handle name with
    | .ok node => .ok (.node node) b
    | .error e => .error e b
  | .connect edge => (fun _ => .done) <$> connect edge
  | .chain names media => (fun _ => .done) <$> chain media names

/-- The builder after a step, whether it succeeded or failed. -/
def after (b : Builder) (c : Command) : Builder :=
  match exec c b with
  | .ok _ b' => b'
  | .error _ b' => b'

def run (b : Builder) (cs : List Command) : Builder := cs.foldl after b

end Builder

end FormatNegotiation
