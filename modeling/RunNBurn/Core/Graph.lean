import RunNBurn.Library.Stopping
import RunNBurn.Library.TopologicalOrder
import RunNBurn.Tensors.Layout

/-!
# The graph of a model

Nodes are operations, edges carry a tensor from an output port to an input port.  The
scheduler runs the nodes along the edges.
-/

namespace RunNBurn
namespace Core

open Library
open Tensors (DType)

abbrev NodeId := Nat

inductive OpType where
  | matMul | add | mul | rmsNorm | layerNorm | roPE | siLU | geLU | softmax | reshape
  | transpose | gather | concat | split | cast | attention | placeholder
  | custom (name : String)
deriving DecidableEq, Repr

def OpType.display : OpType -> String
  | .matMul => "MatMul"
  | .add => "Add"
  | .mul => "Mul"
  | .rmsNorm => "RMSNorm"
  | .layerNorm => "LayerNorm"
  | .roPE => "RoPE"
  | .siLU => "SiLU"
  | .geLU => "GeLU"
  | .softmax => "Softmax"
  | .reshape => "Reshape"
  | .transpose => "Transpose"
  | .gather => "Gather"
  | .concat => "Concat"
  | .split => "Split"
  | .cast => "Cast"
  | .attention => "Attention"
  | .placeholder => "Placeholder"
  | .custom name => "Custom(" ++ name ++ ")"

/-- The errors of the graph, and those that a backend may return. -/
inductive RnbError where
  | shapeMismatch (expected got : List Nat)
  | unsupportedOp (op backend : String)
  | outOfMemory (requested available : Nat)
  | invalidGraph (text : String)
  | backendError (text : String)
deriving DecidableEq, Repr

structure Node (Attrs : Type) where
  id : NodeId
  op : OpType
  attrs : Attrs
  shape : Option (List Nat)

structure Edge where
  fromNode : NodeId
  outPort : Nat
  toNode : NodeId
  inPort : Nat
  dtype : DType
deriving DecidableEq, Repr

structure Graph (Attrs : Type) where
  nodes : List (Node Attrs)
  edges : List Edge

namespace Graph

variable {Attrs : Type}

def node (g : Graph Attrs) (id : NodeId) : Option (Node Attrs) :=
  g.nodes[id]?

def inside (g : Graph Attrs) (edge : Edge) : Bool :=
  edge.fromNode < g.nodes.length ∧ edge.toNode < g.nodes.length

def arrows (g : Graph Attrs) : List Arrow :=
  (g.edges.filter g.inside).map fun edge => ⟨edge.fromNode, edge.toNode⟩

def topologicalOrder (g : Graph Attrs) : Except RnbError (List NodeId) :=
  let order := Library.topologicalOrder g.nodes.length g.arrows
  if order.length ≠ g.nodes.length then
    .error (.invalidGraph "cycle detected in graph")
  else
    .ok order

def hasOutgoing (g : Graph Attrs) (id : NodeId) : Bool :=
  g.edges.any fun edge => edge.fromNode = id

def outputNodes (g : Graph Attrs) : List NodeId :=
  (List.range g.nodes.length).filter fun id => !g.hasOutgoing id

def inputsOf (g : Graph Attrs) (id : NodeId) : List Edge :=
  g.edges.filter fun edge => edge.toNode = id

end Graph

/-!
# Running a graph
-/

structure Backend (Attrs Tensor : Type) where
  name : String
  supportedOps : OpType -> Bool
  supportsDtype : DType -> Bool
  execute : Node Attrs -> List Tensor -> Except RnbError (List Tensor)

structure Scheduler (Attrs Tensor : Type) where
  backends : List (Backend Attrs Tensor)

abbrev Outputs (Tensor : Type) := NodeId -> Option (List Tensor)

namespace Scheduler

variable {Attrs Tensor : Type}

def inputEdges (g : Graph Attrs) (id : NodeId) : List Edge :=
  (g.inputsOf id).mergeSort fun left right => left.inPort <= right.inPort

/-- An input that is not there is left out. -/
def inputTensors (edges : List Edge) (outputs : Outputs Tensor) : List Tensor :=
  edges.filterMap fun edge =>
    (outputs edge.fromNode).bind fun tensors => tensors[edge.outPort]?

def supports (op : OpType) (edges : List Edge) (backend : Backend Attrs Tensor) : Bool :=
  backend.supportedOps op && edges.all fun edge => backend.supportsDtype edge.dtype

def execute (s : Scheduler Attrs Tensor) (g : Graph Attrs) (outputs : Outputs Tensor)
    (id : NodeId) : Except (Stop RnbError) (List Tensor) :=
  match g.node id with
  | none => .error .panic
  | some node =>
    let edges := inputEdges g id
    match s.backends.find? (supports node.op edges) with
    | none => .error (.fail (.unsupportedOp node.op.display "all"))
    | some backend => (backend.execute node (inputTensors edges outputs)).mapError .fail

section

variable (s : Scheduler Attrs Tensor) (g : Graph Attrs) (externalInputs : Outputs Tensor)

def runNode (outputs : Outputs Tensor) (id : NodeId) : Except (Stop RnbError) (Outputs Tensor) :=
  match externalInputs id with
  | some tensors => .ok (Function.update outputs id (some tensors))
  | none => do
      let tensors <- s.execute g outputs id
      return Function.update outputs id (some tensors)

def runAll :
    Except (Stop RnbError) (Outputs Tensor) := do
  let order <- g.topologicalOrder.mapError .fail
  order.foldlM (s.runNode g externalInputs) (fun _ => none)

def run :
    Except (Stop RnbError) (Outputs Tensor) := do
  let outputs <- s.runAll g externalInputs
  return fun id => if id ∈ g.outputNodes then outputs id else none

end

end Scheduler

end Core
end RunNBurn
