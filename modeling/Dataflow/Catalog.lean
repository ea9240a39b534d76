/-
  The standard nodes.

  The behaviours of the catalog form one type, so that a graph of standard nodes is plain data.
  Only a bridge has a memory; every other behaviour is the same after each of its bodies.
-/

import Dataflow.Catalog.Bridge
import Dataflow.Catalog.Signal
import Dataflow.Catalog.Tensor

namespace Dataflow

/-- A behaviour of the catalog. -/
inductive Catalog where
  | inert
  | constant
  | watch
  | sum
  | emitter
  | counter
  | recorder
  /-- Keeps a terminal in step; knows the name it registered. -/
  | bridge (direction : Direction) (registered : Option String)
  /-- Gives a shape of so many dimensions. -/
  | source (rank : Nat)
  | layer (rule : Shape.Rule)

namespace Catalog

/-! ## Behaviours -/

/-- Whether a behaviour has a body. -/
def hasBody : Catalog → Bool
  | inert => false
  | _ => true

/-- Whether a behaviour handles events itself. -/
def handlesEvents : Catalog → Bool
  | counter => true
  | _ => false

instance : Kind Catalog where
  inert := inert
  canExecute := hasBody
  acceptsActions := handlesEvents
  told b _ := b
  acceptsLink _ _ _ := true
  keepsOld _ _ _ := false
  annotate _ r := r

variable {B σ : Type}

/-- What a behaviour without memory does when its node runs. -/
def execute (b : Catalog) (id : NodeId) (payload : Option Value) : Body B σ Ending :=
  match b with
  | constant => giveConstant id
  | sum => giveSum id
  | emitter => emit id
  | source rank => giveShape rank id
  | layer rule => mapShape rule id
  | watch => showInput id >>= fun _ => return .ok ()
  | counter => giveCount id >>= fun _ => return .ok ()
  | recorder => recordEvent id payload >>= fun _ => return .ok ()
  | inert | bridge .. => return .ok ()

/-- The body of a behaviour: the behaviour as it is then, and the result. -/
def body (b : Catalog) (id : NodeId) (task : Task) :
    Body B σ (Catalog × Ending) :=
  match b, task with
  | bridge d registered, .added => do
    let registered ← sync d registered id
    return (bridge d registered, .ok ())
  | bridge d registered, .execute _ => do
    let registered ← syncAndCarry d registered id
    return (bridge d registered, .ok ())
  | counter, .act action _ => do
    let result ← count id action
    return (counter, result)
  | b, .execute payload => do
    let result ← b.execute id payload
    return (b, result)
  | b, _ => return (b, .ok ())

instance : Behavior Catalog Unit where
  body b id task := do
    let ended ← b.body id task
    return ⟨ended.1, ended.2⟩

/-! ## Types -/

/-- The type of slots for numbers. -/
def numbers : SlotType := .named "number"

/-- The type of slots for shapes. -/
def tensors : SlotType := .named "tensor"

section Types

variable [Kind B] (of : Catalog → B)

/-- A type with a description and a behaviour of the catalog. -/
def stock (id title description : String) (b : Catalog) : NodeType B :=
  { (NodeType.new id title : NodeType B) with description, behavior := of b }

/-- Gives a number. -/
def constantType : NodeType B :=
  { stock of "basic/const_number" "Const Number" "Constant number" .constant with
    outputs := [.new "value" numbers], attributes := [.shown "value" (.float 1.0)] }

/-- Shows what it is fed. -/
def watchType : NodeType B :=
  { stock of "basic/watch" "Watch" "Show value of input" .watch with
    inputs := [.new "value" .any], size := some ⟨60.0, 20.0⟩ }

/-- Adds two numbers. -/
def sumType : NodeType B :=
  { stock of "basic/sum" "Sum" "Add two numbers" .sum with
    inputs := [.new "A" numbers, .new "B" numbers], outputs := [.new "A+B" numbers]
    attributes := [.shown "A" (.float 0.0), .shown "B" (.float 0.0)] }

/-- Sends events. -/
def emitterType : NodeType B :=
  { stock of "events/emitter" "Emitter" "Fires an event every tick" .emitter with
    outputs := [.new "on_tick" .event] }

/-- Counts events. -/
def counterType : NodeType B :=
  { stock of "events/counter" "Counter" "Counts incoming events" .counter with
    inputs := [.new "inc" .event, .new "reset" .event], outputs := [.new "count" numbers]
    attributes := [.shown "count" (.int 0)] }

/-- Records events. -/
def recorderType : NodeType B :=
  { stock of "events/log" "Log" "Records every payload it is triggered with" .recorder with
    inputs := [.new "event" .event], mode := .onTrigger
    attributes := [.shown "entries" (.arr [])] }

/-- What a bridge can be told about its terminal. -/
def bridgeAttributes : List Attribute := [.shown "name" (.str ""), .shown "type" (.str "*")]

/-- Carries a value into the graph. -/
def inletType : NodeType B :=
  { stock of "graph/input" "Input" "Input of the graph" (.bridge .input none) with
    outputs := [.new "value" .any], attributes := bridgeAttributes }

/-- Carries a value out of the graph. -/
def outletType : NodeType B :=
  { stock of "graph/output" "Output" "Output of the graph" (.bridge .output none) with
    inputs := [.new "value" .any], attributes := bridgeAttributes }

/-- A type that gives shapes. -/
def sourceType (name : String) (rank : Nat) (size : Value) : NodeType B :=
  { stock of ("tensor/" ++ name) name "torch.Tensor" (.source rank) with
    outputs := [.new "out" tensors], attributes := [.shown "size" size] }

/-- A type that maps shapes. -/
def layerType (name package : String) (rule : Shape.Rule) (attributes : List Attribute) :
    NodeType B :=
  { stock of ("layer/" ++ name) name ("torch.nn.modules." ++ package) (.layer rule) with
    inputs := [.new "in" tensors], outputs := [.new "out" tensors], attributes }

/-- A convolution over some axes. -/
def convolutionType (name : String) (axes : Nat) : NodeType B :=
  let each (n : Int) : Value := .ofInts (List.replicate axes n)
  layerType of name "conv" (.convolution axes)
    [.hidden "output_padding", .hidden "in_channels", .hidden "out_channels",
      .shown "groups" (.int 1), .shown "transposed" (.bool false), .shown "kernel_size" (each 3),
      .shown "padding" (each 0), .shown "dilation" (each 1), .shown "stride" (each 1),
      .shown "bias" (.bool true)]

/-- An activation, which keeps the shape. -/
def activationType (name : String) (attributes : List Attribute) : NodeType B :=
  layerType of name "activation" .identity attributes

/-- A linear layer. -/
def linearType : NodeType B :=
  layerType of "Linear" "linear" .linear
    [.hidden "in_features", .hidden "out_features", .shown "bias" (.bool true)]

/-- A rectifier. -/
def rectifierType : NodeType B :=
  activationType of "ReLU"
    [.preset "inplace" (.bool false), .shown "threshold" (.int 0), .shown "value" (.int 0)]

/-- Pooling by the maximum. -/
def maxPoolType : NodeType B :=
  layerType of "MaxPool2d" "pooling" (.maxPool 2)
    [.shown "kernel_size" (.ofInts [2, 2]), .shown "stride" .null, .shown "padding" (.int 0),
      .shown "dilation" (.int 1), .shown "return_indices" (.bool false), .hidden "ceil_mode"]

/-- Pooling by the average. -/
def averagePoolType : NodeType B :=
  layerType of "AvgPool2d" "pooling" (.averagePool 2)
    [.shown "kernel_size" (.ofInts [2, 2]), .shown "stride" .null, .shown "padding" (.int 0),
      .shown "count_include_pad" (.bool true), .hidden "ceil_mode"]

/-- Pooling to a given size. -/
def adaptivePoolType : NodeType B :=
  layerType of "AdaptiveAvgPool2d" "pooling" (.adaptivePool 2)
    [.shown "output_size" (.ofInts [1, 1])]

/-- Normalisation of channels. -/
def normType : NodeType B :=
  layerType of "BatchNorm2d" "batchnorm" .batchNorm
    [.hidden "num_features", .shown "eps" (.float 1e-05), .shown "momentum" (.float 0.1),
      .shown "affine" (.bool true), .shown "track_running_stats" (.bool true)]

/-- Dropout, which keeps the shape. -/
def dropoutType : NodeType B :=
  layerType of "Dropout" "dropout" .identity
    [.preset "inplace" (.bool false), .shown "p" (.float 0.5)]

/-- Flattening of dimensions. -/
def flattenType : NodeType B :=
  layerType of "Flatten" "flatten" .flatten
    [.shown "start_dim" (.int 1), .shown "end_dim" (.int (-1))]

/-- The types that handle shapes. -/
def tensorTypes : List (NodeType B) :=
  [sourceType of "Tensor1d" 1 (.int 128),
    sourceType of "Tensor2d" 2 (.ofInts [128, 128]),
    sourceType of "Tensor3d" 3 (.ofInts [3, 128, 128]),
    sourceType of "Tensor4d" 4 (.ofInts [1, 3, 128, 128]),
    convolutionType of "Conv1d" 1, convolutionType of "Conv2d" 2, linearType of, rectifierType of,
    activationType of "Sigmoid" [], activationType of "Tanh" [], activationType of "Softmax" [],
    maxPoolType of, averagePoolType of, adaptivePoolType of, normType of, dropoutType of,
    flattenType of]

/-- The types of the standard nodes. -/
def types : List (NodeType B) :=
  [constantType of, watchType of, sumType of, emitterType of, counterType of, recorderType of,
    inletType of, outletType of] ++ tensorTypes of

/-- The registry of the standard nodes, for behaviours into which those of the catalog can be
put. -/
def registry : Registry B :=
  (types of).foldl Registry.register (∅ : Assoc String (NodeType B))

end Types

end Catalog

end Dataflow
