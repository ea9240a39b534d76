/-
  How the layers of a network map shapes.

  A shape is a list of integers.  Each rule takes the shape of the input and the attributes of
  the layer and gives the shape of the output, or the reason why the layer does not accept the
  input.  All arithmetic is on integers, and every result is checked to fit a word, so a shape
  is exact or refused.
-/

import Dataflow.Shape.Attributes

namespace Dataflow.Shape

open Numeric (word?)

/-- A shape: the extent of each dimension. -/
abbrev Dims := List Int

/-- How a layer maps its input shape; `axes` counts the spatial dimensions. -/
inductive Rule where
  | identity
  | convolution (axes : Nat)
  | maxPool (axes : Nat)
  | averagePool (axes : Nat)
  | adaptivePool (axes : Nat)
  | linear
  | batchNorm
  | flatten
deriving DecidableEq, Repr

/-! ## Checks -/

/-- Fails the layer. -/
def refuse {α : Type} (fault : ShapeFault) : Except NodeError α := .error (.shapeMismatch fault)

/-- An integer that has to fit a word. -/
def checked (n : Int) : Except NodeError Int :=
  match word? n with
  | some n => .ok n
  | none => refuse .overflow

/-- The shape must have so many dimensions. -/
def expectRank (shape : Dims) (rank : Nat) : Except NodeError Unit :=
  if shape.length = rank then .ok () else refuse (.rank rank shape)

/-! ## Windows along one axis -/

/-- A window that slides along one axis. -/
structure Window where
  kernel : Int
  padding : Int
  dilation : Int
  stride : Int

/-- The extent that a window covers. -/
def Window.reach (w : Window) : Int := w.dilation * (w.kernel - 1) + 1

/-- The number of places where a window fits an axis, if it fits at all.  Rounding up counts a
last place that overhangs the end, unless it would start beyond the input and its left padding. -/
def Window.places? (w : Window) (input : Int) (roundUp : Bool) : Except NodeError (Option Int) := do
  if w.stride < 1 ∨ w.kernel < 1 ∨ w.dilation < 1 then return none
  let stretch ← checked (w.dilation * (w.kernel - 1))
  let reach ← checked (stretch + 1)
  let both ← checked (w.padding * 2)
  let padded ← checked (input + both)
  let span ← checked (padded - reach)
  if span < 0 then return none
  if roundUp then
    let raised ← checked (span + (w.stride - 1))
    let steps := raised / w.stride
    let size ← checked (steps + 1)
    let start ← checked (steps * w.stride)
    let limit ← checked (input + w.padding)
    return some (if limit ≤ start then size - 1 else size)
  else
    let size ← checked (span / w.stride + 1)
    return some size

/-- The extent that a transposed window makes of an axis. -/
def Window.spread (w : Window) (input extra : Int) : Except NodeError Int := do
  let gaps ← checked (input - 1)
  let moved ← checked (gaps * w.stride)
  let both ← checked (w.padding * 2)
  let inner ← checked (moved - both)
  let holes ← checked (w.kernel - 1)
  let stretch ← checked (w.dilation * holes)
  let outer ← checked (inner + stretch)
  let extended ← checked (outer + extra)
  checked (extended + 1)

/-! ## Convolution and pooling -/

/-- The windows of every axis. -/
def windows : List Int → List Int → List Int → List Int → List Window
  | k :: ks, p :: ps, d :: ds, s :: ss => ⟨k, p, d, s⟩ :: windows ks ps ds ss
  | _, _, _, _ => []

/-- An extent that has to exist. -/
def extent (shape kernel : Dims) : Option Int → Except NodeError Int
  | some n => .ok n
  | none => refuse (.tooSmall shape kernel)

/-- The shape after a convolution, plain or transposed. -/
def convolution (axes : Nat) (shape : Dims) (attrs : Attributes) : Except NodeError Dims := do
  expectRank shape (axes + 2)
  let batch := shape.headD 0
  let channels := shape.tail.headD 0
  if let some expected ← attrs.integer? "in_channels" then
    if expected ≠ channels then refuse (.inputChannels expected channels)
  let groups := (← attrs.integer? "groups").getD 1
  if groups < 1 ∨ Int.tmod channels groups ≠ 0 then refuse (.groups channels groups)
  let kernel ← attrs.integers "kernel_size" axes
  let padding ← attrs.integers "padding" axes
  let dilation ← attrs.integers "dilation" axes
  let stride ← attrs.integers "stride" axes
  let transposed ← attrs.flag "transposed"
  let extra := (← attrs.integers? "output_padding" axes).getD (List.replicate axes 0)
  let out := (← attrs.integer? "out_channels").getD channels
  let spatial ← ((shape.drop 2).zip ((windows kernel padding dilation stride).zip extra)).mapM
    fun (input, w, extra) =>
      if transposed then do
        let size ← w.spread input extra
        extent shape kernel (if 0 < size then some size else none)
      else do
        extent shape kernel (← w.places? input false)
  return batch :: out :: spatial

/-- The shape after pooling.  Without a stride the windows lie side by side. -/
def pool (axes : Nat) (shape : Dims) (attrs : Attributes) (dilates : Bool) :
    Except NodeError Dims := do
  expectRank shape (axes + 2)
  let kernel ← attrs.integers "kernel_size" axes
  let stride := (← attrs.integers? "stride" axes).getD kernel
  let padding ← attrs.integers "padding" axes
  let dilation ← if dilates then attrs.integers "dilation" axes else pure (List.replicate axes 1)
  let roundUp ← attrs.flag "ceil_mode"
  let spatial ← ((shape.drop 2).zip (windows kernel padding dilation stride)).mapM
    fun (input, w) => do
      match word? (w.padding * 2) with
      | none => refuse (.padding w.padding w.kernel)
      | some both => if w.kernel < both then refuse (.padding w.padding w.kernel)
      extent shape kernel (← w.places? input roundUp)
  return shape.take 2 ++ spatial

/-! ## The other layers -/

/-- The shape after pooling to a given size. -/
def adaptivePool (axes : Nat) (shape : Dims) (attrs : Attributes) : Except NodeError Dims := do
  expectRank shape (axes + 2)
  let size ← attrs.integers "output_size" axes
  return shape.take 2 ++ size

/-- The shape after an affine map of the last dimension. -/
def linear (shape : Dims) (attrs : Attributes) : Except NodeError Dims := do
  match shape.getLast? with
  | none => refuse .noFeatures
  | some features =>
    if let some expected ← attrs.integer? "in_features" then
      if expected ≠ features then refuse (.features expected features)
    let out := (← attrs.integer? "out_features").getD features
    return shape.dropLast ++ [out]

/-- A normalised shape is unchanged; the channels have to be the expected ones. -/
def batchNorm (shape : Dims) (attrs : Attributes) : Except NodeError Dims := do
  expectRank shape 4
  let channels := shape.tail.headD 0
  if let some expected ← attrs.integer? "num_features" then
    if expected ≠ channels then refuse (.normChannels expected channels)
  return shape

/-- A dimension counted from the end when it is negative. -/
def resolve (rank : Nat) (n : Int) : Except NodeError Int :=
  if n < 0 then checked (n + rank) else .ok n

/-- The product of a list, from the left, each step checked. -/
def product (acc : Int) : List Int → Except NodeError Int
  | [] => .ok acc
  | n :: ns => do product (← checked (acc * n)) ns

/-- The shape with a range of dimensions merged into one. -/
def flatten (shape : Dims) (attrs : Attributes) : Except NodeError Dims := do
  let first := (← attrs.integer? "start_dim").getD 1
  let last := (← attrs.integer? "end_dim").getD (-1)
  let first ← resolve shape.length first
  let last ← resolve shape.length last
  if first < 0 ∨ shape.length ≤ last ∨ last < first then refuse (.flatten first last shape)
  let a := first.toNat
  let b := last.toNat
  let merged ← product 1 ((shape.take (b + 1)).drop a)
  return shape.take a ++ merged :: shape.drop (b + 1)

/-- The shape that a layer gives for an input shape. -/
def Rule.output (rule : Rule) (shape : Dims) (attrs : Attributes) : Except NodeError Dims :=
  match rule with
  | identity => .ok shape
  | convolution axes => Shape.convolution axes shape attrs
  | maxPool axes => pool axes shape attrs true
  | averagePool axes => pool axes shape attrs false
  | adaptivePool axes => Shape.adaptivePool axes shape attrs
  | linear => Shape.linear shape attrs
  | batchNorm => Shape.batchNorm shape attrs
  | flatten => Shape.flatten shape attrs

/-! ## Shapes in values -/

/-- Reads one extent. -/
def extentOf : Value → Except Misfit Int
  | .int n => if Numeric.isWord n then .ok n else .error (.integer n "i64")
  | v => .error (.kind v "i64")

/-- Reads a shape. -/
def ofValue : Value → Except Misfit Dims
  | .arr items => items.mapM extentOf
  | v => .error (.kind v "a sequence")

end Dataflow.Shape
