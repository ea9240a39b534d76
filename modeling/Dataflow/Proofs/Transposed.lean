/-
  A transposed convolution undoes a convolution.

  A plain convolution divides how far its window can move by the stride.  What is left over by the
  division (`Window.leftover`) is what a transposed convolution with the same window has to be
  extended by, then it makes the input of the output again (`Window.spread_leftover`).
-/

import Dataflow.Proofs.Windows
import Mathlib

namespace Dataflow.Shape

/-! ## One axis -/

/-- How far the last place of a window ends before the end of the padded axis. -/
def Window.leftover (input : Int) (w : Window) : Int :=
  (input + 2 * w.padding - w.dilation * (w.kernel - 1) - 1) % w.stride

/-- Spread out and extended by what was left over, the places make the axis again. -/
theorem Window.spread_leftover {w : Window} {input places n : Int}
    (hf : w.Fits input false places) (h : w.spread places (w.leftover input) = .ok n) :
    n = input := by
  have hleft : w.leftover input = w.span input % w.stride := by
    unfold leftover span reach
    congr 1
    omega
  have hmoved : (places - 1) * w.stride + w.leftover input = w.span input := by
    rw [hf.plain rfl, hleft, Int.add_sub_cancel]
    exact Int.ediv_mul_add_emod ..
  rw [spread_ok h]
  unfold span at hmoved
  omega

/-! ## All axes -/

/-- Attributes for the way back: the same windows and groups, now transposed, and each axis extended
by what the windows leave over.  Neither way says how many channels there are. -/
structure Undoes (back attrs : Attributes) (axes : Nat) (sizes : Dims) : Prop where
  plain : attrs.flag "transposed" = .ok false
  transposed : back.flag "transposed" = .ok true
  channels : ∀ name ∈ ["in_channels", "out_channels"],
    attrs.integer? name = .ok none ∧ back.integer? name = .ok none
  groups : back.integer? "groups" = attrs.integer? "groups"
  windows : ∀ name ∈ ["kernel_size", "padding", "dilation", "stride"],
    back.integers name axes = attrs.integers name axes
  extra : ∀ kernel padding dilation stride, attrs.integers "kernel_size" axes = .ok kernel →
    attrs.integers "padding" axes = .ok padding → attrs.integers "dilation" axes = .ok dilation →
    attrs.integers "stride" axes = .ok stride → back.integers? "output_padding" axes =
      .ok (some (List.zipWith Window.leftover sizes (Shape.windows kernel padding dilation stride)))

section Undo

variable {axes : Nat} {channels : Int} {sizes spatial : Dims} {attrs back : Attributes}

/-- What the convolution on the way back reads. -/
def Convolution.reversed (c : Convolution axes channels sizes attrs)
    (hu : Undoes back attrs axes sizes) (h : spatial.length = axes) : Convolution axes channels spatial back where
  expected := none
  groups := c.groups
  kernel := c.kernel
  padding := c.padding
  dilation := c.dilation
  stride := c.stride
  transposed := true
  extra := some (List.zipWith Window.leftover sizes c.windows)
  replaced := none
  length_sizes := h
  reads_expected := (hu.channels _ (by simp)).2
  accepts := nofun
  reads_groups := hu.groups.trans c.reads_groups
  groups_pos := c.groups_pos
  groups_split := c.groups_split
  reads_kernel := (hu.windows _ (by simp)).trans c.reads_kernel
  reads_padding := (hu.windows _ (by simp)).trans c.reads_padding
  reads_dilation := (hu.windows _ (by simp)).trans c.reads_dilation
  reads_stride := (hu.windows _ (by simp)).trans c.reads_stride
  reads_transposed := hu.transposed
  reads_extra := hu.extra _ _ _ _ c.reads_kernel c.reads_padding c.reads_dilation c.reads_stride
  reads_replaced := (hu.channels _ (by simp)).2

/-- Where the windows of a convolution give these extents or fail in one way, the convolution gives
them or fails so. -/
theorem Convolution.extents_or {batch : Int} {e : NodeError} {ns : Dims}
    (c : Convolution axes channels sizes attrs) (hlen : ns.length = axes)
    (h : ∀ (axis : Nat) input w extra n, sizes[axis]? = some input → c.windows[axis]? = some w →
      c.extras[axis]? = some extra → ns[axis]? = some n →
      c.step batch input w extra = .ok n ∨ c.step batch input w extra = .error e) :
    c.extents batch = .ok ns ∨ c.extents batch = .error e := by
  refine mapM_or (List.forall₂_iff_get.2 ⟨c.length_slid.trans hlen.symm, fun axis hin hn => ?_⟩)
  simp only [List.get_eq_getElem, List.getElem_zip]
  exact h axis _ _ _ _ (List.getElem?_eq_getElem _) (List.getElem?_eq_getElem _)
    (List.getElem?_eq_getElem _) (List.getElem?_eq_getElem hn)

/-- Along one axis, the way back leads to the start or overflows. -/
theorem Convolution.step_back {batch input places extra : Int} {w : Window}
    (c : Convolution axes channels sizes attrs) (hu : Undoes back attrs axes sizes)
    (hlen : spatial.length = axes) (hpos : 0 < input)
    (h : c.step batch input w extra = .ok places) :
    (c.reversed hu hlen).step batch places w (w.leftover input) = .ok input ∨
    (c.reversed hu hlen).step batch places w (w.leftover input) =
      .error (.shapeMismatch .overflow) := by
  have hplain : c.transposed = false := Except.ok.inj (c.reads_transposed.symm.trans hu.plain)
  unfold step at h
  rw [hplain] at h
  obtain ⟨counted, hcounted, h⟩ := Except.of_bind_ok h
  cases extent_ok h
  have hback : (c.reversed hu hlen).step batch places w (w.leftover input) = (do
      let size ← w.spread places (w.leftover input)
      extent (batch :: channels :: spatial) c.kernel (if 0 < size then some size else none)) := rfl
  rw [hback]
  cases hspread : w.spread places (w.leftover input) with
  | error e =>
    rw [w.overflows_spread places (w.leftover input) e hspread]
    exact .inr rfl
  | ok n =>
    rw [Window.spread_leftover (Window.places_ok hcounted) hspread]
    exact .inl (congrArg (extent _ c.kernel) (if_pos hpos))

/-- Along all axes, the way back leads to the start or overflows. -/
theorem Convolution.extents_back {batch : Int} (c : Convolution axes channels sizes attrs)
    (hu : Undoes back attrs axes sizes) (hlen : spatial.length = axes)
    (hpos : ∀ n ∈ sizes, 0 < n) (h : c.extents batch = .ok spatial) :
    (c.reversed hu hlen).extents batch = .ok sizes ∨
    (c.reversed hu hlen).extents batch = .error (.shapeMismatch .overflow) := by
  refine (c.reversed hu hlen).extents_or c.length_sizes ?_
  intro axis n w extra input hn hw hextra hinput
  have haxis : axis < axes := by
    rw [← c.length_sizes]
    exact (List.getElem?_eq_some_iff.1 hinput).1
  obtain ⟨input', w', extra', n', hinput', hw', -, hn', hstep⟩ := (c.extents_ok h).2 axis haxis
  cases Option.some.inj (hinput.symm.trans hinput')
  cases Option.some.inj (hw.symm.trans hw')
  cases Option.some.inj (hn.symm.trans hn')
  have hleft : (c.reversed hu hlen).extras[axis]? = some (w.leftover input) :=
    List.getElem?_zipWith_eq_some.2 ⟨input, w, hinput, hw, rfl⟩
  cases Option.some.inj (hextra.symm.trans hleft)
  exact c.step_back hu hlen (hpos input (List.mem_of_getElem? hinput)) hstep

end Undo

/-- A convolution is undone by a transposed one with the same windows and groups that extends each
axis by what the windows leave over, unless that overflows. -/
theorem convolution_undone {axes : Nat} {shape out : Dims} {attrs back : Attributes}
    (hu : Undoes back attrs axes (shape.drop 2)) (hpos : ∀ n ∈ shape.drop 2, 0 < n)
    (h : (Rule.convolution axes).output shape attrs = .ok out) :
    (Rule.convolution axes).output out back = .ok shape ∨
    (Rule.convolution axes).output out back = .error (.shapeMismatch .overflow) := by
  obtain ⟨batch, channels, sizes, c, spatial, rfl, hspatial, rfl⟩ := exists_convolution h
  have hlen := (c.extents_ok hspatial).1
  have hreplaced : c.replaced = none :=
    Except.ok.inj (c.reads_replaced.symm.trans (hu.channels _ (by simp)).1)
  have hback : (Rule.convolution axes).output (batch :: c.replaced.getD channels :: spatial) back =
      (batch :: channels :: ·) <$> (c.reversed hu hlen).extents batch := by
    rw [hreplaced]
    exact (c.reversed hu hlen).output_eq
  rw [hback]
  rcases c.extents_back hu hlen hpos hspatial with hextents | hextents
  · rw [hextents]
    exact .inl rfl
  · rw [hextents]
    exact .inr rfl

/-- The same attributes, transposed and with this extension of each axis. -/
def reversed (attrs : Attributes) (extra : List Int) : Attributes := fun name =>
  if name = "transposed" then some (.bool true)
  else if name = "output_padding" then some (.arr (extra.map .int))
  else attrs name

/-- The same attributes lead back if what is left over is short enough to be read as it is
written. -/
theorem undoes_reversed {axes : Nat} {sizes extra : Dims} {attrs : Attributes}
    (hplain : attrs.flag "transposed" = .ok false)
    (hchannels : ∀ name ∈ ["in_channels", "out_channels"], attrs.integer? name = .ok none)
    (hextra : ∀ kernel padding dilation stride, attrs.integers "kernel_size" axes = .ok kernel →
      attrs.integers "padding" axes = .ok padding → attrs.integers "dilation" axes = .ok dilation →
      attrs.integers "stride" axes = .ok stride →
      extra = List.zipWith Window.leftover sizes (windows kernel padding dilation stride))
    (hlen : extra.length = axes) (hsmall : ∀ n ∈ extra, n.natAbs < 2 ^ 53) :
    Undoes (reversed attrs extra) attrs axes sizes where
  plain := hplain
  transposed := rfl
  channels := by
    intro name hname
    refine ⟨hchannels name hname, ?_⟩
    rw [← hchannels name hname]
    fin_cases hname <;> rfl
  groups := rfl
  windows := by
    intro name hname
    fin_cases hname <;> rfl
  extra := by
    intro kernel padding dilation stride hkernel hpadding hdilation hstride
    rw [← hextra kernel padding dilation stride hkernel hpadding hdilation hstride]
    exact Attributes.integers?_ints rfl hlen hsmall

/-- Windows that leave one place over along the first axis and two along the second. -/
def strided : Attributes :=
  listed [("kernel_size", .arr [.int 3, .int 2]), ("padding", .int 1),
    ("dilation", .arr [.int 1, .int 2]), ("stride", .arr [.int 2, .int 3]), ("groups", .int 2)]

theorem strided_undone :
    (Rule.convolution 2).output [1, 4, 8, 12] strided = .ok [1, 4, 4, 4] ∧
    (Rule.convolution 2).output [1, 4, 4, 4] (reversed strided [1, 2]) = .ok [1, 4, 8, 12] := by
  have hundoes : Undoes (reversed strided [1, 2]) strided 2 [8, 12] := by
    refine undoes_reversed rfl ?_ ?_ rfl (by decide)
    · intro name hname
      fin_cases hname <;> rfl
    · intro kernel padding dilation stride hkernel hpadding hdilation hstride
      cases hkernel
      cases hpadding
      cases hdilation
      cases hstride
      rfl
  refine ⟨rfl, ?_⟩
  rcases @convolution_undone 2 [1, 4, 8, 12] _ _ _ hundoes (by decide) rfl with h | h
  · exact h
  · cases h

/-- Windows that move so far that there is only one place. -/
def farApart : Attributes :=
  listed [("kernel_size", .int 1), ("padding", .int 0), ("dilation", .int 1),
    ("stride", .int 1152921504606846976)]

/-- What is left over can be too long to be read as it is written: `2 ^ 53 + 1` is read as
`2 ^ 53`, and the way back ends one short of the start. -/
theorem farApart_not_undone :
    Window.leftover 9007199254740994 ⟨1, 0, 1, 1152921504606846976⟩ = 9007199254740993 ∧
    (Rule.convolution 1).output [1, 1, 9007199254740994] farApart = .ok [1, 1, 1] ∧
    (Rule.convolution 1).output [1, 1, 1] (reversed farApart [9007199254740993]) =
      .ok [1, 1, 9007199254740993] :=
  ⟨rfl, rfl, rfl⟩

end Dataflow.Shape
