/-
  Windows count exactly.

  A place of a window is told by its number: place `k` starts `k` strides behind the left padding.
  It fits as long as it starts at most `span` behind it (`Window.fitting`).  Rounding up also counts
  a place that reaches over the end, if it starts inside the input or the left padding
  (`Window.reaching`).  `Slide.extent` is what a layer ought to make of an axis: the number of such
  places, or the extent that a transposed window spreads over, over unbounded integers.

  The rules find these numbers by one division, for rounding up with a correction by one place.  One
  place is enough because a pooling window is padded by at most half its kernel
  (`Window.Fits.ncard_reaching`).  With that, whatever a layer gives is exact (`Rule.output_exact`);
  where it gives nothing although the attributes can be read, the shapes do not match; and on
  machine words it takes the same course, without a step that wraps.
-/

import Dataflow.Proofs.Machine
import Mathlib

namespace Dataflow.Shape

open Machine (lift)

/-! ## Places -/

/-- The places that fit between the paddings. -/
def Window.fitting (w : Window) (input : Int) : Set ℕ := {k | (k : Int) * w.stride ≤ w.span input}

/-- The places that reach into the axis, and start inside the input or the left padding. -/
def Window.reaching (w : Window) (input : Int) : Set ℕ :=
  {k | (k : Int) * w.stride < w.span input + w.stride ∧ (k : Int) * w.stride < input + w.padding}

/-- What a layer ought to make of an axis.  Where a layer gives an extent, the stride is positive, and
there are only finitely many places to count. -/
noncomputable def Slide.extent (s : Slide) (input : Int) : Int :=
  match s.motion with
  | .plain => (s.window.fitting input).ncard
  | .raised => (s.window.reaching input).ncard
  | .transposed extra =>
    (input - 1) * s.window.stride - 2 * s.window.padding + s.window.reach + extra

theorem ncard_below {S : Set ℕ} {n : Int} (hn : 0 ≤ n) (h : ∀ k : ℕ, k ∈ S ↔ (k : Int) < n) :
    (S.ncard : Int) = n := by
  have hS : S = Finset.range n.toNat := by
    ext k
    rw [h, Finset.coe_range, Set.mem_Iio]
    omega
  rw [hS, Set.ncard_coe_finset, Finset.card_range]
  omega

namespace Window.Fits

variable {w : Window} {input n : Int} {roundUp : Bool}

theorem ncard_fitting (hf : w.Fits input false n) : ((w.fitting input).ncard : Int) = n := by
  have hstride := hf.stride_pos
  have hsteps := Int.ediv_nonneg hf.span_nonneg (show 0 ≤ w.stride by omega)
  rw [hf.plain rfl]
  refine ncard_below (by omega) fun k => ?_
  show (k : Int) * w.stride ≤ w.span input ↔ _
  rw [← Int.le_ediv_iff_mul_le (by omega)]
  omega

/-- Of the places that reach into the axis, at most the last one starts behind the input. -/
theorem ncard_reaching (hf : w.Fits input true n) (hhalf : w.padding * 2 ≤ w.kernel) :
    ((w.reaching input).ncard : Int) = n := by
  have hstride := hf.stride_pos
  have hspan := hf.span_nonneg
  have hlimit : w.span input ≤ input + w.padding := by
    have hkernel := hf.kernel_pos
    have hreach := hf.kernel_le_reach
    unfold Window.span
    omega
  have hvalue := hf.raised rfl
  generalize hsteps : (w.span input + (w.stride - 1)) / w.stride = steps at hvalue
  have hnonneg : 0 ≤ steps := by
    rw [← hsteps]
    exact Int.ediv_nonneg (by omega) (by omega)
  have hreaches : ∀ k : Int, k * w.stride < w.span input + w.stride ↔ k ≤ steps := by
    intro k
    rw [← hsteps, Int.le_ediv_iff_mul_le (by omega)]
    omega
  have hmono : ∀ {j k : Int}, j ≤ k → j * w.stride ≤ k * w.stride := fun h =>
    Int.mul_le_mul_of_nonneg_right h (by omega)
  have hbefore : (steps - 1) * w.stride < w.span input := by
    have hlast := (hreaches steps).2 (Int.le_refl steps)
    rw [Int.sub_mul, Int.one_mul]
    omega
  have hmem : ∀ k : ℕ, k ∈ w.reaching input ↔
      (k : Int) ≤ steps ∧ (k : Int) * w.stride < input + w.padding := fun k =>
    and_congr_left fun _ => hreaches k
  -- with rounding up the last window may start behind the axis; then it is left out
  split at hvalue
  · next hbehind =>
    refine ncard_below (by omega) fun k => ?_
    rw [hmem, hvalue]
    constructor
    · rintro ⟨hk, hstart⟩
      by_contra hge
      have hend := hmono (show steps ≤ k by omega)
      omega
    · intro hk
      have hend := hmono (show (k : Int) ≤ steps - 1 by omega)
      exact ⟨by omega, by omega⟩
  · next hinside =>
    refine ncard_below (by omega) fun k => ?_
    rw [hmem, hvalue]
    constructor
    · rintro ⟨hk, -⟩
      omega
    · intro hk
      have hend := hmono (show (k : Int) ≤ steps by omega)
      exact ⟨by omega, by omega⟩

end Window.Fits

/-! ## Layers -/

/-- Each axis has its window, and the shape behind the layer is as it ought to be there. -/
def Exact (axes : Nat) (slides : List Slide) (shape out : Dims) : Prop :=
  ∀ axis < axes, ∃ s input size, slides[axis]? = some s ∧ shape[axis + 2]? = some input ∧
    out[axis + 2]? = some size ∧ 1 ≤ size ∧ size = s.extent input

section Layers

variable {axes : Nat} {shape out : Dims} {attrs : Attributes}

theorem Convolution.length_windows {channels : Int} {sizes : Dims}
    (c : Convolution axes channels sizes attrs) : c.windows.length = axes :=
  Shape.length_windows (Attributes.integers_ok c.reads_kernel).1
    (Attributes.integers_ok c.reads_padding).1 (Attributes.integers_ok c.reads_dilation).1
    (Attributes.integers_ok c.reads_stride).1

theorem Convolution.length_extras {channels : Int} {sizes : Dims}
    (c : Convolution axes channels sizes attrs) : c.extras.length = axes :=
  (Attributes.integers?_getD c.reads_extra (zeros_ok axes)).1

theorem Pooling.length_windows {sizes : Dims} {dilates : Bool}
    (p : Pooling axes sizes attrs dilates) : p.windows.length = axes := by
  have hkernel := Attributes.integers_ok p.reads_kernel
  have hdilation : p.dilation.length = axes := by
    have hread := p.reads_dilation
    split at hread
    · exact (Attributes.integers_ok hread).1
    · rw [← Except.ok.inj hread]
      exact List.length_replicate ..
  exact Shape.length_windows hkernel.1 (Attributes.integers_ok p.reads_padding).1 hdilation
    (Attributes.integers?_getD p.reads_stride hkernel).1

/-- A convolution makes of an axis what it ought to. -/
theorem Convolution.step_exact {batch channels input extra n : Int} {sizes : Dims} {w : Window}
    (c : Convolution axes channels sizes attrs) (h : c.step batch input w extra = .ok n) :
    1 ≤ n ∧ n = (Slide.mk w (if c.transposed then .transposed extra else .plain)).extent input := by
  unfold step at h
  split at h
  · next ht =>
    obtain ⟨size, hsize, h⟩ := Except.of_bind_ok h
    have hn := extent_ok h
    split at hn
    · next hpos =>
      cases hn
      rw [if_pos ht]
      exact ⟨hpos, Window.spread_ok hsize⟩
    · cases hn
  · next ht =>
    obtain ⟨places, hplaces, h⟩ := Except.of_bind_ok h
    cases extent_ok h
    rw [if_neg ht]
    refine ⟨Window.places_pos ?_ hplaces, (Window.places_ok hplaces).ncard_fitting.symm⟩
    intro hup
    cases hup

/-- A pooling layer makes of an axis what it ought to. -/
theorem Pooling.step_exact {batch channels input n : Int} {sizes : Dims} {dilates : Bool}
    {w : Window} (p : Pooling axes sizes attrs dilates)
    (h : p.step batch channels input w = .ok n) :
    1 ≤ n ∧ n = (Slide.mk w (if p.roundUp then .raised else .plain)).extent input := by
  obtain ⟨hhalf, hplaces⟩ := p.step_ok h
  refine ⟨Window.places_pos (fun _ => hhalf) hplaces, ?_⟩
  split
  · next hup =>
    rw [hup] at hplaces
    exact ((Window.places_ok hplaces).ncard_reaching hhalf).symm
  · next hdown =>
    rw [Bool.not_eq_true] at hdown
    rw [hdown] at hplaces
    exact (Window.places_ok hplaces).ncard_fitting.symm

theorem Convolution.length_slid {channels : Int} {sizes : Dims}
    (c : Convolution axes channels sizes attrs) :
    (sizes.zip (c.windows.zip c.extras)).length = axes := by
  rw [List.length_zip, List.length_zip, c.length_sizes, c.length_windows, c.length_extras,
    Nat.min_self, Nat.min_self]

/-- Where a convolution gives extents, its windows give one along each axis. -/
theorem Convolution.extents_ok {batch channels : Int} {sizes spatial : Dims}
    (c : Convolution axes channels sizes attrs) (h : c.extents batch = .ok spatial) :
    spatial.length = axes ∧ ∀ axis < axes, ∃ input w extra n, sizes[axis]? = some input ∧
      c.windows[axis]? = some w ∧ c.extras[axis]? = some extra ∧ spatial[axis]? = some n ∧
      c.step batch input w extra = .ok n := by
  obtain ⟨hlen, hall⟩ := getElem?_of_mapM h
  refine ⟨hlen.trans c.length_slid, fun axis haxis => ?_⟩
  have hat := List.getElem?_eq_getElem (c.length_slid.symm ▸ haxis)
  obtain ⟨hinput, hslide⟩ := List.getElem?_zip_eq_some.1 hat
  obtain ⟨hw, hextra⟩ := List.getElem?_zip_eq_some.1 hslide
  obtain ⟨n, hn, hstep⟩ := hall axis _ hat
  exact ⟨_, _, _, n, hinput, hw, hextra, hn, hstep⟩

/-- Where a pooling layer gives extents, its windows give one along each axis. -/
theorem Pooling.extents_ok {batch channels : Int} {sizes spatial : Dims} {dilates : Bool}
    (p : Pooling axes sizes attrs dilates) (h : p.extents batch channels = .ok spatial) :
    spatial.length = axes ∧ ∀ axis < axes, ∃ input w n, sizes[axis]? = some input ∧
      p.windows[axis]? = some w ∧ spatial[axis]? = some n ∧
      p.step batch channels input w = .ok n := by
  have hslid : (sizes.zip p.windows).length = axes := by
    rw [List.length_zip, p.length_sizes, p.length_windows, Nat.min_self]
  obtain ⟨hlen, hall⟩ := getElem?_of_mapM h
  refine ⟨hlen.trans hslid, fun axis haxis => ?_⟩
  have hat := List.getElem?_eq_getElem (hslid.symm ▸ haxis)
  obtain ⟨hinput, hw⟩ := List.getElem?_zip_eq_some.1 hat
  obtain ⟨n, hn, hstep⟩ := hall axis _ hat
  exact ⟨_, _, n, hinput, hw, hn, hstep⟩

theorem convolution_exact (h : convolution axes shape attrs = .ok out) :
    out.length = axes + 2 ∧ ∃ slides, convolutionSlides axes attrs = .ok slides ∧
      Exact axes slides shape out := by
  obtain ⟨batch, channels, sizes, c, spatial, rfl, hspatial, rfl⟩ := exists_convolution h
  obtain ⟨hlen, hall⟩ := c.extents_ok hspatial
  refine ⟨congrArg (· + 2) hlen, _, c.slides_eq, fun axis haxis => ?_⟩
  obtain ⟨input, w, extra, n, hinput, hw, hextra, hn, hstep⟩ := hall axis haxis
  refine ⟨_, input, n, ?_, hinput, hn, c.step_exact hstep⟩
  exact List.getElem?_zipWith_eq_some.2 ⟨w, extra, hw, hextra, rfl⟩

theorem pool_exact {dilates : Bool} (h : pool axes shape attrs dilates = .ok out) :
    out.length = axes + 2 ∧ ∃ slides, poolSlides axes attrs dilates = .ok slides ∧
      Exact axes slides shape out := by
  obtain ⟨batch, channels, sizes, p, spatial, rfl, hspatial, rfl⟩ := exists_pooling h
  obtain ⟨hlen, hall⟩ := p.extents_ok hspatial
  refine ⟨congrArg (· + 2) hlen, _, p.slides_eq, fun axis haxis => ?_⟩
  obtain ⟨input, w, n, hinput, hw, hn, hstep⟩ := hall axis haxis
  refine ⟨_, input, n, ?_, hinput, hn, p.step_exact hstep⟩
  rw [List.getElem?_map, hw]
  rfl

/-- What follows on a computation that fails on overflow only fails because of the shape, if it
fails by itself only because of the shape. -/
theorem Overflows.mismatch {α β : Type} {x : Except NodeError α} {f : α → Except NodeError β}
    {e : NodeError} (hx : Overflows x)
    (hf : ∀ a, f a = .error e → ∃ fault, e = .shapeMismatch fault) (h : (x >>= f) = .error e) :
    ∃ fault, e = .shapeMismatch fault := by
  cases hxe : x with
  | error e' =>
    rw [hxe] at h
    cases h
    exact ⟨_, hx e hxe⟩
  | ok a =>
    rw [hxe] at h
    exact hf a h

theorem Convolution.step_error {batch channels input extra : Int} {sizes : Dims} {w : Window}
    {e : NodeError} (c : Convolution axes channels sizes attrs)
    (h : c.step batch input w extra = .error e) : ∃ fault, e = .shapeMismatch fault := by
  unfold step at h
  split at h
  · exact (w.overflows_spread input extra).mismatch (fun size => extent_error) h
  · exact (w.overflows_places input false).mismatch (fun places => extent_error) h

theorem Pooling.step_error {batch channels input : Int} {sizes : Dims} {dilates : Bool}
    {w : Window} {e : NodeError} (p : Pooling axes sizes attrs dilates)
    (h : p.step batch channels input w = .error e) : ∃ fault, e = .shapeMismatch fault := by
  unfold step at h
  extract_lets count at h
  have hcount : ∀ u, count u = .error e → ∃ fault, e = .shapeMismatch fault := fun u =>
    (w.overflows_places input p.roundUp).mismatch fun places => extent_error
  split at h
  · cases h
    exact ⟨_, rfl⟩
  · split at h
    · cases h
      exact ⟨_, rfl⟩
    · exact hcount () h

/-- A convolution whose attributes can be read refuses a shape only because it does not match. -/
theorem convolution_error {e : NodeError} (h : convolution axes shape attrs = .error e) :
    convolutionSlides axes attrs = .error e ∨ ∃ fault, e = .shapeMismatch fault := by
  rcases rank_error h with hfault | hrank
  · exact .inr hfault
  · obtain ⟨batch, channels, sizes, rfl, hsizes⟩ := exists_sizes hrank
    rcases convolution_cases attrs batch channels hsizes with ⟨⟨c⟩⟩ | ⟨e', he', hends⟩
    · rw [c.output_eq] at h
      obtain ⟨⟨input, w, extra⟩, -, hstep⟩ := mapM_error (map_error h)
      exact .inr (c.step_error hstep)
    · cases he'.symm.trans h
      exact hends

/-- A pooling layer whose attributes can be read refuses a shape only because it does not match. -/
theorem pool_error {dilates : Bool} {e : NodeError} (h : pool axes shape attrs dilates = .error e) :
    poolSlides axes attrs dilates = .error e ∨ ∃ fault, e = .shapeMismatch fault := by
  rcases rank_error h with hfault | hrank
  · exact .inr hfault
  · obtain ⟨batch, channels, sizes, rfl, hsizes⟩ := exists_sizes hrank
    rcases pool_cases attrs dilates batch channels hsizes with ⟨⟨p⟩⟩ | ⟨e', he', hends⟩
    · rw [p.output_eq] at h
      obtain ⟨⟨input, w⟩, -, hstep⟩ := mapM_error (map_error h)
      exact .inr (p.step_error hstep)
    · cases he'.symm.trans h
      exact hends

end Layers

/-- What a layer with windows reads from its attributes: how many axes it slides them along, and
the windows. -/
def Rule.slides? (attrs : Attributes) : Rule → Option (Nat × Except NodeError (List Slide))
  | convolution axes => some (axes, convolutionSlides axes attrs)
  | maxPool axes => some (axes, poolSlides axes attrs true)
  | averagePool axes => some (axes, poolSlides axes attrs false)
  | _ => none

/-- A layer with windows computes exactly.  On machine words it takes no step that wraps or halts;
what it gives is what its windows ought to make of each axis; and what it refuses although its
windows can be read does not match the shape. -/
theorem Rule.output_exact {rule : Rule} {shape : Dims} {attrs : Attributes} {axes : Nat}
    {read : Except NodeError (List Slide)} (hrule : rule.slides? attrs = some (axes, read))
    (hs : Stored shape) :
    rule.onWords shape attrs = lift (rule.output shape attrs) ∧
    match rule.output shape attrs with
    | .ok out => out.length = axes + 2 ∧ ∃ slides, read = .ok slides ∧ Exact axes slides shape out
    | .error e => read = .error e ∨ ∃ fault, e = .shapeMismatch fault := by
  refine ⟨rule.onWords_eq attrs hs, ?_⟩
  split
  · next out h =>
    cases rule with
    | convolution n =>
      cases hrule
      exact convolution_exact h
    | maxPool n | averagePool n =>
      cases hrule
      exact pool_exact h
    | _ => cases hrule
  · next e h =>
    cases rule with
    | convolution n =>
      cases hrule
      exact convolution_error h
    | maxPool n | averagePool n =>
      cases hrule
      exact pool_error h
    | _ => cases hrule

/-- The attributes that a list names. -/
def listed (entries : List (String × Value)) : Attributes := fun name => entries.lookup name

/-- A window that leaves room for half a stride at the end. -/
def overhanging : Attributes :=
  listed [("kernel_size", .int 3), ("stride", .arr [.int 2, .int 4]), ("padding", .int 1),
    ("ceil_mode", .bool true)]

/-- Rounding up counts a fourth place along the second axis, which reaches over its end. -/
theorem overhanging_exact :
    (Rule.averagePool 2).output [2, 3, 5, 12] overhanging = .ok [2, 3, 3, 4] ∧
    ∃ slides, poolSlides 2 overhanging false = .ok slides ∧
      Exact 2 slides [2, 3, 5, 12] [2, 3, 3, 4] := by
  have hstored : Stored [2, 3, 5, 12] := ⟨by decide, by decide⟩
  have hout : (Rule.averagePool 2).output [2, 3, 5, 12] overhanging = .ok [2, 3, 3, 4] := rfl
  have hexact := (@Rule.output_exact (.averagePool 2) _ overhanging 2 _ rfl hstored).2
  rw [hout] at hexact
  exact ⟨hout, hexact.2⟩

/-- A padding that is written with more digits than a floating-point number keeps. -/
def finePadding : Attributes :=
  listed [("kernel_size", .int 1), ("padding", .int 9007199254740993), ("dilation", .int 1),
    ("stride", .int 1)]

/-- The windows are exact for the integers that are read.  A padding of `2 ^ 53 + 1` is read as
`2 ^ 53`, and there are two places less than it is written for. -/
theorem finePadding_not_exact :
    finePadding "padding" = some (.int 9007199254740993) ∧
    (Rule.convolution 1).output [1, 1, 10] finePadding = .ok [1, 1, 18014398509481994] ∧
    (Slide.mk ⟨1, 9007199254740993, 1, 1⟩ .plain).extent 10 = 18014398509481996 := by
  have hfits : (⟨1, 9007199254740993, 1, 1⟩ : Window).Fits 10 false 18014398509481996 :=
    ⟨by decide, by decide, by decide, by decide, fun _ => by decide, nofun⟩
  exact ⟨rfl, rfl, hfits.ncard_fitting⟩

end Dataflow.Shape
