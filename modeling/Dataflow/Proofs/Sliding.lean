/-
  What a layer with windows computes from.

  A convolution and a pooling read their attributes, check the shape against them, and slide a
  window along each axis.  `Convolution` and `Pooling` hold everything that was read and checked on
  the way to the windows; whatever is said of such a layer is said of its windows from there
  (`Convolution.output_eq`, `Pooling.output_eq`).  A layer that does not get as far fails, with a
  mismatch of shapes or because an attribute can not be read (`convolution_cases`, `pool_cases`).
-/

import Dataflow.Proofs.Meaning

namespace Dataflow.Shape

open Numeric (word?)

/-! ## Checks -/

theorem checked_ok {n m : Int} (h : checked n = .ok m) : m = n := by
  unfold checked word? at h
  split at h
  · next hw =>
    cases h
    split at hw
    · exact (Option.some.inj hw).symm
    · cases hw
  · cases h

theorem checked_error {n : Int} {e : NodeError} (h : checked n = .error e) :
    e = .shapeMismatch .overflow := by
  unfold checked at h
  split at h
  · cases h
  · cases h
    rfl

theorem expectRank_ok {shape : Dims} {rank : Nat} {u : Unit} (h : expectRank shape rank = .ok u) :
    shape.length = rank := by
  unfold expectRank at h
  split at h
  · assumption
  · cases h

theorem expectRank_error {shape : Dims} {rank : Nat} {e : NodeError}
    (h : expectRank shape rank = .error e) : ∃ fault, e = .shapeMismatch fault := by
  unfold expectRank at h
  split at h
  · cases h
  · cases h
    exact ⟨_, rfl⟩

theorem extent_ok {shape kernel : Dims} {o : Option Int} {n : Int}
    (h : extent shape kernel o = .ok n) : o = some n := by
  cases o with
  | none => cases h
  | some m =>
    cases h
    rfl

theorem extent_error {shape kernel : Dims} {o : Option Int} {e : NodeError}
    (h : extent shape kernel o = .error e) : ∃ fault, e = .shapeMismatch fault := by
  cases o with
  | none =>
    cases h
    exact ⟨_, rfl⟩
  | some n => cases h

/-- A rule that checks the rank first refuses the shape, or the rank is right. -/
theorem rank_error {shape : Dims} {rank : Nat} {f : Unit → Except NodeError Dims} {e : NodeError}
    (h : (expectRank shape rank >>= f) = .error e) :
    (∃ fault, e = .shapeMismatch fault) ∨ shape.length = rank := by
  cases hrank : expectRank shape rank with
  | error e' =>
    rw [hrank] at h
    cases h
    exact .inl (expectRank_error hrank)
  | ok u => exact .inr (expectRank_ok hrank)

/-- A shape that is put together from parts is there if the parts are. -/
theorem map_ok {f : Dims → Dims} {x : Except NodeError Dims} {out : Dims} (h : f <$> x = .ok out) :
    ∃ parts, x = .ok parts ∧ f parts = out := by
  cases x with
  | error e => cases h
  | ok parts => exact ⟨parts, rfl, Except.ok.inj h⟩

/-- A shape that is put together from parts fails if the parts fail. -/
theorem map_error {f : Dims → Dims} {x : Except NodeError Dims} {e : NodeError}
    (h : f <$> x = .error e) : x = .error e := by
  cases x with
  | error e' => exact h
  | ok parts => cases h

/-- A shape with two dimensions in front. -/
theorem exists_sizes {shape : Dims} {axes : Nat} (h : shape.length = axes + 2) :
    ∃ batch channels sizes, shape = batch :: channels :: sizes ∧ sizes.length = axes := by
  cases shape with
  | nil => simp at h
  | cons batch shape =>
    cases shape with
    | nil => simp at h
    | cons channels sizes => exact ⟨batch, channels, sizes, rfl, by simpa using h⟩

/-! ## Computations over a list -/

section Lists

variable {ε α β : Type} {f : α → Except ε β} {xs : List α} {ys : List β}

/-- What a computation over a list gives, it gives for each member in turn. -/
theorem forall₂_of_mapM (h : xs.mapM f = .ok ys) : List.Forall₂ (fun x y => f x = .ok y) xs ys := by
  induction xs generalizing ys with
  | nil =>
    cases h
    exact .nil
  | cons x xs ih =>
    rw [List.mapM_cons] at h
    obtain ⟨y, hy, h⟩ := Except.of_bind_ok h
    obtain ⟨ys, hys, h⟩ := Except.of_bind_ok h
    cases h
    exact .cons hy (ih hys)

/-- What a computation over a list gives at an index, it gives for the member there. -/
theorem getElem?_of_mapM (h : xs.mapM f = .ok ys) : ys.length = xs.length ∧
    ∀ (i : Nat) (x : α), xs[i]? = some x → ∃ y, ys[i]? = some y ∧ f x = .ok y := by
  obtain ⟨hlen, hall⟩ := List.forall₂_iff_get.1 (forall₂_of_mapM h)
  refine ⟨hlen.symm, fun i x hx => ?_⟩
  obtain ⟨hi, rfl⟩ := List.getElem?_eq_some_iff.1 hx
  exact ⟨ys[i], List.getElem?_eq_getElem (hlen ▸ hi), hall i hi (hlen ▸ hi)⟩

/-- What a computation over a list gives, it gives for one of its members. -/
theorem mapM_ok (h : xs.mapM f = .ok ys) : ∀ y ∈ ys, ∃ x ∈ xs, f x = .ok y := by
  have hall := forall₂_of_mapM h
  clear h
  induction hall with
  | nil => exact fun y hy => nomatch hy
  | cons hf _ ih =>
    intro z hz
    rcases List.mem_cons.1 hz with rfl | hz
    · exact ⟨_, List.mem_cons_self .., hf⟩
    · obtain ⟨x, hx, hf⟩ := ih z hz
      exact ⟨x, List.mem_cons_of_mem _ hx, hf⟩

/-- A computation over a list fails at one of its members. -/
theorem mapM_error {e : ε} (h : xs.mapM f = .error e) : ∃ x ∈ xs, f x = .error e := by
  induction xs with
  | nil => cases h
  | cons x xs ih =>
    rw [List.mapM_cons] at h
    cases hx : f x with
    | error e' =>
      rw [hx] at h
      cases h
      exact ⟨x, List.mem_cons_self .., hx⟩
    | ok y =>
      rw [hx] at h
      cases hxs : xs.mapM f with
      | error e' =>
        simp only [hxs] at h
        cases h
        obtain ⟨x', hx', hf⟩ := ih hxs
        exact ⟨x', List.mem_cons_of_mem x hx', hf⟩
      | ok ys =>
        simp only [hxs] at h
        cases h

/-- Where each member gives its part or fails in one way, the list gives all parts or fails so. -/
theorem mapM_or {e : ε} (h : List.Forall₂ (fun x y => f x = .ok y ∨ f x = .error e) xs ys) :
    xs.mapM f = .ok ys ∨ xs.mapM f = .error e := by
  induction h with
  | nil => exact .inl rfl
  | cons hx _ ih =>
    rw [List.mapM_cons]
    rcases hx with hx | hx
    · rw [hx]
      rcases ih with ih | ih
      · rw [ih]
        exact .inl rfl
      · rw [ih]
        exact .inr rfl
    · rw [hx]
      exact .inr rfl

end Lists

/-! ## Windows -/

/-- How far the first place of a window can move along a padded axis. -/
def Window.span (w : Window) (input : Int) : Int := input + 2 * w.padding - w.reach

/-- The places that are counted: a window that moves by at least one and covers something fits. -/
structure Window.Fits (w : Window) (input : Int) (roundUp : Bool) (n : Int) : Prop where
  stride_pos : 1 ≤ w.stride
  kernel_pos : 1 ≤ w.kernel
  dilation_pos : 1 ≤ w.dilation
  span_nonneg : 0 ≤ w.span input
  plain : roundUp = false → n = w.span input / w.stride + 1
  raised : roundUp = true → n =
    if input + w.padding ≤ (w.span input + (w.stride - 1)) / w.stride * w.stride then
      (w.span input + (w.stride - 1)) / w.stride
    else (w.span input + (w.stride - 1)) / w.stride + 1

theorem Window.Fits.kernel_le_reach {w : Window} {input n : Int} {roundUp : Bool}
    (hf : w.Fits input roundUp n) : w.kernel ≤ w.reach := by
  have hkernel := hf.kernel_pos
  have hholes := Int.mul_le_mul_of_nonneg_right hf.dilation_pos (show 0 ≤ w.kernel - 1 by omega)
  unfold Window.reach
  omega

theorem Window.places_ok {w : Window} {input n : Int} {roundUp : Bool}
    (h : w.places? input roundUp = .ok (some n)) : w.Fits input roundUp n := by
  unfold Window.places? at h
  split at h
  · cases h
  · next hw =>
    obtain ⟨stretch, hstretch, h⟩ := Except.of_bind_ok h
    obtain ⟨reach, hreach, h⟩ := Except.of_bind_ok h
    obtain ⟨both, hboth, h⟩ := Except.of_bind_ok h
    obtain ⟨padded, hpadded, h⟩ := Except.of_bind_ok h
    obtain ⟨span, hspan, h⟩ := Except.of_bind_ok h
    replace hspan : span = w.span input := by
      rw [checked_ok hspan, checked_ok hpadded, checked_ok hboth, checked_ok hreach,
        checked_ok hstretch, Int.mul_comm w.padding 2]
      rfl
    subst hspan
    split at h
    · cases h
    · next hfits =>
      refine ⟨by omega, by omega, by omega, by omega, fun hdown => ?_, fun hup => ?_⟩
      · rw [hdown] at h
        obtain ⟨size, hsize, h⟩ := Except.of_bind_ok h
        cases h
        exact checked_ok hsize
      · rw [hup] at h
        obtain ⟨raised, hraised, h⟩ := Except.of_bind_ok h
        obtain ⟨size, hsize, h⟩ := Except.of_bind_ok h
        obtain ⟨start, hstart, h⟩ := Except.of_bind_ok h
        obtain ⟨limit, hlimit, h⟩ := Except.of_bind_ok h
        cases h
        rw [checked_ok hsize, checked_ok hstart, checked_ok hlimit, checked_ok hraised,
          Int.add_sub_cancel]

theorem Window.spread_ok {w : Window} {input extra n : Int} (h : w.spread input extra = .ok n) :
    n = (input - 1) * w.stride - 2 * w.padding + w.reach + extra := by
  unfold Window.spread at h
  obtain ⟨gaps, hgaps, h⟩ := Except.of_bind_ok h
  obtain ⟨moved, hmoved, h⟩ := Except.of_bind_ok h
  obtain ⟨both, hboth, h⟩ := Except.of_bind_ok h
  obtain ⟨inner, hinner, h⟩ := Except.of_bind_ok h
  obtain ⟨holes, hholes, h⟩ := Except.of_bind_ok h
  obtain ⟨stretch, hstretch, h⟩ := Except.of_bind_ok h
  obtain ⟨outer, houter, h⟩ := Except.of_bind_ok h
  obtain ⟨extended, hextended, h⟩ := Except.of_bind_ok h
  rw [checked_ok h, checked_ok hextended, checked_ok houter, checked_ok hstretch, checked_ok hholes,
    checked_ok hinner, checked_ok hboth, checked_ok hmoved, checked_ok hgaps]
  unfold Window.reach
  omega

/-- A computation that fails on overflow only. -/
def Overflows {α : Type} (x : Except NodeError α) : Prop :=
  ∀ e, x = .error e → e = .shapeMismatch .overflow

theorem overflows_checked (n : Int) : Overflows (checked n) := fun _ => checked_error

theorem overflows_pure {α : Type} (a : α) : Overflows (.ok a) := nofun

theorem Overflows.bind {α β : Type} {x : Except NodeError α} {f : α → Except NodeError β}
    (hx : Overflows x) (hf : ∀ a, Overflows (f a)) : Overflows (x >>= f) := by
  intro e h
  cases x with
  | error e' =>
    cases h
    exact hx e rfl
  | ok a => exact hf a e h

theorem Window.overflows_spread (w : Window) (input extra : Int) :
    Overflows (w.spread input extra) := by
  refine (overflows_checked _).bind fun gaps => ?_
  refine (overflows_checked _).bind fun moved => ?_
  refine (overflows_checked _).bind fun both => ?_
  refine (overflows_checked _).bind fun inner => ?_
  refine (overflows_checked _).bind fun holes => ?_
  refine (overflows_checked _).bind fun stretch => ?_
  refine (overflows_checked _).bind fun outer => ?_
  exact (overflows_checked _).bind fun extended => overflows_checked _

theorem Window.overflows_places (w : Window) (input : Int) (roundUp : Bool) :
    Overflows (w.places? input roundUp) := by
  unfold Window.places?
  split
  · exact overflows_pure _
  · refine (overflows_checked _).bind fun stretch => ?_
    refine (overflows_checked _).bind fun reach => ?_
    refine (overflows_checked _).bind fun both => ?_
    refine (overflows_checked _).bind fun padded => ?_
    refine (overflows_checked _).bind fun span => ?_
    split
    · exact overflows_pure _
    · split
      · refine (overflows_checked _).bind fun raised => ?_
        refine (overflows_checked _).bind fun size => ?_
        refine (overflows_checked _).bind fun start => ?_
        exact (overflows_checked _).bind fun limit => overflows_pure _
      · exact (overflows_checked _).bind fun size => overflows_pure _

/-- What a layer does to an axis: it counts the places of a window, or the places up to the end, or
spreads the axis out. -/
inductive Motion where
  | plain
  | raised
  | transposed (extra : Int)

/-- A window and its motion along an axis. -/
structure Slide where
  window : Window
  motion : Motion

/-- The windows of a convolution, read from its attributes, one for each axis. -/
def convolutionSlides (axes : Nat) (attrs : Attributes) : Except NodeError (List Slide) := do
  let _ ← attrs.integer? "in_channels"
  let _ ← attrs.integer? "groups"
  let kernel ← attrs.integers "kernel_size" axes
  let padding ← attrs.integers "padding" axes
  let dilation ← attrs.integers "dilation" axes
  let stride ← attrs.integers "stride" axes
  let transposed ← attrs.flag "transposed"
  let extra := (← attrs.integers? "output_padding" axes).getD (List.replicate axes 0)
  let _ ← attrs.integer? "out_channels"
  return List.zipWith (fun w e => ⟨w, if transposed then .transposed e else .plain⟩)
    (windows kernel padding dilation stride) extra

/-- The windows of a pooling layer. -/
def poolSlides (axes : Nat) (attrs : Attributes) (dilates : Bool) :
    Except NodeError (List Slide) := do
  let kernel ← attrs.integers "kernel_size" axes
  let stride := (← attrs.integers? "stride" axes).getD kernel
  let padding ← attrs.integers "padding" axes
  let dilation ← if dilates then attrs.integers "dilation" axes else pure (List.replicate axes 1)
  let roundUp ← attrs.flag "ceil_mode"
  return (windows kernel padding dilation stride).map (⟨·, if roundUp then .raised else .plain⟩)

/-- A layer comes to a point, or fails before: because it can not read one of the attributes that
are read for its windows, or because the shape does not fit. -/
def Ends (Q : Prop) (y : Except NodeError Dims) (s : Except NodeError (List Slide)) : Prop :=
  Q ∨ ∃ e, y = .error e ∧ (s = .error e ∨ ∃ fault, e = .shapeMismatch fault)

namespace Ends

variable {α : Type} {Q : Prop}

theorem read {x : Except NodeError α} {f : α → Except NodeError Dims}
    {g : α → Except NodeError (List Slide)} (h : ∀ a, x = .ok a → Ends Q (f a) (g a)) :
    Ends Q (x >>= f) (x >>= g) := by
  cases x with
  | error e => exact .inr ⟨e, rfl, .inl rfl⟩
  | ok a => exact h a rfl

theorem found {x : Except NodeError α} {a : α} {f : α → Except NodeError Dims}
    {s : Except NodeError (List Slide)} (hx : x = .ok a) (h : Ends Q (f a) s) :
    Ends Q (x >>= f) s := by
  rw [hx]
  exact h

theorem refuse {fault : ShapeFault} {f : α → Except NodeError Dims}
    {s : Except NodeError (List Slide)} : Ends Q (Shape.refuse fault >>= f) s :=
  .inr ⟨_, rfl, .inr ⟨fault, rfl⟩⟩

end Ends

/-! ## Convolution -/

/-- What a convolution has read and checked when its windows start to slide. -/
structure Convolution (axes : Nat) (channels : Int) (sizes : Dims) (attrs : Attributes) where
  expected : Option Int
  groups : Option Int
  kernel : List Int
  padding : List Int
  dilation : List Int
  stride : List Int
  transposed : Bool
  extra : Option (List Int)
  replaced : Option Int
  length_sizes : sizes.length = axes
  reads_expected : attrs.integer? "in_channels" = .ok expected
  accepts : ∀ n ∈ expected, n = channels
  reads_groups : attrs.integer? "groups" = .ok groups
  groups_pos : 1 ≤ groups.getD 1
  groups_split : channels.tmod (groups.getD 1) = 0
  reads_kernel : attrs.integers "kernel_size" axes = .ok kernel
  reads_padding : attrs.integers "padding" axes = .ok padding
  reads_dilation : attrs.integers "dilation" axes = .ok dilation
  reads_stride : attrs.integers "stride" axes = .ok stride
  reads_transposed : attrs.flag "transposed" = .ok transposed
  reads_extra : attrs.integers? "output_padding" axes = .ok extra
  reads_replaced : attrs.integer? "out_channels" = .ok replaced

section Convolution

variable {axes : Nat} {batch channels : Int} {sizes : Dims} {attrs : Attributes}

namespace Convolution

variable (c : Convolution axes channels sizes attrs)

/-- The windows of the convolution. -/
def windows : List Window := Shape.windows c.kernel c.padding c.dilation c.stride

/-- What is added to each axis that is spread out. -/
def extras : List Int := c.extra.getD (List.replicate axes 0)

/-- What a window makes of an axis. -/
def step (batch input : Int) (w : Window) (extra : Int) : Except NodeError Int :=
  if c.transposed then do
    let size ← w.spread input extra
    extent (batch :: channels :: sizes) c.kernel (if 0 < size then some size else none)
  else do
    extent (batch :: channels :: sizes) c.kernel (← w.places? input false)

/-- The extents of the axes. -/
def extents (batch : Int) : Except NodeError Dims :=
  (sizes.zip (c.windows.zip c.extras)).mapM fun (input, w, extra) => c.step batch input w extra

theorem output_eq : convolution axes (batch :: channels :: sizes) attrs =
    (batch :: c.replaced.getD channels :: ·) <$> c.extents batch := by
  have hrank : expectRank (batch :: channels :: sizes) (axes + 2) = .ok () :=
    if_pos (by rw [List.length_cons, List.length_cons, c.length_sizes])
  have hgroups : ¬(c.groups.getD 1 < 1 ∨ channels.tmod (c.groups.getD 1) ≠ 0) := by
    have hpos := c.groups_pos
    have hsplit := c.groups_split
    omega
  unfold convolution
  rw [hrank, c.reads_expected, c.reads_groups, c.reads_kernel, c.reads_padding, c.reads_dilation,
    c.reads_stride, c.reads_transposed, c.reads_extra, c.reads_replaced]
  have hlists : ∀ x : Except NodeError Dims, (do
      let spatial ← x
      return batch :: c.replaced.getD channels :: spatial) =
      (batch :: c.replaced.getD channels :: ·) <$> x := by
    intro x
    cases x <;> rfl
  cases hexpected : c.expected with
  | none => exact (if_neg hgroups).trans (hlists _)
  | some n =>
    exact (if_neg (not_not.2 (c.accepts n hexpected))).trans ((if_neg hgroups).trans (hlists _))

theorem slides_eq : convolutionSlides axes attrs = .ok (List.zipWith (fun w e =>
    ⟨w, if c.transposed then .transposed e else .plain⟩) c.windows c.extras) := by
  unfold convolutionSlides
  rw [c.reads_expected, c.reads_groups, c.reads_kernel, c.reads_padding, c.reads_dilation,
    c.reads_stride, c.reads_transposed, c.reads_extra, c.reads_replaced]
  rfl

end Convolution

/-- A convolution gets to its windows, or fails because of its attributes or of the shape. -/
theorem convolution_cases (attrs : Attributes) (batch channels : Int) (h : sizes.length = axes) :
    Ends (Nonempty (Convolution axes channels sizes attrs))
      (convolution axes (batch :: channels :: sizes) attrs) (convolutionSlides axes attrs) := by
  have hrank : expectRank (batch :: channels :: sizes) (axes + 2) = .ok () :=
    if_pos (by rw [List.length_cons, List.length_cons, h])
  unfold convolution
  refine Ends.found hrank ?_
  cases hexpected : attrs.integer? "in_channels" with
  | error e =>
    refine .inr ⟨e, rfl, .inl ?_⟩
    unfold convolutionSlides
    rw [hexpected]
    rfl
  | ok expected =>
  refine Ends.found rfl ?_
  extract_lets withLists withGroups
  -- what follows is the same whether or not a number of channels is given, if it is right
  have hwith : (∀ n ∈ expected, n = channels) →
      Ends (Nonempty (Convolution axes channels sizes attrs)) (withGroups ())
        (convolutionSlides axes attrs) := by
    intro haccepts
    unfold convolutionSlides
    rw [hexpected]
    show Ends _ _ (attrs.integer? "groups" >>= _)
    refine Ends.read fun groups hgroups => ?_
    show Ends _ (if groups.getD 1 < 1 ∨ channels.tmod (groups.getD 1) ≠ 0 then _ else _) _
    split
    · exact Ends.refuse
    · next hsplit =>
      refine Ends.read fun kernel hkernel => ?_
      refine Ends.read fun padding hpadding => ?_
      refine Ends.read fun dilation hdilation => ?_
      refine Ends.read fun stride hstride => ?_
      refine Ends.read fun transposed htransposed => ?_
      refine Ends.read fun extra hextra => ?_
      refine Ends.read fun replaced hreplaced => ?_
      exact .inl ⟨⟨expected, groups, kernel, padding, dilation, stride, transposed, extra, replaced,
        h, hexpected, haccepts, hgroups, by omega, by omega, hkernel, hpadding, hdilation, hstride,
        htransposed, hextra, hreplaced⟩⟩
  cases expected with
  | none => exact hwith nofun
  | some n =>
    show Ends _ (if n ≠ channels then _ else _) _
    split
    · exact Ends.refuse
    · next hn =>
      refine hwith fun m hm => ?_
      rw [← Option.some.inj hm]
      exact not_not.1 hn

/-- What a convolution gives, its windows give. -/
theorem exists_convolution {shape out : Dims} (h : convolution axes shape attrs = .ok out) :
    ∃ batch channels sizes, ∃ c : Convolution axes channels sizes attrs, ∃ spatial,
      shape = batch :: channels :: sizes ∧ c.extents batch = .ok spatial ∧
      out = batch :: c.replaced.getD channels :: spatial := by
  obtain ⟨_, hrank, -⟩ := Except.of_bind_ok h
  obtain ⟨batch, channels, sizes, rfl, hsizes⟩ := exists_sizes (expectRank_ok hrank)
  rcases convolution_cases attrs batch channels hsizes with ⟨⟨c⟩⟩ | ⟨e, he, -⟩
  · rw [c.output_eq] at h
    obtain ⟨spatial, hspatial, rfl⟩ := map_ok h
    exact ⟨batch, channels, sizes, c, spatial, rfl, hspatial, rfl⟩
  · cases he.symm.trans h

end Convolution

/-! ## Pooling -/

/-- What a pooling layer has read when its windows start to slide. -/
structure Pooling (axes : Nat) (sizes : Dims) (attrs : Attributes) (dilates : Bool) where
  kernel : List Int
  padding : List Int
  dilation : List Int
  stride : Option (List Int)
  roundUp : Bool
  length_sizes : sizes.length = axes
  reads_kernel : attrs.integers "kernel_size" axes = .ok kernel
  reads_stride : attrs.integers? "stride" axes = .ok stride
  reads_padding : attrs.integers "padding" axes = .ok padding
  reads_dilation : (if dilates then attrs.integers "dilation" axes
    else pure (List.replicate axes 1)) = .ok dilation
  reads_roundUp : attrs.flag "ceil_mode" = .ok roundUp

section Pooling

variable {axes : Nat} {batch channels : Int} {sizes : Dims} {attrs : Attributes} {dilates : Bool}

namespace Pooling

variable (p : Pooling axes sizes attrs dilates)

/-- The windows of the layer. -/
def windows : List Window :=
  Shape.windows p.kernel p.padding p.dilation (p.stride.getD p.kernel)

/-- What a window makes of an axis. -/
def step (batch channels input : Int) (w : Window) : Except NodeError Int := do
  match word? (w.padding * 2) with
  | none => refuse (.padding w.padding w.kernel)
  | some both => if w.kernel < both then refuse (.padding w.padding w.kernel)
  extent (batch :: channels :: sizes) p.kernel (← w.places? input p.roundUp)

/-- The extents of the axes. -/
def extents (batch channels : Int) : Except NodeError Dims :=
  (sizes.zip p.windows).mapM fun (input, w) => p.step batch channels input w

/-- The dilation that was read goes on. -/
theorem dilation_bind {β : Type} (slide : List Int → Except NodeError β) :
    (if dilates then attrs.integers "dilation" axes >>= slide
      else pure (List.replicate axes 1) >>= slide) = slide p.dilation := by
  have hdilation := p.reads_dilation
  split at hdilation
  · next hd => rw [if_pos hd, hdilation]; rfl
  · next hd =>
    rw [if_neg hd, hdilation]
    rfl

/-- A window that counts places is padded by at most half its extent. -/
theorem step_ok {input n : Int} {w : Window} (h : p.step batch channels input w = .ok n) :
    w.padding * 2 ≤ w.kernel ∧ w.places? input p.roundUp = .ok (some n) := by
  unfold step at h
  extract_lets count at h
  have hcount : ∀ u, count u = .ok n → w.places? input p.roundUp = .ok (some n) := by
    intro u hu
    obtain ⟨places, hplaces, hn⟩ := Except.of_bind_ok hu
    rw [hplaces, extent_ok hn]
  split at h
  · cases h
  · next both hboth =>
    obtain ⟨rfl, -, -⟩ := Numeric.word?_eq_some_iff.1 hboth
    split at h
    · cases h
    · next hhalf => exact ⟨by omega, hcount () h⟩

theorem output_eq : pool axes (batch :: channels :: sizes) attrs dilates =
    (batch :: channels :: ·) <$> p.extents batch channels := by
  have hrank : expectRank (batch :: channels :: sizes) (axes + 2) = .ok () :=
    if_pos (by rw [List.length_cons, List.length_cons, p.length_sizes])
  have hextents : ∀ x : Except NodeError Dims, (do
      let spatial ← x
      return (batch :: channels :: sizes).take 2 ++ spatial) = (batch :: channels :: ·) <$> x := by
    intro x
    cases x <;> rfl
  unfold pool
  rw [hrank, p.reads_kernel, p.reads_stride, p.reads_padding, p.reads_roundUp]
  exact (p.dilation_bind _).trans (hextents _)

theorem slides_eq : poolSlides axes attrs dilates =
    .ok (p.windows.map (⟨·, if p.roundUp then .raised else .plain⟩)) := by
  unfold poolSlides
  rw [p.reads_kernel, p.reads_stride, p.reads_padding, p.reads_roundUp]
  exact p.dilation_bind _

end Pooling

/-- A pooling layer gets to its windows, or fails because of its attributes or of the rank. -/
theorem pool_cases (attrs : Attributes) (dilates : Bool) (batch channels : Int)
    (h : sizes.length = axes) :
    Ends (Nonempty (Pooling axes sizes attrs dilates))
      (pool axes (batch :: channels :: sizes) attrs dilates) (poolSlides axes attrs dilates) := by
  have hrank : expectRank (batch :: channels :: sizes) (axes + 2) = .ok () :=
    if_pos (by rw [List.length_cons, List.length_cons, h])
  unfold pool poolSlides
  refine Ends.found hrank ?_
  refine Ends.read fun kernel hkernel => ?_
  refine Ends.read fun stride hstride => ?_
  refine Ends.read fun padding hpadding => ?_
  have hflag : ∀ dilation : List Int, (if dilates then attrs.integers "dilation" axes
      else pure (List.replicate axes 1)) = .ok dilation →
      ∀ roundUp, attrs.flag "ceil_mode" = .ok roundUp →
      Nonempty (Pooling axes sizes attrs dilates) := fun dilation hdilation roundUp hroundUp =>
    ⟨⟨kernel, padding, dilation, stride, roundUp, h, hkernel, hstride, hpadding, hdilation,
      hroundUp⟩⟩
  by_cases hd : dilates = true
  · rw [if_pos hd] at hflag
    show Ends _ (if dilates = true then _ else _) (if dilates = true then _ else _)
    rw [if_pos hd, if_pos hd]
    refine Ends.read fun dilation hdilation => ?_
    refine Ends.read fun roundUp hroundUp => ?_
    exact .inl (hflag dilation hdilation roundUp hroundUp)
  · rw [if_neg hd] at hflag
    show Ends _ (if dilates = true then _ else _) (if dilates = true then _ else _)
    rw [if_neg hd, if_neg hd]
    refine Ends.read fun dilation hdilation => ?_
    refine Ends.read fun roundUp hroundUp => ?_
    exact .inl (hflag dilation hdilation roundUp hroundUp)

/-- What a pooling layer gives, its windows give. -/
theorem exists_pooling {shape out : Dims} (h : pool axes shape attrs dilates = .ok out) :
    ∃ batch channels sizes, ∃ p : Pooling axes sizes attrs dilates, ∃ spatial,
      shape = batch :: channels :: sizes ∧ p.extents batch channels = .ok spatial ∧
      out = batch :: channels :: spatial := by
  obtain ⟨_, hrank, -⟩ := Except.of_bind_ok h
  obtain ⟨batch, channels, sizes, rfl, hsizes⟩ := exists_sizes (expectRank_ok hrank)
  rcases pool_cases attrs dilates batch channels hsizes with ⟨⟨p⟩⟩ | ⟨e, he, -⟩
  · rw [p.output_eq] at h
    obtain ⟨spatial, hspatial, rfl⟩ := map_ok h
    exact ⟨batch, channels, sizes, p, spatial, rfl, hspatial, rfl⟩
  · cases he.symm.trans h

end Pooling

end Dataflow.Shape
