/-
  Which layers keep shapes full.

  A shape is full if none of its dimensions is empty or negative.  Windows keep it full whatever
  their attributes: a plain one counts at least one place or refuses, rounding up never takes that
  place away, and a transposed one that makes nothing of an axis is refused.  Pooling keeps batch and
  channels, flattening multiplies what it merges.

  What remains are the extents that three kinds of layers take from an attribute as they are: the
  channels of a convolution, the features behind a linear layer, the size behind adaptive pooling
  (`Rule.sizes`).  Nobody looks at these.  So the shape behind a layer is full exactly if they are
  positive (`Rule.output_full`).
-/

import Dataflow.Proofs.Sliding

namespace Dataflow.Shape

open Numeric (word?)

/-- A shape without empty or negative dimensions. -/
def Full (shape : Dims) : Prop := ∀ n ∈ shape, 1 ≤ n

instance (shape : Dims) : Decidable (Full shape) := inferInstanceAs (Decidable (∀ n ∈ shape, 1 ≤ n))

section Full

variable {shape shape' : Dims} {n : Int}

theorem full_cons : Full (n :: shape) ↔ 1 ≤ n ∧ Full shape := List.forall_mem_cons

theorem full_append : Full (shape ++ shape') ↔ Full shape ∧ Full shape' := List.forall_mem_append

theorem Full.of_sublist (h : Full shape) (hs : shape'.Sublist shape) : Full shape' :=
  fun n hn => h n (hs.subset hn)

end Full

theorem refuse_bind {α β : Type} {fault : ShapeFault} {f : α → Except NodeError β} {b : β} :
    (refuse fault >>= f) ≠ .ok b := nofun

/-! ## Windows -/

/-- A window that fits an axis has a place there, when it is padded by at most half its extent if
places are counted by rounding up. -/
theorem Window.places_pos {w : Window} {input n : Int} {roundUp : Bool}
    (hp : roundUp = true → w.padding * 2 ≤ w.kernel)
    (h : w.places? input roundUp = .ok (some n)) : 1 ≤ n := by
  have hf := places_ok h
  have hstride := hf.stride_pos
  have hspan := hf.span_nonneg
  cases roundUp with
  | false =>
    rw [hf.plain rfl]
    have hsteps := Int.ediv_nonneg hspan (show 0 ≤ w.stride by omega)
    omega
  | true =>
    have hsteps : 0 ≤ (w.span input + (w.stride - 1)) / w.stride :=
      Int.ediv_nonneg (by omega) (by omega)
    -- the last place is taken away only if there was another one before it
    have hlast : input + w.padding ≤ (w.span input + (w.stride - 1)) / w.stride * w.stride →
        (w.span input + (w.stride - 1)) / w.stride ≠ 0 := by
      intro hle hzero
      rw [hzero, Int.zero_mul] at hle
      have hkernel := hf.kernel_pos
      have hreach := hf.kernel_le_reach
      have hhalf := hp rfl
      unfold Window.span at hspan
      omega
    rw [hf.raised rfl]
    split
    · next hle =>
      have := hlast hle
      omega
    · omega

/-! ## Convolution and pooling -/

section Spec

variable {axes : Nat} {shape out : Dims} {attrs : Attributes}

theorem convolution_spec (h : convolution axes shape attrs = .ok out) :
    shape.length = axes + 2 ∧ ∃ channels spatial, attrs.integer? "out_channels" = .ok channels ∧
      Full spatial ∧
      out = shape.headD 0 :: channels.getD (shape.tail.headD 0) :: spatial := by
  obtain ⟨batch, own, sizes, c, spatial, rfl, hspatial, rfl⟩ := exists_convolution h
  refine ⟨?_, c.replaced, spatial, c.reads_replaced, fun n hn => ?_, rfl⟩
  · rw [List.length_cons, List.length_cons, c.length_sizes]
  · obtain ⟨⟨input, w, extra⟩, -, hn⟩ := mapM_ok hspatial n hn
    have hn : c.step batch input w extra = .ok n := hn
    unfold Convolution.step at hn
    split at hn
    · obtain ⟨size, -, hn⟩ := Except.of_bind_ok hn
      have hsize := extent_ok hn
      split at hsize
      · cases hsize
        omega
      · cases hsize
    · obtain ⟨places, hplaces, hn⟩ := Except.of_bind_ok hn
      cases extent_ok hn
      refine Window.places_pos ?_ hplaces
      intro hup
      cases hup

theorem pool_spec {dilates : Bool} (h : pool axes shape attrs dilates = .ok out) :
    ∃ spatial, Full spatial ∧ out = shape.take 2 ++ spatial := by
  obtain ⟨batch, channels, sizes, p, spatial, rfl, hspatial, rfl⟩ := exists_pooling h
  refine ⟨spatial, fun n hn => ?_, rfl⟩
  obtain ⟨⟨input, w⟩, -, hn⟩ := mapM_ok hspatial n hn
  obtain ⟨hhalf, hplaces⟩ := p.step_ok hn
  exact Window.places_pos (fun _ => hhalf) hplaces

/-! ## The other layers -/

theorem adaptivePool_spec (h : adaptivePool axes shape attrs = .ok out) :
    ∃ size, attrs.integers "output_size" axes = .ok size ∧ out = shape.take 2 ++ size := by
  obtain ⟨_, -, h⟩ := Except.of_bind_ok h
  obtain ⟨size, hsize, h⟩ := Except.of_bind_ok h
  cases h
  exact ⟨size, hsize, rfl⟩

theorem linear_spec (h : linear shape attrs = .ok out) :
    ∃ features replaced, shape.getLast? = some features ∧
      attrs.integer? "out_features" = .ok replaced ∧
      out = shape.dropLast ++ [replaced.getD features] := by
  unfold linear at h
  split at h
  · cases h
  · next features hlast =>
    obtain ⟨expected, -, h⟩ := Except.of_bind_ok h
    extract_lets rest at h
    have hrest : rest () = .ok out := by
      split at h
      · split at h
        · exact absurd h refuse_bind
        · exact h
      · exact h
    obtain ⟨replaced, hreplaced, h⟩ := Except.of_bind_ok hrest
    cases h
    exact ⟨features, replaced, hlast, hreplaced, rfl⟩

theorem batchNorm_spec (h : batchNorm shape attrs = .ok out) : out = shape := by
  unfold batchNorm at h
  obtain ⟨_, -, h⟩ := Except.of_bind_ok h
  extract_lets channels rest at h
  obtain ⟨expected, -, h⟩ := Except.of_bind_ok h
  have hrest : rest () = .ok out := by
    split at h
    · split at h
      · exact absurd h refuse_bind
      · exact h
    · exact h
  cases hrest
  rfl

theorem product_pos {acc n : Int} {ns : List Int} (ha : 1 ≤ acc) (hns : Full ns)
    (h : product acc ns = .ok n) : 1 ≤ n := by
  induction ns generalizing acc with
  | nil =>
    cases h
    exact ha
  | cons m ns ih =>
    obtain ⟨hm, hns⟩ := full_cons.1 hns
    obtain ⟨next, hnext, h⟩ := Except.of_bind_ok h
    rw [checked_ok hnext] at h
    refine ih ?_ hns h
    have := Int.mul_le_mul ha hm (by omega) (by omega)
    omega

theorem flatten_spec (h : flatten shape attrs = .ok out) :
    ∃ first last merged, product 1 ((shape.take (last + 1)).drop first) = .ok merged ∧
      out = shape.take first ++ merged :: shape.drop (last + 1) := by
  unfold flatten at h
  obtain ⟨_, -, h⟩ := Except.of_bind_ok h
  obtain ⟨_, -, h⟩ := Except.of_bind_ok h
  obtain ⟨first, -, h⟩ := Except.of_bind_ok h
  obtain ⟨last, -, h⟩ := Except.of_bind_ok h
  extract_lets a b rest at h
  have hrest : rest () = .ok out := by
    split at h
    · exact absurd h refuse_bind
    · exact h
  obtain ⟨merged, hmerged, h⟩ := Except.of_bind_ok hrest
  cases h
  exact ⟨first.toNat, last.toNat, merged, hmerged, rfl⟩

end Spec

/-! ## All layers -/

/-- The attribute that gives extents as they are. -/
def Rule.sizedBy : Rule → Option String
  | convolution _ => some "out_channels"
  | adaptivePool _ => some "output_size"
  | linear => some "out_features"
  | _ => none

/-- The extents that a layer takes from that attribute. -/
def Rule.sizes (rule : Rule) (attrs : Attributes) : Except NodeError Dims :=
  match rule with
  | convolution _ => (attrs.integer? "out_channels").map Option.toList
  | adaptivePool axes => attrs.integers "output_size" axes
  | linear => (attrs.integer? "out_features").map Option.toList
  | _ => .ok []

/-- The extents that a layer takes from an attribute, if they can be read, are positive. -/
def Rule.Bounded (rule : Rule) (attrs : Attributes) : Prop :=
  ∀ sizes, rule.sizes attrs = .ok sizes → Full sizes

instance (rule : Rule) (attrs : Attributes) : Decidable (rule.Bounded attrs) :=
  match h : rule.sizes attrs with
  | .ok sizes => decidable_of_iff (Full sizes)
      ⟨fun hf _ hs => Except.ok.inj (h.symm.trans hs) ▸ hf, fun hb => hb sizes h⟩
  | .error _ => isTrue fun _ hs => nomatch h.symm.trans hs

/-- Those extents depend on no other attribute. -/
theorem Rule.sizes_congr {rule : Rule} {attrs attrs' : Attributes}
    (h : ∀ name ∈ rule.sizedBy, attrs' name = attrs name) : rule.sizes attrs' = rule.sizes attrs := by
  have hset : ∀ name ∈ rule.sizedBy, attrs'.set? name = attrs.set? name := by
    intro name hname
    unfold Attributes.set?
    rw [h name hname]
  cases rule with
  | convolution axes =>
    unfold sizes Attributes.integer?
    rw [hset "out_channels" rfl]
  | adaptivePool axes =>
    unfold sizes Attributes.integers Attributes.integers?
    rw [hset "output_size" rfl]
  | linear =>
    unfold sizes Attributes.integer?
    rw [hset "out_features" rfl]
  | _ => rfl

theorem Rule.Bounded.congr {rule : Rule} {attrs attrs' : Attributes} (hb : rule.Bounded attrs)
    (h : ∀ name ∈ rule.sizedBy, attrs' name = attrs name) : rule.Bounded attrs' :=
  fun sizes hsizes => hb sizes ((sizes_congr h).symm.trans hsizes)

/-- Behind a full shape, the shape that a layer gives is full exactly if the extents are positive
that it takes from an attribute as they are. -/
theorem Rule.output_full {rule : Rule} {shape out : Dims} {attrs : Attributes} (hs : Full shape)
    (h : rule.output shape attrs = .ok out) : Full out ↔ rule.Bounded attrs := by
  -- whether a rule is bounded can be read off the sizes that it asks for
  have hreads : ∀ {sizes}, rule.sizes attrs = .ok sizes → (rule.Bounded attrs ↔ Full sizes) := by
    intro sizes hsizes
    refine ⟨fun hb => hb sizes hsizes, fun hf sizes' hsizes' => ?_⟩
    cases hsizes.symm.trans hsizes'
    exact hf
  cases rule with
  | identity =>
    cases h
    exact iff_of_true hs ((hreads rfl).2 fun n hn => nomatch hn)
  | convolution axes =>
    obtain ⟨hrank, channels, spatial, hchannels, hspatial, rfl⟩ := convolution_spec h
    have hsizes : Rule.sizes (.convolution axes) attrs = .ok channels.toList := by
      unfold sizes
      rw [hchannels]
      rfl
    rw [hreads hsizes, full_cons, full_cons, and_iff_left hspatial]
    cases shape with
    | nil => cases hrank
    | cons batch shape =>
      cases shape with
      | nil => simp at hrank
      | cons own shape =>
        rw [full_cons, full_cons] at hs
        cases channels with
        | none => exact iff_of_true ⟨hs.1, hs.2.1⟩ fun n hn => nomatch hn
        | some n => exact (and_iff_right hs.1).trans List.forall_mem_singleton.symm
  | maxPool axes | averagePool axes =>
    obtain ⟨spatial, hspatial, rfl⟩ := pool_spec h
    refine iff_of_true (full_append.2 ⟨hs.of_sublist (List.take_sublist ..), hspatial⟩) ?_
    exact (hreads rfl).2 fun n hn => nomatch hn
  | adaptivePool axes =>
    obtain ⟨size, hsize, rfl⟩ := adaptivePool_spec h
    rw [hreads hsize, full_append, and_iff_right (hs.of_sublist (List.take_sublist ..))]
  | linear =>
    obtain ⟨features, replaced, hlast, hreplaced, rfl⟩ := linear_spec h
    have hsizes : Rule.sizes .linear attrs = .ok replaced.toList := by
      unfold sizes
      rw [hreplaced]
      rfl
    rw [hreads hsizes, full_append, and_iff_right (hs.of_sublist (List.dropLast_sublist ..))]
    cases replaced with
    | none =>
      refine iff_of_true (fun n hn => ?_) fun n hn => nomatch hn
      rw [List.mem_singleton.1 hn]
      exact hs features (List.mem_of_getLast? hlast)
    | some n => exact Iff.rfl
  | batchNorm =>
    rw [batchNorm_spec h]
    exact iff_of_true hs ((hreads rfl).2 fun n hn => nomatch hn)
  | flatten =>
    obtain ⟨first, last, merged, hmerged, rfl⟩ := flatten_spec h
    have hmid : Full ((shape.take (last + 1)).drop first) :=
      hs.of_sublist ((List.drop_sublist ..).trans (List.take_sublist ..))
    refine iff_of_true ?_ ((hreads rfl).2 fun n hn => nomatch hn)
    rw [full_append, full_cons]
    exact ⟨hs.of_sublist (List.take_sublist ..), product_pos (by omega) hmid hmerged,
      hs.of_sublist (List.drop_sublist ..)⟩

end Dataflow.Shape
