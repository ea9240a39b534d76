/-
  The shape rules on machine words.

  The rules compute with integers, and check every result that may leave the words.  A machine has
  nothing but words, and also takes steps that nobody checks: one less than a kernel or a stride, a
  quotient, a remainder, a size that shrinks by one, an entry or a slice of a list.  `Machine` is a
  computation step by step.  A checked step that leaves the words fails with a mismatch of shapes;
  any other step that has no result halts the machine.

  `Rule.onWords` takes the steps of a rule one by one, and `Rule.onWords_eq` says that it never
  halts on a shape that a machine can hold, and gives what the rule gives.  This is so whatever the
  attributes are: every integer that is read from one is a word (`integers_ok`), and each unchecked
  step stands behind a test that keeps its result small.
-/

import Dataflow.Proofs.Decimals
import Dataflow.Proofs.Extents

namespace Dataflow

open Numeric (isWord leastWord greatestWord word?)

theorem Numeric.isWord_iff {n : Int} :
    isWord n = true ↔ -9223372036854775808 ≤ n ∧ n ≤ 9223372036854775807 := by
  unfold isWord leastWord greatestWord
  rw [Bool.and_eq_true, decide_eq_true_eq, decide_eq_true_eq]

open Numeric (isWord_iff)

/-! ## What is read from attributes -/

section Reading

variable {attrs : Attributes} {name : String} {axes : Nat}

/-- The integer in a value is the one that is equal to its number, if that is a word. -/
theorem Value.integer_eq {v : Value} {x : Float} (hv : v.number name = .ok x) : v.integer name =
    match Numeric.whole? x with
    | none => .error (.invalidProperty name (.notInteger x))
    | some n => if isWord n then .ok n else .error (.invalidProperty name (.outOfRange x)) := by
  unfold integer
  rw [hv]
  rfl

theorem Value.integer_word {v : Value} {n : Int} (h : v.integer name = .ok n) :
    isWord n = true := by
  obtain ⟨x, -, h⟩ := Except.of_bind_ok h
  split at h
  · cases h
  · split at h
    · next hword =>
      cases h
      exact hword
    · cases h

/-- An integer is read as it is written if a floating-point number keeps all its digits. -/
theorem Value.integer_int {n : Int} (h : n.natAbs < 2 ^ 53) :
    (Value.int n).integer name = .ok n := by
  have hwhole : Numeric.whole? (Float.ofInt n) = some n :=
    Numeric.whole?_ofInt (by omega) (by omega)
  rw [integer_eq rfl, hwhole]
  exact if_pos (isWord_iff.2 (by omega))

namespace Attributes

theorem integer?_word {n : Int} (h : attrs.integer? name = .ok (some n)) : isWord n = true := by
  unfold integer? at h
  split at h
  · cases h
  · next v _ =>
    cases hv : v.integer name with
    | error e =>
      rw [hv] at h
      cases h
    | ok m =>
      rw [hv] at h
      cases h
      exact Value.integer_word hv

theorem perAxis_ok {ns ms : List Int} (h : perAxis name axes ns = .ok ms) :
    ms.length = axes ∧ ∀ m ∈ ms, m ∈ ns := by
  unfold perAxis at h
  split at h
  · cases h
    exact ⟨List.length_replicate .., fun m hm => List.mem_singleton.2 (List.eq_of_mem_replicate hm)⟩
  · split at h
    · next hlen =>
      cases h
      exact ⟨hlen, fun m hm => hm⟩
    · cases h

/-- One word per axis is read. -/
theorem integers?_ok {ns : List Int} (h : attrs.integers? name axes = .ok (some ns)) :
    ns.length = axes ∧ ∀ n ∈ ns, isWord n = true := by
  unfold integers? at h
  split at h
  · cases h
  · next items _ =>
    obtain ⟨read, hread, h⟩ := Except.of_bind_ok h
    obtain ⟨ms, hms, h⟩ := Except.of_bind_ok h
    cases h
    obtain ⟨hlen, hmem⟩ := perAxis_ok hms
    refine ⟨hlen, fun n hn => ?_⟩
    obtain ⟨v, -, hv⟩ := Shape.mapM_ok hread n (hmem n hn)
    exact Value.integer_word hv
  · obtain ⟨n, hread, h⟩ := Except.of_bind_ok h
    obtain ⟨ms, hms, h⟩ := Except.of_bind_ok h
    cases h
    obtain ⟨hlen, hmem⟩ := perAxis_ok hms
    refine ⟨hlen, fun m hm => ?_⟩
    rw [List.mem_singleton.1 (hmem m hm)]
    exact Value.integer_word hread

theorem integers_ok {ns : List Int} (h : attrs.integers name axes = .ok ns) :
    ns.length = axes ∧ ∀ n ∈ ns, isWord n = true := by
  obtain ⟨read, hread, h⟩ := Except.of_bind_ok h
  cases read with
  | none => cases h
  | some ms =>
    cases h
    exact integers?_ok hread

/-- Where one integer per axis is written, small enough for a floating-point number to keep all its
digits, these integers are read. -/
theorem integers?_ints {ns : List Int} (h : attrs name = some (.arr (ns.map .int)))
    (hlen : ns.length = axes) (hsmall : ∀ n ∈ ns, n.natAbs < 2 ^ 53) :
    attrs.integers? name axes = .ok (some ns) := by
  have hset : attrs.set? name = some (.arr (ns.map .int)) := by
    unfold set?
    rw [h]
  have hread : (ns.map Value.int).mapM (Value.integer name) = .ok ns := by
    clear h hset hlen
    induction ns with
    | nil => rfl
    | cons n ns ih =>
      obtain ⟨hn, hns⟩ := List.forall_mem_cons.1 hsmall
      rw [List.map_cons, List.mapM_cons, Value.integer_int hn, ih hns]
      rfl
  have hper : perAxis name axes ns = .ok ns := by
    unfold perAxis
    split
    · rw [← hlen]
      rfl
    · exact if_pos hlen
  unfold integers?
  rw [hset]
  show ((ns.map Value.int).mapM (Value.integer name) >>= _) = _
  rw [hread]
  show (perAxis name axes ns >>= _) = _
  rw [hper]
  rfl

/-- One word per axis is read, or the default is taken. -/
theorem integers?_getD {read : Option (List Int)} {default : List Int}
    (h : attrs.integers? name axes = .ok read)
    (hd : default.length = axes ∧ ∀ n ∈ default, isWord n = true) :
    (read.getD default).length = axes ∧ ∀ n ∈ read.getD default, isWord n = true := by
  cases read with
  | none => exact hd
  | some ns => exact integers?_ok h

end Attributes

end Reading

namespace Shape

/-! ## Computations on words -/

/-- A computation on machine words.  It fails as a layer does, or it halts. -/
abbrev Machine := ExceptT NodeError Option

namespace Machine

variable {α β : Type}

/-- The machine can not go on. -/
def halt : Machine α := ExceptT.mk none

/-- A computation that does not halt. -/
def lift (x : Except NodeError α) : Machine α := ExceptT.mk (some x)

/-- The result of a step that nobody checks. -/
def word (n : Int) : Machine Int := if isWord n then lift (.ok n) else halt

/-- The quotient of two words, towards zero. -/
def quotient (a b : Int) : Machine Int := if b = 0 then halt else word (a.tdiv b)

/-- The remainder of two words, which is there only if the quotient is. -/
def remainder (a b : Int) : Machine Int := do
  let _ ← quotient a b
  return a.tmod b

/-- A word that counts entries of a list. -/
def index (n : Int) : Machine Nat := if 0 ≤ n then lift (.ok n.toNat) else halt

/-- An entry of a list. -/
def entry (xs : List α) (i : Nat) : Machine α :=
  match xs[i]? with
  | some x => lift (.ok x)
  | none => halt

/-- The entries of a list from one index up to another. -/
def slice (xs : List α) (a b : Nat) : Machine (List α) :=
  if a ≤ b ∧ b ≤ xs.length then lift (.ok ((xs.take b).drop a)) else halt

theorem word_eq {n : Int} (h : isWord n = true) : word n = lift (.ok n) := if_pos h

theorem index_eq {n : Int} (h : 0 ≤ n) : index n = lift (.ok n.toNat) := if_pos h

theorem entry_eq {xs : List α} {i : Nat} {x : α} (h : xs[i]? = some x) :
    entry xs i = lift (.ok x) := by
  unfold entry
  rw [h]

theorem slice_eq {xs : List α} {a b : Nat} (hab : a ≤ b) (hb : b ≤ xs.length) :
    slice xs a b = lift (.ok ((xs.take b).drop a)) := if_pos ⟨hab, hb⟩

/-- A word divided by a positive one. -/
theorem quotient_eq {a b : Int} (ha : isWord a = true) (hb : 1 ≤ b) :
    quotient a b = lift (.ok (a.tdiv b)) := by
  unfold quotient
  rw [if_neg (by omega)]
  refine word_eq ?_
  rw [isWord_iff] at ha ⊢
  rcases Int.le_total 0 a with hpos | hneg
  · have hlow := Int.tdiv_nonneg hpos (show 0 ≤ b by omega)
    have hhigh := Int.tdiv_le_self b hpos
    omega
  · have hlow := Int.tdiv_nonneg (show 0 ≤ -a by omega) (show 0 ≤ b by omega)
    have hhigh := Int.tdiv_le_self b (show 0 ≤ -a by omega)
    rw [Int.neg_tdiv] at hlow hhigh
    omega

theorem remainder_eq {a b : Int} (ha : isWord a = true) (hb : 1 ≤ b) :
    remainder a b = lift (.ok (a.tmod b)) := by
  unfold remainder
  rw [quotient_eq ha hb]
  rfl

/-- A machine follows a computation that it follows step by step. -/
theorem lift_bind {x : Except NodeError α} {f : α → Except NodeError β} {g : α → Machine β}
    (h : ∀ a, x = .ok a → g a = lift (f a)) : lift x >>= g = lift (x >>= f) := by
  cases x with
  | error e => rfl
  | ok a => exact h a rfl

@[simp] theorem ok_bind {a : α} {g : α → Machine β} : lift (.ok a) >>= g = g a := rfl

/-- A loop over indices follows the loop over what stands at them. -/
theorem lift_mapM {is : List Nat} {xs : List α} {f : α → Except NodeError β} {g : Nat → Machine β}
    (h : List.Forall₂ (fun i x => g i = lift (f x)) is xs) : is.mapM g = lift (xs.mapM f) := by
  induction h with
  | nil => rfl
  | cons hx _ ih =>
    rw [List.mapM_cons, List.mapM_cons, hx]
    refine lift_bind fun y _ => ?_
    rw [ih]
    exact lift_bind fun ys _ => rfl

theorem lift_range {n : Nat} {xs : List α} {f : α → Except NodeError β} {g : Nat → Machine β}
    (hn : xs.length = n) (h : ∀ i x, xs[i]? = some x → g i = lift (f x)) :
    (List.range n).mapM g = lift (xs.mapM f) := by
  refine lift_mapM (List.forall₂_iff_get.2 ⟨by simp [hn], fun i hi hx => ?_⟩)
  rw [List.get_eq_getElem, List.get_eq_getElem, List.getElem_range]
  exact h i xs[i] (List.getElem?_eq_getElem hx)

end Machine

open Machine (lift lift_bind)

/-! ## Windows -/

/-- The windows take one entry of each list. -/
theorem getElem?_windows {ks ps ds ss : List Int} {i : Nat} {w : Window} :
    (windows ks ps ds ss)[i]? = some w ↔ ks[i]? = some w.kernel ∧ ps[i]? = some w.padding ∧
      ds[i]? = some w.dilation ∧ ss[i]? = some w.stride := by
  fun_induction windows ks ps ds ss generalizing i with
  | case1 k ks p ps d ds s ss ih =>
    cases i with
    | zero =>
      cases w
      simp
    | succ i => simpa using ih
  | case2 ks ps ds ss h =>
    cases ks with
    | nil => simp
    | cons k ks =>
      cases ps with
      | nil => simp
      | cons p ps =>
        cases ds with
        | nil => simp
        | cons d ds =>
          cases ss with
          | nil => simp
          | cons s ss => exact absurd rfl (h k ks p ps d ds s ss rfl rfl rfl)

theorem length_windows {n : Nat} {ks ps ds ss : List Int} (hk : ks.length = n) (hp : ps.length = n)
    (hd : ds.length = n) (hs : ss.length = n) : (windows ks ps ds ss).length = n := by
  fun_induction windows ks ps ds ss generalizing n with
  | case1 k ks p ps d ds s ss ih =>
    simp only [List.length_cons] at hk hp hd hs ⊢
    have hrest := @ih (n - 1) (by omega) (by omega) (by omega) (by omega)
    omega
  | case2 ks ps ds ss h =>
    cases ks with
    | nil => simpa using hk
    | cons k ks =>
      cases ps with
      | nil => simp_all
      | cons p ps =>
        cases ds with
        | nil => simp_all
        | cons d ds =>
          cases ss with
          | nil => simp_all
          | cons s ss => exact absurd rfl (h k ks p ps d ds s ss rfl rfl rfl)

/-- The places of a window, step by step. -/
def Window.placesOnWords (w : Window) (input : Int) (roundUp : Bool) : Machine (Option Int) := do
  if w.stride < 1 ∨ w.kernel < 1 ∨ w.dilation < 1 then return none
  let holes ← Machine.word (w.kernel - 1)
  let stretch ← lift (checked (w.dilation * holes))
  let reach ← lift (checked (stretch + 1))
  let both ← lift (checked (w.padding * 2))
  let padded ← lift (checked (input + both))
  let span ← lift (checked (padded - reach))
  if span < 0 then return none
  if roundUp then
    let less ← Machine.word (w.stride - 1)
    let raised ← lift (checked (span + less))
    let steps ← Machine.quotient raised w.stride
    let size ← lift (checked (steps + 1))
    let start ← lift (checked (steps * w.stride))
    let limit ← lift (checked (input + w.padding))
    if limit ≤ start then
      let size ← Machine.word (size - 1)
      return some size
    else return some size
  else
    let steps ← Machine.quotient span w.stride
    let size ← lift (checked (steps + 1))
    return some size

theorem checked_word {n m : Int} (h : checked n = .ok m) : isWord m = true := by
  unfold checked word? at h
  split at h
  · next hm =>
    cases h
    split at hm
    · next hword =>
      cases hm
      exact hword
    · cases hm
  · cases h

theorem Window.placesOnWords_eq {w : Window} (hk : isWord w.kernel = true)
    (hs : isWord w.stride = true) (input : Int) (roundUp : Bool) :
    w.placesOnWords input roundUp = lift (w.places? input roundUp) := by
  unfold placesOnWords places?
  split
  · rfl
  · next hw =>
    rw [isWord_iff] at hk hs
    obtain ⟨hstride, hkernel⟩ : 1 ≤ w.stride ∧ 1 ≤ w.kernel := by omega
    rw [Machine.word_eq (isWord_iff.2 (by omega)), Machine.ok_bind]
    refine lift_bind fun stretch _ => ?_
    refine lift_bind fun reach _ => ?_
    refine lift_bind fun both _ => ?_
    refine lift_bind fun padded _ => ?_
    refine lift_bind fun span hspan => ?_
    split
    · rfl
    · next hfits =>
      split
      · rw [Machine.word_eq (isWord_iff.2 (by omega)), Machine.ok_bind]
        refine lift_bind fun raised hraised => ?_
        have hnonneg : 0 ≤ raised := by
          rw [checked_ok hraised]
          omega
        rw [Machine.quotient_eq (checked_word hraised) hstride, Machine.ok_bind,
          Int.tdiv_eq_ediv_of_nonneg hnonneg]
        refine lift_bind fun size hsize => ?_
        refine lift_bind fun start _ => ?_
        refine lift_bind fun limit _ => ?_
        split
        · -- a place that is taken away leaves at least none
          have hsteps := Int.ediv_nonneg hnonneg (show 0 ≤ w.stride by omega)
          have hword := isWord_iff.1 (checked_word hsize)
          have hvalue := checked_ok hsize
          rw [Machine.word_eq (isWord_iff.2 (by omega)), Machine.ok_bind]
          rfl
        · rfl
      · rw [Machine.quotient_eq (checked_word hspan) hstride, Machine.ok_bind,
          Int.tdiv_eq_ediv_of_nonneg (by omega)]
        exact lift_bind fun size _ => rfl

/-! ## Layers -/

/-- The window along an axis. -/
def windowOnWords (kernel padding dilation stride : List Int) (axis : Nat) : Machine Window := do
  return ⟨← Machine.entry kernel axis, ← Machine.entry padding axis,
    ← Machine.entry dilation axis, ← Machine.entry stride axis⟩

theorem windowOnWords_eq {ks ps ds ss : List Int} {axis : Nat} {w : Window}
    (h : (windows ks ps ds ss)[axis]? = some w) :
    windowOnWords ks ps ds ss axis = lift (.ok w) := by
  obtain ⟨hk, hp, hd, hs⟩ := getElem?_windows.1 h
  unfold windowOnWords
  rw [Machine.entry_eq hk, Machine.entry_eq hp, Machine.entry_eq hd, Machine.entry_eq hs]
  rfl

/-- A convolution, step by step. -/
def convolutionOnWords (axes : Nat) (shape : Dims) (attrs : Attributes) : Machine Dims := do
  lift (expectRank shape (axes + 2))
  let channels ← Machine.entry shape 1
  if let some expected ← lift (attrs.integer? "in_channels") then
    if expected ≠ channels then lift (refuse (.inputChannels expected channels))
  let groups := (← lift (attrs.integer? "groups")).getD 1
  if groups < 1 then lift (refuse (.groups channels groups))
  let left ← Machine.remainder channels groups
  if left ≠ 0 then lift (refuse (.groups channels groups))
  let kernel ← lift (attrs.integers "kernel_size" axes)
  let padding ← lift (attrs.integers "padding" axes)
  let dilation ← lift (attrs.integers "dilation" axes)
  let stride ← lift (attrs.integers "stride" axes)
  let transposed ← lift (attrs.flag "transposed")
  let extra := (← lift (attrs.integers? "output_padding" axes)).getD (List.replicate axes 0)
  let batch ← Machine.entry shape 0
  let out := (← lift (attrs.integer? "out_channels")).getD channels
  let spatial ← (List.range axes).mapM fun axis => do
    let input ← Machine.entry shape (axis + 2)
    let w ← windowOnWords kernel padding dilation stride axis
    if transposed then do
      let extra ← Machine.entry extra axis
      let size ← lift (w.spread input extra)
      lift (extent shape kernel (if 0 < size then some size else none))
    else do
      let places ← w.placesOnWords input false
      lift (extent shape kernel places)
  return batch :: out :: spatial

/-- Pooling, step by step. -/
def poolOnWords (axes : Nat) (shape : Dims) (attrs : Attributes) (dilates : Bool) :
    Machine Dims := do
  lift (expectRank shape (axes + 2))
  let kernel ← lift (attrs.integers "kernel_size" axes)
  let stride := (← lift (attrs.integers? "stride" axes)).getD kernel
  let padding ← lift (attrs.integers "padding" axes)
  let dilation ← if dilates then lift (attrs.integers "dilation" axes)
    else pure (List.replicate axes 1)
  let roundUp ← lift (attrs.flag "ceil_mode")
  let kept ← Machine.slice shape 0 2
  let spatial ← (List.range axes).mapM fun axis => do
    let w ← windowOnWords kernel padding dilation stride axis
    match word? (w.padding * 2) with
    | none => lift (refuse (.padding w.padding w.kernel))
    | some both => if w.kernel < both then lift (refuse (.padding w.padding w.kernel))
    let input ← Machine.entry shape (axis + 2)
    let places ← w.placesOnWords input roundUp
    lift (extent shape kernel places)
  return kept ++ spatial

/-- A dimension counted from the end when it is negative, step by step. -/
def resolveOnWords (rank n : Int) : Machine Int :=
  if n < 0 then lift (checked (n + rank)) else lift (.ok n)

theorem resolveOnWords_eq (rank : Nat) (n : Int) :
    resolveOnWords rank n = lift (resolve rank n) := by
  unfold resolveOnWords resolve
  split <;> rfl

/-- Flattening, step by step. -/
def flattenOnWords (shape : Dims) (attrs : Attributes) : Machine Dims := do
  let rank ← Machine.word shape.length
  let first := (← lift (attrs.integer? "start_dim")).getD 1
  let last := (← lift (attrs.integer? "end_dim")).getD (-1)
  let first ← resolveOnWords rank first
  let last ← resolveOnWords rank last
  if first < 0 ∨ rank ≤ last ∨ last < first then lift (refuse (.flatten first last shape))
  let a ← Machine.index first
  let b ← Machine.index last
  let before ← Machine.slice shape 0 a
  let between ← Machine.slice shape a (b + 1)
  let merged ← lift (product 1 between)
  let behind ← Machine.slice shape (b + 1) shape.length
  return before ++ merged :: behind

/-- The shape that a layer gives, step by step. -/
def Rule.onWords (rule : Rule) (shape : Dims) (attrs : Attributes) : Machine Dims :=
  match rule with
  | identity => lift (.ok shape)
  | convolution axes => convolutionOnWords axes shape attrs
  | maxPool axes => poolOnWords axes shape attrs true
  | averagePool axes => poolOnWords axes shape attrs false
  | adaptivePool axes => do
    lift (expectRank shape (axes + 2))
    let kept ← Machine.slice shape 0 2
    let size ← lift (attrs.integers "output_size" axes)
    return kept ++ size
  | linear => lift (Shape.linear shape attrs)
  | batchNorm => do
    lift (expectRank shape 4)
    if let some expected ← lift (attrs.integer? "num_features") then
      let channels ← Machine.entry shape 1
      if expected ≠ channels then lift (refuse (.normChannels expected channels))
    return shape
  | flatten => flattenOnWords shape attrs

/-- A shape that a machine can hold: its extents are words, and so is its rank. -/
structure Stored (shape : Dims) : Prop where
  words : ∀ n ∈ shape, isWord n = true
  rank : isWord shape.length = true

theorem zeros_ok (axes : Nat) :
    (List.replicate axes (0 : Int)).length = axes ∧
    ∀ n ∈ List.replicate axes 0, isWord n = true := by
  refine ⟨List.length_replicate .., fun n hn => ?_⟩
  rw [List.eq_of_mem_replicate hn]
  rfl

section Steps

variable {axes : Nat} {shape : Dims} {attrs : Attributes}

/-- The loop over the axes of a convolution. -/
theorem convolutionAxes_eq (batch channels : Int) {sizes : Dims}
    {kernel padding dilation stride extra : List Int} (transposed : Bool)
    (hsizes : sizes.length = axes)
    (hkernel : kernel.length = axes ∧ ∀ n ∈ kernel, isWord n = true)
    (hpadding : padding.length = axes) (hdilation : dilation.length = axes)
    (hstride : stride.length = axes ∧ ∀ n ∈ stride, isWord n = true)
    (hextra : extra.length = axes) :
    ((List.range axes).mapM fun axis => do
      let input ← Machine.entry (batch :: channels :: sizes) (axis + 2)
      let w ← windowOnWords kernel padding dilation stride axis
      if transposed then do
        let extra ← Machine.entry extra axis
        let size ← lift (w.spread input extra)
        lift (extent (batch :: channels :: sizes) kernel (if 0 < size then some size else none))
      else do
        let places ← w.placesOnWords input false
        lift (extent (batch :: channels :: sizes) kernel places)) =
    lift ((sizes.zip ((windows kernel padding dilation stride).zip extra)).mapM
      fun (input, w, extra) =>
        if transposed then do
          let size ← w.spread input extra
          extent (batch :: channels :: sizes) kernel (if 0 < size then some size else none)
        else do
          extent (batch :: channels :: sizes) kernel (← w.places? input false)) := by
  have hzip : (sizes.zip ((windows kernel padding dilation stride).zip extra)).length = axes := by
    rw [List.length_zip, List.length_zip, length_windows hkernel.1 hpadding hdilation hstride.1]
    omega
  refine Machine.lift_range hzip ?_
  rintro axis ⟨input, w, extra⟩ hat
  obtain ⟨hinput, hat⟩ := List.getElem?_zip_eq_some.1 hat
  obtain ⟨hw, hextra⟩ := List.getElem?_zip_eq_some.1 hat
  obtain ⟨hk, -, -, hs⟩ := getElem?_windows.1 hw
  have hinput : (batch :: channels :: sizes)[axis + 2]? = some input := hinput
  rw [Machine.entry_eq hinput, Machine.ok_bind, windowOnWords_eq hw, Machine.ok_bind]
  show (if transposed = true then _ else _) = lift (if transposed = true then _ else _)
  split
  · rw [Machine.entry_eq hextra, Machine.ok_bind]
    exact lift_bind fun size _ => rfl
  · rw [Window.placesOnWords_eq (hkernel.2 _ (List.mem_of_getElem? hk))
      (hstride.2 _ (List.mem_of_getElem? hs))]
    exact lift_bind fun places _ => rfl

theorem convolutionOnWords_eq (hs : Stored shape) :
    convolutionOnWords axes shape attrs = lift (convolution axes shape attrs) := by
  unfold convolutionOnWords convolution
  refine lift_bind fun _ hrank => ?_
  obtain ⟨batch, channels, sizes, rfl, hsizes⟩ := exists_sizes (expectRank_ok hrank)
  rw [Machine.entry_eq (x := channels) rfl, Machine.ok_bind]
  refine lift_bind fun expected _ => ?_
  extract_lets withLists withGroups withLists' withGroups'
  have hlists : withLists () = lift (withLists' ()) := by
    refine lift_bind fun kernel hkernel => ?_
    refine lift_bind fun padding hpadding => ?_
    refine lift_bind fun dilation hdilation => ?_
    refine lift_bind fun stride hstride => ?_
    refine lift_bind fun transposed _ => ?_
    refine lift_bind fun read hread => ?_
    rw [Machine.entry_eq (x := batch) rfl, Machine.ok_bind]
    refine lift_bind fun replaced _ => ?_
    have haxes := convolutionAxes_eq batch channels transposed hsizes
      (Attributes.integers_ok hkernel) (Attributes.integers_ok hpadding).1
      (Attributes.integers_ok hdilation).1 (Attributes.integers_ok hstride)
      (Attributes.integers?_getD hread (zeros_ok axes)).1
    exact (congrArg (· >>= _) haxes).trans (lift_bind fun spatial _ => rfl)
  have hgroups : withGroups () = lift (withGroups' ()) := by
    refine lift_bind fun groups _ => ?_
    show (if groups.getD 1 < 1 then _ else _) =
      lift (if groups.getD 1 < 1 ∨ channels.tmod (groups.getD 1) ≠ 0 then _ else _)
    by_cases hpos : groups.getD 1 < 1
    · rw [if_pos hpos, if_pos (.inl hpos)]
      rfl
    · rw [if_neg hpos, Machine.remainder_eq (hs.words channels (by simp)) (by omega),
        Machine.ok_bind]
      by_cases hleft : channels.tmod (groups.getD 1) ≠ 0
      · rw [if_pos hleft, if_pos (.inr hleft)]
        rfl
      · rw [if_neg hleft, if_neg (by tauto)]
        exact hlists
  cases expected with
  | none => exact hgroups
  | some n =>
    show (if n ≠ channels then _ else _) = lift (if n ≠ channels then _ else _)
    split
    · rfl
    · exact hgroups

/-- The loop over the axes of a pooling layer. -/
theorem poolAxes_eq (batch channels : Int) {sizes : Dims}
    {kernel padding dilation stride : List Int} (roundUp : Bool) (hsizes : sizes.length = axes)
    (hkernel : kernel.length = axes ∧ ∀ n ∈ kernel, isWord n = true)
    (hpadding : padding.length = axes) (hdilation : dilation.length = axes)
    (hstride : stride.length = axes ∧ ∀ n ∈ stride, isWord n = true) :
    ((List.range axes).mapM fun axis => do
      let w ← windowOnWords kernel padding dilation stride axis
      match word? (w.padding * 2) with
      | none => lift (refuse (.padding w.padding w.kernel))
      | some both => if w.kernel < both then lift (refuse (.padding w.padding w.kernel))
      let input ← Machine.entry (batch :: channels :: sizes) (axis + 2)
      let places ← w.placesOnWords input roundUp
      lift (extent (batch :: channels :: sizes) kernel places)) =
    lift ((sizes.zip (windows kernel padding dilation stride)).mapM fun (input, w) => do
      match word? (w.padding * 2) with
      | none => refuse (.padding w.padding w.kernel)
      | some both => if w.kernel < both then refuse (.padding w.padding w.kernel)
      extent (batch :: channels :: sizes) kernel (← w.places? input roundUp)) := by
  have hzip : (sizes.zip (windows kernel padding dilation stride)).length = axes := by
    rw [List.length_zip, length_windows hkernel.1 hpadding hdilation hstride.1]
    omega
  refine Machine.lift_range hzip ?_
  rintro axis ⟨input, w⟩ hat
  obtain ⟨hinput, hw⟩ := List.getElem?_zip_eq_some.1 hat
  obtain ⟨hk, -, -, hs⟩ := getElem?_windows.1 hw
  have hinput : (batch :: channels :: sizes)[axis + 2]? = some input := hinput
  replace hw : (windows kernel padding dilation stride)[axis]? = some w := hw
  have hcount : (do
      let input ← Machine.entry (batch :: channels :: sizes) (axis + 2)
      let places ← w.placesOnWords input roundUp
      lift (extent (batch :: channels :: sizes) kernel places)) =
      lift (w.places? input roundUp >>= extent (batch :: channels :: sizes) kernel) := by
    rw [Machine.entry_eq hinput, Machine.ok_bind, Window.placesOnWords_eq
      (hkernel.2 _ (List.mem_of_getElem? hk)) (hstride.2 _ (List.mem_of_getElem? hs))]
    exact lift_bind fun places _ => rfl
  rw [windowOnWords_eq hw, Machine.ok_bind]
  simp only
  cases word? (w.padding * 2) with
  | none => rfl
  | some both =>
    show (if w.kernel < both then _ else _) = lift (if w.kernel < both then _ else _)
    split
    · rfl
    · exact hcount

theorem poolOnWords_eq {dilates : Bool} :
    poolOnWords axes shape attrs dilates = lift (pool axes shape attrs dilates) := by
  unfold poolOnWords pool
  refine lift_bind fun _ hrank => ?_
  obtain ⟨batch, channels, sizes, rfl, hsizes⟩ := exists_sizes (expectRank_ok hrank)
  refine lift_bind fun kernel hkernel => ?_
  replace hkernel := Attributes.integers_ok hkernel
  refine lift_bind fun read hread => ?_
  have hstride := Attributes.integers?_getD hread hkernel
  extract_lets stride
  refine lift_bind fun padding hpadding => ?_
  extract_lets slide slide'
  have hslide : ∀ dilation : List Int, dilation.length = axes →
      slide dilation = lift (slide' dilation) := by
    intro dilation hdilation
    refine lift_bind fun roundUp _ => ?_
    have hkept : 2 ≤ (batch :: channels :: sizes).length := Nat.le_add_left 2 sizes.length
    rw [Machine.slice_eq (Nat.zero_le 2) hkept, Machine.ok_bind]
    have haxes := poolAxes_eq batch channels roundUp hsizes hkernel
      (Attributes.integers_ok hpadding).1 hdilation hstride
    exact (congrArg (· >>= _) haxes).trans (lift_bind fun spatial _ => rfl)
  split
  · refine lift_bind fun dilation hdilation => ?_
    exact hslide dilation (Attributes.integers_ok hdilation).1
  · exact hslide _ (List.length_replicate ..)

theorem flattenOnWords_eq (hs : Stored shape) :
    flattenOnWords shape attrs = lift (flatten shape attrs) := by
  unfold flattenOnWords flatten
  rw [Machine.word_eq hs.rank, Machine.ok_bind]
  refine lift_bind fun start _ => ?_
  refine lift_bind fun stop _ => ?_
  rw [resolveOnWords_eq]
  refine lift_bind fun first _ => ?_
  rw [resolveOnWords_eq]
  refine lift_bind fun last _ => ?_
  show (if _ then _ else _) = lift (if _ then _ else _)
  split
  · rfl
  · next hin =>
    have hslices : first.toNat ≤ last.toNat + 1 ∧ last.toNat + 1 ≤ shape.length := by omega
    rw [Machine.index_eq (show 0 ≤ first by omega), Machine.ok_bind,
      Machine.index_eq (show 0 ≤ last by omega), Machine.ok_bind,
      Machine.slice_eq (Nat.zero_le _) (by omega), Machine.ok_bind,
      Machine.slice_eq hslices.1 hslices.2, Machine.ok_bind]
    refine lift_bind fun merged _ => ?_
    rw [Machine.slice_eq hslices.2 (Nat.le_refl _), Machine.ok_bind, List.take_length]
    rfl

/-- No layer halts the machine, and it gives what the rule gives. -/
theorem Rule.onWords_eq (rule : Rule) (attrs : Attributes) (hs : Stored shape) :
    rule.onWords shape attrs = lift (rule.output shape attrs) := by
  cases rule with
  | identity | linear => rfl
  | convolution axes => exact convolutionOnWords_eq hs
  | maxPool axes | averagePool axes => exact poolOnWords_eq
  | adaptivePool axes =>
    refine lift_bind fun _ hrank => ?_
    rw [Machine.slice_eq (Nat.zero_le 2) (by rw [expectRank_ok hrank]; omega), Machine.ok_bind]
    exact lift_bind fun size _ => rfl
  | batchNorm =>
    refine lift_bind fun _ hrank => ?_
    have hlen : shape.length = 2 + 2 := expectRank_ok hrank
    obtain ⟨batch, channels, sizes, rfl, -⟩ := exists_sizes hlen
    refine lift_bind fun expected _ => ?_
    cases expected with
    | none => rfl
    | some n =>
      show (if n ≠ channels then _ else _) = lift (if n ≠ channels then _ else _)
      split <;> rfl
  | flatten => exact flattenOnWords_eq hs

end Steps

end Shape

end Dataflow
