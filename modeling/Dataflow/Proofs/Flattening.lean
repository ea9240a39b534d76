/-
  Flattening keeps the number of elements.

  A flattening layer merges the dimensions from one to another into their product.  It multiplies
  them from the left, and each step has to fit a word: it is the products of all front parts that
  have to, not only the last one (`product_ok_iff`).  Which dimensions these are is told by two
  attributes, which count from the end if they are negative (`counted`).

  The layer gives a shape exactly if the two dimensions are there in this order and the products fit
  (`Mergeable`), and then the shape has as many elements as before (`Mergeable.merged`).
-/

import Dataflow.Proofs.Windows
import Mathlib

namespace Dataflow.Shape

open Numeric (isWord word?)
open Machine (lift)

/-! ## Products -/

theorem checked_ok_iff {n m : Int} : checked n = .ok m ↔ isWord n = true ∧ m = n := by
  constructor
  · intro h
    rw [← checked_ok h]
    exact ⟨checked_word h, rfl⟩
  · rintro ⟨hn, rfl⟩
    have hword : word? m = some m := if_pos hn
    unfold checked
    rw [hword]

/-- Multiplied from the left, the integers stay words. -/
def Steady (acc : Int) (ns : List Int) : Prop := ∀ ps, ps <+: ns → isWord (acc * ps.prod) = true

theorem steady_nil {acc : Int} : Steady acc [] ↔ isWord acc = true := by
  unfold Steady
  simp only [List.prefix_nil, forall_eq, List.prod_nil, Int.mul_one]

theorem steady_cons {acc n : Int} {ns : List Int} :
    Steady acc (n :: ns) ↔ isWord acc = true ∧ Steady (acc * n) ns := by
  unfold Steady
  constructor
  · intro h
    refine ⟨?_, fun ps hps => ?_⟩
    · simpa using h [] List.nil_prefix
    · rw [Int.mul_assoc, ← List.prod_cons]
      exact h (n :: ps) (List.cons_prefix_cons.2 ⟨rfl, hps⟩)
  · rintro ⟨hacc, h⟩ ps hps
    rcases List.prefix_cons_iff.1 hps with rfl | ⟨qs, rfl, hqs⟩
    · simpa using hacc
    · rw [List.prod_cons, ← Int.mul_assoc]
      exact h qs hqs

theorem product_ok_iff {acc m : Int} {ns : List Int} (ha : isWord acc = true) :
    product acc ns = .ok m ↔ Steady acc ns ∧ m = acc * ns.prod := by
  induction ns generalizing acc with
  | nil =>
    rw [steady_nil, List.prod_nil, Int.mul_one, and_iff_right ha]
    exact ⟨fun h => (Except.ok.inj h).symm, fun h => congrArg Except.ok h.symm⟩
  | cons n ns ih =>
    rw [steady_cons, List.prod_cons, ← Int.mul_assoc, and_iff_right ha]
    constructor
    · intro h
      obtain ⟨next, hnext, h⟩ := Except.of_bind_ok h
      obtain ⟨hword, rfl⟩ := checked_ok_iff.1 hnext
      exact (ih hword).1 h
    · rintro ⟨hsteady, hm⟩
      have hword : isWord (acc * n) = true := by simpa using hsteady [] List.nil_prefix
      show (checked (acc * n) >>= fun next => product next ns) = .ok m
      rw [checked_ok_iff.2 ⟨hword, rfl⟩]
      exact (ih hword).2 ⟨hsteady, hm⟩

theorem overflows_product (acc : Int) (ns : List Int) : Overflows (product acc ns) := by
  induction ns generalizing acc with
  | nil => exact overflows_pure _
  | cons n ns ih => exact (overflows_checked _).bind ih

/-! ## Dimensions -/

/-- The dimension that an index stands for, which counts from the end if it is negative. -/
def counted (rank : Nat) (n : Int) : Int := if n < 0 then n + rank else n

theorem resolve_eq {rank : Nat} {n : Int} (hrank : isWord rank = true) (hn : isWord n = true) :
    resolve rank n = .ok (counted rank n) := by
  unfold resolve counted
  rw [Numeric.isWord_iff] at hrank hn
  split
  · exact checked_ok_iff.2 ⟨Numeric.isWord_iff.2 (by omega), rfl⟩
  · rfl

/-- The dimensions from one to another. -/
def between (shape : Dims) (first last : Int) : Dims :=
  (shape.take (last.toNat + 1)).drop first.toNat

/-- Dimensions that can be merged: they are there, and no product on the way leaves the words. -/
structure Mergeable (shape : Dims) (first last : Int) : Prop where
  nonneg : 0 ≤ first
  ordered : first ≤ last
  inside : last < shape.length
  steady : ∀ ps, ps <+: between shape first last → isWord ps.prod = true

/-- A shape with the dimensions from one to another merged. -/
structure Merged (shape out : Dims) (first last : Int) : Prop where
  eq : out = shape.take first.toNat ++
    (between shape first last).prod :: shape.drop (last.toNat + 1)
  rank : (out.length : Int) = shape.length - (last - first)
  elements : out.prod = shape.prod

/-- Merging keeps the number of elements. -/
theorem Mergeable.merged {shape : Dims} {first last : Int} (h : Mergeable shape first last) :
    Merged shape (shape.take first.toNat ++
      (between shape first last).prod :: shape.drop (last.toNat + 1)) first last := by
  have hnonneg := h.nonneg
  have hordered := h.ordered
  have hinside := h.inside
  refine ⟨rfl, ?_, ?_⟩
  · rw [List.length_append, List.length_cons, List.length_take, List.length_drop]
    omega
  · have hfront : shape.take first.toNat ++ between shape first last =
        shape.take (last.toNat + 1) := by
      have htake : shape.take first.toNat = (shape.take (last.toNat + 1)).take first.toNat := by
        rw [List.take_take, Nat.min_eq_left (by omega)]
      rw [htake]
      exact List.take_append_drop ..
    rw [List.prod_append, List.prod_cons, ← Int.mul_assoc, ← List.prod_append, hfront,
      ← List.prod_append, List.take_append_drop]

/-- Merges the dimensions from one to another. -/
def merge (shape : Dims) (first last : Int) : Except NodeError Dims := do
  if first < 0 ∨ shape.length ≤ last ∨ last < first then refuse (.flatten first last shape)
  let merged ← product 1 (between shape first last)
  return shape.take first.toNat ++ merged :: shape.drop (last.toNat + 1)

section Merge

variable {shape out : Dims} {first last : Int}

theorem merge_ok_iff : merge shape first last = .ok out ↔ Mergeable shape first last ∧
    out = shape.take first.toNat ++
      (between shape first last).prod :: shape.drop (last.toNat + 1) := by
  have hone : isWord 1 = true := by decide
  unfold merge
  constructor
  · intro h
    split at h
    · cases h
    · obtain ⟨m, hm, h⟩ := Except.of_bind_ok h
      obtain ⟨hsteady, rfl⟩ := (product_ok_iff hone).1 hm
      cases h
      rw [Int.one_mul]
      refine ⟨⟨by omega, by omega, by omega, fun ps hps => ?_⟩, rfl⟩
      rw [← Int.one_mul ps.prod]
      exact hsteady ps hps
  · rintro ⟨⟨hnonneg, hordered, hinside, hsteady⟩, rfl⟩
    have hm : product 1 (between shape first last) = .ok (between shape first last).prod := by
      refine (product_ok_iff hone).2 ⟨fun ps hps => ?_, (Int.one_mul _).symm⟩
      rw [Int.one_mul]
      exact hsteady ps hps
    rw [if_neg (by omega), hm]
    rfl

theorem merge_error {e : NodeError} (h : merge shape first last = .error e) :
    ∃ fault, e = .shapeMismatch fault := by
  unfold merge at h
  split at h
  · cases h
    exact ⟨_, rfl⟩
  · cases hm : product 1 (between shape first last) with
    | error e' =>
      rw [hm] at h
      cases h
      exact ⟨_, overflows_product _ _ e hm⟩
    | ok m =>
      rw [hm] at h
      cases h

end Merge

/-! ## The layer -/

/-- The first dimension that a flattening layer merges. -/
def firstMerged (shape : Dims) (start : Option Int) : Int := counted shape.length (start.getD 1)

/-- The last dimension that a flattening layer merges. -/
def lastMerged (shape : Dims) (stop : Option Int) : Int := counted shape.length (stop.getD (-1))

section Flatten

variable {shape : Dims} {attrs : Attributes} {start stop : Option Int}

theorem flatten_eq (hs : Stored shape) (hstart : attrs.integer? "start_dim" = .ok start)
    (hstop : attrs.integer? "end_dim" = .ok stop) :
    flatten shape attrs = merge shape (firstMerged shape start) (lastMerged shape stop) := by
  have hfirst : isWord (start.getD 1) = true := by
    cases start with
    | none => rfl
    | some n => exact Attributes.integer?_word hstart
  have hlast : isWord (stop.getD (-1)) = true := by
    cases stop with
    | none => rfl
    | some n => exact Attributes.integer?_word hstop
  unfold flatten
  rw [hstart, hstop]
  show (resolve shape.length (start.getD 1) >>= fun first => _) = _
  rw [resolve_eq hs.rank hfirst]
  show (resolve shape.length (stop.getD (-1)) >>= fun last => _) = _
  rw [resolve_eq hs.rank hlast]
  rfl

/-- A flattening layer gives a shape exactly if the dimensions can be merged, and then it merges
them.  Every other shape does not match, and on machine words no step wraps or halts. -/
theorem flatten_exact (hs : Stored shape) (hstart : attrs.integer? "start_dim" = .ok start)
    (hstop : attrs.integer? "end_dim" = .ok stop) :
    Rule.flatten.onWords shape attrs = lift (Rule.flatten.output shape attrs) ∧
    match Rule.flatten.output shape attrs with
    | .ok out => Mergeable shape (firstMerged shape start) (lastMerged shape stop) ∧
      Merged shape out (firstMerged shape start) (lastMerged shape stop)
    | .error e => ¬Mergeable shape (firstMerged shape start) (lastMerged shape stop) ∧
      ∃ fault, e = .shapeMismatch fault := by
  refine ⟨Rule.onWords_eq .flatten attrs hs, ?_⟩
  have houtput : Rule.flatten.output shape attrs =
      merge shape (firstMerged shape start) (lastMerged shape stop) := flatten_eq hs hstart hstop
  rw [houtput]
  split
  · next out h =>
    obtain ⟨hm, rfl⟩ := merge_ok_iff.1 h
    exact ⟨hm, hm.merged⟩
  · next e h =>
    refine ⟨fun hm => ?_, merge_error h⟩
    cases h.symm.trans (merge_ok_iff.2 ⟨hm, rfl⟩)

end Flatten

/-- Merges two dimensions in the middle, the last one counted from the end. -/
def inner : Attributes := listed [("start_dim", .int 1), ("end_dim", .int (-2))]

theorem inner_exact :
    Rule.flatten.output [2, -3, 0, 5] inner = .ok [2, 0, 5] ∧
    Merged [2, -3, 0, 5] [2, 0, 5] 1 2 := by
  have hstored : Stored [2, -3, 0, 5] := ⟨by decide, by decide⟩
  have hout : Rule.flatten.output [2, -3, 0, 5] inner = .ok [2, 0, 5] := rfl
  have hexact := (@flatten_exact _ inner (some 1) (some (-2)) hstored rfl rfl).2
  rw [hout] at hexact
  exact ⟨hout, hexact.2⟩

/-- A first dimension at the greatest word. -/
def farStart : Attributes := listed [("start_dim", .int 9223372036854775807)]

/-- Whether dimensions can be merged is told for the integers that are read.  The greatest word is
rounded on the way, and refused before anyone looks at the shape. -/
theorem farStart_refused :
    isWord 9223372036854775807 = true ∧ farStart "start_dim" = some (.int 9223372036854775807) ∧
    ¬Mergeable [2, 3] (counted 2 9223372036854775807) (lastMerged [2, 3] none) ∧
    Rule.flatten.output [2, 3] farStart =
      .error (.invalidProperty "start_dim" (.outOfRange (Float.ofInt 9223372036854775807))) := by
  refine ⟨by decide, rfl, fun hm => ?_, rfl⟩
  exact absurd hm.ordered (by decide)

end Dataflow.Shape
