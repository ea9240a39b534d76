/-
  Reading the tree of a value gives the value.

  An integer that fits a word is written as itself.  A number is always written with a point or a
  power of ten, so it can never be taken for an integer; that the numeral it is written as denotes
  it again is what `WideReturns` and `NarrowReturns` say of one number, and is assumed where it is
  needed.  Lists and records come back item by item as long as they are nested no deeper than the
  reader goes, and the fields of a record keep their order because no two of them share a name.
-/

import Dataflow.Json.Value
import Dataflow.Proofs.Scanning

namespace Dataflow.Numeric

open Float.Model (UnpackedFloat Format)

/-! ## Integers -/

/-- An integer that fits a word is read as it was written. -/
theorem int?_ofInt {n : Int} (hl : leastWord ≤ n) (hu : n < wordLimit) :
    (Numeral.ofInt n).int? = some n := by
  unfold Numeral.ofInt Numeral.int?
  by_cases h : n < 0
  · obtain ⟨k, hk⟩ : ∃ k : Nat, n.natAbs = k := ⟨_, rfl⟩
    have hn : -(k : Int) = n := by omega
    have hne : k ≠ 0 := by omega
    simp [Numeral.isInteger, h, hk, hn, hne, hl]
  · obtain ⟨k, hk⟩ : ∃ k : Nat, n.natAbs = k := ⟨_, rfl⟩
    have hn : (k : Int) = n := by omega
    have hw : k < wordLimit := by omega
    simp [Numeral.isInteger, h, hk, hn, hw]

/-! ## Numbers -/

theorem length_digits (n : Nat) : (digits n).length = digitCount n := by
  unfold digitCount
  induction n using Nat.strongRecOn with
  | ind n ih =>
    rcases Nat.lt_or_ge n 10 with h | h
    · rw [digits_of_lt h, Nat.toDigits_of_lt_base h]
      rfl
    · have hdiv : (digits (n / 10)).length = (Nat.toDigits 10 (n / 10)).length :=
        ih (n / 10) (by omega)
      rw [digits_of_le h, Nat.toDigits_of_base_le (by decide) h, List.length_append,
        List.length_append, hdiv]
      rfl

/-- A numeral with a fraction is not written as an integer. -/
theorem isInteger_of_fraction {n : Numeral} (h : n.fraction ≠ []) : n.isInteger = false := by
  unfold Numeral.isInteger
  rw [Bool.and_eq_false_iff]
  exact Or.inl (List.isEmpty_eq_false_iff.2 h)

namespace Style

/-- With a point always written, no decimal is laid out as an integer. -/
theorem isInteger_layOut {s : Style} (hs : s.pointAlways = true) (negative : Bool) (d : Decimal) :
    (s.layOut negative d).isInteger = false := by
  have hfraction : s.wholeFraction = [.zero] := by
    unfold wholeFraction
    rw [if_pos hs]
  unfold layOut
  simp only
  split
  · apply isInteger_of_fraction
    split
    · exact List.append_ne_nil_of_right_ne_nil _ (digits_ne_nil _)
    · split
      · show s.wholeFraction ≠ []
        rw [hfraction]
        exact List.cons_ne_nil _ _
      · -- the point stands in front of the last digit
        next hp he =>
          intro hd
          have hlength := congrArg List.length hd
          rw [List.length_drop, length_digits] at hlength
          unfold Decimal.point at hlength hp
          simp only [List.length_nil] at hlength
          omega
  · unfold Numeral.isInteger
    exact Bool.and_false _

theorem isInteger_numeral? {s : Style} (hs : s.pointAlways = true) {format : Format}
    {u : UnpackedFloat} {n : Numeral} (h : s.numeral? format u = some n) : n.isInteger = false := by
  cases u with
  | zero sign =>
    cases h
    apply isInteger_of_fraction
    unfold wholeFraction
    rw [if_pos hs]
    exact List.cons_ne_nil _ _
  | finite sign m e hm =>
    cases h
    exact isInteger_layOut hs _ _
  | infinity => cases h
  | notANumber => cases h

/-- A finite number has a numeral. -/
theorem numeral?_of_isFinite (s : Style) (format : Format) {u : UnpackedFloat}
    (h : u.isFinite = true) : ∃ n, s.numeral? format u = some n := by
  cases u with
  | zero => exact ⟨_, rfl⟩
  | finite => exact ⟨_, rfl⟩
  | infinity => cases h
  | notANumber => cases h

end Style

theorem int?_of_isInteger {n : Numeral} (h : n.isInteger = false) : n.int? = none := by
  unfold Numeral.int?
  rw [h]
  rfl

end Dataflow.Numeric

namespace Dataflow

open Numeric

/-- A wide number is what its numeral in data denotes. -/
def WideReturns (x : Float) : Prop := ∀ n, Style.data.wide? x = some n → n.float? = some x

/-- A narrow number is the one nearest to what its numeral in data denotes. -/
def NarrowReturns (x : Float32) : Prop :=
  ∀ n, Style.narrowData.narrow? x = some n → n.float?.map single = some x

instance (x : Float) : Decidable (WideReturns x) :=
  match h : Style.data.wide? x with
  | none => isTrue fun n hn => by
    rw [h] at hn
    cases hn
  | some n => decidable_of_iff (n.float? = some x)
    ⟨fun hx m hm => Option.some.inj (h.symm.trans hm) ▸ hx, fun hx => hx n h⟩

instance (x : Float32) : Decidable (NarrowReturns x) :=
  match h : Style.narrowData.narrow? x with
  | none => isTrue fun n hn => by
    rw [h] at hn
    cases hn
  | some n => decidable_of_iff (n.float?.map single = some x)
    ⟨fun hx m hm => Option.some.inj (h.symm.trans hm) ▸ hx, fun hx => hx n h⟩

namespace Json

/-! ## Leaves -/

theorem valueIn?_intTree (room : Nat) {n : Int} (hl : leastWord ≤ n) (hu : n < wordLimit) :
    valueIn? room (intTree n) = some (.int n) := by
  rw [intTree, valueIn?, numberValue?, int?_ofInt hl hu]

theorem valueIn?_floatTree (room : Nat) {x : Float} (hf : x.isFinite = true) (hr : WideReturns x) :
    valueIn? room (floatTree x) = some (.float x) := by
  obtain ⟨n, hn⟩ := Style.numeral?_of_isFinite Style.data .binary64 hf
  have hwide : Style.data.wide? x = some n := hn
  have hint : n.int? = none := int?_of_isInteger (Style.isInteger_numeral? rfl hn)
  rw [floatTree, hwide]
  show numberValue? n = _
  rw [numberValue?, hint, hr n hwide]
  rfl

end Json

/-! ## Nesting and numbers -/

namespace Json.Tree

mutual

/-- How deeply lists and records are nested. -/
def depth : Tree → Nat
  | .arr ts => depthItems ts + 1
  | .obj fs => depthFields fs + 1
  | .null | .bool _ | .num _ | .str _ | .torn => 0

/-- How deeply the items of a list are nested. -/
def depthItems : List Tree → Nat
  | [] => 0
  | t :: ts => max (depth t) (depthItems ts)

/-- How deeply the fields of a record are nested. -/
def depthFields : List (String × Tree) → Nat
  | [] => 0
  | (_, t) :: fs => max (depth t) (depthFields fs)

end

theorem depth_le_depthItems {t : Tree} {ts : List Tree} (h : t ∈ ts) :
    t.depth ≤ depthItems ts := by
  induction ts with
  | nil => cases h
  | cons u us ih =>
    rw [depthItems]
    rcases List.mem_cons.1 h with rfl | h
    · exact Nat.le_max_left ..
    · exact Nat.le_trans (ih h) (Nat.le_max_right ..)

theorem depth_le_depthFields {k : String} {t : Tree} {fs : List (String × Tree)}
    (h : (k, t) ∈ fs) : t.depth ≤ depthFields fs := by
  induction fs with
  | nil => cases h
  | cons f fs ih =>
    rw [depthFields]
    rcases List.mem_cons.1 h with rfl | h
    · exact Nat.le_max_left ..
    · exact Nat.le_trans (ih h) (Nat.le_max_right ..)

end Json.Tree

namespace Value

mutual

/-- The numbers in a value. -/
def floats : Value → List Float
  | .float x => [x]
  | .arr vs => floatsOfItems vs
  | .obj fs => floatsOfFields fs
  | .null | .bool _ | .int _ | .str _ => []

/-- The numbers in the items of a list. -/
def floatsOfItems : List Value → List Float
  | [] => []
  | v :: vs => floats v ++ floatsOfItems vs

/-- The numbers in the fields of a record. -/
def floatsOfFields : List (String × Value) → List Float
  | [] => []
  | (_, v) :: fs => floats v ++ floatsOfFields fs

end

end Value

namespace Json

/-! ## Values -/

theorem putField_new {α : Type} {fields : List (String × α)} {name : String}
    (h : name ∉ fields.map Prod.fst) (a : α) : putField fields name a = fields ++ [(name, a)] := by
  unfold putField
  rw [if_neg]
  intro hany
  obtain ⟨f, hf, he⟩ := List.any_eq_true.1 hany
  exact h (List.mem_map.2 ⟨f, hf, beq_iff_eq.1 he⟩)

mutual

/-- A value comes back from its tree, if that is nested no deeper than there is room for. -/
theorem valueIn?_valueTree : (v : Value) → v.Proper → (∀ x ∈ v.floats, WideReturns x) →
    (room : Nat) → (valueTree v).depth ≤ room → valueIn? room (valueTree v) = some v
  | .null, _, _, _, _ => by rw [valueTree, valueIn?]
  | .bool b, _, _, _, _ => by rw [valueTree, valueIn?]
  | .str s, _, _, _, _ => by rw [valueTree, valueIn?]
  | .int n, hp, _, room, _ => by
    rw [Value.Proper] at hp
    rw [valueTree]
    exact valueIn?_intTree room hp.1 hp.2
  | .float x, hp, hr, room, _ => by
    rw [Value.Proper] at hp
    rw [Value.floats] at hr
    rw [valueTree]
    exact valueIn?_floatTree room hp (hr x (List.mem_singleton_self x))
  | .arr vs, hp, hr, room, hd => by
    rw [Value.Proper] at hp
    rw [Value.floats] at hr
    rw [valueTree, Tree.depth] at hd
    obtain ⟨room, rfl⟩ : ∃ n, room = n + 1 := ⟨room - 1, by omega⟩
    rw [valueTree, valueIn?, itemsIn?_itemTrees vs hp hr room (by omega)]
    rfl
  | .obj fs, hp, hr, room, hd => by
    rw [Value.Proper] at hp
    rw [Value.floats] at hr
    rw [valueTree, Tree.depth] at hd
    obtain ⟨room, rfl⟩ : ∃ n, room = n + 1 := ⟨room - 1, by omega⟩
    rw [valueTree, valueIn?, fieldsIn?_fieldTrees fs hp.2 hr room (by omega) [] hp.1]
    rfl

theorem itemsIn?_itemTrees : (vs : List Value) → Value.ProperItems vs →
    (∀ x ∈ Value.floatsOfItems vs, WideReturns x) → (room : Nat) →
    Tree.depthItems (itemTrees vs) ≤ room → itemsIn? room (itemTrees vs) = some vs
  | [], _, _, _, _ => by rw [itemTrees, itemsIn?]
  | v :: vs, hp, hr, room, hd => by
    rw [Value.ProperItems] at hp
    rw [Value.floatsOfItems] at hr
    rw [itemTrees, Tree.depthItems] at hd
    have hv := valueIn?_valueTree v hp.1 (fun x hx => hr x (List.mem_append_left _ hx)) room
      (by omega)
    have hvs := itemsIn?_itemTrees vs hp.2 (fun x hx => hr x (List.mem_append_right _ hx)) room
      (by omega)
    rw [itemTrees, itemsIn?, hv, hvs]
    rfl

theorem fieldsIn?_fieldTrees : (fs : List (String × Value)) → Value.ProperFields fs →
    (∀ x ∈ Value.floatsOfFields fs, WideReturns x) → (room : Nat) →
    Tree.depthFields (fieldTrees fs) ≤ room → (read : List (String × Value)) →
    ((read ++ fs).map Prod.fst).Nodup → fieldsIn? room read (fieldTrees fs) = some (read ++ fs)
  | [], _, _, _, _, read, _ => by
    rw [fieldTrees, fieldsIn?, List.append_nil]
  | (k, v) :: fs, hp, hr, room, hd, read, hn => by
    rw [Value.ProperFields] at hp
    rw [Value.floatsOfFields] at hr
    rw [fieldTrees, Tree.depthFields] at hd
    have hnew : k ∉ read.map Prod.fst := by
      rw [List.map_append, List.nodup_append] at hn
      exact fun hk => hn.2.2 k hk k (List.mem_cons_self ..) rfl
    have hv := valueIn?_valueTree v hp.1 (fun x hx => hr x (List.mem_append_left _ hx)) room
      (by omega)
    have hassoc : read ++ (k, v) :: fs = read ++ [(k, v)] ++ fs := by
      rw [List.append_assoc]
      rfl
    have hfs := fieldsIn?_fieldTrees fs hp.2 (fun x hx => hr x (List.mem_append_right _ hx)) room
      (by omega) (read ++ [(k, v)]) (hassoc ▸ hn)
    rw [fieldTrees, fieldsIn?, hv, Option.bind_eq_bind, Option.bind_some, putField_new hnew, hfs,
      hassoc]

end

/-! ## Whole trees -/

theorem whole_floatTree (x : Float) : (floatTree x).Whole := by
  unfold floatTree
  split <;> exact trivial

theorem whole_singleTree (x : Float32) : (singleTree x).Whole := by
  unfold singleTree
  split <;> exact trivial

mutual

/-- The tree of a value has no torn part. -/
theorem whole_valueTree : (v : Value) → (valueTree v).Whole
  | .null | .bool _ | .int _ | .str _ => by
    rw [valueTree]
    exact trivial
  | .float x => by
    rw [valueTree]
    exact whole_floatTree x
  | .arr vs => by
    rw [valueTree]
    exact whole_itemTrees vs
  | .obj fs => by
    rw [valueTree]
    exact whole_fieldTrees fs

theorem whole_itemTrees : (vs : List Value) → Tree.WholeItems (itemTrees vs)
  | [] => by
    rw [itemTrees]
    exact trivial
  | v :: vs => by
    rw [itemTrees]
    exact ⟨whole_valueTree v, whole_itemTrees vs⟩

theorem whole_fieldTrees : (fs : List (String × Value)) → Tree.WholeFields (fieldTrees fs)
  | [] => by
    rw [fieldTrees]
    exact trivial
  | (_, v) :: fs => by
    rw [fieldTrees]
    exact ⟨whole_valueTree v, whole_fieldTrees fs⟩

end

end Json

end Dataflow
