/-
  Books that balance.

  Whoever signed in is in exactly one of three places: in a node, which then is the node that was
  added last under the identity signed for; among those whose bodies are running; or among those
  that were told that their node is gone, and that once only (`Books.Balanced`).

  Four things move a number from one place to another, and each keeps the balance: a node is
  added, its body starts, its body ends, it is struck off.  When a body ends, its node may be gone
  and its identity taken by another node, which may be waiting for a behaviour of its own.  Bodies
  end in the opposite order from which they start, so that other body has ended by then: among the
  running, nobody signed in later for the same identity (`Balanced.settle`).
-/

import Dataflow.Proofs.Books

namespace Dataflow

/-- The last entry of the roster for an identity. -/
def Latest (signed : List NodeId) (id : NodeId) (i : Nat) : Prop :=
  signed[i]? = some id ∧ ∀ j, signed[j]? = some id → j ≤ i

namespace Latest

variable {signed : List NodeId} {id : NodeId}

theorem of_append : Latest (signed ++ [id]) id signed.length := by
  refine ⟨List.getElem?_concat_length, fun j hj => ?_⟩
  have hlt := (List.getElem?_eq_some_iff.1 hj).1
  rw [List.length_append] at hlt
  exact Nat.le_of_lt_succ hlt

theorem lt {i : Nat} (h : Latest signed id i) : i < signed.length :=
  (List.getElem?_eq_some_iff.1 h.1).1

/-- A new entry for another identity changes nothing. -/
theorem append {i : Nat} (h : Latest signed id i) {id' : NodeId} (hne : id ≠ id') :
    Latest (signed ++ [id']) id i := by
  refine ⟨?_, fun j hj => ?_⟩
  · rw [List.getElem?_append_left h.lt, h.1]
  · have hnew : (signed ++ [id'])[signed.length]? = some id' := List.getElem?_concat_length
    have hlt : j < signed.length := by
      have hj' := (List.getElem?_eq_some_iff.1 hj).1
      rw [List.length_append] at hj'
      refine Nat.lt_of_le_of_ne (Nat.le_of_lt_succ hj') ?_
      rintro rfl
      exact hne (Option.some.inj (hj.symm.trans hnew))
    rw [List.getElem?_append_left hlt] at hj
    exact h.2 j hj

end Latest

namespace Books

/-- A node holds the number. -/
def Holds (k : Books) (i : Nat) : Prop := ∃ id, k.held.get? id = some (some (some i))

/-- Everybody who signed in is accounted for, given whose bodies are running. -/
structure Balanced (running : List Nat) (k : Books) : Prop where
  /-- A node holds the number of the last who signed in for its identity, or its body runs. -/
  nodes : ∀ id x, k.held.get? id = some x →
    ∃ i, Latest k.signed id i ∧ (x = some (some i) ∨ x = none ∧ i ∈ running)
  distinct : running.Nodup
  known : ∀ i ∈ running, i < k.signed.length
  /-- Who is running is in no node. -/
  apart : ∀ i ∈ running, ¬k.Holds i
  once : k.farewells.Nodup
  /-- Who is neither running nor in a node was told so, and nobody else. -/
  farewells : ∀ x, x ∈ k.farewells ↔
    ∃ i, x = some i ∧ i < k.signed.length ∧ i ∉ running ∧ ¬k.Holds i

namespace Balanced

variable {running : List Nat} {k : Books}

/-- The number in a node is that of the last who signed in for it. -/
theorem latest_of_held (h : k.Balanced running) {id : NodeId} {i : Nat}
    (hid : k.held.get? id = some (some (some i))) : Latest k.signed id i := by
  obtain ⟨j, hj, hx | ⟨hx, -⟩⟩ := h.nodes id _ hid
  · cases hx
    exact hj
  · cases hx

theorem held_unique (h : k.Balanced running) {id id' : NodeId} {i : Nat}
    (hid : k.held.get? id = some (some (some i))) (hid' : k.held.get? id' = some (some (some i))) :
    id = id' := by
  have hs := (h.latest_of_held hid).1
  have hs' := (h.latest_of_held hid').1
  exact Option.some.inj (hs.symm.trans hs')

theorem lt_of_holds (h : k.Balanced running) {i : Nat} (hi : k.Holds i) : i < k.signed.length := by
  obtain ⟨id, hid⟩ := hi
  exact (h.latest_of_held hid).lt

/-- The entry of a node when one more is running. -/
theorem nodes_cons (h : k.Balanced running) (m : Nat) {id : NodeId} {x : Option (Option Nat)}
    (hx : k.held.get? id = some x) :
    ∃ i, Latest k.signed id i ∧ (x = some (some i) ∨ x = none ∧ i ∈ m :: running) := by
  obtain ⟨i, hi, hcase⟩ := h.nodes id x hx
  exact ⟨i, hi, hcase.imp_right (And.imp_right (List.mem_cons_of_mem m))⟩

end Balanced

/-! ## Being struck off -/

theorem get?_strike (k : Books) (id i : NodeId) :
    (k.strike id).held.get? i = if i = id then none else k.held.get? i := k.held.get?_erase id i

theorem mem_farewells_strike (k : Books) (id : NodeId) (x : Option Nat) :
    x ∈ (k.strike id).farewells ↔ x ∈ k.farewells ∨ k.held.get? id = some (some x) := by
  show x ∈ k.bid id ↔ _
  unfold bid
  split
  · next y hy =>
    rw [List.mem_cons, hy, or_comm, Option.some.injEq, Option.some.injEq, eq_comm (a := x)]
  · next hno => exact ⟨.inl, fun hx => hx.elim (fun hm => hm) fun hid => (hno x hid).elim⟩

namespace Balanced

variable {running : List Nat} {k : Books}

theorem holds_strike (h : k.Balanced running) (id : NodeId) (j : Nat) :
    (k.strike id).Holds j ↔ k.Holds j ∧ k.held.get? id ≠ some (some (some j)) := by
  constructor
  · rintro ⟨i, hi⟩
    rw [get?_strike] at hi
    split at hi
    · cases hi
    · next hne => exact ⟨⟨i, hi⟩, fun hid => hne (h.held_unique hi hid)⟩
  · rintro ⟨⟨i, hi⟩, hid⟩
    refine ⟨i, ?_⟩
    rw [get?_strike, if_neg fun he : i = id => hid (he ▸ hi)]
    exact hi

theorem strike (h : k.Balanced running) (id : NodeId) : (k.strike id).Balanced running where
  nodes i x hx := by
    rw [get?_strike] at hx
    split at hx
    · cases hx
    · exact h.nodes i x hx
  distinct := h.distinct
  known := h.known
  apart i hi hh := h.apart i hi ((h.holds_strike id i).1 hh).1
  once := by
    -- a number that was in a node had not been told
    show (k.bid id).Nodup
    unfold bid
    split
    · next x hx =>
      refine List.nodup_cons.2 ⟨fun hm => ?_, h.once⟩
      obtain ⟨i, rfl, -, -, hi⟩ := (h.farewells x).1 hm
      exact hi ⟨id, hx⟩
    · exact h.once
  farewells x := by
    rw [mem_farewells_strike, h.farewells]
    constructor
    · rintro (⟨i, rfl, hlt, hi, hh⟩ | hid)
      · exact ⟨i, rfl, hlt, hi, fun hs => hh ((h.holds_strike id i).1 hs).1⟩
      · obtain ⟨i, hlatest, hx | ⟨hx, -⟩⟩ := h.nodes id _ hid
        · cases hx
          have hi : k.Holds i := ⟨id, hid⟩
          refine ⟨i, rfl, hlatest.lt, fun hr => h.apart i hr hi, fun hs => ?_⟩
          exact ((h.holds_strike id i).1 hs).2 hid
        · cases hx
    · rintro ⟨i, rfl, hlt, hi, hh⟩
      by_cases hid : k.held.get? id = some (some (some i))
      · exact .inr hid
      · exact .inl ⟨i, rfl, hlt, hi, fun hk => hh ((h.holds_strike id i).2 ⟨hk, hid⟩)⟩

theorem strikes (h : k.Balanced running) (ids : List NodeId) :
    (ids.foldl Books.strike k).Balanced running := by
  induction ids generalizing k with
  | nil => exact h
  | cons id ids ih => exact ih (h.strike id)

end Balanced

/-! ## A body starts -/

/-- The books with the number of a node taken out of it. -/
def release (k : Books) (id : NodeId) : Books :=
  { k with held := k.held.modify id fun _ => none }

theorem get?_release (k : Books) (id i : NodeId) : (k.release id).held.get? i =
    if i = id then (k.held.get? i).map fun _ => none else k.held.get? i := Assoc.get?_modify ..

namespace Balanced

variable {running : List Nat} {k : Books}

theorem holds_release (h : k.Balanced running) {id : NodeId} {i : Nat}
    (hid : k.held.get? id = some (some (some i))) (j : Nat) :
    (k.release id).Holds j ↔ k.Holds j ∧ j ≠ i := by
  constructor
  · rintro ⟨id', hj⟩
    rw [get?_release] at hj
    split at hj
    · next he =>
      rw [he, hid] at hj
      cases hj
    · next hne => exact ⟨⟨id', hj⟩, fun hji => hne (h.held_unique (hji ▸ hj) hid)⟩
  · rintro ⟨⟨id', hj⟩, hji⟩
    have hne : id' ≠ id := by
      rintro rfl
      rw [hid] at hj
      cases hj
      exact hji rfl
    refine ⟨id', ?_⟩
    rw [get?_release, if_neg hne]
    exact hj

/-- When the body of a node starts, its number joins the running. -/
theorem release (h : k.Balanced running) {id : NodeId} {i : Nat}
    (hid : k.held.get? id = some (some (some i))) : (k.release id).Balanced (i :: running) where
  nodes id' x hx := by
    rw [get?_release] at hx
    split at hx
    · next he =>
      subst he
      rw [hid] at hx
      cases hx
      exact ⟨i, h.latest_of_held hid, .inr ⟨rfl, List.mem_cons_self ..⟩⟩
    · exact h.nodes_cons i hx
  distinct := List.nodup_cons.2 ⟨fun hr => h.apart i hr ⟨id, hid⟩, h.distinct⟩
  known := List.forall_mem_cons.2 ⟨(h.latest_of_held hid).lt, h.known⟩
  apart := List.forall_mem_cons.2 ⟨fun hh => ((h.holds_release hid i).1 hh).2 rfl,
    fun j hj hh => h.apart j hj ((h.holds_release hid j).1 hh).1⟩
  once := h.once
  farewells x := by
    show x ∈ k.farewells ↔ _
    rw [h.farewells]
    refine exists_congr fun j => and_congr_right fun _ => and_congr_right fun _ => ?_
    rw [List.mem_cons, not_or, h.holds_release hid]
    constructor
    · rintro ⟨hr, hh⟩
      exact ⟨⟨fun he => hh (he ▸ ⟨id, hid⟩), hr⟩, fun hk => hh hk.1⟩
    · rintro ⟨⟨hne, hr⟩, hh⟩
      exact ⟨hr, fun hk => hh ⟨hk, hne⟩⟩

end Balanced

/-! ## A node is added -/

/-- The books with a new node whose body is about to run. -/
def enroll (k : Books) (id : NodeId) : Books :=
  { k with held := k.held.insert id none, signed := k.signed ++ [id] }

theorem get?_enroll (k : Books) (id i : NodeId) :
    (k.enroll id).held.get? i = if i = id then some none else k.held.get? i :=
  k.held.get?_insert id i none

theorem holds_enroll {k : Books} {id : NodeId} (hid : id ∉ k.held.keys) (j : Nat) :
    (k.enroll id).Holds j ↔ k.Holds j := by
  have hnone : k.held.get? id = none := (Assoc.get?_eq_none_iff ..).2 hid
  refine exists_congr fun i => ?_
  rw [get?_enroll]
  split
  · next he => rw [he, hnone]; simp
  · rfl

theorem length_enroll (k : Books) (id : NodeId) :
    (k.enroll id).signed.length = k.signed.length + 1 := List.length_append

/-- A new node signs in last, and its body runs. -/
theorem Balanced.enroll {running : List Nat} {k : Books} (h : k.Balanced running) {id : NodeId}
    (hid : id ∉ k.held.keys) : (k.enroll id).Balanced (k.signed.length :: running) where
  nodes i x hx := by
    rw [get?_enroll] at hx
    split at hx
    · next he =>
      cases hx
      subst he
      exact ⟨k.signed.length, Latest.of_append, .inr ⟨rfl, List.mem_cons_self ..⟩⟩
    · next hne =>
      obtain ⟨j, hj, hcase⟩ := h.nodes_cons k.signed.length hx
      exact ⟨j, hj.append hne, hcase⟩
  distinct := List.nodup_cons.2 ⟨fun hm => Nat.lt_irrefl _ (h.known _ hm), h.distinct⟩
  known := by
    rw [length_enroll]
    exact List.forall_mem_cons.2 ⟨Nat.lt_succ_self _, fun j hj => Nat.lt_succ_of_lt (h.known j hj)⟩
  apart := List.forall_mem_cons.2
    ⟨fun hh => Nat.lt_irrefl _ (h.lt_of_holds ((holds_enroll hid _).1 hh)),
      fun j hj hh => h.apart j hj ((holds_enroll hid j).1 hh)⟩
  once := h.once
  farewells x := by
    show x ∈ k.farewells ↔ _
    rw [h.farewells, length_enroll]
    refine exists_congr fun j => and_congr_right fun _ => ?_
    rw [List.mem_cons, not_or, holds_enroll hid]
    constructor
    · rintro ⟨hj, hr, hh⟩
      exact ⟨Nat.lt_succ_of_lt hj, ⟨Nat.ne_of_lt hj, hr⟩, hh⟩
    · rintro ⟨hj, ⟨hne, hr⟩, hh⟩
      exact ⟨Nat.lt_of_le_of_ne (Nat.le_of_lt_succ hj) hne, hr, hh⟩

/-! ## A body ends -/

/-- The books with a number put into a node. -/
def reinstate (k : Books) (id : NodeId) (x : Option Nat) : Books :=
  { k with held := k.held.modify id fun _ => some x }

/-- The books with a number told that its node is gone. -/
def dismiss (k : Books) (x : Option Nat) : Books := { k with farewells := x :: k.farewells }

/-- The books after a body ended: its number goes back into a node that waits, else it is told
that its node is gone. -/
def settle (k : Books) (id : NodeId) (x : Option Nat) : Books :=
  if k.held.get? id = some none then k.reinstate id x else k.dismiss x

theorem get?_reinstate {k : Books} {id : NodeId} (hwait : k.held.get? id = some none)
    (x : Option Nat) (id' : NodeId) : (k.reinstate id x).held.get? id' =
      if id' = id then some (some x) else k.held.get? id' := by
  unfold reinstate
  rw [Assoc.get?_modify]
  split
  · next he => rw [he, hwait]; rfl
  · rfl

theorem holds_reinstate {k : Books} {id : NodeId} {i : Nat} (hwait : k.held.get? id = some none)
    (j : Nat) :
    (k.reinstate id (some i)).Holds j ↔ k.Holds j ∨ j = i := by
  constructor
  · rintro ⟨id', hj⟩
    rw [get?_reinstate hwait] at hj
    split at hj
    · cases hj
      exact .inr rfl
    · exact .inl ⟨id', hj⟩
  · rintro (⟨id', hj⟩ | rfl)
    · have hne : id' ≠ id := by
        rintro rfl
        rw [hwait] at hj
        cases hj
      exact ⟨id', (get?_reinstate hwait _ id').trans ((if_neg hne).trans hj)⟩
    · exact ⟨id, (get?_reinstate hwait _ id).trans (if_pos rfl)⟩

namespace Balanced

variable {running : List Nat} {k : Books} {id : NodeId} {i : Nat}

/-- The node that waits is the one that this number is of. -/
theorem latest_of_waits (h : k.Balanced (i :: running)) (hid : k.signed[i]? = some id)
    (hlast : ∀ j ∈ running, k.signed[j]? = some id → j ≤ i) (hwait : k.held.get? id = some none) :
    Latest k.signed id i := by
  obtain ⟨j, hj, hx | ⟨-, hr⟩⟩ := h.nodes id _ hwait
  · cases hx
  · rcases List.mem_cons.1 hr with rfl | hr
    · exact hj
    · obtain rfl : j = i := Nat.le_antisymm (hlast j hr hj.1) (hj.2 i hid)
      exact hj

/-- The entry of a node other than that of the number whose body ended. -/
theorem nodes_of_cons (h : k.Balanced (i :: running)) (hid : k.signed[i]? = some id) {id' : NodeId}
    (hne : id' ≠ id) {x : Option (Option Nat)} (hx : k.held.get? id' = some x) :
    ∃ j, Latest k.signed id' j ∧ (x = some (some j) ∨ x = none ∧ j ∈ running) := by
  obtain ⟨j, hj, hx | ⟨hx, hr⟩⟩ := h.nodes id' x hx
  · exact ⟨j, hj, .inl hx⟩
  · rcases List.mem_cons.1 hr with rfl | hr
    · exact absurd (Option.some.inj (hj.1.symm.trans hid)) hne
    · exact ⟨j, hj, .inr ⟨hx, hr⟩⟩

theorem reinstate (h : k.Balanced (i :: running)) (hid : k.signed[i]? = some id)
    (hlast : ∀ j ∈ running, k.signed[j]? = some id → j ≤ i) (hwait : k.held.get? id = some none) :
    (k.reinstate id (some i)).Balanced running where
  nodes id' x hx := by
    rw [get?_reinstate hwait] at hx
    split at hx
    · next he =>
      cases hx
      subst he
      exact ⟨i, h.latest_of_waits hid hlast hwait, .inl rfl⟩
    · next hne => exact h.nodes_of_cons hid hne hx
  distinct := (List.nodup_cons.1 h.distinct).2
  known j hj := h.known j (List.mem_cons_of_mem i hj)
  apart j hj hh := by
    rcases (holds_reinstate hwait j).1 hh with hh | rfl
    · exact h.apart j (List.mem_cons_of_mem i hj) hh
    · exact (List.nodup_cons.1 h.distinct).1 hj
  once := h.once
  farewells x := by
    show x ∈ k.farewells ↔ _
    rw [h.farewells]
    refine exists_congr fun j => and_congr_right fun _ => and_congr_right fun _ => ?_
    rw [holds_reinstate hwait, List.mem_cons, not_or, not_or, and_assoc, and_comm (a := ¬j = i),
      and_assoc]

theorem dismiss (h : k.Balanced (i :: running)) (hid : k.signed[i]? = some id)
    (hgone : k.held.get? id ≠ some none) : (k.dismiss (some i)).Balanced running where
  nodes id' x hx := by
    obtain ⟨j, hj, hcase | ⟨rfl, hr⟩⟩ := h.nodes id' x hx
    · exact ⟨j, hj, .inl hcase⟩
    · -- a node that waits for this number would have this identity
      exact h.nodes_of_cons hid (fun he => hgone (he ▸ hx)) hx
  distinct := (List.nodup_cons.1 h.distinct).2
  known j hj := h.known j (List.mem_cons_of_mem i hj)
  apart j hj := h.apart j (List.mem_cons_of_mem i hj)
  once := by
    refine List.nodup_cons.2 ⟨fun hm => ?_, h.once⟩
    obtain ⟨j, hj, -, hr, -⟩ := (h.farewells _).1 hm
    cases hj
    exact hr (List.mem_cons_self ..)
  farewells x := by
    show x ∈ some i :: k.farewells ↔
      ∃ j, x = some j ∧ j < k.signed.length ∧ j ∉ running ∧ ¬k.Holds j
    rw [List.mem_cons, h.farewells]
    constructor
    · rintro (rfl | ⟨j, rfl, hj, hr, hh⟩)
      · exact ⟨i, rfl, h.known i (List.mem_cons_self ..), (List.nodup_cons.1 h.distinct).1,
          h.apart i (List.mem_cons_self ..)⟩
      · exact ⟨j, rfl, hj, fun hm => hr (List.mem_cons_of_mem i hm), hh⟩
    · rintro ⟨j, rfl, hj, hr, hh⟩
      by_cases hji : j = i
      · exact .inl (congrArg some hji)
      · exact .inr ⟨j, rfl, hj, fun hm => (List.mem_cons.1 hm).elim hji hr, hh⟩

/-- A number settles where it belongs, if nobody else who is running signed in later for the same
identity. -/
theorem settle (h : k.Balanced (i :: running)) (hid : k.signed[i]? = some id)
    (hlast : ∀ j ∈ running, k.signed[j]? = some id → j ≤ i) :
    (k.settle id (some i)).Balanced running := by
  unfold Books.settle
  split
  · next hwait => exact h.reinstate hid hlast hwait
  · next hgone => exact h.dismiss hid hgone

end Balanced

end Books

end Dataflow
