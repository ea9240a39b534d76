/-
  One map behind another.

  A map is a union of two others when it holds the first unchanged, and behind it the second with
  its keys renamed and its values changed accordingly.  Nothing has to be assumed of the renaming:
  since a map has every key once, it is injective on the keys of the second map and avoids those
  of the first (`Union.injective`, `Union.fresh`).

  A union stays one when both sides are changed alike: writing under a new key extends the
  renaming, and writing under a known key, changing a value or erasing a key follow it.
-/

import Mathlib.Data.List.Nodup
import Mathlib.Logic.Function.Basic
import Dataflow.Proofs.Assoc

namespace Dataflow.Assoc

variable {κ α : Type} [DecidableEq κ]

/-- A map holds what `old` holds, unchanged and first, and then what `new` holds, under keys that
`f` renames and with values that `R` relates. -/
structure Union (f : κ → κ) (R : κ → α → α → Prop) (old new m : Assoc κ α) : Prop where
  keys : m.keys = old.keys ++ new.keys.map f
  first : ∀ k ∈ old.keys, m.get? k = old.get? k
  rest : ∀ k v, new.get? k = some v → ∃ v', m.get? (f k) = some v' ∧ R k v v'

/-! ## Keys -/

theorem get?_eq_of_keys_eq_nil {m : Assoc κ α} (h : m.keys = []) (k : κ) : m.get? k = none := by
  rw [get?_eq_none_iff, h]
  exact List.not_mem_nil

omit [DecidableEq κ] in
/-- A list without repetitions that ends in renamed elements: no two of them were confused, and
none was given a name that stands in front. -/
theorem renamed_of_nodup {f : κ → κ} {old new : List κ} (h : (old ++ new.map f).Nodup) {i : κ}
    (hi : i ∈ new) : f i ∉ old ∧ ∀ j ∈ new, f i = f j → i = j := by
  obtain ⟨-, hn, hd⟩ := List.nodup_append.1 h
  refine ⟨fun ho => ?_, fun j hj he => List.inj_on_of_nodup_map hn hi hj he⟩
  exact hd _ ho _ (List.mem_map_of_mem hi) rfl

namespace Union

variable {f : κ → κ} {R : κ → α → α → Prop} {old new m : Assoc κ α}

theorem start (f : κ → κ) (R : κ → α → α → Prop) (old : Assoc κ α) {new : Assoc κ α}
    (hn : new.keys = []) : Union f R old new old where
  keys := by rw [hn, List.map_nil, List.append_nil]
  first k _ := rfl
  rest k v hv := by
    rw [get?_eq_of_keys_eq_nil hn] at hv
    cases hv

variable (h : Union f R old new m)
include h

theorem injective {k k' : κ} (hk : k ∈ new.keys) (hk' : k' ∈ new.keys) (he : f k = f k') :
    k = k' :=
  (renamed_of_nodup (h.keys ▸ m.nodup_keys) hk).2 k' hk' he

theorem fresh {k : κ} (hk : k ∈ new.keys) : f k ∉ old.keys :=
  (renamed_of_nodup (h.keys ▸ m.nodup_keys) hk).1

theorem mem {k : κ} (hk : k ∈ new.keys) : f k ∈ m.keys := by
  rw [h.keys]
  exact List.mem_append_right _ (List.mem_map_of_mem hk)

theorem ne_of_mem {k k' : κ} (hk : k ∈ old.keys) (hk' : k' ∈ new.keys) : k ≠ f k' := by
  rintro rfl
  exact h.fresh hk' hk

theorem size : m.size = old.size + new.size := by
  rw [size_eq_length_keys, h.keys, List.length_append, List.length_map, ← size_eq_length_keys,
    ← size_eq_length_keys]

/-! ## Changing both sides alike -/

/-- What is said of the values may be weakened. -/
theorem imp {R' : κ → α → α → Prop}
    (hR : ∀ k v v', new.get? k = some v → R k v v' → R' k v v') : Union f R' old new m where
  keys := h.keys
  first := h.first
  rest k v hv := by
    obtain ⟨v', hv', hr⟩ := h.rest k v hv
    exact ⟨v', hv', hR k v v' hv hr⟩

/-- A new key goes to a new key. -/
theorem insert_new {R' : κ → α → α → Prop} {k k' : κ} {v v' : α} (hk : k ∉ new.keys)
    (hk' : k' ∉ m.keys) (hv : R' k v v')
    (hR : ∀ i w w', i ∈ new.keys → R i w w' → R' i w w') :
    Union (Function.update f k k') R' old (new.insert k v) (m.insert k' v') := by
  have hf : ∀ i ∈ new.keys, Function.update f k k' i = f i := fun i hi =>
    Function.update_of_ne (ne_of_mem_of_not_mem hi hk) k' f
  constructor
  · rw [keys_insert, if_neg hk', keys_insert, if_neg hk, List.map_append, List.map_congr_left hf,
      ← List.append_assoc, ← h.keys, List.map_singleton, Function.update_self]
  · intro i hi
    have hm : i ∈ m.keys := h.keys ▸ List.mem_append_left _ hi
    rw [get?_insert_of_ne m v' (ne_of_mem_of_not_mem hm hk')]
    exact h.first i hi
  · intro i w hw
    rw [get?_insert] at hw
    split at hw
    · next he =>
      subst he
      cases hw
      rw [Function.update_self]
      exact ⟨v', get?_insert_self .., hv⟩
    · obtain ⟨w', hw', hr⟩ := h.rest i w hw
      have hi := mem_keys_of_get? hw
      rw [hf i hi, get?_insert_of_ne m v' (ne_of_mem_of_not_mem (h.mem hi) hk')]
      exact ⟨w', hw', hR i w w' hi hr⟩

/-- Writing under a known key. -/
theorem insert_known {k : κ} {v v' : α} (hk : k ∈ new.keys) (hv : R k v v') :
    Union f R old (new.insert k v) (m.insert (f k) v') := by
  constructor
  · rw [keys_insert, if_pos (h.mem hk), keys_insert, if_pos hk, h.keys]
  · intro i hi
    rw [get?_insert_of_ne m v' (h.ne_of_mem hi hk)]
    exact h.first i hi
  · intro i w hw
    rw [get?_insert] at hw
    split at hw
    · next he =>
      subst he
      cases hw
      exact ⟨v', get?_insert_self .., hv⟩
    · next hne =>
      obtain ⟨w', hw', hr⟩ := h.rest i w hw
      refine ⟨w', ?_, hr⟩
      rw [get?_insert_of_ne m v' fun he => hne (h.injective (mem_keys_of_get? hw) hk he)]
      exact hw'

/-- Changing the value under one key; what was and what is said of it may differ from what is said
of the others. -/
theorem modify {R' : κ → α → α → Prop} {k : κ} {u u' : α → α} (hk : k ∈ new.keys)
    (hu : ∀ v v', new.get? k = some v → R k v v' → R' k (u v) (u' v'))
    (hR : ∀ i v v', i ≠ k → R i v v' → R' i v v') :
    Union f R' old (new.modify k u) (m.modify (f k) u') := by
  constructor
  · rw [keys_modify, keys_modify, h.keys]
  · intro i hi
    rw [get?_modify, if_neg (h.ne_of_mem hi hk)]
    exact h.first i hi
  · intro i w hw
    rw [get?_modify] at hw
    split at hw
    · next he =>
      subst he
      obtain ⟨v, hv, rfl⟩ := Option.map_eq_some_iff.1 hw
      obtain ⟨v', hv', hr⟩ := h.rest i v hv
      rw [get?_modify, if_pos rfl, hv']
      exact ⟨u' v', rfl, hu v v' hv hr⟩
    · next hne =>
      obtain ⟨w', hw', hr⟩ := h.rest i w hw
      refine ⟨w', ?_, hR i w w' hne hr⟩
      rw [get?_modify, if_neg fun he => hne (h.injective (mem_keys_of_get? hw) hk he)]
      exact hw'

/-- Erasing a key. -/
theorem erase {k : κ} (hk : k ∈ new.keys) : Union f R old (new.erase k) (m.erase (f k)) := by
  have hne : ∀ i ∈ old.keys, i ≠ f k := fun i hi => h.ne_of_mem hi hk
  constructor
  · rw [keys_erase, keys_erase, h.keys, List.filter_append, List.filter_map]
    congr 1
    · exact List.filter_eq_self.2 fun i hi => decide_eq_true (hne i hi)
    · congr 1
      apply List.filter_congr
      intro i hi
      show decide (f i ≠ f k) = decide (i ≠ k)
      rw [decide_eq_decide]
      exact not_congr ⟨h.injective hi hk, congrArg f⟩
  · intro i hi
    rw [get?_erase, if_neg (hne i hi)]
    exact h.first i hi
  · intro i w hw
    rw [get?_erase] at hw
    split at hw
    · cases hw
    · next hik =>
      obtain ⟨w', hw', hr⟩ := h.rest i w hw
      refine ⟨w', ?_, hr⟩
      rw [get?_erase, if_neg fun he => hik (h.injective (mem_keys_of_get? hw) hk he)]
      exact hw'

/-- Changing all values, where those of the first map stay the same. -/
theorem mapValues {R' : κ → α → α → Prop} {u u' : κ → α → α}
    (ho : ∀ k v, old.get? k = some v → u' k v = v)
    (hu : ∀ k v v', new.get? k = some v → R k v v' → R' k (u k v) (u' (f k) v')) :
    Union f R' old (new.mapValues u) (m.mapValues u') := by
  constructor
  · rw [keys_mapValues, keys_mapValues, h.keys]
  · intro i hi
    obtain ⟨v, hv⟩ := mem_keys_iff.1 hi
    rw [get?_mapValues, h.first i hi, hv, Option.map_some, ho i v hv]
  · intro i w hw
    rw [get?_mapValues] at hw
    obtain ⟨v, hv, rfl⟩ := Option.map_eq_some_iff.1 hw
    obtain ⟨v', hv', hr⟩ := h.rest i v hv
    rw [get?_mapValues, hv']
    exact ⟨_, rfl, hu i v v' hv hr⟩

end Union

end Dataflow.Assoc
