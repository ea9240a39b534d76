/-
  More about finite maps: when two are the same, and what a change leaves alone.

  Two maps are the same when they list the same entries.  A projection of all values (`mapValues`)
  is how later modules say that a change left something alone: the map of what matters about each
  value is the same map, in the same order, before and after.
-/

import Dataflow.Assoc

namespace Dataflow.Assoc

variable {κ α β : Type}

theorem ext_entries {m m' : Assoc κ α} (h : m.entries = m'.entries) : m = m' := by
  cases m
  cases m'
  cases h
  rfl

theorem mapValues_congr {m : Assoc κ α} {f g : κ → α → β} (h : ∀ e ∈ m.entries, f e.1 e.2 = g e.1 e.2) :
    m.mapValues f = m.mapValues g := by
  apply ext_entries
  exact List.map_congr_left fun e he => by rw [h e he]

theorem mapValues_mapValues {γ : Type} (m : Assoc κ α) (f : κ → α → β) (g : κ → β → γ) :
    (m.mapValues f).mapValues g = m.mapValues fun k v => g k (f k v) := by
  apply ext_entries
  show (m.entries.map _).map _ = m.entries.map _
  rw [List.map_map]
  rfl

variable [DecidableEq κ]

theorem mem_keys_iff {m : Assoc κ α} {k : κ} : k ∈ m.keys ↔ ∃ v, m.get? k = some v := by
  rw [← get?_isSome, Option.isSome_iff_exists]

theorem mem_values_of_get? {m : Assoc κ α} {k : κ} {v : α} (h : m.get? k = some v) :
    v ∈ m.values := List.mem_map_of_mem (f := Prod.snd) ((get?_eq_some_iff ..).1 h)

theorem contains_eq_isSome (m : Assoc κ α) (k : κ) : m.contains k = (m.get? k).isSome := rfl

/-- A change of the value under one key is not seen by a projection that it keeps. -/
theorem mapValues_modify {m : Assoc κ α} {k : κ} {f : α → α} {g : κ → α → β}
    (h : ∀ v, m.get? k = some v → g k (f v) = g k v) :
    (m.modify k f).mapValues g = m.mapValues g := by
  unfold modify
  rw [mapValues_mapValues]
  apply mapValues_congr
  intro e he
  by_cases hk : e.1 = k
  · have hv : m.get? k = some e.2 := (get?_eq_some_iff m k e.2).2 (hk ▸ he)
    rw [if_pos hk, hk]
    exact h e.2 hv
  · rw [if_neg hk]

/-- A new value of which nothing is true goes unnoticed. -/
theorem exists_bind_insert {m : Assoc κ α} {k : κ} {v : α} {part : α → Option β} {P : β → Prop}
    (hk : m.get? k = none) (hv : ∀ b, part v = some b → ¬P b) (k' : κ) :
    (∃ b, ((m.insert k v).get? k').bind part = some b ∧ P b) ↔
      ∃ b, (m.get? k').bind part = some b ∧ P b := by
  by_cases h : k' = k
  · subst h
    rw [get?_insert_self, hk]
    constructor
    · rintro ⟨b, hb, hp⟩
      exact absurd hp (hv b hb)
    · rintro ⟨b, hb, -⟩
      cases hb
  · rw [get?_insert_of_ne m v h]

/-- Two changes of the value under one key are one. -/
theorem modify_modify (m : Assoc κ α) (k : κ) (f g : α → α) :
    (m.modify k f).modify k g = m.modify k fun v => g (f v) := by
  unfold modify
  rw [mapValues_mapValues]
  apply mapValues_congr
  intro e _
  by_cases hk : e.1 = k
  · simp only [if_pos hk]
  · simp only [if_neg hk]

/-- Only what a change does to the value that is there matters. -/
theorem modify_congr {m : Assoc κ α} {k : κ} {f g : α → α}
    (h : ∀ v, m.get? k = some v → f v = g v) : m.modify k f = m.modify k g := by
  apply mapValues_congr
  intro e he
  by_cases hk : e.1 = k
  · have hv : m.get? k = some e.2 := (get?_eq_some_iff m k e.2).2 (hk ▸ he)
    rw [if_pos hk, if_pos hk, h e.2 hv]
  · rw [if_neg hk, if_neg hk]

theorem modify_eq_self {m : Assoc κ α} {k : κ} {f : α → α} (h : ∀ v, m.get? k = some v → f v = v) :
    m.modify k f = m := by
  rw [modify_congr (g := id) h]
  apply ext_entries
  show m.entries.map (fun e => (e.1, ite _ _ _)) = m.entries
  simp

/-- Two maps are the same when they have the same keys in the same order and the same view. -/
theorem ext_view {m m' : Assoc κ α} (hk : m'.keys = m.keys) (hv : ∀ k, m'.get? k = m.get? k) :
    m' = m := by
  apply ext_entries
  have hlen : m'.entries.length = m.entries.length := by
    have h := congrArg List.length hk
    rwa [← size_eq_length_keys, ← size_eq_length_keys] at h
  apply List.ext_getElem hlen
  intro i hi' hi
  have hfst : (m'.entries[i]).1 = (m.entries[i]).1 := by
    have h : m'.keys[i]? = m.keys[i]? := by rw [hk]
    unfold keys at h
    rw [List.getElem?_map, List.getElem?_map, List.getElem?_eq_getElem hi',
      List.getElem?_eq_getElem hi] at h
    exact Option.some.inj h
  have h' : m'.get? (m'.entries[i]).1 = some (m'.entries[i]).2 :=
    (get?_eq_some_iff ..).2 (List.getElem_mem hi')
  have h : m.get? (m.entries[i]).1 = some (m.entries[i]).2 :=
    (get?_eq_some_iff ..).2 (List.getElem_mem hi)
  rw [hv, hfst, h] at h'
  exact Prod.ext hfst (Option.some.inj h').symm

/-- Changing what was just written is writing what it is changed to. -/
theorem modify_insert (m : Assoc κ α) (k : κ) (v : α) (f : α → α) :
    (m.insert k v).modify k f = m.insert k (f v) := by
  apply ext_view
  · rw [keys_modify, keys_insert, keys_insert]
  · intro i
    rw [get?_modify, get?_insert, get?_insert]
    split <;> rfl

theorem get?_filter (m : Assoc κ α) (p : κ → α → Bool) (k : κ) :
    (m.filter p).get? k = (m.get? k).filter (p k) := by
  apply Option.ext
  intro v
  rw [get?_eq_some_iff, Option.filter_eq_some_iff, get?_eq_some_iff]
  exact List.mem_filter

theorem filter_congr {m : Assoc κ α} {p q : κ → α → Bool}
    (h : ∀ k x, m.get? k = some x → p k x = q k x) : m.filter p = m.filter q :=
  ext_entries (List.filter_congr fun e he => h e.1 e.2 ((get?_eq_some_iff ..).2 he))

theorem filter_eq_self {m : Assoc κ α} {p : κ → α → Bool}
    (h : ∀ k x, m.get? k = some x → p k x = true) : m.filter p = m :=
  ext_entries (List.filter_eq_self.2 fun e he => h e.1 e.2 ((get?_eq_some_iff ..).2 he))

theorem mem_keys_of_erase {m : Assoc κ α} {k i : κ} (h : i ∈ (m.erase k).keys) : i ∈ m.keys := by
  rw [keys_erase] at h
  exact (List.mem_filter.1 h).1

/-! ## Writing several pairs -/

theorem entries_insert_of_notMem (m : Assoc κ α) {k : κ} (h : k ∉ m.keys) (v : α) :
    (m.insert k v).entries = m.entries ++ [(k, v)] := by
  unfold insert
  rw [dif_neg h]

/-- A map that takes some keys to themselves takes one more to itself. -/
theorem get?_insert_identity {m : Assoc κ κ} {ks : List κ}
    (h : ∀ i, m.get? i = if i ∈ ks then some i else none) (k i : κ) :
    (m.insert k k).get? i = if i ∈ ks ++ [k] then some i else none := by
  rw [get?_insert, h]
  by_cases hi : i = k
  · rw [if_pos hi, if_pos (List.mem_append_right _ (List.mem_singleton.2 hi)), hi]
  · have hiff : i ∈ ks ++ [k] ↔ i ∈ ks := by
      rw [List.mem_append, List.mem_singleton, or_iff_left hi]
    rw [if_neg hi]
    simp only [hiff]

/-- Writing several pairs is seen at their keys only. -/
theorem get?_insertAll_of_notMem {es : List (κ × α)} {k : κ} (h : k ∉ es.map Prod.fst)
    (m : Assoc κ α) : (m.insertAll es).get? k = m.get? k := by
  induction es generalizing m with
  | nil => rfl
  | cons e es ih =>
    rw [List.map_cons, List.mem_cons, not_or] at h
    show ((m.insert e.1 e.2).insertAll es).get? k = _
    rw [ih h.2, get?_insert_of_ne m e.2 h.1]

theorem get?_insertAll {es : List (κ × α)} (hn : (es.map Prod.fst).Nodup) {k : κ} {v : α}
    (h : (k, v) ∈ es) (m : Assoc κ α) : (m.insertAll es).get? k = some v := by
  induction es generalizing m with
  | nil => cases h
  | cons e es ih =>
    rw [List.map_cons, List.nodup_cons] at hn
    show ((m.insert e.1 e.2).insertAll es).get? k = _
    rcases List.mem_cons.1 h with rfl | h
    · rw [get?_insertAll_of_notMem hn.1, get?_insert_self]
    · exact ih hn.2 h _

/-- Pairs with keys that are there already leave the keys as they are. -/
theorem keys_insertAll_of_mem {es : List (κ × α)} {m : Assoc κ α}
    (h : ∀ k ∈ es.map Prod.fst, k ∈ m.keys) : (m.insertAll es).keys = m.keys := by
  induction es generalizing m with
  | nil => rfl
  | cons e es ih =>
    have he : (m.insert e.1 e.2).keys = m.keys := by
      rw [keys_insert, if_pos (h e.1 (List.mem_cons_self ..))]
    show ((m.insert e.1 e.2).insertAll es).keys = _
    rw [ih fun k hk => he ▸ h k (List.mem_cons_of_mem e.1 hk), he]

/-- Pairs with new keys come behind. -/
theorem keys_insertAll_of_notMem {es : List (κ × α)} (hn : (es.map Prod.fst).Nodup)
    {m : Assoc κ α} (h : ∀ k ∈ es.map Prod.fst, k ∉ m.keys) :
    (m.insertAll es).keys = m.keys ++ es.map Prod.fst := by
  induction es generalizing m with
  | nil => exact (List.append_nil _).symm
  | cons e es ih =>
    rw [List.map_cons, List.nodup_cons] at hn
    have he : (m.insert e.1 e.2).keys = m.keys ++ [e.1] := by
      rw [keys_insert, if_neg (h e.1 (List.mem_cons_self ..))]
    show ((m.insert e.1 e.2).insertAll es).keys = _
    rw [ih hn.2, he, List.append_assoc]
    · rfl
    · intro k hk hm
      rw [he] at hm
      rcases List.mem_append.1 hm with hm | hm
      · exact h k (List.mem_cons_of_mem e.1 hk) hm
      · exact hn.1 (List.mem_singleton.1 hm ▸ hk)

/-- Writing all pairs of a map to one that has some of its first keys gives that map. -/
theorem insertAll_entries {m m' : Assoc κ α} (h : m.keys <+: m'.keys) :
    m.insertAll m'.entries = m' := by
  obtain ⟨ks, hks⟩ := h
  apply ext_view
  · -- the first pairs overwrite what is there, the others come behind it
    let front := m'.entries.take m.keys.length
    let back := m'.entries.drop m.keys.length
    have hfront : front.map Prod.fst = m.keys := by
      show (m'.entries.take _).map Prod.fst = _
      rw [List.map_take]
      show m'.keys.take _ = _
      rw [← hks, List.take_left]
    have hback : back.map Prod.fst = ks := by
      show (m'.entries.drop _).map Prod.fst = _
      rw [List.map_drop]
      show m'.keys.drop _ = _
      rw [← hks, List.drop_left]
    have hnodup := m'.nodup_keys
    rw [← hks, List.nodup_append] at hnodup
    have hsplit : m.insertAll m'.entries = (m.insertAll front).insertAll back := by
      show m'.entries.foldl _ m = _
      rw [← List.take_append_drop m.keys.length m'.entries, List.foldl_append]
      rfl
    have hfirst : (m.insertAll front).keys = m.keys :=
      keys_insertAll_of_mem fun k hk => hfront ▸ hk
    rw [hsplit, keys_insertAll_of_notMem (hback ▸ hnodup.2.1), hfirst, hback, hks]
    intro k hk hm
    rw [hback] at hk
    rw [hfirst] at hm
    exact hnodup.2.2 k hm k hk rfl
  · intro k
    cases hv : m'.get? k with
    | some v => exact get?_insertAll m'.nodup ((get?_eq_some_iff ..).1 hv) m
    | none =>
      have hk : k ∉ m'.keys := (get?_eq_none_iff ..).1 hv
      rw [get?_insertAll_of_notMem hk, get?_eq_none_iff]
      exact fun hm => hk (hks ▸ List.mem_append_left ks hm)

theorem keys_rekey (m : Assoc κ α) (old new : κ) (f : α → α) : (m.rekey old new f).keys =
    if new ∈ m.keys then m.keys else m.keys.map fun k => if k = old then new else k := by
  unfold rekey
  split
  · rfl
  · show (m.entries.map _).map Prod.fst = (m.entries.map Prod.fst).map _
    rw [List.map_map, List.map_map]
    apply List.map_congr_left
    intro e _
    show (if e.1 = old then (new, f e.2) else e).1 = if e.1 = old then new else e.1
    split <;> rfl

/-- What was under the old key is under the new one then, unless that was taken. -/
theorem get?_rekey (m : Assoc κ α) (old new : κ) (f : α → α) (k : κ) :
    (m.rekey old new f).get? k =
      if new ∈ m.keys then m.get? k
      else if k = new then (m.get? old).map f
      else if k = old then none
      else m.get? k := by
  by_cases hnew : new ∈ m.keys
  · unfold rekey
    rw [dif_pos hnew, if_pos hnew]
  · rw [if_neg hnew]
    have hentries : (m.rekey old new f).entries =
        m.entries.map fun e => if e.1 = old then (new, f e.2) else e := by
      unfold rekey
      rw [dif_neg hnew]
    have hfree : ∀ v, (new, v) ∉ m.entries := fun v hv => hnew (List.mem_map_of_mem hv)
    ext v
    rw [get?_eq_some_iff, hentries, List.mem_map]
    constructor
    · rintro ⟨e, he, heq⟩
      split at heq
      · next hold =>
        obtain ⟨rfl, rfl⟩ := Prod.mk.inj heq
        rw [if_pos rfl, (get?_eq_some_iff m old e.2).2 (hold ▸ he)]
        rfl
      · next hold =>
        subst heq
        have hk : k ≠ new := fun h => hfree v (by rwa [h] at he)
        rw [if_neg hk, if_neg hold]
        exact (get?_eq_some_iff m k v).2 he
    · intro h
      split at h
      · next hk =>
        obtain ⟨w, hw, rfl⟩ := Option.map_eq_some_iff.1 h
        exact ⟨(old, w), (get?_eq_some_iff m old w).1 hw, by rw [if_pos rfl, hk]⟩
      · split at h
        · cases h
        · next hold => exact ⟨(k, v), (get?_eq_some_iff m k v).1 h, if_neg hold⟩

/-- The values are what the keys give, in order. -/
theorem filterMap_keys (m : Assoc κ α) : m.keys.filterMap m.get? = m.values := by
  have h : ∀ es : List (κ × α), (∀ e ∈ es, e ∈ m.entries) →
      (es.map Prod.fst).filterMap m.get? = es.map Prod.snd := by
    intro es
    induction es with
    | nil => exact fun _ => rfl
    | cons e es ih =>
      intro he
      have hv : m.get? e.1 = some e.2 := (get?_eq_some_iff ..).2 (he e (List.mem_cons_self ..))
      rw [List.map_cons, List.filterMap_cons_some hv, ih fun i hi => he i (List.mem_cons_of_mem e hi)]
      rfl
  exact h m.entries fun _ h => h

end Dataflow.Assoc
