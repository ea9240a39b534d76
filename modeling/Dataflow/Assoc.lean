/-
  Finite maps that remember the order in which their keys arrived.

  `Assoc κ α` is a list of pairs with distinct keys.  Writing to a known key keeps its place,
  writing to a new key appends it, and erasing closes the gap, so the order of the remaining
  keys never changes.  Every map of a graph whose order can be seen (nodes, links, properties,
  terminals, registered types) is one of these.

  The view of a map is `get?`; each operation comes with the lemma that says what it does to
  the view, and to the list of keys.
-/

namespace Dataflow

/-- A finite map as a list of pairs with distinct keys, in order of arrival. -/
structure Assoc (κ α : Type) where
  entries : List (κ × α)
  nodup : (entries.map Prod.fst).Nodup

namespace Assoc

variable {κ α β : Type}

/-! ## Views -/

/-- The map without entries. -/
def empty : Assoc κ α := ⟨[], by simp⟩

instance : EmptyCollection (Assoc κ α) := ⟨empty⟩

instance : Inhabited (Assoc κ α) := ⟨empty⟩

/-- The keys, oldest first. -/
def keys (m : Assoc κ α) : List κ := m.entries.map Prod.fst

/-- The values, in the order of their keys. -/
def values (m : Assoc κ α) : List α := m.entries.map Prod.snd

/-- The number of entries. -/
def size (m : Assoc κ α) : Nat := m.entries.length

variable [DecidableEq κ]

/-- The value stored under a key. -/
def get? (m : Assoc κ α) (k : κ) : Option α := m.entries.lookup k

/-- Whether a key is present. -/
def contains (m : Assoc κ α) (k : κ) : Bool := (m.get? k).isSome

/-! ## Operations -/

/-- The entries with the value under `k` replaced. -/
private def put (k : κ) (v : α) (e : κ × α) : κ × α := if e.1 = k then (k, v) else e

omit [DecidableEq κ] in
private theorem fst_map_keys (f : κ × α → κ × β) (h : ∀ e, (f e).1 = e.1) (es : List (κ × α)) :
    (es.map f).map Prod.fst = es.map Prod.fst := by
  rw [List.map_map]
  exact List.map_congr_left fun e _ => h e

private theorem put_fst (k : κ) (v : α) (e : κ × α) : (put k v e).1 = e.1 := by
  unfold put
  split
  · next h => exact h.symm
  · rfl

/-- Writes a value: a known key keeps its place, a new key goes last. -/
def insert (m : Assoc κ α) (k : κ) (v : α) : Assoc κ α :=
  if h : k ∈ m.keys then
    ⟨m.entries.map (put k v), by rw [fst_map_keys _ (put_fst k v)]; exact m.nodup⟩
  else
    ⟨m.entries ++ [(k, v)], by
      rw [List.map_append, List.nodup_append]
      refine ⟨m.nodup, by simp, ?_⟩
      intro a ha b hb
      simp only [List.map_cons, List.map_nil, List.mem_singleton] at hb
      subst hb
      intro hab
      exact h (hab ▸ ha)⟩

/-- Keeps the entries that pass a test. -/
def filter (m : Assoc κ α) (p : κ → α → Bool) : Assoc κ α :=
  ⟨m.entries.filter fun e => p e.1 e.2,
    List.Sublist.nodup (List.Sublist.map _ List.filter_sublist) m.nodup⟩

/-- Drops a key; the order of the others stays. -/
def erase (m : Assoc κ α) (k : κ) : Assoc κ α := m.filter fun k' _ => k' ≠ k

/-- Changes every value, knowing its key. -/
def mapValues (m : Assoc κ α) (f : κ → α → β) : Assoc κ β :=
  ⟨m.entries.map fun e => (e.1, f e.1 e.2), by
    rw [fst_map_keys (fun e => (e.1, f e.1 e.2)) fun _ => rfl]; exact m.nodup⟩

/-- Changes the value under one key, if it is present. -/
def modify (m : Assoc κ α) (k : κ) (f : α → α) : Assoc κ α :=
  m.mapValues fun k' v => if k' = k then f v else v

/-- Writes the pairs of a list, first to last. -/
def insertAll (m : Assoc κ α) (es : List (κ × α)) : Assoc κ α :=
  es.foldl (fun m e => m.insert e.1 e.2) m

/-- The map of a list of pairs: of equal keys the first gives the place, the last the value. -/
def ofList (es : List (κ × α)) : Assoc κ α := empty.insertAll es

/-- Gives the entry under `old` the new key and value, in its place.  The map stays as it is
when `new` is taken already. -/
def rekey (m : Assoc κ α) (old new : κ) (f : α → α) : Assoc κ α :=
  if h : new ∈ m.keys then m
  else
    ⟨m.entries.map fun e => if e.1 = old then (new, f e.2) else e, by
      have hn := m.nodup
      have hk : new ∉ m.entries.map Prod.fst := h
      generalize m.entries = es at hn hk
      induction es with
      | nil => simp
      | cons e es ih =>
        simp only [List.map_cons, List.nodup_cons, List.mem_cons, not_or] at hn hk ⊢
        refine ⟨?_, ih hn.2 hk.2⟩
        simp only [List.mem_map, not_exists, not_and]
        rintro _ ⟨d, hd, rfl⟩
        have hde : d.1 ∈ es.map Prod.fst := List.mem_map_of_mem hd
        by_cases h1 : d.1 = old <;> by_cases h2 : e.1 = old
        · exact absurd (h1.trans h2.symm ▸ hde) hn.1
        · simp only [h1, h2, if_true, if_false]
          exact fun h => hk.1 h
        · simp only [h1, h2, if_true, if_false]
          exact fun h => hk.2 (h ▸ hde)
        · simp only [h1, h2, if_false]
          exact fun h => hn.1 (h ▸ hde)⟩

/-! ## What the operations do to the view -/

omit [DecidableEq κ] in
@[simp] theorem keys_empty : (∅ : Assoc κ α).keys = [] := rfl

omit [DecidableEq κ] in
theorem nodup_keys (m : Assoc κ α) : m.keys.Nodup := m.nodup

@[simp] theorem get?_empty (k : κ) : (∅ : Assoc κ α).get? k = none := rfl

private theorem lookup_isSome (es : List (κ × α)) (k : κ) :
    (es.lookup k).isSome ↔ k ∈ es.map Prod.fst := by
  induction es with
  | nil => simp
  | cons e es ih =>
    rw [List.lookup_cons]
    by_cases h : k = e.1
    · simp [h]
    · have : (k == e.1) = false := by simp [h]
      simp [this, h, ih]

theorem contains_iff (m : Assoc κ α) (k : κ) : m.contains k = true ↔ k ∈ m.keys :=
  lookup_isSome m.entries k

theorem get?_isSome (m : Assoc κ α) (k : κ) : (m.get? k).isSome ↔ k ∈ m.keys :=
  lookup_isSome m.entries k

theorem get?_eq_none_iff (m : Assoc κ α) (k : κ) : m.get? k = none ↔ k ∉ m.keys := by
  rw [← get?_isSome, Option.not_isSome_iff_eq_none]

private theorem lookup_eq_some (es : List (κ × α)) (hn : (es.map Prod.fst).Nodup) (k : κ) (v : α) :
    es.lookup k = some v ↔ (k, v) ∈ es := by
  induction es with
  | nil => simp
  | cons e es ih =>
    obtain ⟨a, b⟩ := e
    simp only [List.map_cons, List.nodup_cons] at hn
    rw [List.lookup_cons]
    by_cases h : k = a
    · subst h
      simp only [beq_self_eq_true, Option.some.injEq, List.mem_cons, Prod.mk.injEq, true_and]
      constructor
      · exact fun h => .inl h.symm
      · rintro (h | h)
        · exact h.symm
        · exact absurd (List.mem_map_of_mem h) hn.1
    · have : (k == a) = false := by simp [h]
      simp [this, h, ih hn.2]

/-- A key holds a value exactly when the pair is listed. -/
theorem get?_eq_some_iff (m : Assoc κ α) (k : κ) (v : α) : m.get? k = some v ↔ (k, v) ∈ m.entries :=
  lookup_eq_some m.entries m.nodup k v

private theorem lookup_map_value (f : κ → α → β) (es : List (κ × α)) (k : κ) :
    (es.map fun e => (e.1, f e.1 e.2)).lookup k = (es.lookup k).map (f k) := by
  induction es with
  | nil => rfl
  | cons e es ih =>
    rw [List.map_cons, List.lookup_cons, List.lookup_cons]
    by_cases h : k = e.1
    · subst h; simp
    · have : (k == e.1) = false := by simp [h]
      simp [this, ih]

@[simp] theorem get?_mapValues (m : Assoc κ α) (f : κ → α → β) (k : κ) :
    (m.mapValues f).get? k = (m.get? k).map (f k) :=
  lookup_map_value f m.entries k

omit [DecidableEq κ] in
@[simp] theorem keys_mapValues (m : Assoc κ α) (f : κ → α → β) : (m.mapValues f).keys = m.keys := by
  simp [keys, mapValues, Function.comp_def]

theorem get?_modify (m : Assoc κ α) (k k' : κ) (f : α → α) :
    (m.modify k f).get? k' = if k' = k then (m.get? k').map f else m.get? k' := by
  unfold modify
  rw [get?_mapValues]
  split <;> simp

/-- A value after the change under one key was there before, or is the one that was changed. -/
theorem exists_of_get?_modify {m : Assoc κ α} {k k' : κ} {f : α → α} {v : α}
    (h : (m.modify k f).get? k' = some v) :
    (k' ≠ k ∧ m.get? k' = some v) ∨ (k' = k ∧ ∃ w, m.get? k = some w ∧ f w = v) := by
  rw [get?_modify] at h
  split at h
  · next hk => exact .inr ⟨hk, Option.map_eq_some_iff.1 (hk ▸ h)⟩
  · next hk => exact .inl ⟨hk, h⟩

@[simp] theorem keys_modify (m : Assoc κ α) (k : κ) (f : α → α) : (m.modify k f).keys = m.keys :=
  keys_mapValues m _

private theorem lookup_put (es : List (κ × α)) (k k' : κ) (v : α) :
    (es.map (put k v)).lookup k' =
      if k' = k then (es.lookup k').map fun _ => v else es.lookup k' := by
  induction es with
  | nil => simp
  | cons e es ih =>
    rw [List.map_cons, List.lookup_cons, List.lookup_cons, ih]
    unfold put
    by_cases h : k' = k
    · subst h
      by_cases h2 : e.1 = k'
      · simp [h2]
      · have : (k' == e.1) = false := by simp [Ne.symm h2]
        simp [h2, this]
    · by_cases h2 : e.1 = k
      · have : (k' == k) = false := by simp [h]
        have h3 : (k' == e.1) = false := by simp [h2, h]
        simp [h, h2, this]
      · simp [h, h2]

private theorem lookup_append_new (es : List (κ × α)) (k k' : κ) (v : α)
    (h : k ∉ es.map Prod.fst) :
    (es ++ [(k, v)]).lookup k' = if k' = k then some v else es.lookup k' := by
  induction es with
  | nil =>
    by_cases hk : k' = k
    · simp [hk]
    · have : (k' == k) = false := by simp [hk]
      simp [hk, List.lookup_cons, this]
  | cons e es ih =>
    simp only [List.map_cons, List.mem_cons, not_or] at h
    rw [List.cons_append, List.lookup_cons, List.lookup_cons, ih h.2]
    by_cases hk : k' = k
    · subst hk
      have : (k' == e.1) = false := by simp [h.1]
      simp [this]
    · simp [hk]

theorem get?_insert (m : Assoc κ α) (k k' : κ) (v : α) :
    (m.insert k v).get? k' = if k' = k then some v else m.get? k' := by
  unfold insert
  split
  · next h =>
    show (m.entries.map (put k v)).lookup k' = _
    rw [lookup_put]
    by_cases hk : k' = k
    · subst hk
      obtain ⟨w, hw⟩ := Option.isSome_iff_exists.1 ((lookup_isSome m.entries k').2 h)
      simp [hw]
    · simp [hk, get?]
  · next h => exact lookup_append_new m.entries k k' v h

@[simp] theorem get?_insert_self (m : Assoc κ α) (k : κ) (v : α) :
    (m.insert k v).get? k = some v := by
  simp [get?_insert]

theorem get?_insert_of_ne (m : Assoc κ α) {k k' : κ} (v : α) (h : k' ≠ k) :
    (m.insert k v).get? k' = m.get? k' := by
  simp [get?_insert, h]

theorem keys_insert (m : Assoc κ α) (k : κ) (v : α) :
    (m.insert k v).keys = if k ∈ m.keys then m.keys else m.keys ++ [k] := by
  unfold insert
  split
  · exact fst_map_keys (put k v) (put_fst k v) m.entries
  · exact List.map_append

private theorem lookup_filter_ne (es : List (κ × α)) (k k' : κ) :
    (es.filter fun e => decide (e.1 ≠ k)).lookup k' = if k' = k then none else es.lookup k' := by
  induction es with
  | nil => simp
  | cons e es ih =>
    by_cases h : e.1 = k
    · have hd : decide (e.1 ≠ k) = false := by simp [h]
      rw [List.filter_cons_of_neg (by simp [h]), ih, List.lookup_cons]
      by_cases hk : k' = k
      · simp [hk]
      · have : (k' == e.1) = false := by simp [h, hk]
        simp [hk, this]
    · rw [List.filter_cons_of_pos (by simp [h]), List.lookup_cons, List.lookup_cons, ih]
      by_cases hk : k' = k
      · subst hk
        have : (k' == e.1) = false := by simp [Ne.symm h]
        simp [this]
      · simp [hk]

theorem get?_erase (m : Assoc κ α) (k k' : κ) :
    (m.erase k).get? k' = if k' = k then none else m.get? k' :=
  lookup_filter_ne m.entries k k'

/-- What a map holds after a key was erased it held before. -/
theorem get?_of_get?_erase {m : Assoc κ α} {k k' : κ} {v : α} (h : (m.erase k).get? k' = some v) :
    m.get? k' = some v := by
  rw [get?_erase] at h
  split at h
  · cases h
  · exact h

theorem keys_erase (m : Assoc κ α) (k : κ) : (m.erase k).keys = m.keys.filter (· ≠ k) := by
  simp [keys, erase, filter, List.filter_map, Function.comp_def]

/-- The entries split at one of them: it is what the map holds under its key. -/
theorem get?_of_split {m : Assoc κ α} {done rest : List (κ × α)} {k : κ} {v : α}
    (h : m.entries = done ++ (k, v) :: rest) : m.get? k = some v := by
  rw [get?_eq_some_iff, h]
  exact List.mem_append_right _ (List.mem_cons_self ..)

omit [DecidableEq κ] in
/-- The entries split at one of them: none of those before it has its key. -/
theorem notMem_of_split {m : Assoc κ α} {done rest : List (κ × α)} {k : κ} {v : α}
    (h : m.entries = done ++ (k, v) :: rest) : k ∉ done.map Prod.fst := by
  have hn := m.nodup
  rw [h, List.map_append, List.nodup_append] at hn
  exact fun hmem => hn.2.2 k hmem k (List.mem_cons_self ..) rfl

omit [DecidableEq κ] in
/-- The entries split at one of them: there are fewer before it than in all. -/
theorem length_lt_of_split {m : Assoc κ α} {done rest : List (κ × α)} {e : κ × α}
    (h : m.entries = done ++ e :: rest) : done.length < m.size := by
  show _ < m.entries.length
  rw [h, List.length_append, List.length_cons]
  omega

theorem mem_keys_of_get? {m : Assoc κ α} {k : κ} {v : α} (h : m.get? k = some v) : k ∈ m.keys :=
  (get?_isSome m k).1 (by simp [h])

omit [DecidableEq κ] in
theorem size_eq_length_keys (m : Assoc κ α) : m.size = m.keys.length := by simp [size, keys]

theorem size_insert_of_mem (m : Assoc κ α) {k : κ} (h : k ∈ m.keys) (v : α) :
    (m.insert k v).size = m.size := by
  rw [size_eq_length_keys, keys_insert, if_pos h, size_eq_length_keys]

theorem size_erase_of_mem (m : Assoc κ α) {k : κ} (h : k ∈ m.keys) :
    (m.erase k).size + 1 = m.size := by
  have hf : m.keys.filter (· ≠ k) = m.keys.erase k := by
    rw [m.nodup_keys.erase_eq_filter]
    exact List.filter_congr fun a _ => by by_cases h : a = k <;> simp [h]
  rw [size_eq_length_keys, keys_erase, size_eq_length_keys, hf, List.length_erase_of_mem h]
  have := List.length_pos_of_mem h
  omega

example : ((∅ : Assoc Nat Char).insert 2 'a' |>.insert 1 'b' |>.insert 2 'c').entries
    = [(2, 'c'), (1, 'b')] := by decide

example : ((ofList [(1, 'a'), (2, 'b'), (3, 'c')]).rekey 2 7 id).entries
    = [(1, 'a'), (7, 'b'), (3, 'c')] := by decide

end Assoc

end Dataflow
