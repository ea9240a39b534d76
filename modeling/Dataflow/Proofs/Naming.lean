/-
  Names that are claimed one after the other.

  Everybody holds a name and wants a name, and they claim in turn what they want.  A name that is
  free is had at once, and the old one is given up for it; for one that is taken nothing is given up,
  and nobody claims twice.

  In the end the names in use are those that were wanted, unless somebody claimed a name that its
  holder gave up only later.  Even then they may be: a group whose members want just the names that
  the group holds uses them all, whoever is refused.  These are the only exceptions
  (`claims_right`), because whoever is refused keeps a name, and that name must be wanted by another
  one, who is refused as well.
-/

import Mathlib.Data.List.Nodup
import Mathlib.Data.List.Perm.Subperm

namespace Dataflow.Naming

variable {ι : Type} {held wanted : ι → String}

/-! ## Claims -/

/-- The names in use after the holder of a name has claimed another one. -/
def claim (used : String → Prop) (old new : String) (x : String) : Prop :=
  x = new ∨ used x ∧ (x = old → used new)

/-- The names in use after some have claimed what they want, first to last. -/
def claims (held wanted : ι → String) (ids : List ι) (used : String → Prop) : String → Prop :=
  ids.foldl (fun used i => claim used (held i) (wanted i)) used

/-- Somebody belongs to a group whose members want the names that the group holds. -/
def Exchanges (held wanted : ι → String) (ids : List ι) (i : ι) : Prop :=
  ∃ group : List ι, i ∈ group ∧ group ⊆ ids ∧ (group.map wanted).Perm (group.map held)

theorem claims_append (ids later : List ι) (used : String → Prop) :
    claims held wanted (ids ++ later) used = claims held wanted later (claims held wanted ids used) :=
  List.foldl_append

/-- A name stays in use while only others claim. -/
theorem claims_keeps {ids : List ι} {used : String → Prop} {x : String} (h : used x)
    (hother : ∀ i ∈ ids, x ≠ held i) : claims held wanted ids used x := by
  induction ids generalizing used with
  | nil => exact h
  | cons i ids ih =>
    apply ih
    · exact .inr ⟨h, fun he => absurd he (hother i (List.mem_cons_self ..))⟩
    · exact fun j hj => hother j (List.mem_cons_of_mem i hj)

/-! ## Groups that exchange names -/

section Groups

variable {ids : List ι} {i : ι}

theorem Exchanges.mem (h : Exchanges held wanted ids i) : i ∈ ids := by
  obtain ⟨group, hi, hsub, -⟩ := h
  exact hsub hi

/-- What is wanted in a group is held in it. -/
theorem Exchanges.holder (h : Exchanges held wanted ids i) :
    ∃ j, Exchanges held wanted ids j ∧ wanted i = held j := by
  obtain ⟨group, hi, hsub, hperm⟩ := h
  obtain ⟨j, hj, he⟩ := List.mem_map.1 (hperm.mem_iff.1 (List.mem_map_of_mem hi))
  exact ⟨j, ⟨group, hj, hsub, hperm⟩, he.symm⟩

/-- What is held in a group is wanted in it. -/
theorem Exchanges.claimant (h : Exchanges held wanted ids i) :
    ∃ j, Exchanges held wanted ids j ∧ held i = wanted j := by
  obtain ⟨group, hi, hsub, hperm⟩ := h
  obtain ⟨j, hj, he⟩ := List.mem_map.1 (hperm.mem_iff.2 (List.mem_map_of_mem hi))
  exact ⟨j, ⟨group, hj, hsub, hperm⟩, he.symm⟩

variable (hwanted : (ids.map wanted).Nodup)
include hwanted

/-- Nobody from outside wants a name that is held in a group. -/
theorem Exchanges.of_holder {j : ι} (hi : i ∈ ids) (hj : Exchanges held wanted ids j)
    (he : wanted i = held j) : Exchanges held wanted ids i := by
  obtain ⟨k, hk, hk'⟩ := hj.claimant
  have hik : i = k := List.inj_on_of_nodup_map hwanted hi hk.mem (he.trans hk')
  rw [hik]
  exact hk

/-- The names in use when some have claimed and the others have not: these hold their names, the
groups hold theirs, and all others have what they want. -/
def Stage (held wanted : ι → String) (ids done rest : List ι) (x : String) : Prop :=
  (∃ i ∈ rest, x = held i) ∨ (∃ i, Exchanges held wanted ids i ∧ x = held i) ∨
    ∃ i ∈ done, ¬Exchanges held wanted ids i ∧ x = wanted i

omit hwanted in
/-- What is wanted in a group is taken, and nothing changes. -/
theorem stage_exchanged {done rest : List ι} (hex : Exchanges held wanted ids i) (x : String) :
    claim (Stage held wanted ids done (i :: rest)) (held i) (wanted i) x ↔
      Stage held wanted ids (done ++ [i]) rest x := by
  obtain ⟨j, hj, hij⟩ := hex.holder
  have htaken : Stage held wanted ids done (i :: rest) (wanted i) := .inr (.inl ⟨j, hj, hij⟩)
  constructor
  · rintro (rfl | ⟨⟨k, hk, rfl⟩ | hgroup | ⟨k, hk, hno, rfl⟩, -⟩)
    · exact .inr (.inl ⟨j, hj, hij⟩)
    · rcases List.mem_cons.1 hk with rfl | hk
      · exact .inr (.inl ⟨k, hex, rfl⟩)
      · exact .inl ⟨k, hk, rfl⟩
    · exact .inr (.inl hgroup)
    · exact .inr (.inr ⟨k, List.mem_append_left _ hk, hno, rfl⟩)
  · intro h
    refine .inr ⟨?_, fun _ => htaken⟩
    rcases h with ⟨k, hk, rfl⟩ | hgroup | ⟨k, hk, hno, rfl⟩
    · exact .inl ⟨k, List.mem_cons_of_mem i hk, rfl⟩
    · exact .inr (.inl hgroup)
    · rcases List.mem_append.1 hk with hk | hk
      · exact .inr (.inr ⟨k, hk, hno, rfl⟩)
      · rw [List.mem_singleton.1 hk] at hno
        exact absurd hex hno

variable (hheld : (ids.map held).Nodup)
  (hlate : ∀ i j, [i, j].Sublist ids → wanted i = held j → Exchanges held wanted ids i)
include hlate

/-- What is wanted outside the groups is free at its turn. -/
theorem stage_free {done rest : List ι} (hsplit : ids = done ++ i :: rest)
    (hnew : i ∉ done) (hex : ¬Exchanges held wanted ids i) :
    ¬Stage held wanted ids done (i :: rest) (wanted i) := by
  have hi : i ∈ ids := hsplit ▸ List.mem_append_right _ (List.mem_cons_self ..)
  rintro (⟨k, hk, he⟩ | ⟨k, hk, he⟩ | ⟨k, hk, -, he⟩)
  · apply hex
    rcases List.mem_cons.1 hk with rfl | hk
    · -- it wants the name that it has
      exact ⟨[k], List.mem_singleton_self k, fun j hj => List.mem_singleton.1 hj ▸ hi, by simp [he]⟩
    · refine hlate i k ?_ he
      rw [hsplit]
      exact ((List.singleton_sublist.2 hk).cons_cons i).trans (List.sublist_append_right ..)
  · exact hex (.of_holder hwanted hi hk he)
  · have hkids : k ∈ ids := hsplit ▸ List.mem_append_left _ hk
    rw [List.inj_on_of_nodup_map hwanted hi hkids he] at hnew
    exact hnew hk

include hheld

/-- Outside the groups everybody is served at its turn. -/
theorem stage_served {done rest : List ι} (hsplit : ids = done ++ i :: rest)
    (hex : ¬Exchanges held wanted ids i) (x : String) :
    claim (Stage held wanted ids done (i :: rest)) (held i) (wanted i) x ↔
      Stage held wanted ids (done ++ [i]) rest x := by
  have hi : i ∈ ids := hsplit ▸ List.mem_append_right _ (List.mem_cons_self ..)
  have hsame : ∀ k ∈ ids, held k = held i → k = i :=
    fun k hk he => List.inj_on_of_nodup_map hheld hk hi he
  have hnodup : (done ++ i :: rest).Nodup := hsplit ▸ hheld.of_map
  obtain ⟨-, htail, hapart⟩ := List.nodup_append.1 hnodup
  have hfree := stage_free hwanted hlate hsplit
    (fun hmem => hapart i hmem i (List.mem_cons_self ..) rfl) hex
  constructor
  · rintro (rfl | ⟨⟨k, hk, rfl⟩ | hgroup | ⟨k, hk, hno, rfl⟩, hx⟩)
    · exact .inr (.inr ⟨i, List.mem_append_right _ (List.mem_singleton_self i), hex, rfl⟩)
    · rcases List.mem_cons.1 hk with rfl | hk
      · exact absurd (hx rfl) hfree
      · exact .inl ⟨k, hk, rfl⟩
    · exact .inr (.inl hgroup)
    · exact .inr (.inr ⟨k, List.mem_append_left _ hk, hno, rfl⟩)
  · rintro (⟨k, hk, rfl⟩ | ⟨k, hk, rfl⟩ | ⟨k, hk, hno, rfl⟩)
    · refine .inr ⟨.inl ⟨k, List.mem_cons_of_mem i hk, rfl⟩, fun he => ?_⟩
      have hkids : k ∈ ids :=
        hsplit ▸ List.mem_append_right _ (List.mem_cons_of_mem i hk)
      rw [hsame k hkids he] at hk
      exact absurd hk (List.nodup_cons.1 htail).1
    · refine .inr ⟨.inr (.inl ⟨k, hk, rfl⟩), fun he => ?_⟩
      rw [hsame k hk.mem he] at hk
      exact absurd hk hex
    · rcases List.mem_append.1 hk with hk | hk
      · refine .inr ⟨.inr (.inr ⟨k, hk, hno, rfl⟩), fun he => absurd (hlate k i ?_ he) hno⟩
        rw [hsplit]
        exact (List.singleton_sublist.2 hk).append (List.singleton_sublist.2 (List.mem_cons_self ..))
      · rw [List.mem_singleton.1 hk]
        exact .inl rfl

theorem claims_stage {done rest : List ι} (hsplit : ids = done ++ rest) :
    claims held wanted rest (Stage held wanted ids done rest) = Stage held wanted ids ids [] := by
  induction rest generalizing done with
  | nil =>
    rw [List.append_nil] at hsplit
    rw [← hsplit]
    rfl
  | cons i rest ih =>
    have hturn : claim (Stage held wanted ids done (i :: rest)) (held i) (wanted i) =
        Stage held wanted ids (done ++ [i]) rest := by
      funext x
      apply propext
      by_cases hex : Exchanges held wanted ids i
      · exact stage_exchanged hex x
      · exact stage_served hwanted hheld hlate hsplit hex x
    show claims held wanted rest (claim _ _ _) = _
    rw [hturn]
    exact ih (by rw [hsplit, List.append_assoc]; rfl)

end Groups

/-! ## Those who are refused -/

section Refused

variable {ids : List ι} (hheld : (ids.map held).Nodup)

/-- At the turn of somebody the name that it wants is taken. -/
def Refused (held wanted : ι → String) (ids : List ι) (i : ι) : Prop :=
  ∀ done rest, ids = done ++ i :: rest →
    claims held wanted done (fun x => ∃ j ∈ ids, x = held j) (wanted i)

include hheld

/-- Everybody keeps its name until its turn. -/
theorem holds_until {done rest : List ι} {i : ι} (hsplit : ids = done ++ rest) (hi : i ∈ rest) :
    claims held wanted done (fun x => ∃ j ∈ ids, x = held j) (held i) := by
  have hnodup : (done ++ rest).Nodup := hsplit ▸ hheld.of_map
  refine claims_keeps ⟨i, hsplit ▸ List.mem_append_right _ hi, rfl⟩ fun k hk he => ?_
  have hik : i = k := List.inj_on_of_nodup_map hheld (hsplit ▸ List.mem_append_right _ hi)
    (hsplit ▸ List.mem_append_left _ hk) he
  exact (List.nodup_append.1 hnodup).2.2 k hk i hi hik.symm

/-- Whoever is refused keeps its name. -/
theorem Refused.holds {i : ι} (h : Refused held wanted ids i) {done rest : List ι}
    (hsplit : ids = done ++ rest) (hi : i ∈ ids) :
    claims held wanted done (fun x => ∃ j ∈ ids, x = held j) (held i) := by
  rcases List.mem_append.1 (hsplit ▸ hi) with hd | hr
  · obtain ⟨before, after, rfl⟩ := List.append_of_mem hd
    rw [List.append_assoc, List.cons_append] at hsplit
    have hnodup : (before ++ i :: (after ++ rest)).Nodup := hsplit ▸ hheld.of_map
    have hafter : i ∉ after := fun hmem =>
      (List.nodup_cons.1 (List.nodup_append.1 hnodup).2.1).1 (List.mem_append_left _ hmem)
    let used := claims held wanted before fun x => ∃ j ∈ ids, x = held j
    have hown : used (held i) := holds_until hheld hsplit (List.mem_cons_self ..)
    have hturn : claim used (held i) (wanted i) (held i) := .inr ⟨hown, fun _ => h _ _ hsplit⟩
    have hlater : claims held wanted after (claim used (held i) (wanted i)) (held i) := by
      refine claims_keeps hturn fun k hk he => hafter ?_
      have hkids : k ∈ ids := hsplit ▸ List.mem_append_right _
        (List.mem_cons_of_mem i (List.mem_append_left _ hk))
      rw [List.inj_on_of_nodup_map hheld hi hkids he]
      exact hk
    rw [claims_append]
    exact hlater
  · exact holds_until hheld hsplit hr

/-- If all names that are in use in the end are wanted, those who are refused exchange names. -/
theorem Refused.exchanges
    (hright : ∀ x, claims held wanted ids (fun x => ∃ i ∈ ids, x = held i) x → ∃ i ∈ ids, x = wanted i)
    {i : ι} (hi : i ∈ ids) (h : Refused held wanted ids i) : Exchanges held wanted ids i := by
  classical
  let group := ids.filter fun i => decide (Refused held wanted ids i)
  have hgroup : ∀ {j}, j ∈ group ↔ j ∈ ids ∧ Refused held wanted ids j := by
    intro j
    rw [List.mem_filter, decide_eq_true_iff]
  have hsub : group.map held ⊆ group.map wanted := by
    intro x hx
    obtain ⟨j, hj, rfl⟩ := List.mem_map.1 hx
    obtain ⟨hjids, hj⟩ := hgroup.1 hj
    -- the name that is kept is wanted by another one, who is refused for it
    obtain ⟨k, hk, he⟩ := hright _ (hj.holds hheld (List.append_nil ids).symm hjids)
    refine List.mem_map.2 ⟨k, hgroup.2 ⟨hk, fun done rest hsplit => ?_⟩, he.symm⟩
    rw [← he]
    exact hj.holds hheld hsplit hjids
  have hnodup : (group.map held).Nodup := hheld.sublist (List.filter_sublist.map held)
  have hperm : (group.map held).Perm (group.map wanted) := by
    apply (List.subperm_of_subset hnodup hsub).perm_of_length_le
    simp only [List.length_map, Nat.le_refl]
  exact ⟨group, hgroup.2 ⟨hi, h⟩, fun j hj => (hgroup.1 hj).1, hperm.symm⟩

omit hheld in
/-- Whoever comes after another one in a list without repetitions is not before it. -/
theorem mem_of_sublist {done rest : List ι} {i j : ι} (hn : (done ++ i :: rest).Nodup)
    (h : [i, j].Sublist (done ++ i :: rest)) : j ∈ rest := by
  obtain ⟨first, second, he, hfirst, hsecond⟩ := List.sublist_append_iff.1 h
  cases first with
  | nil =>
    cases he
    exact List.singleton_sublist.1 (List.cons_sublist_cons.1 hsecond)
  | cons k first =>
    cases (List.cons.inj he).1
    have hi : i ∈ done := hfirst.subset (List.mem_cons_self ..)
    exact absurd rfl ((List.nodup_append.1 hn).2.2 i hi i (List.mem_cons_self ..))

end Refused

/-! ## When everything is right in the end -/

/-- The names in use in the end are those that were wanted, exactly if everybody who claims a name
before its holder has given it up belongs to a group that exchanges names. -/
theorem claims_right {ids : List ι} (hheld : (ids.map held).Nodup) (hwanted : (ids.map wanted).Nodup) :
    (∀ x, claims held wanted ids (fun x => ∃ i ∈ ids, x = held i) x ↔ ∃ i ∈ ids, x = wanted i) ↔
      ∀ i j, [i, j].Sublist ids → wanted i = held j → Exchanges held wanted ids i := by
  constructor
  · intro hright i j hij he
    have hi : i ∈ ids := hij.subset (List.mem_cons_self ..)
    refine Refused.exchanges hheld (fun x => (hright x).1) hi fun done rest hsplit => ?_
    have hj : j ∈ rest := by
      subst hsplit
      exact mem_of_sublist hheld.of_map hij
    rw [he]
    exact holds_until hheld hsplit (List.mem_cons_of_mem i hj)
  · intro hlate x
    have hstart : (fun x => ∃ i ∈ ids, x = held i) = Stage held wanted ids [] ids := by
      funext x
      apply propext
      constructor
      · exact .inl
      · rintro (h | ⟨i, hi, he⟩ | ⟨i, hi, -⟩)
        · exact h
        · exact ⟨i, hi.mem, he⟩
        · cases hi
    rw [hstart, claims_stage hwanted hheld hlate (List.nil_append ids).symm]
    constructor
    · rintro (⟨i, hi, -⟩ | ⟨i, hi, rfl⟩ | ⟨i, hi, -, rfl⟩)
      · cases hi
      · obtain ⟨j, hj, he⟩ := hi.claimant
        exact ⟨j, hj.mem, he⟩
      · exact ⟨i, hi, rfl⟩
    · rintro ⟨i, hi, rfl⟩
      by_cases hex : Exchanges held wanted ids i
      · obtain ⟨j, hj, he⟩ := hex.holder
        exact .inr (.inl ⟨j, hj, he⟩)
      · exact .inr (.inr ⟨i, hi, hex, rfl⟩)

end Dataflow.Naming
