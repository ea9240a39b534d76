/-
  Types match by their alternatives.

  Two named types match if they share an alternative, that is a text between commas, without the
  blanks around it and in lower case.  The search also answers for equal names, as a name always
  shares an alternative with itself, so it does not matter that names are compared first
  (`SlotType.feeds_named`).  An empty text and a star do not name a type by themselves, but they are
  alternatives like any other between the commas of a name.

  A name can be written in many ways without a change to what it matches (`SlotType.Reworded`).
  Each way keeps the set of alternatives, and the set is all that a match looks at.  For large and
  small letters this rests on the tables of characters: from A to Z it makes no difference to
  blanks, to the lower case, or to the letters and marks that decide how a sigma ends a word
  (`Text.lower_toLower`).
-/

import Dataflow.SlotType
import Mathlib

namespace Dataflow

/-! ## Blanks and case -/

namespace Text

/-- What treats each letter from A to Z like its small letter treats every character so. -/
theorem of_toLower {α : Type} {f : Char → α}
    (h : ∀ i : Fin 26, f (Char.ofNat (65 + i + 32)) = f (Char.ofNat (65 + i))) (c : Char) :
    f c.toLower = f c := by
  by_cases hc : c.isUpper = true
  · rw [Char.toLower_eq_of_isUpper hc]
    have hrange : 65 ≤ c.toNat ∧ c.toNat ≤ 90 := by
      unfold Char.isUpper at hc
      exact of_decide_eq_true hc
    have hletter := h ⟨c.toNat - 65, by omega⟩
    rw [Nat.add_sub_cancel' hrange.1, Char.ofNat_toNat] at hletter
    exact hletter
  · rw [Char.toLower_eq_of_not_isUpper hc]

/-- Ranges without letters from A to Z tell no large letter from its small one. -/
theorem inRanges_toLower {ranges : List (Nat × Nat)}
    (h : ∀ r ∈ ranges, r.2 < 65 ∨ 90 < r.1 ∧ r.2 < 97 ∨ 122 < r.1) (c : Char) :
    inRanges ranges c.toLower = inRanges ranges c := by
  have hletter : ∀ d : Char, 65 ≤ d.toNat ∧ d.toNat ≤ 90 ∨ 97 ≤ d.toNat ∧ d.toNat ≤ 122 →
      inRanges ranges d = false := by
    intro d hd
    unfold inRanges
    rw [List.any_eq_false]
    intro r hr hin
    rw [Bool.and_eq_true, decide_eq_true_eq, decide_eq_true_eq] at hin
    have hapart := h r hr
    omega
  refine of_toLower (fun i => ?_) c
  have hcodes : (Char.ofNat (65 + i)).toNat = 65 + i ∧
      (Char.ofNat (65 + i + 32)).toNat = 97 + i := by
    revert i
    decide
  rw [hletter _ (by omega), hletter _ (by omega)]

theorem isBlank_toLower (c : Char) : isBlank c.toLower = isBlank c := inRanges_toLower (by decide) c

theorem isCaseIgnorable_toLower (c : Char) : isCaseIgnorable c.toLower = isCaseIgnorable c :=
  inRanges_toLower (by decide +kernel) c

theorem isCased_toLower (c : Char) : isCased c.toLower = isCased c := of_toLower (by decide) c

theorem lowerChar_toLower (c : Char) : lowerChar c.toLower = lowerChar c :=
  of_toLower (by decide) c

theorem sigma_toLower (c : Char) : decide (c.toLower = 'Σ') = decide (c = 'Σ') :=
  @of_toLower Bool (fun c => decide (c = 'Σ')) (by decide) c

theorem dropWhile_toLower {f : Char → Bool} (h : ∀ c, f c.toLower = f c) (cs : List Char) :
    (cs.map Char.toLower).dropWhile f = (cs.dropWhile f).map Char.toLower := by
  rw [List.dropWhile_map, show f ∘ Char.toLower = f from funext h]

theorem meetsCased_toLower (cs : List Char) : meetsCased (cs.map Char.toLower) = meetsCased cs := by
  unfold meetsCased
  rw [dropWhile_toLower isCaseIgnorable_toLower]
  cases cs.dropWhile isCaseIgnorable with
  | nil => rfl
  | cons c cs => exact isCased_toLower c

theorem lowerFrom_toLower (before cs : List Char) :
    lowerFrom (before.map Char.toLower) (cs.map Char.toLower) = lowerFrom before cs := by
  induction cs generalizing before with
  | nil => rfl
  | cons c cs ih =>
    have hsigma : c.toLower = 'Σ' ↔ c = 'Σ' := by simpa using sigma_toLower c
    rw [List.map_cons, lowerFrom, lowerFrom, ← List.map_cons, ih, meetsCased_toLower,
      meetsCased_toLower, lowerChar_toLower]
    simp only [hsigma]

/-- The lower case does not depend on whether letters from A to Z are large or small. -/
theorem lower_toLower (cs : List Char) : lower (cs.map Char.toLower) = lower cs :=
  lowerFrom_toLower [] cs

theorem trim_toLower (cs : List Char) :
    trim (cs.map Char.toLower) = (trim cs).map Char.toLower := by
  unfold trim trimStart
  rw [dropWhile_toLower isBlank_toLower, ← List.map_reverse, dropWhile_toLower isBlank_toLower,
    List.map_reverse]

/-- Blanks around a text are cut off. -/
theorem trim_surrounded {before behind : List Char} (cs : List Char)
    (hbefore : ∀ c ∈ before, isBlank c = true) (hbehind : ∀ c ∈ behind, isBlank c = true) :
    trim (before ++ cs ++ behind) = trim cs := by
  have hall : ∀ c ∈ behind.reverse, isBlank c = true := fun c hc =>
    hbehind c (List.mem_reverse.1 hc)
  have hnone : behind.dropWhile isBlank = [] := List.dropWhile_eq_nil_iff.2 hbehind
  unfold trim trimStart
  rw [List.append_assoc, List.dropWhile_append_of_pos hbefore, List.dropWhile_append]
  split
  · next hblank => rw [hnone, List.isEmpty_iff.1 hblank]
  · rw [List.reverse_append, List.dropWhile_append_of_pos hall]

end Text

/-! ## Alternatives -/

namespace SlotType

/-- The parts of a name between commas. -/
def parts (name : String) : List (List Char) := name.toList.splitOn ','

theorem pieces_eq (cs : List Char) : pieces cs = cs.splitOn ',' := by
  induction cs with
  | nil => rfl
  | cons c cs ih =>
    show _ = (c :: cs).splitOnP (· == ',')
    rw [List.splitOnP_cons_eq_if_modifyHead]
    unfold pieces
    rw [ih]
    by_cases hc : c = ','
    · rw [if_pos hc, if_pos (beq_iff_eq.2 hc)]
      rfl
    · rw [if_neg hc, if_neg (fun h => hc (beq_iff_eq.1 h))]
      show _ = (cs.splitOn ',').modifyHead (c :: ·)
      cases hps : cs.splitOn ',' with
      | nil => exact absurd (ih.trans hps) (pieces_ne_nil cs)
      | cons p ps => rfl

/-- What a part of a name stands for: without blanks around it, in lower case. -/
def meaning (part : List Char) : List Char := Text.lower (Text.trim part)

theorem alternatives_eq (name : String) : alternatives name = (parts name).map meaning := by
  unfold alternatives parts
  rw [pieces_eq]
  rfl

theorem sharesAlternative_iff {a b : String} :
    sharesAlternative a b = true ↔ ∃ x ∈ alternatives a, x ∈ alternatives b := by
  unfold sharesAlternative
  simp only [List.any_eq_true, decide_eq_true_eq, exists_eq_right']

/-- A name shares an alternative with itself. -/
theorem sharesAlternative_self (a : String) : sharesAlternative a a = true := by
  obtain ⟨p, ps, hps⟩ := List.exists_cons_of_ne_nil (pieces_ne_nil a.toList)
  have hfirst : meaning p ∈ alternatives a := by
    unfold alternatives
    rw [hps]
    exact List.mem_cons_self ..
  exact sharesAlternative_iff.2 ⟨_, hfirst, hfirst⟩

/-- It makes no difference that equal names are not searched. -/
theorem feeds_named (a b : String) : feeds (named a) (named b) = sharesAlternative a b := by
  show (decide (a = b) || sharesAlternative a b) = _
  by_cases h : a = b
  · subst h
    rw [sharesAlternative_self, Bool.or_true]
  · rw [decide_eq_false h, Bool.false_or]

theorem feeds_named_iff {a b : String} : feeds (named a) (named b) = true ↔
    ∃ x ∈ alternatives a, x ∈ alternatives b := by
  rw [feeds_named, sharesAlternative_iff]

theorem feeds_comm (s t : SlotType) : feeds s t = feeds t s := by
  cases s with
  | any => cases t <;> rfl
  | event => cases t <;> rfl
  | named a =>
    cases t with
    | any => rfl
    | event => rfl
    | named b =>
      rw [Bool.eq_iff_iff, feeds_named_iff, feeds_named_iff]
      exact ⟨fun ⟨x, ha, hb⟩ => ⟨x, hb, ha⟩, fun ⟨x, hb, ha⟩ => ⟨x, ha, hb⟩⟩

theorem feeds_self (s : SlotType) : feeds s s = true := by
  cases s with
  | any => rfl
  | event => rfl
  | named a => rw [feeds_named, sharesAlternative_self]

/-! ## Other ways to write a name -/

/-- The parts of a name are put in another order or repeated, or a part is written in large or small
letters from A to Z or with blanks around it. -/
inductive Reworded : List (List Char) → List (List Char) → Prop where
  | reordered {ps qs : List (List Char)} : ps.Perm qs → Reworded ps qs
  | repeated {p : List Char} {ps : List (List Char)} : p ∈ ps → Reworded ps (p :: ps)
  | recased {p q : List Char} {ps : List (List Char)} :
      p.map Char.toLower = q.map Char.toLower → Reworded (p :: ps) (q :: ps)
  | surrounded {p before behind : List Char} {ps : List (List Char)} :
      (∀ c ∈ before, Text.isBlank c = true) → (∀ c ∈ behind, Text.isBlank c = true) →
      Reworded (p :: ps) ((before ++ p ++ behind) :: ps)
  | symm {ps qs : List (List Char)} : Reworded ps qs → Reworded qs ps
  | trans {ps qs rs : List (List Char)} : Reworded ps qs → Reworded qs rs → Reworded ps rs

theorem meaning_recased {p q : List Char} (h : p.map Char.toLower = q.map Char.toLower) :
    meaning p = meaning q := by
  have hlower : ∀ cs : List Char, meaning (cs.map Char.toLower) = meaning cs := by
    intro cs
    unfold meaning
    rw [Text.trim_toLower, Text.lower_toLower]
  rw [← hlower p, h, hlower q]

theorem meaning_surrounded {p before behind : List Char}
    (hbefore : ∀ c ∈ before, Text.isBlank c = true)
    (hbehind : ∀ c ∈ behind, Text.isBlank c = true) :
    meaning (before ++ p ++ behind) = meaning p :=
  congrArg Text.lower (Text.trim_surrounded p hbefore hbehind)

/-- However a name is written, it lists the same alternatives. -/
theorem Reworded.mem_meanings {ps qs : List (List Char)} (h : Reworded ps qs) (x : List Char) :
    x ∈ ps.map meaning ↔ x ∈ qs.map meaning := by
  induction h with
  | reordered hperm => exact (hperm.map meaning).mem_iff
  | repeated hp =>
    rw [List.map_cons, List.mem_cons, or_iff_right_of_imp]
    rintro rfl
    exact List.mem_map_of_mem hp
  | recased h => rw [List.map_cons, List.map_cons, meaning_recased h]
  | surrounded hbefore hbehind =>
    rw [List.map_cons, List.map_cons, meaning_surrounded hbefore hbehind]
  | symm _ ih => exact ih.symm
  | trans _ _ ih ih' => exact ih.trans ih'

/-- A match looks at the set of alternatives only. -/
theorem feeds_congr {a b : String} (h : ∀ x, x ∈ alternatives a ↔ x ∈ alternatives b)
    (s : SlotType) : feeds (named a) s = feeds (named b) s := by
  cases s with
  | any => rfl
  | event => rfl
  | named c =>
    rw [Bool.eq_iff_iff, feeds_named_iff, feeds_named_iff]
    simp only [h]

/-- Named types match exactly if they have parts in common, whether or not they are equal; every
type matches itself, and matches work both ways; and it makes no difference how a name is
written. -/
theorem feeds_iff_parts :
    (∀ a b, feeds (named a) (named b) = true ↔ ∃ p ∈ parts a, ∃ q ∈ parts b,
      Text.lower (Text.trim p) = Text.lower (Text.trim q)) ∧
    (∀ a b, feeds (named a) (named b) = sharesAlternative a b) ∧
    (∀ s t, feeds s t = feeds t s) ∧ (∀ s, feeds s s = true) ∧
    (∀ a b, Reworded (parts a) (parts b) → ∀ s,
      feeds (named a) s = feeds (named b) s ∧ feeds s (named a) = feeds s (named b)) := by
  refine ⟨fun a b => ?_, feeds_named, feeds_comm, feeds_self, fun a b h s => ?_⟩
  · rw [feeds_named_iff, alternatives_eq, alternatives_eq]
    constructor
    · rintro ⟨x, hxa, hxb⟩
      obtain ⟨p, hp, rfl⟩ := List.mem_map.1 hxa
      obtain ⟨q, hq, hsame⟩ := List.mem_map.1 hxb
      exact ⟨p, hp, q, hq, hsame.symm⟩
    · rintro ⟨p, hp, q, hq, hsame⟩
      exact ⟨meaning p, List.mem_map_of_mem hp, List.mem_map.2 ⟨q, hq, hsame.symm⟩⟩
  · have hsame : feeds (named a) s = feeds (named b) s := by
      refine feeds_congr (fun x => ?_) s
      rw [alternatives_eq, alternatives_eq]
      exact h.mem_meanings x
    rw [feeds_comm s, feeds_comm s]
    exact ⟨hsame, hsame⟩

/-- The parts of `"tensor,Number"` in another order, one of them twice and with blanks around it,
the other in large letters. -/
theorem reworded_feeds :
    Reworded (parts "tensor,Number") (parts "Number ,TENSOR,Number ") ∧
    feeds (named "Number ,TENSOR,Number ") (named "list,number") =
      feeds (named "tensor,Number") (named "list,number") := by
  have hfrom : parts "tensor,Number" = ["tensor".toList, "Number".toList] := by decide +kernel
  have hto : parts "Number ,TENSOR,Number " =
      ["Number ".toList, "TENSOR".toList, "Number ".toList] := by decide +kernel
  have h : Reworded (parts "tensor,Number") (parts "Number ,TENSOR,Number ") := by
    rw [hfrom, hto]
    have hlarge : Reworded ["tensor".toList, "Number".toList] ["TENSOR".toList, "Number".toList] :=
      .recased (by decide +kernel)
    have hswap : Reworded ["TENSOR".toList, "Number".toList] ["Number".toList, "TENSOR".toList] :=
      .reordered (.swap ..)
    have hblank : Reworded ["Number".toList, "TENSOR".toList] ["Number ".toList, "TENSOR".toList] :=
      @Reworded.surrounded "Number".toList [] [' '] _ nofun (List.forall_mem_singleton.2 rfl)
    have hagain : Reworded ["Number ".toList, "TENSOR".toList]
        ["Number ".toList, "Number ".toList, "TENSOR".toList] := .repeated (List.mem_cons_self ..)
    have hlast : Reworded ["Number ".toList, "Number ".toList, "TENSOR".toList]
        ["Number ".toList, "TENSOR".toList, "Number ".toList] := .reordered (.cons _ (.swap ..))
    exact hlarge.trans (hswap.trans (hblank.trans (hagain.trans hlast)))
  exact ⟨h, (feeds_iff_parts.2.2.2.2 _ _ h _).1.symm⟩

end SlotType

end Dataflow
