/-
  What changing the type of a terminal does.

  Whether a type is new is told from how the types are shown, the case of ASCII letters aside, while
  matches are told from what they are.  Two named types that are shown alike list the same
  alternatives, so it makes no difference which of them a terminal has.  But a type can be named
  like the type of events, or by a star, and such `SlotType.Homonyms` match different types.  So a
  terminal takes a new type up to what matches it, unless the old type and the new one are homonyms
  (`SlotType.interchangeable_iff_of_readsAs`).
-/

import Dataflow.Catalog
import Dataflow.Proofs.Matching
import Dataflow.Proofs.Terminals

namespace Dataflow

namespace SlotType

/-! ## Types that can stand for each other -/

/-- Whatever may feed the one type may feed the other. -/
def Interchangeable (a b : SlotType) : Prop := ∀ s, feeds s a = feeds s b

/-- A named type and a type without a name that are shown in the same way, the case of ASCII letters
aside. -/
def Homonyms : SlotType → SlotType → Prop
  | any, named n | named n, any => n = "*"
  | event, named n | named n, event => asciiFolded n = "event".toList
  | _, _ => False

theorem Interchangeable.refl (a : SlotType) : Interchangeable a a := fun _ => rfl

theorem Interchangeable.symm {a b : SlotType} (h : Interchangeable a b) : Interchangeable b a :=
  fun s => (h s).symm

theorem interchangeable_comm {a b : SlotType} : Interchangeable a b ↔ Interchangeable b a :=
  ⟨.symm, .symm⟩

theorem not_homonyms_self (a : SlotType) : ¬Homonyms a a := by
  cases a <;> exact id

/-- A name matches neither events nor, by itself, everything. -/
theorem not_interchangeable_named {a : SlotType} (h : a = any ∨ a = event) (n : String) :
    ¬Interchangeable a (named n) := by
  intro hsame
  have hevent := hsame event
  rcases h with rfl | rfl <;> cases hevent

/-! ## Types that are shown alike -/

theorem pieces_toLower (cs : List Char) :
    pieces (cs.map Char.toLower) = (pieces cs).map (List.map Char.toLower) := by
  induction cs with
  | nil => rfl
  | cons c cs ih =>
    have hcomma : c.toLower = ',' ↔ c = ',' := by
      simpa using @Text.of_toLower Bool (fun c => decide (c = ',')) (by decide) c
    rw [List.map_cons, pieces, pieces, ih]
    by_cases hc : c = ','
    · rw [if_pos hc, if_pos (hcomma.2 hc)]
      rfl
    · rw [if_neg hc, if_neg (mt hcomma.1 hc)]
      cases pieces cs with
      | nil => rfl
      | cons p ps => rfl

/-- The alternatives of a name do not depend on the case of its ASCII letters. -/
theorem alternatives_folded (name : String) :
    alternatives name = (pieces (asciiFolded name)).map meaning := by
  unfold asciiFolded
  rw [pieces_toLower, List.map_map]
  refine List.map_congr_left fun p _ => ?_
  show meaning p = meaning (p.map Char.toLower)
  unfold meaning
  rw [Text.trim_toLower, Text.lower_toLower]

theorem interchangeable_of_folded {a b : String} (h : asciiFolded a = asciiFolded b) :
    Interchangeable (named a) (named b) := by
  have hsame : alternatives a = alternatives b := by
    rw [alternatives_folded, alternatives_folded, h]
  intro s
  rw [feeds_comm s, feeds_comm s]
  exact feeds_congr (fun x => by rw [hsame]) s

theorem asciiFolded_star {n : String} : asciiFolded n = ['*'] ↔ n = "*" := by
  have hstar : ∀ c : Char, c.toLower = '*' ↔ c = '*' := fun c => by
    simpa using @Text.of_toLower Bool (fun c => decide (c = '*')) (by decide) c
  unfold asciiFolded
  constructor
  · intro h
    obtain ⟨c, hc, hlow⟩ := List.map_eq_singleton_iff.1 h
    rw [← String.toList_inj, hc, (hstar c).1 hlow]
    rfl
  · rintro rfl
    rfl

/-- Types that are shown alike can stand for each other, homonyms excepted. -/
theorem interchangeable_iff_of_readsAs {a b : SlotType} (h : a.readsAs b = true) :
    Interchangeable a b ↔ ¬Homonyms a b := by
  have hfold : asciiFolded a.text = asciiFolded b.text := of_decide_eq_true h
  cases a with
  | any =>
    cases b with
    | any => exact iff_of_true (.refl _) (not_homonyms_self _)
    | event => cases hfold
    | named n =>
      exact iff_of_false (not_interchangeable_named (.inl rfl) n)
        (not_not_intro (asciiFolded_star.1 hfold.symm))
  | event =>
    cases b with
    | any => cases hfold
    | event => exact iff_of_true (.refl _) (not_homonyms_self _)
    | named n =>
      exact iff_of_false (not_interchangeable_named (.inr rfl) n) (not_not_intro hfold.symm)
  | named m =>
    cases b with
    | any =>
      rw [interchangeable_comm]
      exact iff_of_false (not_interchangeable_named (.inl rfl) m)
        (not_not_intro (asciiFolded_star.1 hfold))
    | event =>
      rw [interchangeable_comm]
      exact iff_of_false (not_interchangeable_named (.inr rfl) m) (not_not_intro hfold)
    | named n => exact iff_of_true (interchangeable_of_folded hfold) id

/-- Homonyms are shown alike. -/
theorem Homonyms.readsAs {a b : SlotType} (h : Homonyms a b) : a.readsAs b = true := by
  apply decide_eq_true
  match a, b, h with
  | any, named _, h => exact (asciiFolded_star.2 h).symm
  | named _, any, h => exact asciiFolded_star.2 h
  | event, named _, h => exact Eq.symm h
  | named _, event, h => exact h

end SlotType

/-! ## A new type for a terminal -/

namespace Session

variable {B σ : Type} (s : Session B σ) (d : Direction) (name : String) (type : SlotType)

/-- A terminal that is given a type has a type then that can stand for it, unless its type before
was a homonym of it.  Exactly the terminals of types that are shown alike are left, and then nothing
changes at all.  Name and value, the other terminals and their order stay as they are. -/
theorem retype_effective {old : Terminal} (h : (s.graph.terminals d).get? name = some old) :
    ∃ new, ((s.retypeTerminal d name type).2.graph.terminals d).get? name = some new ∧
      (new.type.Interchangeable type ↔ ¬old.type.Homonyms type) ∧
      ((s.retypeTerminal d name type).1 = true → new.type = type) ∧
      ((s.retypeTerminal d name type).1 = false → (s.retypeTerminal d name type).2 = s ∧
        (old.type.Interchangeable type ↔ ¬old.type.Homonyms type)) ∧
      new.name = old.name ∧ new.value = old.value ∧
      ((s.retypeTerminal d name type).2.graph.terminals d).keys = (s.graph.terminals d).keys ∧
      (∀ x, x ≠ name → ((s.retypeTerminal d name type).2.graph.terminals d).get? x =
        (s.graph.terminals d).get? x) ∧
      ∀ d', d' ≠ d →
        (s.retypeTerminal d name type).2.graph.terminals d' = s.graph.terminals d' := by
  cases hreads : old.type.readsAs type with
  | true =>
    have hstay := SlotType.interchangeable_iff_of_readsAs hreads
    rw [s.retypeTerminal_kept d name type h hreads]
    exact ⟨old, h, hstay, nofun, fun _ => ⟨rfl, hstay⟩, rfl, rfl, rfl, fun _ _ => rfl,
      fun _ _ => rfl⟩
  | false =>
    have hdiffer : ¬old.type.Homonyms type := fun hom => by
      rw [hom.readsAs] at hreads
      cases hreads
    have hothers : ∀ d', d' ≠ d →
        (s.retypeTerminal d name type).2.graph.terminals d' = s.graph.terminals d' :=
      fun d' hd => s.terminals_retypeTerminal_of_ne (Ne.symm hd) name type
    rw [s.retypeTerminal_changed d name type h hreads] at hothers ⊢
    rw [terminals_setTerminals]
    refine ⟨{ old with type }, Assoc.get?_insert_self .., ?_, fun _ => rfl, nofun, rfl, rfl, ?_, ?_,
      hothers⟩
    · exact iff_of_true (.refl type) hdiffer
    · rw [Assoc.keys_insert, if_pos (Assoc.mem_keys_of_get? h)]
    · exact fun x hx => Assoc.get?_insert_of_ne _ _ hx

/-- A graph with one terminal. -/
def inletOf (type : SlotType) : Session Catalog Unit :=
  (⟨Graph.empty ∅ .default, [], ()⟩ : Session Catalog Unit).addTerminal .input "in" type none

theorem get?_inletOf (type : SlotType) :
    ((inletOf type).graph.terminals .input).get? "in" = some ⟨"in", type, none⟩ := rfl

/-- An inlet of events takes the type of tensors, and then what feeds tensors feeds it. -/
theorem bell_retyped :
    ((inletOf .event).graph.terminals .input).get? "in" = some ⟨"in", .event, none⟩ ∧
    ∃ new, (((inletOf .event).retypeTerminal .input "in" (.named "tensor")).2.graph.terminals
        .input).get? "in" = some new ∧ new.type.Interchangeable (.named "tensor") := by
  obtain ⟨new, hnew, hfits, -⟩ :=
    (inletOf .event).retype_effective .input "in" (.named "tensor") (get?_inletOf .event)
  refine ⟨get?_inletOf .event, new, hnew, hfits.2 ?_⟩
  show ¬asciiFolded "tensor" = "event".toList
  decide

/-- An inlet of events that is given a type of that name still takes events, which do not feed the
type that it was given. -/
theorem retype_to_homonym :
    (inletOf .event).retypeTerminal .input "in" (.named "event") = (false, inletOf .event) ∧
    ((inletOf .event).graph.terminals .input).get? "in" = some ⟨"in", .event, none⟩ ∧
    SlotType.feeds .event .event = true ∧ SlotType.feeds .event (.named "event") = false ∧
    ¬SlotType.event.Interchangeable (.named "event") := by
  have hreads : SlotType.event.readsAs (.named "event") = true := by decide
  refine ⟨?_, get?_inletOf .event, rfl, rfl, ?_⟩
  · exact (inletOf .event).retypeTerminal_kept .input "in" (.named "event") (get?_inletOf .event)
      hreads
  · exact SlotType.not_interchangeable_named (.inr rfl) "event"

end Session

end Dataflow
