/-
  Integers in attributes.

  An integer in an attribute is read through the floating-point number it is rounded to, and that must
  be a word (`read?`).  This holds of integers that fit a word and, as it turns out, of those that are
  read as numbers because they do not (`WrittenAs.reading`): they are rounded more than once, but only
  where the result is far out of range.  A floating-point number is read if it denotes a word.

  `Means` says what is read of one number and `Lists` of what numbers a value consists.  Whatever is
  read follows from these (`Means.reading`, `reading_integers?`), and a source gives the integers that
  are read of its size (`source_publishes`, `source_refuses`).
-/

import Dataflow.Proofs.Cargo
import Dataflow.Proofs.Firing
import Dataflow.Proofs.Landing
import Dataflow.Proofs.Machine
import Dataflow.Proofs.Values

namespace Dataflow

namespace Numeric

open Float.Model (UnpackedFloat Format)
open Float.Model.UnpackedFloat

/-! ## The words among the rounded integers -/

theorem rounded_le_iff {n : Nat} : rounded n ≤ 9223372036854775808 ↔ n ≤ 9223372036854776832 := by
  rcases Nat.lt_or_ge n (2 ^ 63) with h | h
  · have hle := rounded_le (brief_two_pow 63) (Nat.le_of_lt h)
    omega
  · rcases Nat.lt_or_ge n (2 ^ 64) with h' | h'
    · have hunit : unit n = 2048 := unit_eq h h'
      unfold rounded halfEven
      rw [hunit]
      split <;> omega
    · have hge := le_rounded (brief_two_pow 64) h'
      omega

theorem rounded_lt_iff {n : Nat} : rounded n < 9223372036854775808 ↔ n < 9223372036854775296 := by
  rcases Nat.lt_or_ge n (2 ^ 62) with h | h
  · have hle := rounded_le (brief_two_pow 62) (Nat.le_of_lt h)
    omega
  · rcases Nat.lt_or_ge n (2 ^ 63) with h' | h'
    · have hunit : unit n = 1024 := unit_eq h h'
      unfold rounded halfEven
      rw [hunit]
      split <;> omega
    · have hge := le_rounded (brief_two_pow 63) h'
      omega

/-- Which integers are rounded to a word: those down to half way from the least word to the brief
integer below it, and those up to half way from the greatest brief word to the one above it. -/
theorem isWord_roundedInt_iff {n : Int} : isWord (roundedInt n) = true ↔
    -9223372036854776832 ≤ n ∧ n < 9223372036854775296 := by
  have hle := @rounded_le_iff n.natAbs
  have hlt := @rounded_lt_iff n.natAbs
  rw [isWord_iff]
  unfold roundedInt
  split <;> omega

/-! ## What is read -/

/-- The word that an integer is read as, if it is read. -/
def read? (n : Int) : Option Int := word? (roundedInt n)

/-- A list of readings gives all integers, or none. -/
theorem mapM_id_iff {reads : List (Option Int)} {ns : List Int} :
    reads.mapM id = some ns ↔ reads = ns.map some := by
  induction reads generalizing ns with
  | nil =>
    cases ns with
    | nil => exact ⟨fun _ => rfl, fun _ => rfl⟩
    | cons n ns => exact ⟨nofun, nofun⟩
  | cons read reads ih =>
    rw [List.mapM_cons]
    constructor
    · intro h
      obtain ⟨n, hn, h⟩ := Option.bind_eq_some_iff.1 h
      obtain ⟨ns', hns, h⟩ := Option.bind_eq_some_iff.1 h
      cases h
      rw [List.map_cons, ← ih.1 hns, ← hn]
      rfl
    · intro h
      cases ns with
      | nil => cases h
      | cons n ns =>
        obtain ⟨rfl, hreads⟩ := List.cons.inj h
        rw [ih.2 hreads]
        rfl

theorem word?_eq_none {n : Int} (h : 9223372036854775808 < n.natAbs) : word? n = none := by
  refine if_neg fun hword => ?_
  rw [isWord_iff] at hword
  omega

/-- A written integer that is no word as it stands is still read as what it is rounded to. -/
theorem whole?_float? {n : Int} (hn : n < leastWord ∨ (wordLimit : Int) ≤ n) {x : Float}
    (h : (Numeral.ofInt n).float? = some x) : ∃ z, whole? x = some z ∧ word? z = read? n := by
  obtain ⟨m, e, y, hy, rfl, hm, hshort, hlong⟩ := float?_ofInt h
  have hpos : 0 < m := by
    unfold leastWord wordLimit at *
    rcases Nat.lt_or_ge n.natAbs 18446744073709551616 with hlt | hge
    · have hall := hshort hlt
      omega
    · have hmost := hlong hge
      omega
  obtain ⟨hparts, hrange⟩ := parts_scale? hm hpos hy
  have hwhole : whole? (if n < 0 then -y else y) =
      some (if n < 0 then -(rounded (rounded m * rounded (10 ^ e)) : Int)
        else rounded (rounded m * rounded (10 ^ e))) := by
    split
    · exact whole?_leading (parts_neg hrange (Nat.le_refl _) hparts) (brief_rounded _)
    · exact whole?_leading hparts (brief_rounded _)
  refine ⟨_, hwhole, ?_⟩
  rcases Nat.lt_or_ge n.natAbs wordLimit with hlt | hge
  · obtain ⟨rfl, rfl⟩ := hshort hlt
    have hone : rounded n.natAbs * rounded (10 ^ 0) = rounded n.natAbs := Nat.mul_one _
    rw [hone, rounded_eq_iff.2 (brief_rounded _)]
    rfl
  · -- neither the digits taken nor the integer itself come near to a signed word
    obtain ⟨he, hmost⟩ := hlong hge
    have hread := le_rounded_excess he hmost
    have hexact : 2 ^ 64 ≤ rounded n.natAbs := le_rounded (brief_two_pow 64) hge
    unfold read? roundedInt
    rw [word?_eq_none, word?_eq_none] <;> split <;> omega

/-- An integer is read exactly if it is a word with no more digits than a number has. -/
theorem read?_eq_self_iff {n : Int} : read? n = some n ↔ isWord n = true ∧ Brief n.natAbs := by
  unfold read? word?
  rw [← roundedInt_eq_iff]
  constructor
  · intro h
    split at h
    · next hword =>
      have hn := Option.some.inj h
      rw [hn] at hword
      exact ⟨hword, hn⟩
    · cases h
  · rintro ⟨hword, hn⟩
    rw [hn, if_pos hword]

theorem read?_eq_none_iff {n : Int} :
    read? n = none ↔ n < -9223372036854776832 ∨ 9223372036854775296 ≤ n := by
  have hword := @isWord_roundedInt_iff n
  unfold read? word?
  split
  · next h =>
    have hbounds := hword.1 h
    exact ⟨nofun, fun hout => absurd hout (by omega)⟩
  · next h =>
    refine ⟨fun _ => ?_, fun _ => rfl⟩
    by_contra hin
    exact h (hword.2 (by omega))

theorem read?_nearest {n m : Int} (h : read? n = some m) {b : Int} (hb : Brief b.natAbs) :
    (n - m).natAbs ≤ (n - b).natAbs := by
  obtain ⟨rfl, -⟩ := word?_eq_some_iff.1 h
  exact roundedInt_nearest n hb

end Numeric

open Numeric (read? value? whole? word? isWord Brief Numeral leastWord wordLimit)

/-! ## Readings -/

/-- A reading of an attribute gives what is to be read, or tells, naming the attribute, that a number
is no integer or out of range. -/
def Reading {α : Type} (name : String) (answer : Except NodeError α) : Option α → Prop
  | some a => answer = .ok a
  | none => ∃ x reason, (reason = .notInteger x ∨ reason = .outOfRange x) ∧
      answer = .error (.invalidProperty name reason)

namespace Reading

variable {α β : Type} {name : String} {answer : Except NodeError α} {read : Option α}

theorem bind {next : α → Except NodeError β} {then? : α → Option β} (h : Reading name answer read)
    (hnext : ∀ a, Reading name (next a) (then? a)) :
    Reading name (answer >>= next) (read.bind then?) := by
  cases read with
  | none =>
    obtain ⟨x, reason, hreason, rfl⟩ := h
    exact ⟨x, reason, hreason, rfl⟩
  | some a =>
    cases (show answer = .ok a from h)
    exact hnext a

theorem map (f : α → β) (h : Reading name answer read) :
    Reading name (answer.map f) (read.map f) := by
  cases read with
  | none =>
    obtain ⟨x, reason, hreason, rfl⟩ := h
    exact ⟨x, reason, hreason, rfl⟩
  | some a =>
    cases (show answer = .ok a from h)
    rfl

end Reading

/-! ## Values -/

namespace Value

variable {name : String} {v : Value}

/-- The value that an integer is in a text. -/
def WrittenAs (v : Value) (n : Int) : Prop := Json.numberValue? (Numeral.ofInt n) = some v

/-- What is read of a number: what a written integer is rounded to, and of a floating-point number
the integer that it denotes, if that is a word. -/
inductive Means : Value → Option Int → Prop
  | written {v : Value} {n : Int} : v.WrittenAs n → Means v (read? n)
  | whole {x : Float} {n : Int} : value? x = some (n : ℚ) → Means (.float x) (word? n)
  | other {x : Float} : (∀ n : Int, value? x ≠ some (n : ℚ)) → Means (.float x) none

/-- The values that hold numbers: one of them, or a list. -/
inductive Lists : Value → List (Option Int) → Prop
  | one {v : Value} {read : Option Int} : v.Means read → Lists v [read]
  | list {vs : List Value} {reads : List (Option Int)} :
      List.Forall₂ Means vs reads → Lists (.arr vs) reads

theorem writtenAs_int {n : Int} (hl : leastWord ≤ n) (hu : n < wordLimit) : (int n).WrittenAs n := by
  unfold WrittenAs Json.numberValue?
  rw [Numeric.int?_ofInt hl hu]

/-- Every number means something. -/
theorem exists_means (x : Float) : ∃ read, (float x).Means read := by
  by_cases h : ∃ n : Int, value? x = some (n : ℚ)
  · obtain ⟨n, hn⟩ := h
    exact ⟨_, .whole hn⟩
  · exact ⟨none, .other fun n hn => h ⟨n, hn⟩⟩

theorem reading_of_whole {x : Float} {n : Int} (hv : v.number name = .ok x)
    (hn : whole? x = some n) : Reading name (v.integer name) (word? n) := by
  have hread := integer_eq hv
  rw [hn] at hread
  unfold word?
  split
  · next hw => exact hread.trans (if_pos hw)
  · next hw => exact ⟨x, _, .inr rfl, hread.trans (if_neg hw)⟩

/-- A written integer is a number, and is read as the word it is rounded to. -/
theorem WrittenAs.reading {n : Int} (h : v.WrittenAs n) (name : String) :
    Reading name (v.integer name) (read? n) := by
  unfold WrittenAs Json.numberValue? at h
  by_cases hword : leastWord ≤ n ∧ n < wordLimit
  · rw [Numeric.int?_ofInt hword.1 hword.2] at h
    cases h
    have hrange : (2 ^ 64).log2 ≤ 1023 := by
      rw [Nat.log2_two_pow]
      decide
    have hle : n.natAbs ≤ 2 ^ 64 := by
      unfold leastWord wordLimit at hword
      omega
    exact reading_of_whole rfl
      (Numeric.whole?_ofInt_rounded (Numeric.brief_two_pow 64) hrange hle)
  · have hout : n < leastWord ∨ (wordLimit : Int) ≤ n := by omega
    rw [Numeric.int?_eq_none hout] at h
    obtain ⟨x, hx, rfl⟩ := Option.map_eq_some_iff.1 h
    obtain ⟨z, hz, hr⟩ := Numeric.whole?_float? hout hx
    rw [← hr]
    exact reading_of_whole rfl hz

theorem Means.reading {read : Option Int} (h : v.Means read) (name : String) :
    Reading name (v.integer name) read := by
  cases h with
  | written h => exact h.reading name
  | whole h => exact reading_of_whole rfl (Numeric.whole?_eq_some_iff.2 h)
  | @other x h =>
    have hnone : whole? x = none := by
      rw [Option.eq_none_iff_forall_ne_some]
      exact fun n hn => h n (Numeric.whole?_eq_some_iff.1 hn)
    have hread : (float x).integer name = _ := integer_eq rfl
    rw [hnone] at hread
    exact ⟨x, _, .inl rfl, hread⟩

/-- A list of numbers is read entry by entry, up to the first that is no word. -/
theorem reading_list {vs : List Value} {reads : List (Option Int)} (h : List.Forall₂ Means vs reads)
    (name : String) : Reading name (vs.mapM (integer name)) (reads.mapM id) := by
  induction h with
  | nil => rfl
  | cons hv _ ih =>
    rw [List.mapM_cons, List.mapM_cons]
    exact (hv.reading name).bind fun n => ih.bind fun ns => rfl

/-- The values that are numbers. -/
inductive IsNumber : Value → Prop
  | int (n : Int) : IsNumber (.int n)
  | float (x : Float) : IsNumber (.float x)

theorem Means.isNumber {read : Option Int} (h : v.Means read) : v.IsNumber := by
  cases h with
  | written h =>
    unfold WrittenAs Json.numberValue? at h
    split at h
    · cases h
      exact .int _
    · obtain ⟨x, -, rfl⟩ := Option.map_eq_some_iff.1 h
      exact .float x
  | whole h => exact .float _
  | other h => exact .float _

end Value

/-! ## Attributes -/

namespace Attributes

variable {attrs : Attributes} {name : String} {axes : Nat} {v : Value}

theorem reading_integer? {read : Option Int} (h : attrs name = some v) (hv : v.Means read) :
    Reading name (attrs.integer? name) (read.map some) := by
  have hinteger : attrs.integer? name = (v.integer name).map some := by
    unfold integer? set?
    rw [h]
    cases hv.isNumber <;> rfl
  rw [hinteger]
  exact (hv.reading name).map some

/-- One integer for every axis, where a single one stands for all. -/
def spread (axes : Nat) : List Int → List Int
  | [n] => List.replicate axes n
  | ns => ns

theorem perAxis_eq {ns : List Int} (h : ns.length = 1 ∨ ns.length = axes) :
    perAxis name axes ns = .ok (spread axes ns) := by
  cases ns with
  | nil => exact if_pos (h.resolve_left nofun)
  | cons n ns =>
    cases ns with
    | nil => rfl
    | cons n' ns => exact if_pos (h.resolve_left nofun)

/-- The numbers of an attribute are read one by one, and then spread over the axes. -/
theorem integers?_lists (axes : Nat) {reads : List (Option Int)} (h : attrs name = some v) (hv : v.Lists reads) :
    ∃ answer, Reading name answer (reads.mapM id) ∧
      attrs.integers? name axes = answer.bind fun ns => (perAxis name axes ns).map some := by
  cases hv with
  | @one _ read hv =>
    refine ⟨(v.integer name).map fun n => [n], ?_, ?_⟩
    · rw [List.mapM_cons, List.mapM_nil]
      exact (hv.reading name).bind fun n => rfl
    · have hone : attrs.integers? name axes =
          (v.integer name).bind fun n => (perAxis name axes [n]).map some := by
        unfold integers? set?
        rw [h]
        cases hv.isNumber <;> rfl
      rw [hone]
      cases v.integer name <;> rfl
  | @list vs _ hvs =>
    refine ⟨vs.mapM (Value.integer name), Value.reading_list hvs name, ?_⟩
    unfold integers? set?
    rw [h]
    rfl

theorem reading_integers? {reads : List (Option Int)} (h : attrs name = some v) (hv : v.Lists reads)
    (hlen : reads.length = 1 ∨ reads.length = axes) :
    Reading name (attrs.integers? name axes)
      ((reads.mapM id).map fun ns => some (spread axes ns)) := by
  obtain ⟨answer, hread, hall⟩ := integers?_lists axes h hv
  rw [hall]
  cases hns : reads.mapM id with
  | none =>
    rw [hns] at hread
    obtain ⟨x, reason, hreason, rfl⟩ := hread
    exact ⟨x, reason, hreason, rfl⟩
  | some ns =>
    rw [hns] at hread
    cases (show answer = .ok ns from hread)
    have hsame : reads.length = ns.length := by
      rw [Numeric.mapM_id_iff.1 hns, List.length_map]
    show (perAxis name axes ns).map some = .ok (some (spread axes ns))
    rw [perAxis_eq (by omega)]
    rfl

end Attributes

/-! ## Sources -/

namespace Catalog

variable {attrs : Attributes} {rank : Nat} {ns : List Int}

theorem sourceShape_eq (h : attrs.integers? "size" rank = .ok (some ns)) :
    sourceShape rank attrs =
      if ns.any (· < 1) then .error (.invalidProperty "size" (.emptyDimension ns)) else .ok ns := by
  unfold sourceShape Attributes.integers
  rw [h]
  show (if ns.any (· < 1) = true then _ else _ : Except NodeError (List Int)) = _
  split <;> rfl

theorem sourceShape_error {e : NodeError} (h : attrs.integers? "size" rank = .error e) :
    sourceShape rank attrs = .error e := by
  unfold sourceShape Attributes.integers
  rw [h]
  rfl

/-- A node that runs as a source of so many dimensions and has an output for them. -/
structure IsSource (n : Node Catalog) (rank : Nat) : Prop where
  behavior : n.behavior = some (.source rank)
  runs : n.canExecute = true
  output : n.outputs[0]?.isSome = true

/-- The nodes of a type of sources are such nodes. -/
theorem isSource_attachDefaults (name : String) (rank : Nat) (size : Value) (title : Option String) :
    IsSource (((sourceType id name rank size).instantiate title).attachDefaults
      (sourceType id name rank size)) rank := by
  obtain ⟨width, pos, hmade⟩ :=
    ((sourceType id name rank size).instantiate title).attachDefaults_eq (sourceType id name rank size)
  rw [hmade]
  exact ⟨rfl, rfl, rfl⟩

end Catalog

namespace Engine

variable {s : Session Catalog Unit} {id : NodeId} {n : Node Catalog} {rank : Nat}
  (depth : Nat) (payload : Option Value) (hn : s.graph.nodes.get? id = some n)
  (hsource : Catalog.IsSource n rank)
include hn hsource

theorem runBody_source {shape : Except NodeError (List Int)}
    (hshape : Catalog.sourceShape rank (s.graph.property? id) = shape) :
    ∃ s', runBody (runner (depth + 1)) id payload s =
        some ((shape.map fun _ => true).mapError (.execution id), s') ∧
      s'.graph = s.graph.afterwards (.source rank) id (shape.map .ofInts) := by
  obtain ⟨s', hrun, hs'⟩ := runBody_computes depth payload hn hsource.behavior rfl
    hsource.runs nofun nofun
  have hresult : s.graph.result (.source rank) id = shape.map .ofInts :=
    congrArg (Except.map Value.ofInts) hshape
  rw [hresult] at hrun hs'
  refine ⟨s', ?_, hs'⟩
  rw [hrun]
  cases shape <;> rfl

/-- A source gives the integers that are read of its size, if none of them is less than one. -/
theorem source_publishes {ns : List Int}
    (hns : Attributes.integers? (s.graph.property? id) "size" rank = .ok (some ns))
    (hfull : ∀ n ∈ ns, 1 ≤ n) : ∃ s',
      runBody (runner (depth + 1)) id payload s = some (.ok true, s') ∧
      s'.graph.outputData? id 0 = some (.ofInts ns) := by
  have hnone : ns.any (· < 1) = false := by
    rw [List.any_eq_false]
    intro n hn
    have hone := hfull n hn
    rw [decide_eq_true_eq]
    omega
  have hshape := Catalog.sourceShape_eq hns
  rw [hnone] at hshape
  obtain ⟨s', hrun, hs'⟩ := runBody_source depth payload hn hsource hshape
  refine ⟨s', hrun, ?_⟩
  obtain ⟨o, ho⟩ := Option.isSome_iff_exists.1 hsource.output
  have hout : s.graph.output? id 0 = some o := by
    unfold Graph.output?
    rw [hn]
    exact ho
  have hdata := Graph.outputData?_setOutputData hout (.ofInts ns) id 0
  rw [if_pos ⟨rfl, rfl⟩] at hdata
  rw [hs']
  exact hdata

/-- If one of them is less than one or no word it fails, and leaves the graph as it is. -/
theorem source_refuses {read : Option (List Int)}
    (hns : Reading "size" (Attributes.integers? (s.graph.property? id) "size" rank) (read.map some))
    (hempty : ∀ ns, read = some ns → ∃ n ∈ ns, n < 1) : ∃ reason s',
      runBody (runner (depth + 1)) id payload s =
        some (.error (.execution id (.invalidProperty "size" reason)), s') ∧
      s'.graph = s.graph := by
  have herror : ∃ reason, Catalog.sourceShape rank (s.graph.property? id) =
      .error (.invalidProperty "size" reason) := by
    cases read with
    | none =>
      obtain ⟨x, reason, -, hx⟩ := hns
      exact ⟨reason, Catalog.sourceShape_error hx⟩
    | some ns =>
      refine ⟨.emptyDimension ns, (Catalog.sourceShape_eq hns).trans (if_pos ?_)⟩
      obtain ⟨n, hn, hlow⟩ := hempty ns rfl
      exact List.any_eq_true.2 ⟨n, hn, decide_eq_true hlow⟩
  obtain ⟨reason, hshape⟩ := herror
  obtain ⟨s', hrun, hs'⟩ := runBody_source depth payload hn hsource hshape
  exact ⟨reason, s', hrun, hs'⟩

end Engine

/-! ## Integers in attributes -/

open Attributes (spread) in
/-- An integer in an attribute is read as the floating-point number that is nearest, if that is a word;
so exactly those words are read exactly that have no more than 53 binary digits in front of zeros.
Written integers from half way to the next number on are refused, and so are all numbers that are no
integers or no words.  A list is read entry by entry, and a single entry is spread over all axes.  A
source gives what is read of its size in this way. -/
theorem integers_rounded (attrs : Attributes) (name : String) :
    (∀ v read, v.Means read → attrs name = some v →
      Reading name (attrs.integer? name) (read.map some)) ∧
    (∀ axes v reads, v.Lists reads → reads.length = 1 ∨ reads.length = axes →
      attrs name = some v → Reading name (attrs.integers? name axes)
        ((reads.mapM id).map fun ns => some (spread axes ns))) ∧
    (∀ n : Int, leastWord ≤ n → n < wordLimit → (Value.int n).Means (read? n)) ∧
    (∀ x, ∃ read, (Value.float x).Means read) ∧
    (∀ n : Int, (read? n = some n ↔ isWord n = true ∧ Brief n.natAbs) ∧
      (read? n = none ↔ n < -9223372036854776832 ∨ 9223372036854775296 ≤ n) ∧
      ∀ m b : Int, read? n = some m → Brief b.natAbs → (n - m).natAbs ≤ (n - b).natAbs) ∧
    ∀ (s : Session Catalog Unit) k n rank payload depth v reads,
      s.graph.nodes.get? k = some n → Catalog.IsSource n rank → n.property? "size" = some v →
      v.Lists reads → reads.length = 1 ∨ reads.length = rank →
      (∀ ns, reads.mapM id = some ns → (∀ m ∈ spread rank ns, 1 ≤ m) → ∃ s',
        Engine.runBody (Engine.runner (depth + 1)) k payload s = some (.ok true, s') ∧
        s'.graph.outputData? k 0 = some (.ofInts (spread rank ns))) ∧
      ((∀ ns, reads.mapM id = some ns → ∃ m ∈ spread rank ns, m < 1) → ∃ reason s',
        Engine.runBody (Engine.runner (depth + 1)) k payload s =
          some (.error (.execution k (.invalidProperty "size" reason)), s') ∧
        s'.graph = s.graph) := by
  refine ⟨fun v read hv h => Attributes.reading_integer? h hv,
    fun axes v reads hv hlen h => Attributes.reading_integers? h hv hlen,
    fun n hl hu => .written (Value.writtenAs_int hl hu), Value.exists_means,
    fun n => ⟨Numeric.read?_eq_self_iff, Numeric.read?_eq_none_iff, fun m b hm hb =>
      Numeric.read?_nearest hm hb⟩, ?_⟩
  intro s k n rank payload depth v reads hn hsource hsize hv hlen
  have hproperty : s.graph.property? k "size" = some v :=
    (Graph.property_of_node hn "size").trans hsize
  have hreading := Attributes.reading_integers? hproperty hv hlen
  constructor
  · intro ns hns hfull
    rw [hns] at hreading
    exact Engine.source_publishes depth payload hn hsource hreading hfull
  · intro hempty
    have hsize : Reading "size" (Attributes.integers? (s.graph.property? k) "size" rank)
        (((reads.mapM id).map (spread rank)).map some) := by
      rwa [Option.map_map]
    refine Engine.source_refuses depth payload hn hsource hsize ?_
    intro ns hns
    obtain ⟨ns, hread, rfl⟩ := Option.map_eq_some_iff.1 hns
    exact hempty ns hread

/-- A source whose first dimension is larger than `2 ^ 53`. -/
def vastSource : Node Catalog :=
  (((Catalog.sourceType id "Tensor2d" 2 (.ofInts [128, 128])).instantiate none).attachDefaults
    (Catalog.sourceType id "Tensor2d" 2 (.ofInts [128, 128]))).setProperty "size"
      (.ofInts [9007199254740994, 3])

/-- A session with this source only. -/
def vastSession : Session Catalog Unit :=
  ⟨{ (Graph.empty ∅ .default : Graph Catalog) with nodes := (∅ : Assoc _ _).insert ⟨1⟩ vastSource },
    [], ()⟩

/-- Both dimensions have less than 53 binary digits in front of zeros, and are given as they are. -/
theorem vastSource_published : ∃ s',
    Engine.runBody (Engine.runner 1) ⟨1⟩ none vastSession = some (.ok true, s') ∧
    s'.graph.outputData? ⟨1⟩ 0 = some (.ofInts [9007199254740994, 3]) := by
  obtain ⟨-, -, hwritten, -, hread, hsource⟩ := integers_rounded vastSource.property? "size"
  have hmade := Catalog.isSource_attachDefaults "Tensor2d" 2 (.ofInts [128, 128]) none
  have hvast : Catalog.IsSource vastSource 2 := ⟨hmade.behavior, hmade.runs, hmade.output⟩
  have hnode : vastSession.graph.nodes.get? ⟨1⟩ = some vastSource := Assoc.get?_insert_self ..
  have hsize : vastSource.property? "size" = some (.ofInts [9007199254740994, 3]) :=
    Assoc.get?_insert_self ..
  have hlists : (Value.ofInts [9007199254740994, 3]).Lists
      [read? 9007199254740994, read? 3] :=
    .list (.cons (hwritten _ (by decide) (by decide))
      (.cons (hwritten _ (by decide) (by decide)) .nil))
  have hfirst : read? 9007199254740994 = some 9007199254740994 :=
    (hread _).1.2 ⟨by decide, 4503599627370497, 1, by decide, rfl⟩
  have hsecond : read? 3 = some 3 := (hread _).1.2 ⟨by decide, 3, 0, by decide, rfl⟩
  refine (hsource _ _ _ 2 none 0 _ _ hnode hvast hsize hlists (.inr rfl)).1 [9007199254740994, 3] ?_ ?_
  · rw [hfirst, hsecond]
    rfl
  · decide

/-- An attribute with a binary digit more than a floating-point number has. -/
def lengthy : Attributes := fun name => [("k", Value.int 9007199254740993)].lookup name

/-- It is read as `2 ^ 53`.  The greatest word is refused, and the integer below the least one is
read as that one. -/
theorem lengthy_rounded :
    (lengthy "k" = some (.int 9007199254740993) ∧ isWord 9007199254740993 = true ∧
      lengthy.integer? "k" = .ok (some 9007199254740992)) ∧
    (isWord 9223372036854775807 = true ∧ (Value.int 9223372036854775807).integer "k" =
      .error (.invalidProperty "k" (.outOfRange (Float.ofInt 9223372036854775807)))) ∧
    isWord (-9223372036854775809) = false ∧
      ∃ v : Value, v.WrittenAs (-9223372036854775809) ∧ v.integer "k" = .ok (-9223372036854775808) := by
  refine ⟨⟨rfl, by decide, rfl⟩, ⟨by decide, rfl⟩, by decide, ?_⟩
  have hvalue : (Json.numberValue? (Numeral.ofInt (-9223372036854775809))).isSome = true := by
    decide +kernel
  obtain ⟨v, hv⟩ := Option.isSome_iff_exists.1 hvalue
  have hread : read? (-9223372036854775809) = some (-9223372036854775808) := by decide +kernel
  have hreading := Value.WrittenAs.reading hv "k"
  rw [hread] at hreading
  exact ⟨v, hv, hreading⟩

end Dataflow
