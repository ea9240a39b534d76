/-
  Reading the text of a tree gives the tree.

  There are two ways to write a tree, which differ in their blanks only: `written` is both.  Its
  text is cut into the tokens of the tree (`scan_written`), whatever follows it, as long as that
  cannot be part of a numeral; and the machine that reads tokens, having read those of a tree,
  holds that tree as a complete value (`run?_tokens`).  Both are inductions over the tree, with
  one part for what follows the first item of a list and one for what follows the first field.
-/

import Dataflow.Json.Reader
import Dataflow.Proofs.Spelling

namespace Dataflow.Json

namespace Token

/-! ## One token -/

theorem scan_blank {c : Char} (h : isBlank c = true) (cs : List Char) :
    scan (c :: cs) = scan cs := by
  rw [scan, if_pos h]

theorem scan_blanks {bs : List Char} (h : ∀ c ∈ bs, isBlank c = true) (cs : List Char) :
    scan (bs ++ cs) = scan cs := by
  induction bs with
  | nil => rfl
  | cons b bs ih =>
    rw [List.cons_append, scan_blank (h b (List.mem_cons_self ..)),
      ih fun c hc => h c (List.mem_cons_of_mem b hc)]

/-- A text that starts with a token is that token and what follows it. -/
theorem scan_first {c : Char} {cs rest : List Char} {t : Token} (hc : isBlank c = false)
    (h : first? c cs = some (t, rest)) : scan (c :: cs) = (scan rest).map (t :: ·) := by
  rw [scan, if_neg (by rw [hc]; exact Bool.false_ne_true)]
  split
  · next h' =>
    rw [h] at h'
    cases h'
  · next h' =>
    rw [h] at h'
    cases h'
    rfl

theorem scan_punctuation {c : Char} {t : Token} (hc : isBlank c = false)
    (h : punctuation? c = some t) (cs : List Char) : scan (c :: cs) = (scan cs).map (t :: ·) := by
  apply scan_first hc
  unfold first?
  rw [h]

theorem scan_quote (s : String) (cs : List Char) :
    scan (Tree.quote s ++ cs) = (scan cs).map (str s :: ·) := by
  have hbody : s.toList.flatMap Tree.escape ++ ['"'] ++ cs
      = s.toList.flatMap Tree.escape ++ '"' :: cs := by
    rw [List.append_assoc]
    rfl
  show scan ('"' :: (s.toList.flatMap Tree.escape ++ ['"'] ++ cs)) = _
  rw [hbody]
  apply scan_first (by decide)
  show (takeUnits _).map _ = _
  rw [takeUnits_escapes, Option.map_some, string_toNat]

/-- No character of a numeral starts another token or separates tokens. -/
theorem apart_of_inNumeral {c : Char} (h : inNumeral c = true) :
    isBlank c = false ∧ punctuation? c = none ∧ c ≠ '"' := by
  refine ⟨?_, ?_, ?_⟩
  · cases hb : isBlank c with
    | false => rfl
    | true =>
      simp only [isBlank, Bool.or_eq_true, beq_iff_eq] at hb
      rcases hb with ((rfl | rfl) | rfl) | rfl <;> revert h <;> decide
  · unfold punctuation?
    split <;> first | rfl | (revert h; decide)
  · rintro rfl
    revert h
    decide

/-- A numeral ends where a character stands that cannot occur in one. -/
theorem scan_numeral (n : Numeric.Numeral) {cs : List Char}
    (h : ∀ c ∈ cs.head?, inNumeral c = false) :
    scan (n.chars ++ cs) = (scan cs).map (num n :: ·) := by
  obtain ⟨c, more, hchars⟩ := List.exists_cons_of_ne_nil (chars_ne_nil n)
  have hin : ∀ c' ∈ c :: more, inNumeral c' = true :=
    fun c' hc' => inNumeral_of_mem_chars (hchars ▸ hc')
  have hmore : ∀ c' ∈ more, inNumeral c' = true :=
    fun c' hc' => hin c' (List.mem_cons_of_mem c hc')
  have hc : inNumeral c = true := hin c (List.mem_cons_self ..)
  obtain ⟨hblank, hpunctuation, hquote⟩ := apart_of_inNumeral hc
  have hends : cs.takeWhile inNumeral = [] ∧ cs.dropWhile inNumeral = cs := by
    cases cs with
    | nil => exact ⟨rfl, rfl⟩
    | cons d cs => simp [h d rfl]
  have htake : (more ++ cs).takeWhile inNumeral = more := by
    rw [List.takeWhile_append_of_pos hmore, hends.1, List.append_nil]
  have hdrop : (more ++ cs).dropWhile inNumeral = cs := by
    rw [List.dropWhile_append_of_pos hmore, hends.2]
  rw [hchars, List.cons_append]
  apply scan_first hblank
  unfold first?
  rw [hpunctuation]
  simp only [if_neg hquote, hc, if_true, htake, hdrop, ← hchars, numeral?_chars, Option.map_some]

theorem scan_word {c : Char} {cs rest : List Char} {t : Token} (hb : isBlank c = false)
    (hp : punctuation? c = none) (hq : c ≠ '"') (hn : inNumeral c = false)
    (h : word? (c :: cs) = some (t, rest)) : scan (c :: cs) = (scan rest).map (t :: ·) := by
  apply scan_first hb
  unfold first?
  rw [hp]
  simp only [if_neg hq, hn, Bool.false_eq_true, if_false, h]

theorem scan_null (cs : List Char) : scan ("null".toList ++ cs) = (scan cs).map (null :: ·) :=
  scan_word (by decide) rfl (by decide) (by decide) rfl

theorem scan_boolWord (b : Bool) (cs : List Char) :
    scan (Tree.boolWord b ++ cs) = (scan cs).map (bool b :: ·) := by
  cases b with
  | false => exact scan_word (by decide) rfl (by decide) (by decide) rfl
  | true => exact scan_word (by decide) rfl (by decide) (by decide) rfl

end Token

namespace Tree

/-! ## Both ways to write -/

/-- The blanks of a way to write: what stands before an item or a bracket at a depth of nesting,
and what stands behind a colon. -/
structure Blanks where
  line : Nat → List Char
  gap : List Char
  line_blank : ∀ depth, ∀ c ∈ line depth, Token.isBlank c = true
  gap_blank : ∀ c ∈ gap, Token.isBlank c = true

mutual

/-- A tree with given blanks. -/
def written (b : Blanks) (depth : Nat) : Tree → List Char
  | .null | .torn => "null".toList
  | .bool v => boolWord v
  | .num n => n.chars
  | .str s => quote s
  | .arr [] => ['[', ']']
  | .arr (t :: ts) =>
    '[' :: b.line (depth + 1) ++ written b (depth + 1) t ++ writtenItems b depth ts
  | .obj [] => ['\x7b', '\x7d']
  | .obj ((k, t) :: fs) =>
    '\x7b' :: b.line (depth + 1) ++ quote k ++ ':' :: b.gap ++ written b (depth + 1) t
      ++ writtenFields b depth fs

/-- The items after the first, and the closing bracket. -/
def writtenItems (b : Blanks) (depth : Nat) : List Tree → List Char
  | [] => b.line depth ++ [']']
  | t :: ts =>
    ',' :: b.line (depth + 1) ++ written b (depth + 1) t ++ writtenItems b depth ts

/-- The fields after the first, and the closing brace. -/
def writtenFields (b : Blanks) (depth : Nat) : List (String × Tree) → List Char
  | [] => b.line depth ++ ['\x7d']
  | (k, t) :: fs =>
    ',' :: b.line (depth + 1) ++ quote k ++ ':' :: b.gap ++ written b (depth + 1) t
      ++ writtenFields b depth fs

end

/-- No blanks. -/
def Blanks.none : Blanks where
  line _ := []
  gap := []
  line_blank _ _ h := nomatch h
  gap_blank _ h := nomatch h

/-- A new line for every item, and a blank behind every colon. -/
def Blanks.lines : Blanks where
  line := newLine
  gap := [' ']
  line_blank depth c h := by
    rcases List.mem_cons.1 h with rfl | h
    · rfl
    · rw [List.eq_of_mem_replicate h]
      rfl
  gap_blank c h := by
    rw [List.mem_singleton.1 h]
    rfl

mutual

theorem compact_eq (depth : Nat) : (t : Tree) → t.compact = written .none depth t
  | .null | .torn | .bool _ | .num _ | .str _ | .arr [] | .obj [] => by
    simp only [compact, written]
  | .arr (t :: ts) => by
    simp [compact, written, compact_eq (depth + 1) t, compactItems_eq depth ts, Blanks.none]
  | .obj ((k, t) :: fs) => by
    simp [compact, written, compact_eq (depth + 1) t, compactFields_eq depth fs, Blanks.none]

theorem compactItems_eq (depth : Nat) : (ts : List Tree) →
    compactItems ts = writtenItems .none depth ts
  | [] => by simp [compactItems, writtenItems, Blanks.none]
  | t :: ts => by
    simp [compactItems, writtenItems, compact_eq (depth + 1) t, compactItems_eq depth ts,
      Blanks.none]

theorem compactFields_eq (depth : Nat) : (fs : List (String × Tree)) →
    compactFields fs = writtenFields .none depth fs
  | [] => by simp [compactFields, writtenFields, Blanks.none]
  | (k, t) :: fs => by
    simp [compactFields, writtenFields, compact_eq (depth + 1) t, compactFields_eq depth fs,
      Blanks.none]

end

mutual

theorem pretty_eq (depth : Nat) : (t : Tree) → t.pretty depth = written .lines depth t
  | .null | .torn | .bool _ | .num _ | .str _ | .arr [] | .obj [] => by
    simp only [pretty, written]
  | .arr (t :: ts) => by
    simp [pretty, written, pretty_eq (depth + 1) t, prettyItems_eq depth ts, Blanks.lines]
  | .obj ((k, t) :: fs) => by
    simp [pretty, written, pretty_eq (depth + 1) t, prettyFields_eq depth fs, Blanks.lines]

theorem prettyItems_eq (depth : Nat) : (ts : List Tree) →
    prettyItems depth ts = writtenItems .lines depth ts
  | [] => by simp [prettyItems, writtenItems, Blanks.lines]
  | t :: ts => by
    simp [prettyItems, writtenItems, pretty_eq (depth + 1) t, prettyItems_eq depth ts,
      Blanks.lines]

theorem prettyFields_eq (depth : Nat) : (fs : List (String × Tree)) →
    prettyFields depth fs = writtenFields .lines depth fs
  | [] => by simp [prettyFields, writtenFields, Blanks.lines]
  | (k, t) :: fs => by
    simp [prettyFields, writtenFields, pretty_eq (depth + 1) t, prettyFields_eq depth fs,
      Blanks.lines]

end

/-! ## Tokens -/

mutual

/-- The tokens of a tree. -/
def tokens : Tree → List Token
  | .null | .torn => [.null]
  | .bool b => [.bool b]
  | .num n => [.num n]
  | .str s => [.str s]
  | .arr [] => [.openList, .closeList]
  | .arr (t :: ts) => .openList :: tokens t ++ itemTokens ts
  | .obj [] => [.openRecord, .closeRecord]
  | .obj ((k, t) :: fs) => .openRecord :: .str k :: .colon :: tokens t ++ fieldTokens fs

/-- The tokens of the items after the first, and of the closing bracket. -/
def itemTokens : List Tree → List Token
  | [] => [.closeList]
  | t :: ts => .comma :: tokens t ++ itemTokens ts

/-- The tokens of the fields after the first, and of the closing brace. -/
def fieldTokens : List (String × Tree) → List Token
  | [] => [.closeRecord]
  | (k, t) :: fs => .comma :: .str k :: .colon :: tokens t ++ fieldTokens fs

end

/-- Neither blanks nor a closing bracket can be part of a numeral. -/
theorem head?_closing {bs : List Char} (hb : ∀ c ∈ bs, Token.isBlank c = true) {close : Char}
    (hc : Token.inNumeral close = false) (cs : List Char) :
    ∀ c ∈ (bs ++ [close] ++ cs).head?, Token.inNumeral c = false := by
  intro c h
  cases bs with
  | nil =>
    cases h
    exact hc
  | cons b bs =>
    have hblank : Token.isBlank c = true := hb c (List.mem_of_mem_head? h)
    cases hn : Token.inNumeral c with
    | false => rfl
    | true =>
      rw [(Token.apart_of_inNumeral hn).1] at hblank
      cases hblank

/-- What stands behind an item cannot be part of a numeral. -/
theorem head?_writtenItems (b : Blanks) (depth : Nat) (ts : List Tree) (cs : List Char) :
    ∀ c ∈ (writtenItems b depth ts ++ cs).head?, Token.inNumeral c = false := by
  cases ts with
  | nil =>
    rw [writtenItems]
    exact head?_closing (b.line_blank depth) (by decide) cs
  | cons t ts =>
    rw [writtenItems]
    intro c h
    cases h
    decide

/-- What stands behind a field cannot be part of a numeral. -/
theorem head?_writtenFields (b : Blanks) (depth : Nat) (fs : List (String × Tree))
    (cs : List Char) :
    ∀ c ∈ (writtenFields b depth fs ++ cs).head?, Token.inNumeral c = false := by
  cases fs with
  | nil =>
    rw [writtenFields]
    exact head?_closing (b.line_blank depth) (by decide) cs
  | cons f fs =>
    rw [writtenFields]
    intro c h
    cases h
    decide

mutual

/-- The text of a tree is cut into the tokens of the tree. -/
theorem scan_written (b : Blanks) (depth : Nat) : (t : Tree) → {cs : List Char} →
    (∀ c ∈ cs.head?, Token.inNumeral c = false) →
    Token.scan (written b depth t ++ cs) = (Token.scan cs).map (t.tokens ++ ·)
  | .null, cs, _ => by
    rw [written, tokens]
    exact Token.scan_null cs
  | .torn, cs, _ => by
    rw [written, tokens]
    exact Token.scan_null cs
  | .bool v, cs, _ => by
    rw [written, tokens]
    exact Token.scan_boolWord v cs
  | .num n, cs, h => by
    rw [written, tokens]
    exact Token.scan_numeral n h
  | .str s, cs, _ => by
    rw [written, tokens]
    exact Token.scan_quote s cs
  | .arr [], cs, _ => by
    rw [written, tokens]
    show Token.scan ('[' :: ']' :: cs) = _
    rw [@Token.scan_punctuation '[' .openList rfl rfl,
      @Token.scan_punctuation ']' .closeList rfl rfl, Option.map_map]
    rfl
  | .arr (t :: ts), cs, h => by
    have hitem := scan_written b (depth + 1) t (head?_writtenItems b depth ts cs)
    have hitems := scan_writtenItems b depth ts h
    rw [written, tokens]
    simp only [List.cons_append, List.append_assoc]
    rw [@Token.scan_punctuation '[' .openList rfl rfl, Token.scan_blanks (b.line_blank _), hitem,
      hitems, Option.map_map, Option.map_map]
    rfl
  | .obj [], cs, _ => by
    rw [written, tokens]
    show Token.scan ('\x7b' :: '\x7d' :: cs) = _
    rw [@Token.scan_punctuation '\x7b' .openRecord rfl rfl,
      @Token.scan_punctuation '\x7d' .closeRecord rfl rfl, Option.map_map]
    rfl
  | .obj ((k, t) :: fs), cs, h => by
    have hfield := scan_written b (depth + 1) t (head?_writtenFields b depth fs cs)
    have hfields := scan_writtenFields b depth fs h
    rw [written, tokens]
    simp only [List.cons_append, List.append_assoc]
    rw [@Token.scan_punctuation '\x7b' .openRecord rfl rfl, Token.scan_blanks (b.line_blank _),
      Token.scan_quote, @Token.scan_punctuation ':' .colon rfl rfl, Token.scan_blanks b.gap_blank,
      hfield, hfields, Option.map_map, Option.map_map, Option.map_map, Option.map_map]
    rfl

theorem scan_writtenItems (b : Blanks) (depth : Nat) : (ts : List Tree) → {cs : List Char} →
    (∀ c ∈ cs.head?, Token.inNumeral c = false) →
    Token.scan (writtenItems b depth ts ++ cs) = (Token.scan cs).map (itemTokens ts ++ ·)
  | [], cs, _ => by
    rw [writtenItems, itemTokens, List.append_assoc, Token.scan_blanks (b.line_blank _)]
    exact Token.scan_punctuation rfl rfl cs
  | t :: ts, cs, h => by
    have hitem := scan_written b (depth + 1) t (head?_writtenItems b depth ts cs)
    have hitems := scan_writtenItems b depth ts h
    rw [writtenItems, itemTokens]
    simp only [List.cons_append, List.append_assoc]
    rw [@Token.scan_punctuation ',' .comma rfl rfl, Token.scan_blanks (b.line_blank _), hitem,
      hitems, Option.map_map, Option.map_map]
    rfl

theorem scan_writtenFields (b : Blanks) (depth : Nat) : (fs : List (String × Tree)) →
    {cs : List Char} → (∀ c ∈ cs.head?, Token.inNumeral c = false) →
    Token.scan (writtenFields b depth fs ++ cs) = (Token.scan cs).map (fieldTokens fs ++ ·)
  | [], cs, _ => by
    rw [writtenFields, fieldTokens, List.append_assoc, Token.scan_blanks (b.line_blank _)]
    exact Token.scan_punctuation rfl rfl cs
  | (k, t) :: fs, cs, h => by
    have hfield := scan_written b (depth + 1) t (head?_writtenFields b depth fs cs)
    have hfields := scan_writtenFields b depth fs h
    rw [writtenFields, fieldTokens]
    simp only [List.cons_append, List.append_assoc]
    rw [@Token.scan_punctuation ',' .comma rfl rfl, Token.scan_blanks (b.line_blank _),
      Token.scan_quote, @Token.scan_punctuation ':' .colon rfl rfl, Token.scan_blanks b.gap_blank,
      hfield, hfields, Option.map_map, Option.map_map, Option.map_map, Option.map_map]
    rfl

end

/-! ## From tokens to trees -/

mutual

/-- A tree without torn parts. -/
def Whole : Tree → Prop
  | .torn => False
  | .arr ts => WholeItems ts
  | .obj fs => WholeFields fs
  | .null | .bool _ | .num _ | .str _ => True

/-- No item has a torn part. -/
def WholeItems : List Tree → Prop
  | [] => True
  | t :: ts => Whole t ∧ WholeItems ts

/-- No field has a torn part. -/
def WholeFields : List (String × Tree) → Prop
  | [] => True
  | (_, t) :: fs => Whole t ∧ WholeFields fs

end

end Tree

namespace Reader

open Json.Tree

/-- The tokens of a tree start with one that starts a value. -/
theorem step?_item (t : Tree) (stack : List Frame) (us : List Token) :
    (item stack).run? (t.tokens ++ us) = (value (.list [] :: stack)).run? (t.tokens ++ us) := by
  rcases t with _ | _ | _ | _ | (_ | _) | (_ | _) | _ <;> rfl

/-- The record of fields with sound keys. -/
theorem record_fields (fs : List (String × Tree)) :
    record (fs.map fun f => (some f.1, f.2)) = .obj fs := by
  have h : (fs.map fun f => (some f.1, f.2)).mapM
      (fun f : Option String × Tree => f.1.map (·, f.2)) = some fs := by
    induction fs with
    | nil => rfl
    | cons f fs ih =>
      rw [List.map_cons, List.mapM_cons, ih]
      rfl
  unfold record
  rw [h]

mutual

/-- After the tokens of a tree the tree is complete, whatever is still open around it. -/
theorem run?_tokens : (t : Tree) → t.Whole → (stack : List Frame) →
    (value stack).run? t.tokens = some (done t stack)
  | .null, _, _ | .bool _, _, _ | .num _, _, _ | .str _, _, _ => by
    rw [tokens]
    rfl
  | .torn, h, _ => by
    rw [Whole] at h
    exact h.elim
  | .arr [], _, _ => by
    rw [tokens]
    rfl
  | .arr (t :: ts), h, stack => by
    rw [Whole, WholeItems] at h
    have hitem := run?_tokens t h.1 (.list [] :: stack)
    rw [tokens]
    show (item stack).run? (t.tokens ++ itemTokens ts) = _
    rw [step?_item, run?_append, hitem]
    exact run?_itemTokens ts h.2 t [] stack
  | .obj [], _, _ => by
    rw [tokens]
    rfl
  | .obj ((k, t) :: fs), h, stack => by
    rw [Whole, WholeFields] at h
    have hfield := run?_tokens t h.1 (.record [] (some k) :: stack)
    rw [tokens]
    show (value (.record [] (some k) :: stack)).run? (t.tokens ++ fieldTokens fs) = _
    rw [run?_append, hfield]
    exact run?_fieldTokens fs h.2 k t [] stack

theorem run?_itemTokens : (ts : List Tree) → WholeItems ts → (t : Tree) → (items : List Tree) →
    (stack : List Frame) → (done t (.list items :: stack)).run? (itemTokens ts)
      = some (done (.arr (items.reverse ++ t :: ts)) stack)
  | [], _, t, items, stack => by
    rw [itemTokens, ← List.reverse_cons]
    rfl
  | u :: us, h, t, items, stack => by
    rw [WholeItems] at h
    have hitem := run?_tokens u h.1 (.list (t :: items) :: stack)
    have hitems := run?_itemTokens us h.2 u (t :: items) stack
    rw [itemTokens]
    show (value (.list (t :: items) :: stack)).run? (u.tokens ++ itemTokens us) = _
    rw [run?_append, hitem, Option.bind_some, hitems, List.reverse_cons, List.append_assoc]
    rfl

theorem run?_fieldTokens : (fs : List (String × Tree)) → WholeFields fs → (k : String) →
    (t : Tree) → (fields : List (String × Tree)) → (stack : List Frame) →
    (done t (.record (fields.map fun f => (some f.1, f.2)) (some k) :: stack)).run? (fieldTokens fs)
      = some (done (.obj (fields.reverse ++ (k, t) :: fs)) stack)
  | [], _, k, t, fields, stack => by
    rw [fieldTokens]
    show some (done (record _) stack) = _
    rw [← record_fields]
    simp
  | (l, u) :: fs, h, k, t, fields, stack => by
    rw [WholeFields] at h
    have hfield := run?_tokens u h.1
      (.record (((k, t) :: fields).map fun f => (some f.1, f.2)) (some l) :: stack)
    have hfields := run?_fieldTokens fs h.2 l u ((k, t) :: fields) stack
    rw [fieldTokens]
    show (value (.record (((k, t) :: fields).map fun f => (some f.1, f.2)) (some l) :: stack)).run?
      (u.tokens ++ fieldTokens fs) = _
    rw [run?_append, hfield, Option.bind_some, hfields, List.reverse_cons, List.append_assoc]
    rfl

end

end Reader

namespace Tree

/-! ## Texts -/

theorem read?_written (b : Blanks) {t : Tree} (h : t.Whole) :
    read? (String.ofList (written b 0 t)) = some t := by
  have hscan : Token.scan (written b 0 t) = some t.tokens := by
    have h := scan_written b 0 t (fun c (hc : c ∈ ([] : List Char).head?) => nomatch hc)
    rw [List.append_nil, Token.scan] at h
    simpa using h
  unfold read?
  rw [String.toList_ofList, hscan]
  show (Option.bind ((Reader.value []).run? t.tokens) _) = _
  rw [Reader.run?_tokens t h []]
  rfl

/-- Reading the text of a tree without blanks gives the tree. -/
theorem read?_text {t : Tree} (h : t.Whole) : read? t.text = some t := by
  unfold text
  rw [compact_eq 0 t]
  exact read?_written .none h

/-- Reading the text of a tree with one item per line gives the tree. -/
theorem read?_prettyText {t : Tree} (h : t.Whole) : read? t.prettyText = some t := by
  unfold prettyText
  rw [pretty_eq 0 t]
  exact read?_written .lines h

end Tree

end Dataflow.Json
