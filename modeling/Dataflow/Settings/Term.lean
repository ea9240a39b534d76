/-
  The syntax of settings files.

  A settings file holds one term: a record `(field: value, …)`, possibly with a name in front,
  whose values are numbers, words, texts and further terms.  Any value can stand in a file, also
  one that no setting takes, for fields that are not known are passed over.  How deeply terms may
  be nested is limited; a value in a list, a record or a table counts as two levels.

  In front of the term a file may ask for features, `#![enable(implicit_some)]`.  Of these only
  one changes how a term is read: unwrapped variants, with which the parentheses of `Some` may
  hold the fields of a record or the items of a tuple directly.
-/

import Dataflow.Settings.Token

namespace Dataflow.Settings

/-! ## Features -/

/-- What a file asks for: optional values without `Some`, fields right inside `Some`, and records
never without their name. -/
structure Features where
  implicitSome : Bool
  unwrappedVariants : Bool
  explicitNames : Bool
deriving DecidableEq

/-- Nothing is asked for. -/
def Features.none : Features := ⟨false, false, false⟩

/-- Asks for one more feature.  Leaving out the name of a wrapper changes nothing here. -/
def Features.add? (f : Features) (name : String) : Option Features :=
  match name with
  | "implicit_some" => some { f with implicitSome := true }
  | "unwrap_variant_newtypes" => some { f with unwrappedVariants := true }
  | "explicit_struct_names" => some { f with explicitNames := true }
  | "unwrap_newtypes" => some f
  | _ => Option.none

/-- Reads the names of features; a comma may follow the last one. -/
def featureNames? (f : Features) : List Token → Option (Features × List Token)
  | .name _ s :: .punctuation ',' :: ts => do
    let f ← f.add? s
    match ts with
    | .name _ _ :: _ => featureNames? f ts
    | ts => some (f, ts)
  | .name _ s :: ts => (f.add? s).map (·, ts)
  | _ => Option.none

/-- Reads the features in front of a term; the fuel bounds how often a file asks. -/
def features? (fuel : Nat) (f : Features) (ts : List Token) : Option (Features × List Token) :=
  match fuel, ts with
  | fuel + 1, .punctuation '#' :: .punctuation '!' :: .punctuation '[' :: .name false "enable"
      :: .punctuation '(' :: ts => do
    match ← featureNames? f ts with
    | (f, .punctuation ')' :: .punctuation ']' :: ts) => features? fuel f ts
    | _ => Option.none
  | _, ts => some (f, ts)

/-! ## Terms -/

/-- The content of a settings file. -/
inductive Term where
  | keyword (s : String)
  | named (s : String)
  | number (cs : List Char)
  | text (s : String)
  | other
  | present (t : Term)
  | list (items : List Term)
  | table (entries : List (Term × Term))
  | tuple (name : Option String) (items : List Term)
  | record (name : Option String) (fields : List (String × Term))
deriving Inhabited

/-- The names that are values by themselves. -/
def keywords : List String :=
  ["true", "false", "None", "inf", "inff32", "inff64", "NaN", "NaNf32", "NaNf64"]

/-- How deeply terms may be nested. -/
def nestingLimit : Nat := 128

/-- One level deeper, if there is room for it. -/
def deeper? : Nat → Option Nat
  | 0 => none
  | room + 1 => some room

/-- What the parentheses of an unwrapped variant hold. -/
inductive Content where
  | nothing
  | fields
  | items
  | value

/-- Looks ahead, `depth` brackets deep, for a comma with something behind it. -/
def commaAhead? (depth : Nat) : List Token → Option Content
  | [] => none
  | .punctuation c :: ts =>
    if c = '(' ∨ c = '[' ∨ c = '\x7b' then commaAhead? (depth + 1) ts
    else if c = ')' ∨ c = ']' ∨ c = '\x7d' then
      if depth ≤ 1 then some .value else commaAhead? (depth - 1) ts
    else if c = ',' ∧ depth = 1 then
      if ts.head? = some (.punctuation ')') then some .value else some .items
    else commaAhead? depth ts
  | _ :: ts => commaAhead? depth ts

/-- Looks ahead for what the parentheses of an unwrapped variant hold. -/
def content? : List Token → Option Content
  | .punctuation ')' :: _ => some .nothing
  | .name _ _ :: .punctuation ':' :: _ => some .fields
  | ts => commaAhead? 1 ts

/-- Passes over the end of a variant; a comma may stand before it. -/
def closeVariant? : List Token → Option (List Token)
  | .punctuation ',' :: .punctuation ')' :: ts => some ts
  | .punctuation ')' :: ts => some ts
  | _ => none

mutual

/-- Reads a term; `unwrapped` says whether variants are, `room` how many levels of nesting are
left, and the fuel bounds the number of calls. -/
def term? (unwrapped : Bool) (fuel room : Nat) (ts : List Token) : Option (Term × List Token) :=
  match fuel with
  | 0 => none
  | fuel + 1 =>
    match ts with
    | .name raw s :: ts =>
      if !raw && s = "Some" then
        match ts with
        | .punctuation '(' :: ts => do variant? unwrapped fuel (← deeper? room) ts
        | _ => none
      else if !raw && keywords.contains s then some (.keyword s, ts)
      else
        match ts with
        | .punctuation '(' :: ts => do group? unwrapped fuel (← deeper? room) (some s) ts
        | ts => some (.named s, ts)
    | .number cs :: ts => some (.number cs, ts)
    | .text s :: ts => some (.text s, ts)
    | .other :: ts => some (.other, ts)
    | .punctuation '(' :: .punctuation ')' :: ts => some (.tuple none [], ts)
    | .punctuation '(' :: ts => do group? unwrapped fuel (← deeper? room) none ts
    | .punctuation '[' :: ts => do
      let (items, ts) ← items? unwrapped fuel (← deeper? room) ']' ts
      return (.list items, ts)
    | .punctuation '\x7b' :: ts => do
      let (entries, ts) ← entries? unwrapped fuel (← deeper? room) ts
      return (.table entries, ts)
    | _ => none

/-- Reads what stands in the parentheses of `Some`. -/
def variant? (unwrapped : Bool) (fuel room : Nat) (ts : List Token) :
    Option (Term × List Token) :=
  match fuel with
  | 0 => none
  | fuel + 1 => do
    match ← (if unwrapped then content? ts else some .value) with
    | .nothing => return (.present (.tuple none []), ← closeVariant? ts)
    | .fields =>
      let (fields, ts) ← fields? unwrapped fuel (← deeper? room) ts
      return (.present (.record none fields), ts)
    | .items =>
      let (items, ts) ← items? unwrapped fuel (← deeper? room) ')' ts
      return (.present (.tuple none items), ts)
    | .value =>
      let (t, ts) ← term? unwrapped fuel room ts
      return (.present t, ← closeVariant? ts)

/-- Reads what stands in parentheses: the fields of a record or the items of a tuple. -/
def group? (unwrapped : Bool) (fuel room : Nat) (name : Option String) (ts : List Token) :
    Option (Term × List Token) :=
  match fuel with
  | 0 => none
  | fuel + 1 =>
    match ts with
    | .name _ _ :: .punctuation ':' :: _ => do
      let (fields, ts) ← fields? unwrapped fuel room ts
      return (.record name fields, ts)
    | ts => do
      let (items, ts) ← items? unwrapped fuel room ')' ts
      return (.tuple name items, ts)

/-- Reads items up to a closing mark; a comma may follow the last one. -/
def items? (unwrapped : Bool) (fuel room : Nat) (close : Char) (ts : List Token) :
    Option (List Term × List Token) :=
  match fuel with
  | 0 => none
  | fuel + 1 =>
    match ts with
    | [] => none
    | t :: rest =>
      if t = .punctuation close then some ([], rest)
      else do
        let (item, rest) ← term? unwrapped fuel (← deeper? room) ts
        match rest with
        | .punctuation ',' :: rest => do
          let (items, rest) ← items? unwrapped fuel room close rest
          return (item :: items, rest)
        | t :: rest => if t = .punctuation close then some ([item], rest) else none
        | [] => none

/-- Reads the fields of a record up to its end. -/
def fields? (unwrapped : Bool) (fuel room : Nat) (ts : List Token) :
    Option (List (String × Term) × List Token) :=
  match fuel with
  | 0 => none
  | fuel + 1 =>
    match ts with
    | .punctuation ')' :: rest => some ([], rest)
    | .name _ s :: .punctuation ':' :: rest => do
      let (value, rest) ← term? unwrapped fuel (← deeper? room) rest
      match rest with
      | .punctuation ',' :: rest => do
        let (fields, rest) ← fields? unwrapped fuel room rest
        return ((s, value) :: fields, rest)
      | .punctuation ')' :: rest => some ([(s, value)], rest)
      | _ => none
    | _ => none

/-- Reads the entries of a table up to its end. -/
def entries? (unwrapped : Bool) (fuel room : Nat) (ts : List Token) :
    Option (List (Term × Term) × List Token) :=
  match fuel with
  | 0 => none
  | fuel + 1 =>
    match ts with
    | .punctuation '\x7d' :: rest => some ([], rest)
    | ts => do
      let (key, rest) ← term? unwrapped fuel (← deeper? room) ts
      match rest with
      | .punctuation ':' :: rest => do
        let (value, rest) ← term? unwrapped fuel (← deeper? room) rest
        match rest with
        | .punctuation ',' :: rest => do
          let (entries, rest) ← entries? unwrapped fuel room rest
          return ((key, value) :: entries, rest)
        | .punctuation '\x7d' :: rest => some ([(key, value)], rest)
        | _ => none
      | _ => none

end

/-! ## Files -/

/-- A settings file: what it asks for and what it says. -/
structure Document where
  features : Features
  term : Term

/-- Reads a settings file. -/
def Document.read? (text : String) : Option Document := do
  let ts ← tokens? text
  let (features, ts) ← features? ts.length .none ts
  match ← term? features.unwrappedVariants (4 * ts.length + 4) nestingLimit ts with
  | (term, []) => some ⟨features, term⟩
  | _ => none

end Dataflow.Settings
