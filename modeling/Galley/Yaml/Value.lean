import Galley.Yaml.Node

/-!
# YAML values

What a node means. A plain scalar can be null, a truth value or a number; any other scalar is a
string. A tag of the core schema demands its type, and a local tag stays with the value. The keys
of a mapping are distinct.
-/

namespace Galley.Yaml

inductive Number
  | int (n : Int)
  | float (x : Binary64)
  | infinity (negative : Bool)
  | nan
deriving DecidableEq, Repr

def Number.toText : Number → Text
  | .int n => Text.when (n < 0) "-" ++ Text.ofNat n.natAbs
  | .float x => x.toText
  | .infinity negative => Text.when negative "-" ++ ".inf"
  | .nan => ".nan"

inductive Value
  | null
  | bool (b : Bool)
  | number (n : Number)
  | string (s : Text)
  | sequence (items : List Value)
  | mapping (pairs : List (Value × Value))
  /-- A value under a local tag, written without its exclamation mark. -/
  | tagged (tag : Text) (value : Value)
deriving Repr

/-! ## Equality -/

mutual

def Value.beq : Value → Value → Bool
  | .null, .null => true
  | .bool b, .bool b' => b = b'
  | .number n, .number n' => n = n'
  | .string s, .string s' => s = s'
  | .sequence items, .sequence items' => Value.beqItems items items'
  | .mapping pairs, .mapping pairs' => Value.beqPairs pairs pairs'
  | .tagged tag value, .tagged tag' value' => tag = tag' && value.beq value'
  | _, _ => false

def Value.beqItems : List Value → List Value → Bool
  | [], [] => true
  | item :: items, item' :: items' => item.beq item' && Value.beqItems items items'
  | _, _ => false

def Value.beqPairs : List (Value × Value) → List (Value × Value) → Bool
  | [], [] => true
  | (key, value) :: pairs, (key', value') :: pairs' =>
    key.beq key' && value.beq value' && Value.beqPairs pairs pairs'
  | _, _ => false

end

mutual

theorem Value.beq_iff_eq (v v' : Value) : v.beq v' = true ↔ v = v' := by
  cases v <;> cases v' <;>
    simp [Value.beq, Value.beqItems_iff_eq, Value.beqPairs_iff_eq, Value.beq_iff_eq]

theorem Value.beqItems_iff_eq (items items' : List Value) :
    Value.beqItems items items' = true ↔ items = items' := by
  cases items <;> cases items' <;>
    simp [Value.beqItems, Value.beq_iff_eq, Value.beqItems_iff_eq]

theorem Value.beqPairs_iff_eq (pairs pairs' : List (Value × Value)) :
    Value.beqPairs pairs pairs' = true ↔ pairs = pairs' := by
  cases pairs <;> cases pairs' <;>
    simp [Value.beqPairs, Value.beq_iff_eq, Value.beqPairs_iff_eq, Prod.ext_iff]

end

instance : DecidableEq Value := fun v v' => decidable_of_iff (v.beq v' = true) (Value.beq_iff_eq v v')

/-! ## Plain scalars -/

/-- Whether the scalar is a name of null. -/
def isNull (s : Text) : Bool := ([ "null", "Null", "NULL", "~" ] : List Text).contains s

def bool? (s : Text) : Option Bool :=
  if ([ "true", "True", "TRUE" ] : List Text).contains s then some true
  else if ([ "false", "False", "FALSE" ] : List Text).contains s then some false
  else none

/-- Whether the scalar has digits with a needless zero before them, which makes it a string. -/
def hasLeadingZero (s : Text) : Bool :=
  let s := match s with
    | '+' :: s | '-' :: s => s
    | s => s
  1 < s.length && s.head? = some '0' && s.all Char.isDigit

/-- A magnitude with a base prefix or in decimal. -/
def magnitude? (s : Text) : Option Nat :=
  match s with
  | '0' :: 'x' :: s => Numeral.natural? 16 s
  | '0' :: 'o' :: s => Numeral.natural? 8 s
  | '0' :: 'b' :: s => Numeral.natural? 2 s
  | s => Numeral.natural? 10 s

/-- The integer that a scalar is, of whatever size. -/
def int? (s : Text) : Option Int :=
  if hasLeadingZero s then none
  else
    match s with
    | '+' :: s => (magnitude? s).map Int.ofNat
    | '-' :: s => (magnitude? s).map fun n => -(n : Int)
    | s => (magnitude? s).map Int.ofNat

def float? (s : Text) : Option Number :=
  if hasLeadingZero s then none
  else if ([ ".nan", ".NaN", ".NAN" ] : List Text).contains s then some .nan
  else
    let (negative, s) := match s with
      | '+' :: s => (false, s)
      | '-' :: s => (true, s)
      | s => (false, s)
    if ([ ".inf", ".Inf", ".INF" ] : List Text).contains s then some (.infinity negative)
    else (Numeral.decimal? negative s).map .float

/-- What a plain scalar means. Integers beyond 64 bits, but within 128, have no value; larger ones
are read as floating point. -/
def plainValue? (s : Text) : Option Value :=
  if s.isEmpty || isNull s then some .null
  else
    match bool? s with
    | some b => some (.bool b)
    | none =>
      match (int? s).filter (Numeral.fits 128) with
      | some n => if Numeral.fits 64 n then some (.number (.int n)) else none
      | none =>
        match float? s with
        | some x => some (.number x)
        | none => some (.string s)

/-! ## Tags -/

/-- The core type that a tag names. -/
def coreType? (tag : Text) : Option Text := Text.dropPrefix? "tag:yaml.org,2002:" tag

/-- What a scalar under a tag of the core schema means. -/
def coreValue? (type : Text) (s : Text) : Option Value :=
  if type = ("bool" : Text) then (bool? s).map .bool
  else if type = ("int" : Text) then
    (int? s).bind fun n => if Numeral.fits 64 n then some (.number (.int n)) else none
  else if type = ("float" : Text) then (float? s).map .number
  else if type = ("null" : Text) then if isNull s then some .null else none
  else some (.string s)

/-- Puts a value under a local tag, if there is one; its name may not be empty. -/
def underTag? (tag : Option Text) (value : Value) : Option Value :=
  match tag with
  | some ('!' :: name) => if name.isEmpty then none else some (.tagged name value)
  | _ => some value

/-- What a scalar means. -/
def scalarValue? (tag : Option Text) (plain : Bool) (s : Text) : Option Value := do
  let value ←
    match tag.bind coreType? with
    | some type => coreValue? type s
    | none => if plain && tag.all (·.head? = some '!') then plainValue? s else some (.string s)
  underTag? tag value

/-! ## Nodes -/

/-- Whether the first components are distinct. -/
def keysDistinct : List (Value × Value) → Bool
  | [] => true
  | (key, _) :: pairs => pairs.all (·.1 ≠ key) && keysDistinct pairs

mutual

/-- What a node means. Collections nest at most `depth` deep. -/
def Value.ofNode? (depth : Nat) : Node → Option Value
  | .scalar tag plain text => scalarValue? tag plain text
  | .sequence tag items =>
    if depth = 0 then none
    else do underTag? tag (.sequence (← Value.ofItems? (depth - 1) items))
  | .mapping tag pairs =>
    if depth = 0 then none
    else do
      let pairs ← Value.ofPairs? (depth - 1) pairs
      if keysDistinct pairs then underTag? tag (.mapping pairs) else none

def Value.ofItems? (depth : Nat) : List Node → Option (List Value)
  | [] => some []
  | item :: items => do some ((← Value.ofNode? depth item) :: (← Value.ofItems? depth items))

def Value.ofPairs? (depth : Nat) : List (Node × Node) → Option (List (Value × Value))
  | [] => some []
  | (key, value) :: pairs => do
    let pair := (← Value.ofNode? depth key, ← Value.ofNode? depth value)
    some (pair :: (← Value.ofPairs? depth pairs))

end

/-- The value of a YAML text with one document. -/
def Value.ofText? (text : Text) : Option Value := do
  Value.ofNode? 128 (← Node.ofTokens? (← tokens? text))

end Galley.Yaml
