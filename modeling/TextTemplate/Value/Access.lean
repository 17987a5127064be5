/-
# Items and attributes

What can be read out of a value without running a method: the item at an index or a key, and the
attributes.  An object of the caller may run code for either, which gives a value or fails.

* `Store.item` is the item of a value at a key;
* `Store.attribute?` is an attribute: a value, a method of an object, or a `DataMethod`, one of
  the methods that plain data has.
-/
import TextTemplate.Error
import TextTemplate.Value.Equality

namespace TextTemplate

open TextTemplate.Decimal

/-! ## 1. Code of the caller -/

/-- What a piece of the caller's code does. -/
def Outcome.run : Outcome → Except Cause Value
  | .returns v => .ok v
  | .raises kind argument => .error (.raising kind argument)

/-! ## 2. Items -/

/-- An index counts from the end when it is negative.  There is no position out of range. -/
def position? (n : Int) (length : Nat) : Option Nat :=
  let i := if n < 0 then n + length else n
  if 0 ≤ i ∧ i < length then some i.toNat else none

/-- A value as an index. -/
def Value.index? : Value → Option Int
  | .bool b => some b.toNat
  | .int n => some n
  | _ => .none

/-- Indexes of containers in memory are machine words. -/
def isWord (n : Int) : Bool := -(twoTo 63 : Int) ≤ n ∧ n < twoTo 63

/-- The position of an index in a container of some length. -/
def wordPosition (fault : IndexFault) (n : Int) (length : Nat) : Except Cause Nat :=
  if isWord n then
    match position? n length with
    | some i => .ok i
    | none => .error (.index fault)
  else .error (.index .tooLarge)

namespace Store

/-- The item of a value at a key. -/
def item (s : Store) (v key : Value) : Except Cause Value :=
  match v with
  | .text t _ =>
    match key.index? with
    | none => .error (.type (.textIndex key.typeName))
    | some n => do
      let i ← wordPosition .text n t.length
      .ok (.plain ((t.toList[i]?).elim "" String.singleton))
  | .range start stop =>
    match key.index? with
    | none => .error (.type (.listIndex "range" key.typeName))
    | some n =>
      match position? n (rangeLength start stop) with
      | none => .error (.index .range)
      | some i => .ok (.int (start + i))
  | .list r =>
    match key.index? with
    | none => .error (.type (.listIndex "list" key.typeName))
    | some n => do
      let i ← wordPosition .list n (s.list r).length
      .ok ((s.list r)[i]?.getD .none)
  | .tuple r =>
    match key.index? with
    | none => .error (.type (.listIndex "tuple" key.typeName))
    | some n => do
      let i ← wordPosition .tuple n (s.tuple r).length
      .ok ((s.tuple r)[i]?.getD .none)
  | .dict r =>
    match s.key? key with
    | .error type => .error (.type (.unhashable type))
    | .ok k =>
      match (s.dict r).find? k with
      | some found => .ok found
      | none => .error (.missingKey key)
  | .object r =>
    match (s.object r).items with
    | none => .error (.type (.notSubscriptable v.typeName))
    | some items =>
      match s.key? key with
      | .error type => .error (.type (.unhashable type))
      | .ok k =>
        match items.lookup k with
        | some outcome => outcome.run
        | none => .error (.missingKey key)
  | v => .error (.type (.notSubscriptable v.typeName))

end Store

/-! ## 3. Attributes -/

/-- The methods of plain data. -/
inductive DataMethod where
  | upper
  | lower
  | title
  | strip
  | stripLeft
  | stripRight
  | split
  | pairs
  | keys
  | values
  | popPair
  | copyEntries
  | clearEntries
  | update
  | copy
  | popLast
  | sort
  | reverse
  | clear
  | bitLength
  | conjugate
  | isInteger
  /-- A method that needs an argument; no template can give it one. -/
  | withArgument
  deriving DecidableEq, Repr

/-- What an attribute is. -/
inductive Member where
  | value (v : Value)
  /-- A method of an object. -/
  | method (object : String) (m : Method)
  | data (of : Value) (m : DataMethod)
  deriving DecidableEq, Repr

namespace DataMethod

/-- Methods that need an argument, by their names. -/
def needy (names : List String) : List (String × DataMethod) := names.map (·, .withArgument)

/-- The methods of texts. -/
def ofText : List (String × DataMethod) :=
  [("upper", .upper), ("lower", .lower), ("title", .title), ("strip", .strip),
    ("lstrip", .stripLeft), ("rstrip", .stripRight), ("split", .split), ("rsplit", .split)] ++
  needy ["center", "count", "endswith", "find", "format_map", "index", "join", "ljust",
    "maketrans", "partition", "removeprefix", "removesuffix", "replace", "rfind", "rindex",
    "rjust", "rpartition", "startswith", "translate", "zfill"]

/-- The methods of mappings. -/
def ofDict : List (String × DataMethod) :=
  [("items", .pairs), ("keys", .keys), ("values", .values), ("popitem", .popPair),
    ("copy", .copyEntries), ("clear", .clearEntries), ("update", .update)] ++
  needy ["fromkeys", "get", "pop", "setdefault"]

/-- The methods of lists. -/
def ofList : List (String × DataMethod) :=
  [("copy", .copy), ("pop", .popLast), ("sort", .sort), ("reverse", .reverse), ("clear", .clear)] ++
  needy ["append", "count", "extend", "index", "insert", "remove"]

/-- The methods of integers. -/
def ofInteger : List (String × DataMethod) :=
  [("bit_length", .bitLength), ("conjugate", .conjugate)] ++ needy ["from_bytes"]

/-- The methods of floating point numbers. -/
def ofFloat : List (String × DataMethod) :=
  [("is_integer", .isInteger), ("conjugate", .conjugate)] ++ needy ["fromhex"]

end DataMethod

/-- The methods of a value of plain data. -/
def Value.dataMethods : Value → List (String × DataMethod)
  | .text .. => DataMethod.ofText
  | .dict _ => DataMethod.ofDict
  | .list _ => DataMethod.ofList
  | .tuple _ | .range .. => DataMethod.needy ["count", "index"]
  | .int _ | .bool _ => DataMethod.ofInteger
  | .float _ | .nan _ => DataMethod.ofFloat
  | _ => []

/-- The method of plain data with a name. -/
def Value.dataMethod? (v : Value) (name : String) : Option DataMethod := v.dataMethods.lookup name

/-- The attributes of an integer that hold values. -/
def integerParts (n : Int) : List (String × Value) :=
  [("real", .int n), ("imag", .int 0), ("numerator", .int n), ("denominator", .int 1)]

/-- The attributes of a value of plain data that hold values. -/
def Value.dataParts : Value → List (String × Value)
  | .int n => integerParts n
  | .bool b => integerParts b.toNat
  | .float x => [("real", .float x), ("imag", .float (.zero false))]
  | .nan i => [("real", .nan i), ("imag", .float (.zero false))]
  | .range start stop => [("start", .int start), ("stop", .int stop), ("step", .int 1)]
  | _ => []

/-- An attribute of plain data.  The table is not all that the values have: what gives bytes, text
in a base or pairs of numbers is left out, so are the questions about the characters of a text and
its less common foldings, the mapping behind a view, and every name that begins with an
underscore.  A template that asks for one of these finds nothing. -/
def Value.dataAttribute? (v : Value) (name : String) : Option Member :=
  match v.dataParts.lookup name with
  | some part => some (.value part)
  | .none => (v.dataMethod? name).map (.data v)

/-- The attribute of an object that keeps templates from calling it. -/
def noCallAttribute : String := "do_not_call_in_templates"

/-- An attribute of an object: a property, which runs code, a value of its own, or a method.  Each
object has a label, which is its name. -/
def Object.attribute? (o : Object) (name : String) : Option (Except Cause Member) :=
  match o.properties.lookup name with
  | some outcome => some (outcome.run.map .value)
  | none =>
    match o.attributes.lookup name with
    | some v => some (.ok (.value v))
    | none =>
      match o.methods.find? (·.name = name) with
      | some m => some (.ok (.method o.name m))
      | none =>
        if name = "label" then some (.ok (.value (.plain o.name)))
        else if name = noCallAttribute ∧ o.noCall then some (.ok (.value (.bool true)))
        else none

namespace Store

/-- An attribute of a value, if there is one; reading it may fail.  A function has taken over the
values of the object that it was made of, but nothing that runs code, and not the label. -/
def attribute? (s : Store) (v : Value) (name : String) : Option (Except Cause Member) :=
  match v with
  | .object r => (s.object r).attribute? name
  | .function of _ => ((s.object of).attributes.lookup name).map fun found => .ok (.value found)
  | v => (v.dataAttribute? name).map .ok

/-- Does the value have the attribute?  One that fails for want of an attribute counts as
missing. -/
def hasAttribute (s : Store) (v : Value) (name : String) : Except Cause Bool :=
  match s.attribute? v name with
  | none => .ok false
  | some (.ok _) => .ok true
  | some (.error cause) => if cause.kind = .missingAttribute then .ok false else .error cause

/-- Can the value be called? -/
def isCallable (s : Store) : Value → Bool
  | .object r => (s.object r).call.isSome
  | .function .. => true
  | _ => false

end Store
end TextTemplate
