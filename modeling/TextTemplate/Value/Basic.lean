/-
# Values and the store

What a template is rendered with: plain data, containers that are shared and may change, and
objects of the caller whose attributes run the caller's code.

A **value** is small: a container or an object is a reference into the **store**, so two places
that hold the same reference see the same changes.  A **mapping** keeps its entries in the order
in which their keys first came, and finds them by their canonical key: `1`, `1.0` and `True` are
one key.

* `Value` and `Key` are the values and the keys they have in mappings;
* `Dict` is a mapping, `Object` an object of the caller;
* `Store` holds all containers and objects.
-/
import TextTemplate.Decimal.Binary64

namespace TextTemplate

open TextTemplate.Decimal

/-! ## 1. Values -/

/-- The place of a container or an object in the store. -/
abbrev Ref := Nat

/-- What a view of a mapping shows: its pairs, its keys or its values. -/
inductive ViewKind where
  | pairs
  | keys
  | values
  deriving DecidableEq, Repr

/-- A value.  "Not a number", views and functions are told apart by an identity. -/
inductive Value where
  | none
  | bool (b : Bool)
  | int (n : Int)
  | float (x : Binary64)
  | nan (identity : Nat)
  /-- A text; a safe one is markup already and is never escaped again. -/
  | text (s : String) (safe : Bool)
  /-- The integers from `start` up to, but without, `stop`. -/
  | range (start stop : Int)
  | list (r : Ref)
  | tuple (r : Ref)
  | dict (r : Ref)
  /-- A live view of a mapping. -/
  | view (kind : ViewKind) (of : Ref) (identity : Nat)
  | object (r : Ref)
  /-- A callable object that was marked safe. -/
  | function (of : Ref) (identity : Nat)
  deriving DecidableEq, Repr, Inhabited

/-- A plain text. -/
abbrev Value.plain (s : String) : Value := .text s false

/-- A text that is markup already. -/
abbrev Value.markup (s : String) : Value := .text s true

/-- The canonical key of a value: two values are the same key exactly when their canonical keys
are equal.  A tuple is a row of `pair`s that ends with `unit`. -/
inductive Key where
  | none
  | int (n : Int)
  /-- A number that is no integer. -/
  | float (x : Binary64)
  | nan (identity : Nat)
  | text (s : String)
  | range (start : Int) (length : Nat)
  | view (identity : Nat)
  | object (r : Ref)
  | function (identity : Nat)
  | unit
  | pair (head tail : Key)
  deriving DecidableEq, Repr

/-! ## 2. Mappings -/

/-- An entry of a mapping: its canonical key, the value it was first written with, and what it
holds. -/
structure Entry where
  key : Key
  label : Value
  value : Value
  deriving DecidableEq, Repr

/-- A mapping, in the order in which its keys came. -/
abbrev Dict := List Entry

namespace Dict

/-- What a mapping holds at a key. -/
def find? (d : Dict) (k : Key) : Option Value :=
  match d with
  | [] => none
  | e :: rest => if e.key = k then some e.value else find? rest k

/-- Write at a key.  An entry that is there keeps its place and its label. -/
def insert (d : Dict) (k : Key) (label value : Value) : Dict :=
  match d with
  | [] => [⟨k, label, value⟩]
  | e :: rest =>
    if e.key = k then ⟨e.key, e.label, value⟩ :: rest else e :: insert rest k label value

/-- Write at the key of a plain text. -/
def bind (d : Dict) (name : String) (value : Value) : Dict :=
  insert d (.text name) (.plain name) value

/-- A mapping of names. -/
def ofBindings (bindings : List (String × Value)) : Dict :=
  bindings.foldl (fun d b => d.bind b.1 b.2) []

@[simp] theorem find?_insert_self (d : Dict) (k : Key) (label value : Value) :
    find? (insert d k label value) k = some value := by
  induction d with
  | nil => simp [insert, find?]
  | cons e rest ih => by_cases h : e.key = k <;> simp [insert, find?, h, ih]

@[simp] theorem find?_insert_ne (d : Dict) {k k' : Key} (label value : Value) (h : k ≠ k') :
    find? (insert d k label value) k' = find? d k' := by
  induction d with
  | nil => simp [insert, find?, h]
  | cons e rest ih =>
    by_cases he : e.key = k
    · simp [insert, find?, he, h]
    · rw [insert, if_neg he]
      simp [find?, ih]

end Dict

/-! ## 3. Errors by kind -/

/-- The kinds of errors.  What is caught, and where, depends on the kind alone. -/
inductive ErrorKind where
  | templateSyntax
  | unknownFilter
  | missingVariable
  | popBeyondRoot
  | misconfigured
  | mistyped
  | badValue
  | missingKey
  | badIndex
  | missingAttribute
  | overflow
  | divisionByZero
  | badState
  | tooDeep
  /-- Any other kind, by its name. -/
  | other (name : String)
  deriving DecidableEq, Repr

/-! ## 4. Objects of the caller -/

/-- What a piece of the caller's code does: it gives a value or raises an error, which may carry
an argument. -/
inductive Outcome where
  | returns (v : Value)
  | raises (kind : ErrorKind) (argument : Option Value)
  deriving DecidableEq, Repr

/-- A method: whether it needs an argument, and what it does. -/
structure Method where
  name : String
  needsArgument : Bool
  outcome : Outcome
  deriving DecidableEq, Repr

/-- An object of the caller. -/
structure Object where
  /-- Its name, by which it is shown inside other values. -/
  name : String
  /-- Its own text, if it has one. -/
  ownText : Option String
  attributes : List (String × Value)
  methods : List Method
  /-- Attributes that run code each time they are read. -/
  properties : List (String × Outcome)
  /-- What it does when it is indexed. -/
  items : Option (List (Key × Outcome))
  /-- What it does when it is called. -/
  call : Option Outcome
  /-- Callable, but not to be called by a template. -/
  noCall : Bool
  /-- What it iterates over. -/
  iteration : Option Value
  deriving DecidableEq, Repr

/-! ## 5. The store -/

/-- All containers and objects, the number of identities given out, and the next serial number. -/
structure Store where
  lists : Array (List Value)
  tuples : Array (List Value)
  dicts : Array Dict
  objects : Array Object
  identities : Nat
  /-- The next of the serial numbers that templates hand out. -/
  serial : Nat
  deriving DecidableEq, Repr

namespace Store

/-- Serial numbers start here. -/
def firstSerial : Nat := 1000

/-- A store that holds nothing. -/
def empty : Store := ⟨#[], #[], #[], #[], 0, firstSerial⟩

/-- The items of a list. -/
def list (s : Store) (r : Ref) : List Value := (s.lists[r]?).getD []

/-- The items of a tuple. -/
def tuple (s : Store) (r : Ref) : List Value := (s.tuples[r]?).getD []

/-- The entries of a mapping. -/
def dict (s : Store) (r : Ref) : Dict := (s.dicts[r]?).getD []

/-- An object. -/
def object (s : Store) (r : Ref) : Object :=
  (s.objects[r]?).getD ⟨"", none, [], [], [], none, none, false, none⟩

/-- Change the items of a list. -/
def setList (s : Store) (r : Ref) (items : List Value) : Store :=
  { s with lists := s.lists.setIfInBounds r items }

/-- Change the entries of a mapping. -/
def setDict (s : Store) (r : Ref) (d : Dict) : Store :=
  { s with dicts := s.dicts.setIfInBounds r d }

/-- A new list. -/
def newList (s : Store) (items : List Value) : Value × Store :=
  (.list s.lists.size, { s with lists := s.lists.push items })

/-- A new tuple. -/
def newTuple (s : Store) (items : List Value) : Value × Store :=
  (.tuple s.tuples.size, { s with tuples := s.tuples.push items })

/-- A new mapping. -/
def newDict (s : Store) (d : Dict) : Value × Store :=
  (.dict s.dicts.size, { s with dicts := s.dicts.push d })

/-- A new object. -/
def newObject (s : Store) (o : Object) : Value × Store :=
  (.object s.objects.size, { s with objects := s.objects.push o })

/-- A new identity. -/
def newIdentity (s : Store) : Nat × Store :=
  (s.identities, { s with identities := s.identities + 1 })

/-- A new serial number. -/
def newSerial (s : Store) : Nat × Store := (s.serial, { s with serial := s.serial + 1 })

/-- More than the number of containers in the store.  Who follows references this often comes to the
end of every path of them, unless a path leads back to a container that it has passed: a mapping may
hold itself, and then there is no end to come to. -/
def depth (s : Store) : Nat :=
  s.lists.size + s.tuples.size + s.dicts.size + s.objects.size + 1

end Store

/-! ## 6. Names of types -/

/-- The name of a value's type, as messages give it. -/
def Value.typeName : Value → String
  | .none => "NoneType"
  | .bool _ => "bool"
  | .int _ => "int"
  | .float _ | .nan _ => "float"
  | .text _ false => "str"
  | .text _ true => "SafeString"
  | .range .. => "range"
  | .list _ => "list"
  | .tuple _ => "tuple"
  | .dict _ => "dict"
  | .view .pairs .. => "dict_items"
  | .view .keys .. => "dict_keys"
  | .view .values .. => "dict_values"
  | .object _ => "Obj"
  | .function .. => "function"

end TextTemplate
