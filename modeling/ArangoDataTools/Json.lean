namespace ArangoDataTools

-- `serde_json::Value`. An object lists its entries in key order, each key once,
-- as the map behind it does; the accessors read the first entry of a key.
inductive Number where
  | posInt (value : Nat)
  | negInt (magnitude : Nat)
  | float (text : String)
  deriving DecidableEq, Repr

inductive Value where
  | null
  | bool (value : Bool)
  | number (value : Number)
  | string (value : String)
  | array (items : List Value)
  | object (entries : List (String × Value))
  deriving Repr

namespace Value

def lookup (key : String) : List (String × Value) → Option Value
  | [] => none
  | (name,value) :: rest => if name = key then some value else lookup key rest

def get (value : Value) (key : String) : Option Value :=
  match value with
  | object entries => lookup key entries
  | _ => none

def asStr : Value → Option String
  | string value => some value
  | _ => none

def asBool : Value → Option Bool
  | bool value => some value
  | _ => none

def asU64 : Value → Option Nat
  | number (.posInt value) => some value
  | _ => none

def asArray : Value → Option (List Value)
  | array items => some items
  | _ => none

def asObject : Value → Option (List (String × Value))
  | object entries => some entries
  | _ => none

-- `if let Some(object) = body.as_object_mut() { object.remove(key); }`
def remove (key : String) : Value → Value
  | object entries => object (entries.filter fun entry => entry.1 ≠ key)
  | value => value

def nat (value : Nat) : Value := number (.posInt value)

@[simp] theorem lookup_nil (key : String) : lookup key [] = none := rfl
@[simp] theorem lookup_cons (key name : String) (value : Value) (rest : List (String × Value)) :
    lookup key ((name,value) :: rest) = if name = key then some value else lookup key rest := rfl
@[simp] theorem get_object (entries : List (String × Value)) (key : String) :
    (object entries).get key = lookup key entries := rfl
@[simp] theorem asStr_string (value : String) : (string value).asStr = some value := rfl
@[simp] theorem asU64_nat (value : Nat) : (nat value).asU64 = some value := rfl
@[simp] theorem asArray_array (items : List Value) : (array items).asArray = some items := rfl

theorem lookup_remove {key other : String} (differs : other ≠ key) (entries : List (String × Value)) :
    lookup key (entries.filter fun entry => entry.1 ≠ other) = lookup key entries := by
  induction entries with
  | nil => rfl
  | cons entry rest ih =>
    by_cases removed : entry.1 = other
    · have differs' : entry.1 ≠ key := by rw [removed]; exact differs
      simp only [List.filter_cons,removed,ne_eq,not_true,decide_false,Bool.false_eq_true,if_false]
      rw [ih]
      obtain ⟨name,value⟩ := entry
      simp only [lookup_cons,if_neg differs']
    · obtain ⟨name,value⟩ := entry
      simp only [List.filter_cons,removed,ne_eq,not_false_iff,decide_true,if_true,lookup_cons,ih]

theorem get_remove {key other : String} (differs : other ≠ key) (value : Value) :
    (value.remove other).get key = value.get key := by
  cases value with
  | object entries => exact lookup_remove differs entries
  | _ => rfl

end Value
end ArangoDataTools
