import Mathlib.Algebra.Group.Int.Defs
import Mathlib.Algebra.Group.Nat.Defs

set_option autoImplicit false

/-! # JSON values and codecs

`Json` is a parsed document with objects in key order, `JsonCodec` a printer and a parser that agree
on the documents a printer can store: integers of 64 bits, keys in strictly ascending order, and
nesting within the parser's recursion limit. -/

namespace Godwit

/-- A JSON document. An object is the list of its fields in key order; a number that is not an
    integer is kept as its literal. -/
inductive Json where
  | null
  | bool (b : Bool)
  | int (n : Int)
  | float (literal : String)
  | str (s : String)
  | arr (items : List Json)
  | obj (fields : List (String × Json))
  deriving Repr, BEq, Inhabited

/-! ## Reading a document -/

/-- The first field with the key. -/
def lookupField (key : String) : List (String × Json) → Option Json
  | [] => none
  | (k, v) :: rest => if k = key then some v else lookupField key rest

/-- `Value::get` with a key. -/
def Json.get (key : String) : Json → Option Json
  | .obj fields => lookupField key fields
  | _ => none

/-- `Value::as_str`. -/
def Json.asStr : Json → Option String
  | .str s => some s
  | _ => none

/-- `Value::as_array`. -/
def Json.asArray : Json → Option (List Json)
  | .arr items => some items
  | _ => none

/-- `Value::as_i64`. -/
def Json.asI64 : Json → Option Int
  | .int n => if -2 ^ 63 ≤ n ∧ n < 2 ^ 63 then some n else none
  | _ => none

/-- `Value::as_u64`. -/
def Json.asU64 : Json → Option Nat
  | .int n => if 0 ≤ n ∧ n < 2 ^ 64 then some n.toNat else none
  | _ => none

/-! ## Building a document -/

/-- Keys are ordered by code points, which is the order of their bytes. -/
def keyBefore : List Char → List Char → Bool
  | _, [] => false
  | [], _ :: _ => true
  | a :: as, b :: bs => decide (a.toNat < b.toNat) || (decide (a = b) && keyBefore as bs)

/-- Set a field, keeping the keys in order. -/
def setField (key : String) (value : Json) : List (String × Json) → List (String × Json)
  | [] => [(key, value)]
  | (k, v) :: rest =>
    if keyBefore key.toList k.toList then (key, value) :: (k, v) :: rest
    else if k = key then (key, value) :: rest
    else (k, v) :: setField key value rest

/-- The fields of an object literal. -/
def objectFields (fields : List (String × Json)) : List (String × Json) :=
  fields.foldl (fun acc f => setField f.1 f.2 acc) []

theorem lookupField_setField (key key' : String) (value : Json) (fields : List (String × Json)) :
    lookupField key (setField key' value fields) = if key' = key then some value else lookupField key fields := by
  induction fields with
  | nil => rfl
  | cons f rest ih =>
      obtain ⟨k, v⟩ := f
      rw [setField]
      split
      · rfl
      · split
        · rename_i hk
          subst hk
          simp only [lookupField]
          split <;> rfl
        · rename_i hk
          simp only [lookupField, ih]
          split
          · rename_i heq
            subst heq
            rw [if_neg (Ne.symm hk)]
          · rfl

theorem lookupField_append (key : String) (first second : List (String × Json)) :
    lookupField key (first ++ second) = (lookupField key first).or (lookupField key second) := by
  induction first with
  | nil => rfl
  | cons f rest ih =>
      obtain ⟨k, v⟩ := f
      simp only [List.cons_append, lookupField, ih]
      split <;> rfl

/-- The last value that is set for a key counts. -/
theorem lookupField_objectFields (key : String) (fields : List (String × Json)) :
    lookupField key (objectFields fields) = lookupField key fields.reverse := by
  have hsets : ∀ (fields acc : List (String × Json)),
      lookupField key (fields.foldl (fun acc f => setField f.1 f.2 acc) acc)
        = (lookupField key fields.reverse).or (lookupField key acc) := by
    intro fields
    induction fields with
    | nil => simp [lookupField]
    | cons f rest ih =>
        intro acc
        rw [List.foldl_cons, ih, lookupField_setField, List.reverse_cons, lookupField_append]
        cases lookupField key rest.reverse with
        | some v => rfl
        | none =>
            simp only [Option.none_or, lookupField]
            split <;> rfl
  simpa [objectFields, lookupField] using hsets fields []

/-- `json!` of an object: the keys in order, the last value of each. -/
def Json.object (fields : List (String × Json)) : Json := .obj (objectFields fields)

/-! ## Documents a codec stores -/

/-- The keys are in order and distinct. -/
def keysAscend : List (String × Json) → Bool
  | [] => true
  | [_] => true
  | (k, _) :: (k', v) :: rest => keyBefore k.toList k'.toList && keysAscend ((k', v) :: rest)

mutual

/-- The document survives printing and parsing; `depth` is the nesting the parser still allows. -/
def Json.storable (depth : Nat) : Json → Bool
  | .null => true
  | .bool _ => true
  | .int n => decide (-2 ^ 63 ≤ n ∧ n < 2 ^ 64)
  | .float _ => false
  | .str _ => true
  | .arr items =>
    match depth with
    | 0 => false
    | depth + 1 => Json.storableItems depth items
  | .obj fields =>
    match depth with
    | 0 => false
    | depth + 1 => keysAscend fields && Json.storableFields depth fields

/-- Every item is storable at this depth. -/
def Json.storableItems (depth : Nat) : List Json → Bool
  | [] => true
  | v :: rest => v.storable depth && Json.storableItems depth rest

/-- Every value is storable at this depth. -/
def Json.storableFields (depth : Nat) : List (String × Json) → Bool
  | [] => true
  | (_, v) :: rest => v.storable depth && Json.storableFields depth rest

end

/-- How deep a parser lets arrays and objects nest. -/
def maxDepth : Nat := 127

/-- A printer and a parser of JSON text that agree on storable documents. -/
structure JsonCodec where
  toString : Json → String
  fromStr : String → Option Json
  fromStr_toString : ∀ v : Json, v.storable maxDepth = true → fromStr (toString v) = some v

end Godwit
