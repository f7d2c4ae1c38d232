import Mathlib.Tactic

/-!
# JSON values and lawful codecs

`JsonCodec` is the part of Go's `encoding/json` that a typed value needs: how
it is written, how it is read into a zero variable, and the proof that
reading undoes writing.  `null` leaves the variable at its zero value, and so
does an absent object field.  A slice that was never appended to is written
as `null`.
-/

namespace SocialNetwork

inductive Json where
  | null
  | bool (value : Bool)
  | num (value : Int)
  | str (value : String)
  | arr (elems : List Json)
  | obj (fields : List (String × Json))

class JsonCodec (α : Type) where
  zero : α
  marshal : α → Json
  unmarshal : Json → Option α
  unmarshal_marshal : ∀ a, unmarshal (marshal a) = some a

namespace Json

export JsonCodec (marshal unmarshal unmarshal_marshal)

attribute [simp] JsonCodec.unmarshal_marshal

/-- Read one field of an object into a zero variable. -/
def field {α : Type} [JsonCodec α] (fields : List (String × Json))
    (name : String) : Option α :=
  match fields.lookup name with
  | none => some JsonCodec.zero
  | some json => unmarshal json

@[simp] theorem field_cons_self {α : Type} [JsonCodec α]
    (name : String) (json : Json) (fields : List (String × Json)) :
    (field ((name, json) :: fields) name : Option α) = unmarshal json := by
  simp [field]

@[simp] theorem field_cons_of_ne {α : Type} [JsonCodec α]
    {name other : String} (hne : name ≠ other) (json : Json)
    (fields : List (String × Json)) :
    (field ((other, json) :: fields) name : Option α) =
      field fields name := by
  have hbeq : (name == other) = false := beq_eq_false_iff_ne.mpr hne
  unfold field
  rw [List.lookup_cons, hbeq]

end Json

open Json

instance : JsonCodec Int64 where
  zero := 0
  marshal n := .num n.toInt
  unmarshal
    | .null => some 0
    | .num n =>
        if -2 ^ 63 ≤ n ∧ n < 2 ^ 63 then some (Int64.ofInt n) else none
    | _ => none
  unmarshal_marshal n := by
    simp only [Int64.le_toInt, Int64.toInt_lt, and_self, if_true,
      Int64.ofInt_toInt]

instance : JsonCodec String where
  zero := ""
  marshal s := .str s
  unmarshal
    | .null => some ""
    | .str s => some s
    | _ => none
  unmarshal_marshal _ := rfl

theorem mapM_unmarshal_map_marshal {α : Type} [JsonCodec α] (xs : List α) :
    (xs.map marshal).mapM (unmarshal : Json → Option α) = some xs := by
  induction xs with
  | nil => rfl
  | cons x xs ih => simp [ih]

instance {α : Type} [JsonCodec α] : JsonCodec (List α) where
  zero := []
  marshal
    | [] => .null
    | x :: xs => .arr ((x :: xs).map marshal)
  unmarshal
    | .null => some []
    | .arr elems => elems.mapM unmarshal
    | _ => none
  unmarshal_marshal xs := by
    cases xs with
    | nil => rfl
    | cons x xs => exact mapM_unmarshal_map_marshal (x :: xs)

end SocialNetwork
