import SocialNetwork.Json
import Mathlib.Tactic

/-!
# Redis hashes

A hash maps field names to values; the decimal text of an integer is also its
JSON text, so a counter field is a JSON number.  Deleting a key and never
having written it are the same thing.
-/

namespace SocialNetwork.Redis

abbrev Hash := String → Option Json

def Hash.empty : Hash := fun _ => none

def hset (hash : Hash) (fieldsValues : List (String × Json)) : Hash :=
  fieldsValues.foldl
    (fun hash entry => Function.update hash entry.1 (some entry.2)) hash

def hget (hash : Hash) (key : String) : Option Json := hash key

/-- The reply of `HINCRBY` and the new hash; `none` when the field does not
hold an integer. -/
def hincrBy (hash : Hash) (key : String) (increment : Int) :
    Option (Int × Hash) :=
  match hash key with
  | none => some (increment, Function.update hash key (some (.num increment)))
  | some (.num n) =>
      some (n + increment,
        Function.update hash key (some (.num (n + increment))))
  | some _ => none

@[simp] theorem Hash.empty_apply (key : String) : Hash.empty key = none := rfl

theorem hset_of_not_mem {hash : Hash} {fieldsValues : List (String × Json)}
    {key : String} (hkey : key ∉ fieldsValues.map Prod.fst) :
    hset hash fieldsValues key = hash key := by
  induction fieldsValues generalizing hash with
  | nil => rfl
  | cons entry entries ih =>
      simp only [List.map_cons, List.mem_cons, not_or] at hkey
      calc
        hset hash (entry :: entries) key =
            Function.update hash entry.1 (some entry.2) key := ih hkey.2
        _ = hash key := Function.update_of_ne hkey.1 _ _

theorem hset_of_mem {hash : Hash} {fieldsValues : List (String × Json)}
    (hnodup : (fieldsValues.map Prod.fst).Nodup) {key : String} {value : Json}
    (hmem : (key, value) ∈ fieldsValues) :
    hset hash fieldsValues key = some value := by
  induction fieldsValues generalizing hash with
  | nil => simp at hmem
  | cons entry entries ih =>
      rw [List.map_cons, List.nodup_cons] at hnodup
      rcases List.mem_cons.mp hmem with rfl | htail
      · calc
          hset hash ((key, value) :: entries) key =
              Function.update hash key (some value) key :=
            hset_of_not_mem hnodup.1
          _ = some value := Function.update_self _ _ _
      · exact ih hnodup.2 htail

/-- The field holds the integer `n`, where an absent field counts as zero. -/
def CounterIs (hash : Hash) (key : String) (n : ℕ) : Prop :=
  (hash key = none ∧ n = 0) ∨ hash key = some (.num n)

theorem CounterIs.congr {hash hash' : Hash} {key : String} {n : ℕ}
    (hcount : CounterIs hash key n) (heq : hash' key = hash key) :
    CounterIs hash' key n := by
  unfold CounterIs
  rw [heq]
  exact hcount

theorem counterIs_empty (key : String) : CounterIs Hash.empty key 0 :=
  .inl ⟨rfl, rfl⟩

theorem CounterIs.hincrBy {hash : Hash} {key : String} {n : ℕ}
    (hcount : CounterIs hash key n) :
    hincrBy hash key 1 =
      some (((n + 1 : ℕ) : Int),
        Function.update hash key (some (.num ((n + 1 : ℕ) : Int)))) := by
  rcases hcount with ⟨habsent, rfl⟩ | hpresent
  · simp [Redis.hincrBy, habsent]
  · simp [Redis.hincrBy, hpresent]

theorem counterIs_update_self (hash : Hash) (key : String) (n : ℕ) :
    CounterIs (Function.update hash key (some (.num n))) key n :=
  .inr (Function.update_self _ _ _)

end SocialNetwork.Redis
