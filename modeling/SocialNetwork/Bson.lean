import Mathlib.Tactic

/-!
# Documents, filters and updates

The fragment of BSON and of MongoDB's commands in which arrays of embedded
documents are kept: equality and `$not`/`$elemMatch` filters, and the `$push`
and `$pull` updates.  An update fails when its field is not an array.

A collection that stands for a list of records is updated like the list; the
last part says when this is so.
-/

namespace SocialNetwork.Bson

inductive Scalar where
  | int64 (n : Int64)
  | string (s : String)
  deriving DecidableEq, Repr

/-- Fields in order; the first one with a key counts. -/
inductive Value where
  | scalar (s : Scalar)
  | array (elems : List Value)
  | document (fields : List (String × Value))

abbrev Document := List (String × Value)

inductive Filter where
  | eq (key : String) (operand : Scalar)
  | and (left right : Filter)
  /-- `{key: {$not: {$elemMatch: query}}}` -/
  | notElemMatch (key : String) (query : Filter)

inductive Update where
  | push (key : String) (elem : Value)
  | pull (key : String) (query : Filter)

abbrev Collection := List Document

def Value.isScalar (value : Value) (operand : Scalar) : Bool :=
  match value with
  | .scalar s => s = operand
  | _ => false

/-- An array matches an equality when one of its elements does. -/
def Filter.matches : Filter → Document → Bool
  | .eq key operand, doc =>
      match doc.lookup key with
      | some (.array elems) => elems.any fun elem => elem.isScalar operand
      | some value => value.isScalar operand
      | none => false
  | .and left right, doc => left.matches doc && right.matches doc
  | .notElemMatch key query, doc =>
      match doc.lookup key with
      | some (.array elems) => !elems.any fun
          | .document fields => query.matches fields
          | _ => false
      | _ => true

def setField (key : String) (value : Value) : Document → Document
  | [] => []
  | (key', old) :: doc =>
      if key' = key then (key, value) :: doc
      else (key', old) :: setField key value doc

def Update.apply : Update → Document → Option Document
  | .push key elem, doc =>
      match doc.lookup key with
      | none => some (doc ++ [(key, .array [elem])])
      | some (.array elems) =>
          some (setField key (.array (elems ++ [elem])) doc)
      | some _ => none
  | .pull key query, doc =>
      match doc.lookup key with
      | none => some doc
      | some (.array elems) =>
          some (setField key (.array (elems.filter fun
            | .document fields => !query.matches fields
            | _ => true)) doc)
      | some _ => none

/-- `UpdateOne`: the first match in the order of insertion. -/
def updateOne (filter : Filter) (update : Update) :
    Collection → Option Collection
  | [] => some []
  | doc :: docs =>
      if filter.matches doc then
        (update.apply doc).map (· :: docs)
      else (updateOne filter update docs).map (doc :: ·)

def findOne (filter : Filter) (docs : Collection) : Option Document :=
  docs.find? filter.matches

def insertOne (doc : Document) (docs : Collection) : Collection :=
  docs ++ [doc]

/-- `Find`: every match, in the order of insertion. -/
def find (filter : Filter) (docs : Collection) : Collection :=
  docs.filter filter.matches

/-- `{$push: {key: {$each: elems, $position: position}}}`. -/
def pushEach (key : String) (elems : List Value) (position : ℕ)
    (doc : Document) : Option Document :=
  match doc.lookup key with
  | none => some (doc ++ [(key, .array elems)])
  | some (.array old) =>
      some (setField key
        (.array (old.take position ++ elems ++ old.drop position)) doc)
  | some _ => none

def updateMany (filter : Filter) (update : Document → Option Document)
    (docs : Collection) : Option Collection :=
  docs.mapM fun doc => if filter.matches doc then update doc else some doc

/-- The projection `{key: {$slice: [skip, limit]}}`. -/
def sliceField (key : String) (skip limit : ℕ) (doc : Document) : Document :=
  match doc.lookup key with
  | some (.array elems) =>
      setField key (.array ((elems.drop skip).take limit)) doc
  | _ => doc

/-! ## Decoding into structures -/

/-- A field of type `int64`; a missing field is zero. -/
def decodeInt64 (key : String) (doc : Document) : Option Int64 :=
  match doc.lookup key with
  | none => some 0
  | some (.scalar (.int64 n)) => some n
  | some _ => none

/-- A field that is a slice of structures. -/
def decodeSlice {α : Type} (decode : Document → Option α) (key : String)
    (doc : Document) : Option (List α) :=
  match doc.lookup key with
  | none => some []
  | some (.array elems) => elems.mapM fun
      | .document fields => decode fields
      | _ => none
  | some _ => none

theorem decodeSlice_of_lookup {α : Type} {decode : Document → Option α}
    {toDoc : α → Document} (hdecode : ∀ a, decode (toDoc a) = some a)
    {key : String} {doc : Document} {elems : List α}
    (hlookup : doc.lookup key =
      some (.array (elems.map fun a => .document (toDoc a)))) :
    decodeSlice decode key doc = some elems := by
  unfold decodeSlice
  rw [hlookup]
  simp only
  clear hlookup
  induction elems with
  | nil => rfl
  | cons a elems ih =>
      rw [List.map_cons, List.mapM_cons, ih]
      simp only [hdecode]
      rfl

/-! ## Collections of records -/

section Records

variable {ρ : Type*} {toDoc : ρ → Document} {filter : Filter}
  {update : Update} {selects : ρ → Bool} {f : ρ → ρ}

def updateFirst (selects : ρ → Bool) (f : ρ → ρ) : List ρ → List ρ
  | [] => []
  | record :: records =>
      if selects record then f record :: records
      else record :: updateFirst selects f records

theorem updateOne_map
    (hmatches : ∀ record, filter.matches (toDoc record) = selects record)
    (hupdate : ∀ record,
      update.apply (toDoc record) = some (toDoc (f record)))
    (records : List ρ) :
    updateOne filter update (records.map toDoc) =
      some ((updateFirst selects f records).map toDoc) := by
  induction records with
  | nil => rfl
  | cons record records ih =>
      simp only [List.map_cons, updateOne, updateFirst, hmatches]
      split
      next => rw [hupdate, Option.map_some, List.map_cons]
      next => rw [ih, Option.map_some, List.map_cons]

theorem findOne_map_eq_none
    (hmatches : ∀ record, filter.matches (toDoc record) = false)
    (records : List ρ) : findOne filter (records.map toDoc) = none := by
  unfold findOne
  rw [List.find?_eq_none]
  intro doc hdoc
  obtain ⟨record, -, rfl⟩ := List.mem_map.mp hdoc
  simp [hmatches record]

theorem map_updateFirst {κ : Type*} {key : ρ → κ}
    (hkey : ∀ record, key (f record) = key record) (records : List ρ) :
    (updateFirst selects f records).map key = records.map key := by
  induction records with
  | nil => rfl
  | cons record records ih =>
      unfold updateFirst
      split
      next => rw [List.map_cons, hkey, List.map_cons]
      next => rw [List.map_cons, ih, List.map_cons]

theorem forall_mem_updateFirst {Good : ρ → Prop} {records : List ρ}
    (hgood : ∀ record ∈ records, Good record)
    (hf : ∀ record ∈ records, selects record → Good (f record)) :
    ∀ record ∈ updateFirst selects f records, Good record := by
  induction records with
  | nil => simp [updateFirst]
  | cons record records ih =>
      rw [List.forall_mem_cons] at hgood hf
      unfold updateFirst
      split
      next hselects =>
        rw [List.forall_mem_cons]
        exact ⟨hf.1 hselects, hgood.2⟩
      next =>
        rw [List.forall_mem_cons]
        exact ⟨hgood.1, ih hgood.2 hf.2⟩

/-- When at most one record can be selected, the first is every one. -/
theorem updateFirst_eq_map {κ : Type*} {key : ρ → κ} {k : κ}
    {records : List ρ} (hnodup : (records.map key).Nodup)
    (hselects : ∀ record, selects record → key record = k) :
    updateFirst selects f records =
      records.map fun record => if selects record then f record else record := by
  induction records with
  | nil => rfl
  | cons record records ih =>
      rw [List.map_cons, List.nodup_cons] at hnodup
      unfold updateFirst
      rw [List.map_cons]
      split
      next hhead =>
        have hrest : ∀ other ∈ records, selects other = false := by
          intro other hother
          by_contra hother'
          rw [Bool.not_eq_false] at hother'
          apply hnodup.1
          rw [hselects record hhead, ← hselects other hother']
          exact List.mem_map_of_mem hother
        have hid : (records.map fun record =>
            if selects record then f record else record) =
              records.map id :=
          List.map_congr_left fun other hother => by simp [hrest other hother]
        rw [hid, List.map_id]
      next => rw [ih hnodup.2]

end Records

end SocialNetwork.Bson
