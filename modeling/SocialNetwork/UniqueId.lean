import SocialNetwork.Ids
import SocialNetwork.Machine

/-!
# The unique-id service

`uniqueIdService` and `userService` have the same id state and the same
`getCounter`; `UploadUniqueId` and `RegisterUser` start with the same three
steps: read the clock, take a counter under the mutex, and format the id.
The machine interleaves these steps of any number of calls on one service.
-/

namespace SocialNetwork.UniqueId

open Ids Strconv Machine

inductive Error where
  | timestampsNotIncremental
  | parse (err : NumError)
  deriving DecidableEq, Repr

/-- The fields of a service that `getCounter` guards with its mutex. -/
structure Service where
  currentTimestamp : Int64
  counter : Int64
  deriving DecidableEq, Repr

def Service.init : Service := ⟨-1, 0⟩

def getCounter (u : Service) (timestamp : Int64) :
    Except Error Int64 × Service :=
  if u.currentTimestamp > timestamp then
    (.error .timestampsNotIncremental, u)
  else if u.currentTimestamp = timestamp then
    (.ok u.counter, { u with counter := u.counter + 1 })
  else
    (.ok 1, { currentTimestamp := timestamp, counter := 1 })

abbrev Call := ℕ

inductive Phase where
  | notCalled
  | read (timestamp : Int64)
  | counted (timestamp counter : Int64)
  | issued (id : Int64)
  | failed (err : Error)
  deriving DecidableEq, Repr

inductive Label where
  | readClock (call : Call) (timestamp : Int64)
  | getCounter (call : Call)
  | genUniqueID (call : Call)
  deriving DecidableEq, Repr

structure State where
  service : Service
  phase : Call → Phase

def State.initial : State := ⟨Service.init, fun _ => .notCalled⟩

def State.setPhase (state : State) (call : Call) (phase : Phase) : State :=
  { state with phase := Function.update state.phase call phase }

/-- The clock reading is the timestamp after `CUSTOM_EPOCH` is subtracted. -/
def step (machineID : String) (state : State) : Label → Option State
  | .readClock call timestamp =>
      match state.phase call with
      | .notCalled => some (state.setPhase call (.read timestamp))
      | _ => none
  | .getCounter call =>
      match state.phase call with
      | .read timestamp =>
          match getCounter state.service timestamp with
          | (.error err, service) =>
              some ({ state with service := service }.setPhase call
                (.failed err))
          | (.ok counter, service) =>
              some ({ state with service := service }.setPhase call
                (.counted timestamp counter))
      | _ => none
  | .genUniqueID call =>
      match state.phase call with
      | .counted timestamp counter =>
          match GenUniqueID machineID timestamp counter with
          | .error err => some (state.setPhase call (.failed (.parse err)))
          | .ok id => some (state.setPhase call (.issued id))
      | _ => none

/-- The ids that `GenUniqueID` has returned are pairwise distinct. -/
def UniqueIds (state : State) : Prop :=
  ∀ call call' id id', call ≠ call' → state.phase call = .issued id →
    state.phase call' = .issued id' → id ≠ id'

def AllReturned (state : State) : Prop :=
  ∀ call, state.phase call = .notCalled ∨
    (∃ id, state.phase call = .issued id) ∨
    ∃ err, state.phase call = .failed err

/-! ## Reading a schedule -/

def reading (labels : List Label) (call : Call) : Option Int64 :=
  labels.findSome? fun
    | .readClock call' timestamp =>
        if call' = call then some timestamp else none
    | _ => none

/-- The calls with their readings, in the order of their critical
sections. -/
def sections (labels : List Label) : List (Call × Int64) :=
  labels.filterMap fun
    | .getCounter call => (reading labels call).map fun t => (call, t)
    | _ => none

/-- The critical sections whose reading is neither negative nor behind an
earlier one. -/
def accept (calls : List (Call × Int64)) : List (Call × Int64) :=
  calls.foldl
    (fun accepted entry =>
      if 0 ≤ entry.2 ∧ ∀ earlier ∈ accepted, earlier.2 ≤ entry.2 then
        accepted ++ [entry]
      else accepted)
    []

/-- The accepted readings differ in the ten digits that reach the id. -/
def DistinctReadings (labels : List Label) : Prop :=
  ((accept (sections labels)).map fun entry => timestampHex entry.2).Nodup

instance (labels : List Label) : Decidable (DistinctReadings labels) := by
  unfold DistinctReadings
  infer_instance

theorem reading_concat {labels : List Label} {label : Label} {call : Call}
    (hlabel : ∀ timestamp, label ≠ .readClock call timestamp) :
    reading (labels ++ [label]) call = reading labels call := by
  unfold reading
  rw [List.findSome?_append]
  cases label with
  | readClock call' timestamp =>
      have hne : call' ≠ call := by
        rintro rfl
        exact hlabel timestamp rfl
      simp [hne]
  | _ => simp

theorem reading_concat_readClock {labels : List Label} {call : Call}
    {timestamp : Int64} (hnone : reading labels call = none) :
    reading (labels ++ [.readClock call timestamp]) call = some timestamp := by
  unfold reading at hnone ⊢
  rw [List.findSome?_append, hnone]
  simp

theorem sections_concat_getCounter {labels : List Label} {call : Call}
    {timestamp : Int64} (hreading : reading labels call = some timestamp) :
    sections (labels ++ [.getCounter call]) =
      sections labels ++ [(call, timestamp)] := by
  have hsame : ∀ call', reading (labels ++ [.getCounter call]) call' =
      reading labels call' := fun _ => reading_concat (by simp)
  unfold sections
  rw [List.filterMap_append]
  simp [hsame, hreading]

/-- Only critical sections add to the list; a call has read its clock before
it enters its own. -/
theorem sections_concat_of_ne {labels : List Label} {label : Label}
    (hlabel : ∀ call, label ≠ .getCounter call)
    (hread : ∀ call timestamp, label = .readClock call timestamp →
      .getCounter call ∉ labels) :
    sections (labels ++ [label]) = sections labels := by
  have hlast : sections (labels ++ [label]) =
      labels.filterMap fun
        | .getCounter call =>
            (reading (labels ++ [label]) call).map fun t => (call, t)
        | _ => none := by
    unfold sections
    rw [List.filterMap_append]
    cases label with
    | getCounter call => exact absurd rfl (hlabel call)
    | _ => simp
  rw [hlast]
  apply List.filterMap_congr
  intro label' hmem
  cases label' with
  | getCounter call =>
      have hsame : reading (labels ++ [label]) call = reading labels call :=
        reading_concat fun timestamp heq => hread call timestamp heq hmem
      simp [hsame]
  | _ => rfl

theorem accept_concat (calls : List (Call × Int64))
    (entry : Call × Int64) :
    accept (calls ++ [entry]) =
      if 0 ≤ entry.2 ∧ ∀ earlier ∈ accept calls, earlier.2 ≤ entry.2 then
        accept calls ++ [entry]
      else accept calls := by
  unfold accept
  rw [List.foldl_append]
  rfl

end SocialNetwork.UniqueId
