import SocialNetwork.FailedRegistration
import SocialNetwork.SocialGraphReads
import SocialNetwork.StoreFailures
import SocialNetwork.UserCache

/-!
# Follow requests by id and by username

`FollowWithUsername` and `UnfollowWithUsername` of `socialgraph.go`, next to
the calls that name the users by their ids, in one deployment with the user
service.  A request by usernames runs two `GetUserId` calls in goroutines of
their own and waits for both; the edge is then updated as by `Follow` or
`Unfollow`.

Every step is one store command of one goroutine.  Any command may fail, and a
write may fail after it took effect.
-/

namespace SocialNetwork.FollowRequests

open Machine SocialGraph
open UserService (CacheInv Registered)

/-- How a request names the users of the edge. -/
inductive Ends where
  | ids (userID followeeID : Int64)
  | usernames (userUsername followeeUsername : String)
  deriving DecidableEq, Repr

structure Request where
  ends : Ends
  action : Action

/-- The two `GetUserId` calls of a request by usernames. -/
inductive Lookup where
  | user
  | followee
  deriving DecidableEq, Repr

/-- The calls of the user service: the lookups of the requests, and those of
other clients. -/
inductive Call (ι κ : Type) where
  | getUserId (i : ι) (lookup : Lookup)
  | client (k : κ)
  deriving DecidableEq

/-- A request by ids makes no lookup. -/
def Ends.username : Ends → Lookup → String
  | .usernames userUsername _, .user => userUsername
  | .usernames _ followeeUsername, .followee => followeeUsername
  | .ids _ _, _ => ""

structure Deployment (ι κ : Type) where
  request : ι → Request
  client : κ → UserService.Request
  replica : Call ι κ → ℕ
  machineID : ℕ → String

variable {ι κ : Type}

def Deployment.userService (deployment : Deployment ι κ) :
    UserService.Deployment (Call ι κ) where
  request
    | .getUserId i lookup =>
        .getUserId ((deployment.request i).ends.username lookup)
    | .client k => deployment.client k
  replica := deployment.replica
  machineID := deployment.machineID

/-- Where a request is; `failed` names the lookup whose error it returns. -/
inductive Phase where
  | waiting
  | lookingUp
  | updating (userID followeeID : Int64) (call : StoreFailures.State)
  | failed (lookup : Lookup)

def Phase.isLookingUp : Phase → Bool
  | .lookingUp => true
  | _ => false

/-- The social graph is the one of the user service, which inserts its
users. -/
structure State (ι κ : Type) where
  service : UserService.State (Call ι κ)
  phase : ι → Phase

def State.initial : State ι κ := ⟨UserService.State.initial, fun _ => .waiting⟩

def State.graph (state : State ι κ) : Stores := state.service.graph

def State.setPhase [DecidableEq ι] (state : State ι κ) (i : ι)
    (phase : Phase) : State ι κ :=
  { state with phase := Function.update state.phase i phase }

@[simp] theorem State.setPhase_self [DecidableEq ι] (state : State ι κ)
    (i : ι) (phase : Phase) : (state.setPhase i phase).phase i = phase :=
  Function.update_self _ _ _

theorem State.setPhase_of_ne [DecidableEq ι] (state : State ι κ) {i j : ι}
    (hne : j ≠ i) (phase : Phase) :
    (state.setPhase i phase).phase j = state.phase j :=
  Function.update_of_ne hne _ _

def State.setGraph (state : State ι κ) (graph : Stores) : State ι κ :=
  { state with service := { state.service with graph := graph } }

inductive Label (ι κ : Type) where
  | service (label : UserService.Label (Call ι κ))
  | start (i : ι)
  | wait (i : ι)
  | update (i : ι) (userID followeeID : Int64) (label : StoreFailures.Label)

/-- What a lookup has returned: an id, or an error. -/
def lookupResult : UserService.Phase → Option (Option Int64)
  | .returned (.userID userID) => some (some userID)
  | .failed => some none
  | _ => none

/-- The lookups of a request run while it waits for them. -/
def State.enabled (state : State ι κ)
    (label : UserService.Label (Call ι κ)) : Bool :=
  match label.call with
  | some (.getUserId i _) => (state.phase i).isLookingUp
  | _ => true

variable [DecidableEq ι] [DecidableEq κ]

def step (hashPwd : String → String) (deployment : Deployment ι κ)
    (state : State ι κ) : Label ι κ → Option (State ι κ)
  | .service label =>
      if state.enabled label then
        (UserService.step hashPwd deployment.userService state.service
          label).map fun service => { state with service := service }
      else none
  | .start i =>
      match state.phase i, (deployment.request i).ends with
      | .waiting, .ids userID followeeID =>
          some (state.setPhase i
            (.updating userID followeeID (.start state.graph)))
      | .waiting, .usernames _ _ => some (state.setPhase i .lookingUp)
      | _, _ => none
  | .wait i =>
      match state.phase i, lookupResult (state.service.call
          (.getUserId i .user)), lookupResult (state.service.call
            (.getUserId i .followee)) with
      | .lookingUp, some none, some _ =>
          some (state.setPhase i (.failed .user))
      | .lookingUp, some (some _), some none =>
          some (state.setPhase i (.failed .followee))
      | .lookingUp, some (some userID), some (some followeeID) =>
          some (state.setPhase i
            (.updating userID followeeID (.start state.graph)))
      | _, _, _ => none
  | .update i userID followeeID label =>
      match state.phase i with
      | .updating userID' followeeID' call =>
          if userID = userID' ∧ followeeID = followeeID' then
            -- The goroutines of all requests share the stores.
            (StoreFailures.step
              ⟨userID, followeeID, (deployment.request i).action⟩
              { call with stores := state.graph } label).map fun call =>
                (state.setGraph call.stores).setPhase i
                  (.updating userID followeeID call)
          else none
      | _ => none

end SocialNetwork.FollowRequests
