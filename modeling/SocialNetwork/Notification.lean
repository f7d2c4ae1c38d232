import SocialNetwork.Machine
import SocialNetwork.Model
import SocialNetwork.SortedSet
import Mathlib.Data.String.Basic

/-!
# Post notifications

The path of a post from `composeAndUpload` to the home timelines: `StorePost`
inserts it into the MongoDB of the composing region, `uploadHomeTimelineHelper`
publishes one message per configured region, and the workers of each region
run `WriteHomeTimeline`, whose `FindOne` may reach any replica.

Each step of the machine is one store command, one message published or
delivered, or the replication of one post.
-/

namespace SocialNetwork.Notification

open Json

abbrev Region := String

abbrev Database := String

abbrev Worker := ℕ

structure Composition where
  post : Post
  database : Database
  regions : List Region

/-- What the runs of `composeAndUpload` compose, and in which region each
worker runs. -/
structure Deployment (Run : Type) where
  composition : Run → Composition
  workerRegion : Worker → Region

variable {Run : Type}

def Deployment.post (deployment : Deployment Run) (i : Run) : Post :=
  (deployment.composition i).post

def Deployment.database (deployment : Deployment Run) (i : Run) : Database :=
  (deployment.composition i).database

/-- The message that `uploadHomeTimelineHelper` publishes for a post. -/
def message (post : Post) : Message where
  reqID := post.reqID
  userID := post.creator.userID
  postID := post.postID
  timestamp := post.timestamp
  userMentionIDs := post.userMentions.map UserMention.userID

/-- How far a run is; it starts with its components joined. -/
inductive RunPhase where
  | joined
  | publishing (regions : List Region)
  | ended

/-- Where a worker is in `onReceivedWorker` and `WriteHomeTimeline`. -/
inductive WorkerPhase where
  | waiting
  | received (body : Json)
  | reading (msg : Message)
  | found (msg : Message)
  | writing (msg : Message) (uniqueIDs : Finset Int64)

inductive Label (Run : Type) where
  | storePost (i : Run) (ok : Bool)
  | publish (i : Run) (ok : Bool)
  | leaveHelper (i : Run)
  | replicate (source replica : Database) (post : Post)
  | deliver (w : Worker) (index : ℕ)
  | unmarshal (w : Worker) (spanOk : Bool)
  | findOne (w : Worker) (database : Database)
  | findFailed (w : Worker)
  | getFollowers (w : Worker) (followers : Option (List Int64))
  | zaddNX (w : Worker) (id : Int64) (ok : Bool)
  | leave (w : Worker)

structure State (Run : Type) where
  posts : Database → List Post
  run : Run → RunPhase
  published : List (Region × Json)
  inFlight : List (Region × Json)
  worker : Worker → WorkerPhase
  homeTimelines : Region → String → SortedSet Int String
  inconsistencies : Region → ℕ

def State.initial : State Run where
  posts := fun _ => []
  run := fun _ => .joined
  published := []
  inFlight := []
  worker := fun _ => .waiting
  homeTimelines := fun _ _ => SortedSet.empty
  inconsistencies := fun _ => 0

def State.setRun [DecidableEq Run] (state : State Run) (i : Run)
    (phase : RunPhase) : State Run :=
  { state with run := Function.update state.run i phase }

def State.setWorker (state : State Run) (w : Worker) (phase : WorkerPhase) :
    State Run :=
  { state with worker := Function.update state.worker w phase }

def State.insert (state : State Run) (database : Database) (post : Post) :
    State Run :=
  { state with
    posts := Function.update state.posts database
      (state.posts database ++ [post]) }

def findOne (posts : List Post) (postID : Int64) : Option Post :=
  posts.find? fun post => post.postID = postID

def State.zaddNX (state : State Run) (region : Region) (id : Int64)
    (msg : Message) : State Run :=
  let timelines := state.homeTimelines region
  { state with
    homeTimelines := Function.update state.homeTimelines region
      (Function.update timelines (idText id)
        ((timelines (idText id)).addNX (idText msg.postID)
          (float64 msg.timestamp))) }

def step [DecidableEq Run] (deployment : Deployment Run)
    (state : State Run) : Label Run → Option (State Run)
  | .storePost i ok =>
      match state.run i with
      | .joined =>
          if ok then
            some ((state.insert (deployment.database i)
              (deployment.post i)).setRun i
                (.publishing (deployment.composition i).regions))
          -- The error is only logged, but `InsertOne` has returned a nil
          -- result and `r.InsertedID` panics.
          else some (state.setRun i .ended)
      | _ => none
  | .publish i ok =>
      match state.run i with
      | .publishing (region :: regions) =>
          let body := marshal (message (deployment.post i))
          let next := state.setRun i (.publishing regions)
          if ok then
            some { next with
              published := state.published ++ [(region, body)]
              inFlight := state.inFlight ++ [(region, body)] }
          else some next
      | _ => none
  | .leaveHelper i =>
      -- At the end, or before when `Pop`, `ExchangeDeclare` or `Marshal`
      -- has failed.
      match state.run i with
      | .publishing _ => some (state.setRun i .ended)
      | _ => none
  | .replicate source replica post =>
      if post ∈ state.posts source ∧ post ∉ state.posts replica then
        some (state.insert replica post)
      else none
  | .deliver w index =>
      match state.worker w, state.inFlight[index]? with
      | .waiting, some (region, body) =>
          if region = deployment.workerRegion w then
            some ({ state with
              inFlight := state.inFlight.eraseIdx index }.setWorker w
                (.received body))
          else none
      | _, _ => none
  | .unmarshal w spanOk =>
      match state.worker w with
      | .received body =>
          match unmarshal body with
          | none => some (state.setWorker w .waiting)
          | some msg =>
              if spanOk then some (state.setWorker w (.reading msg))
              else some (state.setWorker w .waiting)
      | _ => none
  | .findOne w database =>
      match state.worker w with
      | .reading msg =>
          match findOne (state.posts database) msg.postID with
          | none =>
              -- `mongo.ErrNoDocuments`.
              let region := deployment.workerRegion w
              some ({ state with
                inconsistencies := Function.update state.inconsistencies
                  region (state.inconsistencies region + 1) }.setWorker w
                    .waiting)
          | some _ => some (state.setWorker w (.found msg))
      | _ => none
  | .findFailed w =>
      match state.worker w with
      | .reading _ => some (state.setWorker w .waiting)
      | _ => none
  | .getFollowers w followers =>
      match state.worker w with
      | .found msg =>
          match followers with
          | none => some (state.setWorker w .waiting)
          | some followersID =>
              some (state.setWorker w (.writing msg
                (followersID.toFinset ∪ msg.userMentionIDs.toFinset)))
      | _ => none
  | .zaddNX w id ok =>
      match state.worker w with
      | .writing msg uniqueIDs =>
          if id ∈ uniqueIDs then
            if ok then
              some ((state.zaddNX (deployment.workerRegion w) id
                msg).setWorker w (.writing msg (uniqueIDs.erase id)))
            -- The callback returns; `WriteHomeTimeline` returns nil.
            else some (state.setWorker w .waiting)
          else none
      | _ => none
  | .leave w =>
      match state.worker w with
      | .writing _ uniqueIDs =>
          if uniqueIDs = ∅ then some (state.setWorker w .waiting) else none
      | _ => none

end SocialNetwork.Notification
