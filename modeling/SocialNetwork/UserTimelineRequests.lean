import SocialNetwork.Machine
import SocialNetwork.UserTimelineFailures

/-!
# Concurrent requests to the user timeline service

`WriteUserTimeline` and `ReadUserTimeline` of any number of callers, one
store command at a time.  Any command can fail, a write after it took effect
or before, and Redis can lose a key at any point.  What a read returns after
it has started `ReadPosts` is in `UserTimelineFailures`.
-/

namespace SocialNetwork.UserTimeline.Concurrent

open Bson Machine

inductive Request where
  | write (write : Write)
  | read (userID start stop : Int64)

/-- Where a request is: a write after its `Find` and after the command on the
collection, a read after `ZREVRANGE`, and with `ReadPosts` started before and
after the update of the cache. -/
inductive Phase where
  | waiting
  | found (timelines : List Timeline)
  | stored
  | wrote (result : Except WriteError Unit)
  | ranged (postIDs : List Int64)
  | fetching (postIDs : List Int64) (postsToCache : List TimelinePostInfo)
  | fetched (postIDs : List Int64)
  | returned (plan : Plan)

/-- The ids for which a read has called `ReadPosts`. -/
def Phase.requested : Phase → Option (List Int64)
  | .fetching postIDs _ => some postIDs
  | .fetched postIDs => some postIDs
  | _ => none

structure State (ι : Type*) where
  stores : Stores
  phase : ι → Phase

def State.initial {ι : Type*} : State ι := ⟨Stores.empty, fun _ => .waiting⟩

inductive Label (ι : Type*) where
  | find (i : ι) (ok : Bool)
  | store (i : ι) (outcome : UserService.Write)
  | zaddNX (i : ι) (outcome : UserService.Write)
  | zrevRange (i : ι) (ok : Bool)
  | findOne (i : ι) (ok : Bool)
  | cache (i : ι) (outcome : UserService.Write)
  | lose (key : String)

section Steps

variable {ι : Type*} [DecidableEq ι]

def State.setPhase (state : State ι) (i : ι) (phase : Phase) : State ι :=
  { state with phase := Function.update state.phase i phase }

def filter (userID : Int64) : Filter := .eq "user_id" (.string (idText userID))

/-- `Find` and the ignored `Decode`. -/
def findTimelines (stores : Stores) (userID : Int64) : List Timeline :=
  let cur : Cursor := ⟨none, Bson.find (filter userID) stores.collection⟩
  cur.decodeTimelines.toOption.getD []

/-- The collection after the command that follows `Find`. -/
def storeTimeline (timelines : List Timeline) (write : Write)
    (collection : Collection) : Option Collection :=
  if timelines.length = 0 then
    some (insertOne
      (Timeline.toDocument
        ⟨write.userID, [⟨write.postID, write.timestamp⟩]⟩) collection)
  else
    updateMany (filter write.userID)
      (pushEach "posts"
        [.document [("post_id", .scalar (.string (idText write.postID))),
          ("timestamp", .scalar (.string (idText write.timestamp)))]] 0)
      collection

/-- A read with the ids that `ZREVRANGE` returned. -/
def afterRange (start stop : Int64) (postIDs : List Int64) : Phase :=
  if start + Int64.ofNat postIDs.length < stop then .ranged postIDs
  else .fetched postIDs

/-- The same read with the reply of `FindOne`. -/
def afterFindOne (collection : Collection) (userID start stop : Int64)
    (postIDs : List Int64) : Phase :=
  match Bson.findOne (.eq "user_id" (.int64 userID)) collection with
  | none => .returned .noDocument
  | some doc =>
      match decodeTimeline (sliceField "posts" 0 stop.toInt.toNat doc) with
      | none => .returned .decodeFailed
      | some userTimeline =>
          let mongoStart := start + Int64.ofNat postIDs.length
          let missing := userTimeline.posts.zipIdx.filter
            fun entry => mongoStart ≤ Int64.ofNat entry.2
          let postIDs := postIDs ++ missing.map fun entry => entry.1.postID
          if 0 < userTimeline.posts.length then
            .fetching postIDs userTimeline.posts
          else .fetched postIDs

variable (requests : ι → Request)

def step (state : State ι) : Label ι → Option (State ι)
  | .find i ok =>
      match requests i, state.phase i with
      | .write write, .waiting =>
          some (state.setPhase i (
            if ok then .found (findTimelines state.stores write.userID)
            else .wrote (.error .find)))
      | _, _ => none
  | .store i outcome =>
      match requests i, state.phase i with
      | .write write, .found timelines =>
          match storeTimeline timelines write state.stores.collection with
          | none => none
          | some collection =>
              let stores := if outcome.applied then
                { state.stores with collection := collection }
              else state.stores
              some (State.setPhase { state with stores := stores } i (
                match outcome with
                | .done => .stored
                | .failed _ => .wrote (.error .insertOne)))
      | _, _ => none
  | .zaddNX i outcome =>
      match requests i, state.phase i with
      | .write write, .stored =>
          let (result, stores) := zaddNXWith outcome state.stores
            (idText write.userID) ⟨write.postID, write.timestamp⟩
          some (State.setPhase { state with stores := stores } i
            (.wrote result))
      | _, _ => none
  | .zrevRange i ok =>
      match requests i, state.phase i with
      | .read userID start stop, .waiting =>
          -- Other windows are answered without a command.
          if stop ≤ start ∨ start < 0 then none
          else
            some (state.setPhase i (
              if ok then
                match readCachedTimeline state.stores.redis (idText userID)
                    start stop with
                | .error err => .returned (.parseFailed err)
                | .ok postIDs => afterRange start stop postIDs
              else .returned .zrevRangeFailed))
      | _, _ => none
  | .findOne i ok =>
      match requests i, state.phase i with
      | .read userID start stop, .ranged postIDs =>
          some (state.setPhase i (
            if ok then
              afterFindOne state.stores.collection userID start stop postIDs
            else .returned .findOneFailed))
      | _, _ => none
  | .cache i outcome =>
      match requests i, state.phase i with
      | .read userID _ _, .fetching postIDs postsToCache =>
          let stores := if outcome.applied then
            postsToCache.foldl (fun stores info =>
              stores.zaddNX (idText userID) info) state.stores
          else state.stores
          some (State.setPhase { state with stores := stores } i
            (.fetched postIDs))
      | _, _ => none
  | .lose key =>
      some { state with stores := { state.stores with
        redis := Function.update state.stores.redis key SortedSet.empty } }

/-! ## A write alone -/

def writeLabels (i : ι) (calls : WriteCalls) : List (Label ι) :=
  .find i calls.find ::
    if calls.find then
      .store i calls.insertOne ::
        match calls.insertOne with
        | .done => [.zaddNX i calls.zaddNX]
        | .failed _ => []
    else []

variable {requests}

/-- Without other requests in between a write is `WriteUserTimeline`. -/
theorem run_write {state : State ι} {i : ι} {write : Write}
    (hrequest : requests i = .write write)
    (hphase : state.phase i = .waiting) (calls : WriteCalls) :
    run (Concurrent.step requests) state (writeLabels i calls) =
      some ⟨(WriteUserTimelineWith calls state.stores write.postID
          write.userID write.timestamp).2,
        Function.update state.phase i (.wrote
          (WriteUserTimelineWith calls state.stores write.postID
            write.userID write.timestamp).1)⟩ := by
  obtain ⟨find, insertOne, zaddNX⟩ := calls
  unfold writeLabels
  have hempty : findTimelines state.stores write.userID = [] := rfl
  cases find with
  | false =>
      simp [Concurrent.step, hrequest, hphase, State.setPhase,
        WriteUserTimelineWith]
  | true =>
      cases insertOne with
      | failed applied =>
          cases applied <;>
            simp [Concurrent.step, hrequest, hphase, State.setPhase,
              hempty, storeTimeline, WriteUserTimelineWith,
              UserService.Write.applied, Cursor.decodeTimelines,
              Except.toOption]
      | done =>
          simp [Concurrent.step, hrequest, hphase, State.setPhase, hempty,
            storeTimeline, WriteUserTimelineWith,
            UserService.Write.applied, Cursor.decodeTimelines,
            Except.toOption]

end Steps

end SocialNetwork.UserTimeline.Concurrent
