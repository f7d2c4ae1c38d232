import SocialNetwork.Bson
import SocialNetwork.Model
import SocialNetwork.SortedSet
import Mathlib.Data.String.Basic

/-!
# The social graph

`socialgraph.go`: an edge is recorded four times, in the `followees` and the
`followers` array of two MongoDB documents and in two Redis sorted sets.  A
request updates the four records with one command each, from three
goroutines; store calls succeed, so only what the stores answer can make a
call fail.
-/

namespace SocialNetwork.SocialGraph

open Bson

/-- A reading of the clock, which counts nanoseconds in 64 bits. -/
structure Time where
  unixNano : Int64
  text : String
  deriving DecidableEq, Repr

def Time.unix (timestamp : Time) : Int64 :=
  Int64.ofInt (timestamp.unixNano.toInt / 10 ^ 9)

theorem Time.toInt_unix (timestamp : Time) :
    timestamp.unix.toInt = timestamp.unixNano.toInt / 10 ^ 9 := by
  have hlow := timestamp.unixNano.le_toInt
  have hhigh := timestamp.unixNano.toInt_lt
  exact Int64.toInt_ofInt_of_le (by omega) (by omega)

theorem Time.float64_unix (timestamp : Time) :
    float64 timestamp.unix = timestamp.unix.toInt := by
  have hlow := timestamp.unixNano.le_toInt
  have hhigh := timestamp.unixNano.toInt_lt
  apply float64_eq
  rw [timestamp.toInt_unix]
  omega

/-- The two ends of an edge: the follower lists followees, the followee lists
followers. -/
inductive Side where
  | followees
  | followers
  deriving DecidableEq, Repr

def Side.key : Side → String
  | .followees => "followees"
  | .followers => "followers"

def Side.owner (side : Side) (userID followeeID : Int64) : Int64 :=
  match side with
  | .followees => userID
  | .followers => followeeID

def Side.member (side : Side) (userID followeeID : Int64) : Int64 :=
  match side with
  | .followees => followeeID
  | .followers => userID

inductive Record where
  | mongo (side : Side)
  | redis (side : Side)
  deriving DecidableEq, Repr

def Record.all : List Record :=
  [.mongo .followees, .mongo .followers, .redis .followees, .redis .followers]

theorem Record.mem_all (record : Record) : record ∈ Record.all := by
  cases record with
  | mongo side => cases side <;> decide
  | redis side => cases side <;> decide

/-- The collection `social-graph.social-graph` and the Redis server.  An
absent key is an empty set. -/
structure Stores where
  collection : Collection
  redis : String → SortedSet Int String

def Stores.empty : Stores := ⟨[], fun _ => SortedSet.empty⟩

/-- `userIDStr + ":followers"` and its like. -/
def redisKey (side : Side) (userID : Int64) : String :=
  idText userID ++ (":" ++ side.key)

def Stores.updateOne (stores : Stores) (filter : Filter) (update : Update) :
    Option Stores :=
  (Bson.updateOne filter update stores.collection).map fun collection =>
    { stores with collection := collection }

def Stores.zaddNX (stores : Stores) (key : String) (member score : Int64) :
    Stores :=
  { stores with
    redis := Function.update stores.redis key
      ((stores.redis key).addNX (idText member) (float64 score)) }

def Stores.zrem (stores : Stores) (key : String) (member : Int64) : Stores :=
  { stores with
    redis := Function.update stores.redis key
      ((stores.redis key).remove (idText member)) }

/-! ## Writes -/

/-- The command of `Follow` for one record.  The `ZCARD` replies of the
pipeline are not read. -/
def Follow.command (userID followeeID : Int64) (timestamp : Time)
    (stores : Stores) : Record → Option Stores
  | .mongo side =>
      let owner := side.owner userID followeeID
      let member := side.member userID followeeID
      stores.updateOne
        (.and (.eq "user_id" (.int64 owner))
          (.notElemMatch side.key (.eq "user_id" (.int64 member))))
        (.push side.key (.document
          [("user_id", .scalar (.int64 member)),
            ("timestamp", .scalar (.string timestamp.text))]))
  | .redis side =>
      some (stores.zaddNX (redisKey side (side.owner userID followeeID))
        (side.member userID followeeID) timestamp.unix)

def Unfollow.command (userID followeeID : Int64) (stores : Stores) :
    Record → Option Stores
  | .mongo side =>
      stores.updateOne
        (.eq "user_id" (.int64 (side.owner userID followeeID)))
        (.pull side.key
          (.eq "user_id" (.int64 (side.member userID followeeID))))
  | .redis side =>
      some (stores.zrem (redisKey side (side.owner userID followeeID))
        (side.member userID followeeID))

/-- An order in which the goroutines of one request run their commands.  The
two Redis commands are one pipeline. -/
structure Schedule where
  commands : List Record
  perm : commands.Perm Record.all
  pipeline : [Record.redis .followees, .redis .followers].Sublist commands

def Schedule.sequential : Schedule where
  commands := Record.all
  perm := List.Perm.refl _
  pipeline := ((List.Sublist.refl _).cons _).cons _

theorem Schedule.mem_commands (schedule : Schedule) (record : Record) :
    record ∈ schedule.commands :=
  schedule.perm.mem_iff.mpr record.mem_all

def Follow (stores : Stores) (userID followeeID : Int64) (timestamp : Time)
    (schedule : Schedule) : Option Stores :=
  schedule.commands.foldlM
    (Follow.command userID followeeID timestamp) stores

def Unfollow (stores : Stores) (userID followeeID : Int64)
    (schedule : Schedule) : Option Stores :=
  schedule.commands.foldlM (Unfollow.command userID followeeID) stores

def InsertUser (stores : Stores) (userID : Int64) : Stores :=
  { stores with
    collection := insertOne
      [("user_id", .scalar (.int64 userID)), ("followers", .array []),
        ("followees", .array [])] stores.collection }

/-! ## Reads -/

structure FollowerInfo where
  followerID : Int64
  timestamp : Int64

structure FolloweeInfo where
  followeeID : Int64
  timestamp : Int64

structure UserInfo where
  userID : Int64
  followers : List FollowerInfo
  followees : List FolloweeInfo

def decodeFollowerInfo (doc : Document) : Option FollowerInfo := do
  return ⟨← decodeInt64 "follower_id" doc, ← decodeInt64 "timestamp" doc⟩

def decodeFolloweeInfo (doc : Document) : Option FolloweeInfo := do
  return ⟨← decodeInt64 "followee_id" doc, ← decodeInt64 "timestamp" doc⟩

def decodeUserInfo (doc : Document) : Option UserInfo := do
  return ⟨← decodeInt64 "user_id" doc,
    ← decodeSlice decodeFollowerInfo "followers" doc,
    ← decodeSlice decodeFolloweeInfo "followees" doc⟩

inductive Error where
  | parse (err : Strconv.NumError)
  | noDocuments
  | decode
  deriving DecidableEq, Repr

/-- `FindOne` and `Decode`, with the id as text in the filter. -/
def findUserInfo (stores : Stores) (userID : Int64) : Except Error UserInfo :=
  match findOne (.eq "user_id" (.string (idText userID)))
      stores.collection with
  | none => .error .noDocuments
  | some doc =>
      match decodeUserInfo doc with
      | none => .error .decode
      | some userInfo => .ok userInfo

/-- The loop over the members that `ZRANGE` returned. -/
def parseIDs (result : List String) : Except Error (List Int64) :=
  (result.mapM parseID).mapError Error.parse

/-- The pipeline that writes the infos to Redis. -/
def cacheInfos (stores : Stores) (key : String) (infos : List FollowerInfo) :
    Stores :=
  infos.foldl (fun stores info =>
    stores.zaddNX key info.followerID info.timestamp) stores

def GetFollowers (stores : Stores) (userID : Int64) :
    Except Error (List Int64) × Stores :=
  let key := redisKey .followers userID
  if 0 < (stores.redis key).card then
    (parseIDs (stores.redis key).members, stores)
  else
    match findUserInfo stores userID with
    | .error .noDocuments => (.ok [], stores)
    | .error err => (.error err, stores)
    | .ok userInfo =>
        (.ok (userInfo.followers.map FollowerInfo.followerID),
          cacheInfos stores key userInfo.followers)

/-- Both loops are over `followerInfos`, which is never filled, and
`ErrNoDocuments` is returned like any other error. -/
def GetFollowees (stores : Stores) (userID : Int64) :
    Except Error (List Int64) × Stores :=
  let key := redisKey .followees userID
  if 0 < (stores.redis key).card then
    (parseIDs (stores.redis key).members, stores)
  else
    let followerInfos : List FollowerInfo := []
    match findUserInfo stores userID with
    | .error err => (.error err, stores)
    | .ok _ =>
        (.ok (followerInfos.map FollowerInfo.followerID),
          cacheInfos stores key followerInfos)

/-! ## What the stores record -/

def edgeIDs (key : String) (doc : Document) : List Int64 :=
  match doc.lookup key with
  | some (.array elems) => elems.filterMap fun
      | .document fields =>
          match fields.lookup "user_id" with
          | some (.scalar (.int64 id)) => some id
          | _ => none
      | _ => none
  | _ => []

def Stores.Recorded (stores : Stores) (side : Side)
    (owner member : Int64) : Prop :=
  ∃ doc ∈ stores.collection,
    doc.lookup "user_id" = some (.scalar (.int64 owner)) ∧
    member ∈ edgeIDs side.key doc

def Stores.Holds (stores : Stores) (userID followeeID : Int64) :
    Record → Prop
  | .mongo side =>
      stores.Recorded side (side.owner userID followeeID)
        (side.member userID followeeID)
  | .redis side =>
      idText (side.member userID followeeID) ∈
        (stores.redis (redisKey side (side.owner userID followeeID))).members

end SocialNetwork.SocialGraph
