import SocialNetwork.Bson
import SocialNetwork.PostStorage
import SocialNetwork.SortedSet
import Mathlib.Data.String.Basic

/-!
# User timelines

`usertimeline.go` with all store calls succeeding.  A timeline is kept twice,
as documents of MongoDB and as a sorted set of Redis; a read takes its window
from Redis and turns to MongoDB when the window is not full.
-/

namespace SocialNetwork.UserTimeline

open Bson Strconv

structure TimelinePostInfo where
  postID : Int64
  timestamp : Int64
  deriving DecidableEq, Repr

structure Timeline where
  userID : Int64
  posts : List TimelinePostInfo
  deriving DecidableEq, Repr

/-- The collection `user-timeline.user-timeline` and the Redis server of the
service.  An absent key is an empty set. -/
structure Stores where
  collection : Collection
  redis : String → SortedSet Int String

def Stores.empty : Stores := ⟨[], fun _ => SortedSet.empty⟩

def Stores.zaddNX (stores : Stores) (key : String)
    (info : TimelinePostInfo) : Stores :=
  { stores with
    redis := Function.update stores.redis key
      ((stores.redis key).addNX (idText info.postID)
        (float64 info.timestamp)) }

/-! ## Documents -/

def TimelinePostInfo.toDocument (info : TimelinePostInfo) : Document :=
  [("post_id", .scalar (.int64 info.postID)),
    ("timestamp", .scalar (.int64 info.timestamp))]

def Timeline.toDocument (timeline : Timeline) : Document :=
  [("user_id", .scalar (.int64 timeline.userID)),
    ("posts", .array (timeline.posts.map fun info =>
      .document info.toDocument))]

def decodeTimelinePostInfo (doc : Document) : Option TimelinePostInfo := do
  return ⟨← decodeInt64 "post_id" doc, ← decodeInt64 "timestamp" doc⟩

def decodeTimeline (doc : Document) : Option Timeline := do
  return ⟨← decodeInt64 "user_id" doc,
    ← decodeSlice decodeTimelinePostInfo "posts" doc⟩

/-- A cursor stands before its first document until `Next` moves it. -/
structure Cursor where
  current : Option Document
  rest : List Document

inductive DecodeError where
  | noDocument
  | notSlice
  deriving DecidableEq, Repr

/-- `Decode` into a slice reads the current document, which is no array. -/
def Cursor.decodeTimelines (cur : Cursor) :
    Except DecodeError (List Timeline) :=
  match cur.current with
  | none => .error .noDocument
  | some _ => .error .notSlice

/-! ## Writes -/

def WriteUserTimeline (stores : Stores) (postID userID timestamp : Int64) :
    Option Stores :=
  let userIDStr := idText userID
  let filter := Filter.eq "user_id" (.string userIDStr)
  let cur : Cursor := ⟨none, find filter stores.collection⟩
  -- An error leaves `timelines` as it was declared.
  let timelines := cur.decodeTimelines.toOption.getD []
  let collection :=
    if timelines.length = 0 then
      some (insertOne
        (Timeline.toDocument ⟨userID, [⟨postID, timestamp⟩]⟩)
        stores.collection)
    else
      updateMany filter
        (pushEach "posts"
          [.document [("post_id", .scalar (.string (idText postID))),
            ("timestamp", .scalar (.string (idText timestamp)))]] 0)
        stores.collection
  collection.map fun collection =>
    Stores.zaddNX { stores with collection := collection } userIDStr
      ⟨postID, timestamp⟩

/-! ## Reads -/

inductive Error where
  | parse (err : NumError)
  | decode
  | readPosts (err : PostStorage.Error)
  deriving DecidableEq, Repr

def readCachedTimeline (redis : String → SortedSet Int String)
    (userIDStr : String) (start stop : Int64) :
    Except NumError (List Int64) :=
  ((redis userIDStr).revRange start.toInt (stop - 1).toInt).mapM parseID

/-- What a read returns, the ids it asked `ReadPosts` for, and the stores
after it. -/
structure Outcome where
  result : Except Error (List Post)
  requested : Option (List Int64)
  stores : Stores
  posts : PostStorage.Stores

/-- The calls of `ReadPosts` and, next to it, of `ZADD NX`. -/
def fetch (order : PostStorage.FindOrder) (posts : PostStorage.Stores)
    (stores : Stores) (userIDStr : String) (postIDs : List Int64)
    (postsToCache : List TimelinePostInfo) : Outcome :=
  let reply := PostStorage.ReadPosts order posts postIDs
  { result := reply.1.mapError .readPosts
    requested := some postIDs
    stores := postsToCache.foldl (fun stores info =>
      stores.zaddNX userIDStr info) stores
    posts := reply.2 }

def ReadUserTimeline (order : PostStorage.FindOrder)
    (posts : PostStorage.Stores) (stores : Stores)
    (userID start stop : Int64) : Outcome :=
  if stop ≤ start ∨ start < 0 then ⟨.ok [], none, stores, posts⟩
  else
    let userIDStr := idText userID
    match readCachedTimeline stores.redis userIDStr start stop with
    | .error err => ⟨.error (.parse err), none, stores, posts⟩
    | .ok postIDs =>
        let mongoStart := start + Int64.ofNat postIDs.length
        if mongoStart < stop then
          match findOne (.eq "user_id" (.int64 userID))
              stores.collection with
          -- The returned error is that of `readCachedTimeline`, which is nil.
          | none => ⟨.ok [], none, stores, posts⟩
          | some doc =>
              match decodeTimeline
                  (sliceField "posts" 0 stop.toInt.toNat doc) with
              | none => ⟨.error .decode, none, stores, posts⟩
              | some userTimeline =>
                  let missing := userTimeline.posts.zipIdx.filter
                    fun entry => mongoStart ≤ Int64.ofNat entry.2
                  fetch order posts stores userIDStr
                    (postIDs ++ missing.map fun entry => entry.1.postID)
                    userTimeline.posts
        else fetch order posts stores userIDStr postIDs []

/-! ## What a write leaves -/

/-- The arguments of a call of `WriteUserTimeline`. -/
structure Write where
  postID : Int64
  userID : Int64
  timestamp : Int64
  deriving DecidableEq, Repr

def Write.info (write : Write) : TimelinePostInfo :=
  ⟨write.postID, write.timestamp⟩

def Write.timeline (write : Write) : Timeline :=
  ⟨write.userID, [write.info]⟩

/-- Every write inserts a document: nothing is ever decoded from the
cursor. -/
theorem writeUserTimeline_eq (stores : Stores) (write : Write) :
    WriteUserTimeline stores write.postID write.userID write.timestamp =
      some (Stores.zaddNX
        { stores with
          collection :=
            stores.collection ++ [write.timeline.toDocument] }
        (idText write.userID) write.info) := rfl

@[simp] theorem decodeTimelinePostInfo_toDocument (info : TimelinePostInfo) :
    decodeTimelinePostInfo info.toDocument = some info := by
  simp [decodeTimelinePostInfo, TimelinePostInfo.toDocument, decodeInt64,
    List.lookup_cons]

@[simp] theorem decodeTimeline_toDocument (timeline : Timeline) :
    decodeTimeline timeline.toDocument = some timeline := by
  have hposts : decodeSlice decodeTimelinePostInfo "posts"
      timeline.toDocument = some timeline.posts :=
    decodeSlice_of_lookup decodeTimelinePostInfo_toDocument rfl
  have huser : decodeInt64 "user_id" timeline.toDocument =
      some timeline.userID := rfl
  rw [decodeTimeline, huser, hposts]
  rfl

@[simp] theorem matches_toDocument (timeline : Timeline) (userID : Int64) :
    (Filter.eq "user_id" (.int64 userID)).matches timeline.toDocument =
      decide (timeline.userID = userID) := by
  simp [Filter.matches, Timeline.toDocument, Value.isScalar]

theorem sliceField_toDocument (timeline : Timeline) (limit : ℕ) :
    sliceField "posts" 0 limit timeline.toDocument =
      Timeline.toDocument
        ⟨timeline.userID, timeline.posts.take limit⟩ := by
  simp [sliceField, Timeline.toDocument, List.lookup_cons, setField,
    List.map_take]

/-! ## What a read asks for -/

theorem toInt_sub_one {start stop : Int64} (hstart : 0 ≤ start)
    (hstop : start < stop) : (stop - 1).toInt = stop.toInt - 1 := by
  have hbound := stop.toInt_lt
  rw [Int64.le_iff_toInt_le] at hstart
  rw [Int64.lt_iff_toInt_lt] at hstop
  have hzero : (0 : Int64).toInt = 0 := rfl
  have hone : (1 : Int64).toInt = 1 := rfl
  rw [Int64.toInt_sub, hone, Int.bmod_eq_of_le] <;> omega

theorem toInt_add_ofNat {start : Int64} {n : ℕ} (hstart : 0 ≤ start)
    (hn : start.toInt + n < 2 ^ 63) :
    (start + Int64.ofNat n).toInt = start.toInt + n := by
  rw [Int64.le_iff_toInt_le] at hstart
  have hzero : (0 : Int64).toInt = 0 := rfl
  rw [Int64.toInt_add, Int64.toInt_ofNat_of_lt (by omega), Int.bmod_eq_of_le] <;> omega

/-- Positions `start` to `stop - 1` of the descending order. -/
def window (ids : List Int64) (start stop : Int64) : List Int64 :=
  (ids.drop start.toInt.toNat).take (stop.toInt - start.toInt).toNat

theorem length_window_le (ids : List Int64) (start stop : Int64) :
    (window ids start stop).length ≤ (stop.toInt - start.toInt).toNat := by
  unfold window
  rw [List.length_take]
  exact min_le_left _ _

theorem readCachedTimeline_eq {redis : String → SortedSet Int String}
    {userIDStr : String} {ids : List Int64}
    (hids : (redis userIDStr).members.reverse = ids.map idText)
    {start stop : Int64} (hstart : 0 ≤ start) (hstop : start < stop) :
    readCachedTimeline redis userIDStr start stop =
      .ok (window ids start stop) := by
  have hlast := toInt_sub_one hstart hstop
  have hstart' := hstart
  rw [Int64.le_iff_toInt_le] at hstart
  rw [Int64.lt_iff_toInt_lt] at hstop
  have hzero : (0 : Int64).toInt = 0 := rfl
  unfold readCachedTimeline
  rw [SortedSet.revRange_eq _ (by omega) (by omega), hids, hlast,
    Int.sub_add_cancel, ← List.map_drop, ← List.map_take,
    mapM_parseID_map_idText]
  rfl

section Reads

variable {order : PostStorage.FindOrder} {posts : PostStorage.Stores}
  {stores : Stores} {writes : List Write} {userID start stop : Int64}
  {ids : List Int64}

/-- The collection holds one document for each write. -/
def Stores.Wrote (stores : Stores) (writes : List Write) : Prop :=
  stores.collection =
    writes.map fun write => write.timeline.toDocument

theorem Stores.Wrote.findOne (hwrote : stores.Wrote writes)
    (userID : Int64) :
    findOne (.eq "user_id" (.int64 userID)) stores.collection =
      (writes.find? fun write => write.userID = userID).map
        fun write => write.timeline.toDocument := by
  rw [hwrote, Bson.findOne, List.find?_map]
  congr 2
  funext write
  exact matches_toDocument write.timeline userID

/-- The document that `FindOne` returns has one post, at index zero, so it
counts as missing only when Redis returned nothing from position zero. -/
theorem filter_missing (info : TimelinePostInfo) (hstart : 0 ≤ start)
    (hlength : start.toInt + ids.length < 2 ^ 63) :
    ([info].zipIdx.filter fun entry =>
        start + Int64.ofNat ids.length ≤ Int64.ofNat entry.2).map
      (fun entry => entry.1.postID) =
        if ids = [] ∧ start = 0 then [info.postID] else [] := by
  have hsum := toInt_add_ofNat hstart hlength
  have hzero : (0 : Int64).toInt = 0 := rfl
  have hiff : start + Int64.ofNat ids.length ≤ Int64.ofNat 0 ↔
      ids = [] ∧ start = 0 := by
    rw [Int64.le_iff_toInt_le] at hstart ⊢
    rw [hsum, Int64.toInt_ofNat_of_lt (by norm_num), ← Int64.toInt_inj,
      ← List.length_eq_zero_iff]
    omega
  by_cases hmissing : ids = [] ∧ start = 0
  · rw [if_pos hmissing]
    rw [List.zipIdx_singleton, List.filter_singleton,
      decide_eq_true (hiff.mpr hmissing)]
    rfl
  · rw [if_neg hmissing]
    rw [List.zipIdx_singleton, List.filter_singleton,
      decide_eq_false (mt hiff.mp hmissing)]
    rfl

theorem readUserTimeline_eq (hwrote : stores.Wrote writes)
    (hids : (stores.redis (idText userID)).members.reverse = ids.map idText)
    (hstart : 0 ≤ start) (hstop : start < stop) :
    ReadUserTimeline order posts stores userID start stop =
      if start + Int64.ofNat (window ids start stop).length < stop then
        match writes.find? fun write => write.userID = userID with
        | none => ⟨.ok [], none, stores, posts⟩
        | some write =>
            fetch order posts stores (idText userID)
              (window ids start stop ++
                if window ids start stop = [] ∧ start = 0 then
                  [write.postID]
                else [])
              [write.info]
      else
        fetch order posts stores (idText userID) (window ids start stop)
          [] := by
  have hvalid : ¬(stop ≤ start ∨ start < 0) := by
    rw [not_or, Int64.not_le, Int64.not_lt]
    exact ⟨hstop, hstart⟩
  unfold ReadUserTimeline
  rw [if_neg hvalid]
  simp only [readCachedTimeline_eq hids hstart hstop, hwrote.findOne]
  by_cases hfull : start + Int64.ofNat (window ids start stop).length < stop
  · rw [if_pos hfull, if_pos hfull]
    cases hfind : writes.find? fun write => write.userID = userID with
    | none => rfl
    | some write =>
        have hlimit : 0 < stop.toInt.toNat := by
          rw [Int64.le_iff_toInt_le] at hstart
          rw [Int64.lt_iff_toInt_lt] at hstop
          have hzero : (0 : Int64).toInt = 0 := rfl
          omega
        have hslice : write.timeline.posts.take stop.toInt.toNat =
            [write.info] :=
          List.take_of_length_le hlimit
        have hlength : start.toInt + (window ids start stop).length <
            2 ^ 63 := by
          have hwindow := length_window_le ids start stop
          have hbound := stop.toInt_lt
          rw [Int64.lt_iff_toInt_lt] at hstop
          omega
        simp only [Option.map_some, sliceField_toDocument,
          decodeTimeline_toDocument, hslice,
          filter_missing write.info hstart hlength]
        rfl
  · rw [if_neg hfull, if_neg hfull]

end Reads

end SocialNetwork.UserTimeline
