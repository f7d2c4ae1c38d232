import SocialNetwork.UserService
import SocialNetwork.UserTimeline

/-!
# User timelines with failing calls

`ReadUserTimeline` and `WriteUserTimeline` with every outcome of their calls.
A read asks `ReadPosts` from a goroutine while it updates Redis, and both
assign the error to one variable.
-/

namespace SocialNetwork.UserTimeline

open Bson

/-! ## Writes -/

/-- The outcomes of the calls of `WriteUserTimeline`. -/
structure WriteCalls where
  find : Bool
  insertOne : UserService.Write
  zaddNX : UserService.Write

inductive WriteError where
  | find
  | insertOne
  | zaddNX
  deriving DecidableEq, Repr

/-- The last command of `WriteUserTimeline`. -/
def zaddNXWith (write : UserService.Write) (stores : Stores) (key : String)
    (info : TimelinePostInfo) : Except WriteError Unit × Stores :=
  let next := if write.applied then stores.zaddNX key info else stores
  match write with
  | .done => (.ok (), next)
  | .failed _ => (.error .zaddNX, next)

/-- As no timeline is ever decoded, the branch of `UpdateMany` is never taken
and its outcome is left out. -/
def WriteUserTimelineWith (calls : WriteCalls) (stores : Stores)
    (postID userID timestamp : Int64) : Except WriteError Unit × Stores :=
  let userIDStr := idText userID
  let filter := Filter.eq "user_id" (.string userIDStr)
  if !calls.find then (.error .find, stores)
  else
    let cur : Cursor := ⟨none, find filter stores.collection⟩
    let timelines := cur.decodeTimelines.toOption.getD []
    let inserted :=
      if timelines.length = 0 then
        some (insertOne
          (Timeline.toDocument ⟨userID, [⟨postID, timestamp⟩]⟩)
          stores.collection)
      else
        updateMany filter
          (pushEach "posts"
            [.document [("post_id", .scalar (.string (idText postID))),
              ("timestamp", .scalar (.string (idText timestamp)))]] 0)
          stores.collection
    match inserted with
    | none => (.error .insertOne, stores)
    | some collection =>
        let next :=
          if calls.insertOne.applied then
            { stores with collection := collection }
          else stores
        match calls.insertOne with
        | .failed _ => (.error .insertOne, next)
        | .done =>
            zaddNXWith calls.zaddNX next userIDStr ⟨postID, timestamp⟩

def WriteCalls.succeed : WriteCalls := ⟨true, .done, .done⟩

theorem writeUserTimelineWith_succeed (stores : Stores)
    (postID userID timestamp : Int64) :
    WriteUserTimeline stores postID userID timestamp =
      some (WriteUserTimelineWith .succeed stores postID userID
        timestamp).2 := rfl

/-! ## Reads -/

/-- When the goroutine of `ReadPosts` assigns the error: before the cache
update does; between this assignment and the check that follows it; between
the check and the log line, or the log line and the return statement, which
both read the variable again; or later. -/
inductive Race where
  | beforeUpdate
  | beforeCheck
  | beforeLog
  | beforeReturn
  | later
  deriving DecidableEq, Repr

/-- The outcomes of the calls of `ReadUserTimeline`. -/
structure ReadCalls where
  zrevRange : Bool
  findOne : Bool
  readPosts : Bool
  zaddNX : UserService.Write
  race : Race

inductive StoreCall where
  | zrevRange
  | findOne
  | readPosts
  | zaddNX
  deriving DecidableEq, Repr

/-- The error of a call, or another error of the read. -/
inductive ReadError where
  | failed (call : StoreCall)
  | error (err : Error)
  deriving DecidableEq, Repr

inductive ReadResult where
  | returned (result : Except ReadError (List Post))
  | panicked

/-- How a read ends, which of the executed calls failed, and the stores after
it. -/
structure Reply where
  result : ReadResult
  failed : List StoreCall
  stores : Stores
  posts : PostStorage.Stores

/-- Where a read is when it starts the goroutine, or where it has returned
before. -/
inductive Plan where
  | zrevRangeFailed
  | parseFailed (err : Strconv.NumError)
  | findOneFailed
  | noDocument
  | decodeFailed
  | join (postIDs : List Int64) (postsToCache : List TimelinePostInfo)
  deriving DecidableEq, Repr

def plan (calls : ReadCalls) (stores : Stores)
    (userID start stop : Int64) : Plan :=
  let userIDStr := idText userID
  if !calls.zrevRange then .zrevRangeFailed
  else
    match readCachedTimeline stores.redis userIDStr start stop with
    | .error err => .parseFailed err
    | .ok postIDs =>
        let mongoStart := start + Int64.ofNat postIDs.length
        if mongoStart < stop then
          if !calls.findOne then .findOneFailed
          else
            match findOne (.eq "user_id" (.int64 userID))
                stores.collection with
            | none => .noDocument
            | some doc =>
                match decodeTimeline
                    (sliceField "posts" 0 stop.toInt.toNat doc) with
                | none => .decodeFailed
                | some userTimeline =>
                    let missing := userTimeline.posts.zipIdx.filter
                      fun entry => mongoStart ≤ Int64.ofNat entry.2
                    .join (postIDs ++ missing.map fun entry =>
                      entry.1.postID) userTimeline.posts
        else .join postIDs []

/-- The places where `err` is read after the cache update. -/
inductive Point where
  | check
  | log
  | returnErr
  | join
  deriving DecidableEq, Repr

/-- The goroutine was the last to assign. -/
def Race.precedes : Race → Point → Bool
  | .beforeUpdate, _ => false
  | .beforeCheck, _ => true
  | .beforeLog, .check => false
  | .beforeLog, _ => true
  | .beforeReturn, .check => false
  | .beforeReturn, .log => false
  | .beforeReturn, _ => true
  -- `wg.Wait` returns after the goroutine has assigned.
  | .later, .join => true
  | .later, _ => false

def errAt (race : Race) (point : Point)
    (readErr cacheErr : Option ReadError) : Option ReadError :=
  if race.precedes point then readErr else cacheErr

def errOf : Except ReadError (List Post) → Option ReadError
  | .ok _ => none
  | .error err => some err

def returning (posts : List Post) : Option ReadError →
    Except ReadError (List Post)
  | none => .ok posts
  | some err => .error err

/-- What the goroutine of `ReadPosts` receives. -/
def readReply (calls : ReadCalls) (order : PostStorage.FindOrder)
    (posts : PostStorage.Stores) (postIDs : List Int64) :
    Except ReadError (List Post) × PostStorage.Stores :=
  if calls.readPosts then
    let reply := PostStorage.ReadPosts order posts postIDs
    (reply.1.mapError fun err => .error (.readPosts err), reply.2)
  else (.error (.failed .readPosts), posts)

/-- The goroutine, the cache update, and the return statement.  A failed
`ReadPosts` leaves `posts` empty. -/
def join (calls : ReadCalls) (order : PostStorage.FindOrder)
    (posts : PostStorage.Stores) (stores : Stores) (userIDStr : String)
    (postIDs : List Int64) (postsToCache : List TimelinePostInfo) : Reply :=
  let (reply, posts) := readReply calls order posts postIDs
  let readErr := errOf reply
  let value := reply.toOption.getD []
  let readFailed := if readErr.isSome then [StoreCall.readPosts] else []
  if 0 < postsToCache.length then
    let cacheErr :=
      match calls.zaddNX with
      | .done => none
      | .failed _ => some (ReadError.failed .zaddNX)
    let cacheFailed := if cacheErr.isSome then [StoreCall.zaddNX] else []
    let stores :=
      if calls.zaddNX.applied then
        postsToCache.foldl (fun stores info =>
          stores.zaddNX userIDStr info) stores
      else stores
    let result :=
      match errAt calls.race .check readErr cacheErr with
      | some _ =>
          -- `err.Error()` panics when `err` is nil again.
          match errAt calls.race .log readErr cacheErr with
          | none => .panicked
          | some _ =>
              .returned (returning []
                (errAt calls.race .returnErr readErr cacheErr))
      | none =>
          .returned (returning value
            (errAt calls.race .join readErr cacheErr))
    ⟨result, readFailed ++ cacheFailed, stores, posts⟩
  else ⟨.returned (returning value readErr), readFailed, stores, posts⟩

def ReadUserTimelineWith (calls : ReadCalls)
    (order : PostStorage.FindOrder) (posts : PostStorage.Stores)
    (stores : Stores) (userID start stop : Int64) : Reply :=
  if stop ≤ start ∨ start < 0 then ⟨.returned (.ok []), [], stores, posts⟩
  else
    match plan calls stores userID start stop with
    | .zrevRangeFailed =>
        ⟨.returned (.error (.failed .zrevRange)), [.zrevRange], stores, posts⟩
    | .parseFailed err =>
        ⟨.returned (.error (.error (.parse err))), [], stores, posts⟩
    -- The returned error is that of `readCachedTimeline`, which is nil.
    | .findOneFailed => ⟨.returned (.ok []), [.findOne], stores, posts⟩
    | .noDocument => ⟨.returned (.ok []), [], stores, posts⟩
    | .decodeFailed =>
        ⟨.returned (.error (.error .decode)), [], stores, posts⟩
    | .join postIDs postsToCache =>
        join calls order posts stores (idText userID) postIDs postsToCache

/-! ## Calls that succeed -/

def ReadCalls.succeed (race : Race) : ReadCalls :=
  ⟨true, true, true, .done, race⟩

section Reads

variable {calls : ReadCalls} {order : PostStorage.FindOrder}
  {posts : PostStorage.Stores} {stores : Stores} {userID start stop : Int64}

theorem join_succeed (userIDStr : String) (postIDs : List Int64)
    (postsToCache : List TimelinePostInfo) :
    let reply := join (.succeed .later) order posts stores userIDStr
      postIDs postsToCache
    let outcome := fetch order posts stores userIDStr postIDs postsToCache
    reply.result = .returned (outcome.result.mapError .error) ∧
      reply.stores = outcome.stores ∧ reply.posts = outcome.posts := by
  simp only [join, fetch, readReply, ReadCalls.succeed, if_true, errAt,
    Race.precedes]
  cases postsToCache with
  | nil =>
      cases hread : (PostStorage.ReadPosts order posts postIDs).1 with
      | ok read => exact ⟨rfl, rfl, rfl⟩
      | error err => exact ⟨rfl, rfl, rfl⟩
  | cons info infos =>
      simp only [List.length_cons, Nat.zero_lt_succ, if_true]
      cases hread : (PostStorage.ReadPosts order posts postIDs).1 with
      | ok read => exact ⟨rfl, rfl, trivial⟩
      | error err => exact ⟨rfl, rfl, trivial⟩

/-- When no call fails, the read is the one of the model without failures. -/
theorem readUserTimelineWith_succeed :
    let reply := ReadUserTimelineWith (.succeed .later) order posts stores
      userID start stop
    let outcome := ReadUserTimeline order posts stores userID start stop
    reply.result = .returned (outcome.result.mapError .error) ∧
      reply.stores = outcome.stores ∧ reply.posts = outcome.posts := by
  unfold ReadUserTimelineWith ReadUserTimeline plan
  by_cases hvalid : stop ≤ start ∨ start < 0
  · rw [if_pos hvalid, if_pos hvalid]
    exact ⟨rfl, rfl, rfl⟩
  · rw [if_neg hvalid, if_neg hvalid]
    simp only [ReadCalls.succeed, Bool.not_true, Bool.false_eq_true,
      if_false]
    cases readCachedTimeline stores.redis (idText userID) start stop with
    | error err => exact ⟨rfl, rfl, rfl⟩
    | ok postIDs =>
        simp only
        by_cases hfull : start + Int64.ofNat postIDs.length < stop
        · rw [if_pos hfull, if_pos hfull]
          cases findOne (.eq "user_id" (.int64 userID)) stores.collection with
          | none => exact ⟨rfl, rfl, rfl⟩
          | some doc =>
              simp only
              cases decodeTimeline
                (sliceField "posts" 0 stop.toInt.toNat doc) with
              | none => exact ⟨rfl, rfl, rfl⟩
              | some userTimeline => exact join_succeed _ _ _
        · rw [if_neg hfull, if_neg hfull]
          exact join_succeed _ _ _

/-! ## Reported failures -/

/-- A failed `FindOne` counts for a user who has a document. -/
def StoreCall.Counts (stores : Stores) (userID : Int64) : StoreCall → Prop
  | .findOne =>
      ∃ doc, Bson.findOne (.eq "user_id" (.int64 userID))
        stores.collection = some doc
  | _ => True

def Reply.Reports (reply : Reply) (stores : Stores) (userID : Int64) :
    Prop :=
  (∃ call ∈ reply.failed, call.Counts stores userID) →
    ∃ err, reply.result = .returned (.error err)

def ReadFails (calls : ReadCalls) (order : PostStorage.FindOrder)
    (posts : PostStorage.Stores) (postIDs : List Int64) : Prop :=
  (errOf (readReply calls order posts postIDs).1).isSome = true

/-- No failure is lost: `FindOne` does not fail for a user who has a
document, and the two assignments to `err` do not overwrite an error. -/
def Plan.Reported (calls : ReadCalls) (order : PostStorage.FindOrder)
    (posts : PostStorage.Stores) (stores : Stores) (userID : Int64) :
    Plan → Prop
  | .findOneFailed =>
      ¬StoreCall.Counts stores userID .findOne
  | .join postIDs postsToCache =>
      postsToCache = [] ∨
        (ReadFails calls order posts postIDs ∧ calls.zaddNX = .done →
          calls.race ≠ .beforeUpdate) ∧
        (¬ReadFails calls order posts postIDs ∧ calls.zaddNX ≠ .done →
          calls.race = .beforeUpdate ∨ calls.race = .later)
  | _ => True

theorem join_reports_iff (userIDStr : String) (postIDs : List Int64)
    (postsToCache : List TimelinePostInfo) :
    (join calls order posts stores userIDStr postIDs postsToCache).Reports
        stores userID ↔
      (Plan.join postIDs postsToCache).Reported calls order posts stores
        userID := by
  simp only [join, Reply.Reports, Plan.Reported, ReadFails]
  generalize readReply calls order posts postIDs = received
  obtain ⟨reply, posts'⟩ := received
  cases postsToCache with
  | nil =>
      cases reply with
      | ok read => simp [errOf]
      | error err => simp [errOf, returning]
  | cons info infos =>
      simp only [List.length_cons, Nat.zero_lt_succ, if_true, reduceCtorEq,
        false_or]
      cases reply with
      | ok read =>
          cases hwrite : calls.zaddNX <;> cases hrace : calls.race <;>
            simp [errOf, errAt, Race.precedes, returning, StoreCall.Counts]
      | error err =>
          cases hwrite : calls.zaddNX <;> cases hrace : calls.race <;>
            simp [errOf, errAt, Race.precedes, returning, StoreCall.Counts]

/-- A read with a failed call returns an error exactly when no failure is
lost. -/
theorem readUserTimeline_reports_iff (hstart : 0 ≤ start)
    (hstop : start < stop) :
    (ReadUserTimelineWith calls order posts stores userID start
        stop).Reports stores userID ↔
      (plan calls stores userID start stop).Reported calls order posts
        stores userID := by
  have hvalid : ¬(stop ≤ start ∨ start < 0) := by
    rw [not_or, Int64.not_le, Int64.not_lt]
    exact ⟨hstop, hstart⟩
  unfold ReadUserTimelineWith
  rw [if_neg hvalid]
  cases plan calls stores userID start stop with
  | zrevRangeFailed => simp [Reply.Reports, Plan.Reported]
  | parseFailed err => simp [Reply.Reports, Plan.Reported]
  | findOneFailed => simp [Reply.Reports, Plan.Reported]
  | noDocument => simp [Reply.Reports, Plan.Reported]
  | decodeFailed => simp [Reply.Reports, Plan.Reported]
  | join postIDs postsToCache => exact join_reports_iff _ _ _

end Reads

/-- One post of one user. -/
def sampleStores : Stores :=
  (WriteUserTimelineWith .succeed Stores.empty 7 3 0).2

/-- `ZADD NX` fails after it took effect, and `ReadPosts` succeeds after the
read has returned. -/
def unreachableCalls : ReadCalls := ⟨true, true, true, .failed true, .later⟩

theorem readUserTimeline_reports_iff_unreachable :
    ∃ err, (ReadUserTimelineWith unreachableCalls
      PostStorage.FindOrder.natural PostStorage.cachedStores sampleStores 3 0
      10).result = .returned (.error err) := by
  have hplan : plan unreachableCalls sampleStores 3 0 10 =
      .join [7] [⟨7, 0⟩] := by decide +kernel
  have hreports : (ReadUserTimelineWith unreachableCalls
      PostStorage.FindOrder.natural PostStorage.cachedStores sampleStores 3 0
      10).Reports sampleStores 3 := by
    apply (readUserTimeline_reports_iff (by decide) (by decide)).mpr
    rw [hplan]
    exact .inr ⟨fun h => absurd h.2 (by decide), fun _ => .inr rfl⟩
  exact hreports ⟨.zaddNX, by decide +kernel, trivial⟩

/-- `FindOne` fails, and the timeline is reported to be empty. -/
theorem not_readUserTimeline_reports :
    ¬ ∀ (calls : ReadCalls) (order : PostStorage.FindOrder)
        (posts : PostStorage.Stores) (stores : Stores)
        (userID start stop : Int64), 0 ≤ start → start < stop →
      (ReadUserTimelineWith calls order posts stores userID start
        stop).Reports stores userID := by
  intro hclaim
  have hreports := hclaim ⟨true, false, true, .done, .later⟩
    PostStorage.FindOrder.natural PostStorage.cachedStores sampleStores 3 0
    10 (by decide) (by decide)
  have hplan : plan ⟨true, false, true, .done, .later⟩ sampleStores 3 0
      10 = .findOneFailed := by decide +kernel
  have hvalid : ¬((10 : Int64) ≤ 0 ∨ (0 : Int64) < 0) := by decide
  unfold ReadUserTimelineWith at hreports
  rw [if_neg hvalid, hplan] at hreports
  obtain ⟨err, herr⟩ := hreports ⟨.findOne, List.mem_singleton_self _,
    Timeline.toDocument ⟨3, [⟨7, 0⟩]⟩, rfl⟩
  cases herr

end SocialNetwork.UserTimeline
