import SocialNetwork.HomeTimeline
import SocialNetwork.JsonText
import SocialNetwork.UserTimelineRuns

/-!
# Reading timelines over HTTP

`readHomeTimelineHandler` and `readUserTimelineHandler` of `wrk2.go`.  A
response has the JSON of one post on each line; a client that splits it at
the newlines gets the posts back, since JSON text has no newline of its own.
-/

namespace SocialNetwork.ReadHandlers

open Json Machine PostStorage UserTimeline
open HomeTimeline (HoldsIDs)

/-! ## The handlers -/

/-- `r.Form.Get`; a missing field is empty. -/
abbrev Form := String → String

structure ReadTimelineParams where
  userID : Int64
  start : Int64
  stop : Int64
  deriving DecidableEq, Repr

def validateReadTimelineParams :
    Except String Form → Except String ReadTimelineParams
  | .error err => .error ("error: " ++ err)
  | .ok form =>
      let userIDstr := form "user_id"
      if userIDstr ≠ "" then
        match parseID userIDstr with
        | .error _ => .error "invalid user_id"
        | .ok userID => .ok ⟨userID, 0, 10⟩
      else .error "must provide a user_id"

inductive Response (ε : Type) where
  | badRequest (text : String)
  | internalServerError (err : ε)
  | success (body : String)
  deriving DecidableEq, Repr

/-- The loop over the posts of both handlers. -/
def writePosts (posts : List Post) : String :=
  posts.zipIdx.foldl (fun body entry =>
    let body := body ++ marshalText entry.1
    if entry.2 < posts.length - 1 then body ++ "\n" else body) ""

/-- A handler over its read of the window. -/
def readTimelineHandler {ε σ : Type}
    (read : Int64 → Int64 → Int64 → Except ε (List Post) × σ) (stores : σ)
    (form : Except String Form) : Response ε × σ :=
  match validateReadTimelineParams form with
  | .error text => (.badRequest text, stores)
  | .ok params =>
      match read params.userID params.start params.stop with
      | (.error err, stores) => (.internalServerError err, stores)
      | (.ok posts, stores) => (.success (writePosts posts), stores)

def readHomeTimelineHandler (order : FindOrder) (posts : PostStorage.Stores)
    (redis : String → SortedSet Int String) (form : Except String Form) :
    Response HomeTimeline.Error × PostStorage.Stores :=
  readTimelineHandler
    (HomeTimeline.ReadHomeTimeline order posts redis) posts form

def readUserTimelineHandler (order : FindOrder) (posts : PostStorage.Stores)
    (stores : UserTimeline.Stores) (form : Except String Form) :
    Response UserTimeline.Error × UserTimeline.Stores × PostStorage.Stores :=
  readTimelineHandler (fun userID start stop =>
    let outcome := ReadUserTimeline order posts stores userID start stop
    (outcome.result, outcome.stores, outcome.posts)) (stores, posts) form

/-- What every read keeps of the stores the handler keeps. -/
theorem readTimelineHandler_stores {ε σ : Type}
    {read : Int64 → Int64 → Int64 → Except ε (List Post) × σ} {stores : σ}
    {P : σ → Prop} (hstores : P stores)
    (hread : ∀ userID start stop, P (read userID start stop).2)
    (form : Except String Form) :
    P (readTimelineHandler read stores form).2 := by
  unfold readTimelineHandler
  split
  next => exact hstores
  next params _ =>
    have hafter := hread params.userID params.start params.stop
    split
    next hreply => rwa [hreply] at hafter
    next hreply => rwa [hreply] at hafter

/-! ## Lines -/

/-- What a client makes of a body. -/
def readLines (body : String) : Option (List Post) :=
  if body = "" then some []
  else
    (body.toList.splitOn '\n').mapM fun line =>
      unmarshalText (String.ofList line)

/-- The loop from a position on. -/
theorem foldl_writePosts (posts : List Post) (n k : ℕ) (body : String)
    (hn : n = k + posts.length) :
    ((posts.zipIdx k).foldl (fun body entry =>
        let body := body ++ marshalText entry.1
        if entry.2 < n - 1 then body ++ "\n" else body) body).toList =
      body.toList ++ List.intercalate ['\n']
        (posts.map fun post => (marshalText post).toList) := by
  induction posts generalizing k body with
  | nil => simp
  | cons post posts ih =>
      rw [List.zipIdx_cons, List.foldl_cons,
        ih (k + 1) _ (by rw [hn, List.length_cons]; omega)]
      cases posts with
      | nil =>
          have hlast : ¬k < n - 1 := by
            rw [hn, List.length_cons, List.length_nil]
            omega
          simp [hlast, List.intercalate]
      | cons next posts =>
          have hmore : k < n - 1 := by
            rw [hn, List.length_cons, List.length_cons]
            omega
          simp [hmore, List.intercalate, String.toList_append]

theorem toList_writePosts (posts : List Post) :
    (writePosts posts).toList = List.intercalate ['\n']
      (posts.map fun post => (marshalText post).toList) :=
  foldl_writePosts posts posts.length 0 "" (Nat.zero_add _).symm

theorem mapM_unmarshalText (posts : List Post) :
    ((posts.map fun post => (marshalText post).toList).mapM fun line =>
      (unmarshalText (String.ofList line) : Option Post)) = some posts := by
  induction posts with
  | nil => rfl
  | cons post posts ih => simp [ih]

/-- The posts of a body are those that were written. -/
theorem readLines_writePosts (posts : List Post) :
    readLines (writePosts posts) = some posts := by
  have htext := toList_writePosts posts
  cases posts with
  | nil => rfl
  | cons post posts =>
      have hne : writePosts (post :: posts) ≠ "" := by
        intro hempty
        rw [hempty, String.toList_empty] at htext
        have hpost := marshalText_ne_nil post
        cases posts with
        | nil => exact hpost (by simpa [List.intercalate] using htext.symm)
        | cons next posts => simp [List.intercalate] at htext
      rw [readLines, if_neg hne, htext, List.splitOn_intercalate]
      · exact mapM_unmarshalText (post :: posts)
      · intro line hline
        obtain ⟨other, -, rfl⟩ := List.mem_map.mp hline
        exact newline_not_mem_marshalText other
      · simp

/-! ## What is read -/

/-- Stored posts with the ids, each once, with one missing at most. -/
structure Listed (stores : PostStorage.Stores) (ids : List Int64)
    (read : List Post) : Prop where
  nodup : read.Nodup
  stored : ∀ post ∈ read, post ∈ stores.posts ∧ post.postID ∈ ids
  missing : (stores.requested ids).length ≤ read.length + 1

theorem Listed.nil {stores : PostStorage.Stores} : Listed stores [] [] where
  nodup := List.nodup_nil
  stored _ hmem := absurd hmem List.not_mem_nil
  missing := by simp [Stores.requested]

theorem readPosts_listed (order : FindOrder) {stores : PostStorage.Stores}
    (hgood : stores.Coherent) {ids : List Int64} (hids : ids.Nodup) :
    ∃ read, (ReadPosts order stores ids).1 = .ok read ∧
      Listed stores ids read := by
  obtain ⟨cached, hcached, hread⟩ := readPosts_eq order ids hgood
  have hperm := append_uncached_perm order hgood hids hcached
  have hsublist : (cached ++ (uncached order stores ids cached).tail).Sublist
      (cached ++ uncached order stores ids cached) :=
    List.Sublist.append_left (List.tail_sublist _) _
  refine ⟨_, congrArg Prod.fst hread, ?_, ?_, ?_⟩
  · have hstored : stores.posts.Nodup := hgood.ids.of_map _
    exact (hperm.nodup_iff.mpr (hstored.filter _)).sublist hsublist
  · intro post hpost
    have hrequested := hperm.subset (hsublist.subset hpost)
    rw [Stores.requested, List.mem_filter, decide_eq_true_eq] at hrequested
    exact hrequested
  · rw [← hperm.length_eq, List.length_append, List.length_append,
      List.length_tail]
    omega

theorem Listed.length_le {stores : PostStorage.Stores} {ids : List Int64}
    {read : List Post} (hgood : stores.Coherent)
    (hlisted : Listed stores ids read) : read.length ≤ ids.length := by
  have hids : (read.map Post.postID).Nodup := by
    refine hlisted.nodup.map_on ?_
    intro post hpost other hother hid
    exact hgood.eq_of_postID (hlisted.stored post hpost).1
      (hlisted.stored other hother).1 hid
  have hsubset : read.map Post.postID ⊆ ids := by
    intro id hid
    obtain ⟨post, hpost, rfl⟩ := List.mem_map.mp hid
    exact (hlisted.stored post hpost).2
  have hlength := (List.subperm_of_subset hids hsubset).length_le
  rwa [List.length_map] at hlength

/-! ## Responses -/

section Responses

variable {order : FindOrder} {posts : PostStorage.Stores} {userID : Int64}
  {form : Form}

theorem validateReadTimelineParams_ok
    (hform : parseID (form "user_id") = .ok userID) :
    validateReadTimelineParams (.ok form) = .ok ⟨userID, 0, 10⟩ := by
  have hne : form "user_id" ≠ "" := by
    intro hempty
    rw [hempty] at hform
    cases hform
  simp only [validateReadTimelineParams, if_pos hne, hform]

theorem readTimelineHandler_ok {ε σ : Type}
    {read : Int64 → Int64 → Int64 → Except ε (List Post) × σ} {stores : σ}
    {listed : List Post} (hform : parseID (form "user_id") = .ok userID)
    (hread : (read userID 0 10).1 = .ok listed) :
    (readTimelineHandler read stores (.ok form)).1 =
      .success (writePosts listed) := by
  unfold readTimelineHandler
  simp only [validateReadTimelineParams_ok hform]
  generalize read userID 0 10 = reply at hread ⊢
  obtain ⟨result, after⟩ := reply
  cases hread
  rfl

theorem length_window_ten (timeline : List Int64) :
    (window timeline 0 10).length ≤ 10 :=
  length_window_le timeline 0 10

theorem readHomeTimeline_listed (order : FindOrder)
    {redis : String → SortedSet Int String}
    (hposts : posts.Coherent) (hset : HoldsIDs (redis (idText userID))) :
    ∃ ids read, HomeTimeline.readCachedTimeline redis userID 0 10 =
        .ok ids ∧ ids.length ≤ 10 ∧
      (HomeTimeline.ReadHomeTimeline order posts redis userID 0 10).1 =
        .ok read ∧ Listed posts ids read := by
  obtain ⟨timeline, htimeline, hnodup⟩ := hset.exists_timeline
  obtain ⟨read, hread, hlisted⟩ := readPosts_listed order hposts
    (HomeTimeline.nodup_window hnodup 0 10)
  refine ⟨window timeline 0 10, read,
    UserTimeline.readCachedTimeline_eq htimeline (by decide) (by decide),
    length_window_ten timeline, ?_, hlisted⟩
  rw [HomeTimeline.readHomeTimeline_eq order htimeline (by decide)
    (by decide), hread]
  rfl

/-- The posts written for the user, each once, newest first. -/
structure TimelineOf (writes : List Write) (userID : Int64)
    (timeline : List Int64) : Prop where
  nodup : timeline.Nodup
  mem_iff : ∀ postID, postID ∈ timeline ↔
    ∃ write ∈ writes, write.userID = userID ∧ write.postID = postID
  sorted : timeline.Pairwise fun a b =>
    sortKey writes userID b < sortKey writes userID a

theorem readUserTimeline_listed (order : FindOrder)
    {stores : UserTimeline.Stores} {writes : List Write}
    (hposts : posts.Coherent) (hgood : stores.Holds writes)
    (hexact : UserTimeline.Exact writes) (userID : Int64) :
    ∃ timeline read, TimelineOf writes userID timeline ∧
      (ReadUserTimeline order posts stores userID 0 10).result = .ok read ∧
      Listed posts (window timeline 0 10) read := by
  obtain ⟨timeline, htimeline⟩ := hgood.exists_timeline userID
  have hnodup : timeline.Nodup := by
    have hmembers := (stores.redis (idText userID)).members_nodup
    rw [← List.nodup_reverse, htimeline] at hmembers
    exact hmembers.of_map _
  have hof : TimelineOf writes userID timeline :=
    ⟨hnodup, hgood.mem_timeline_iff htimeline,
      hgood.pairwise hexact htimeline⟩
  rw [hgood.read htimeline (by decide) (by decide)]
  by_cases hempty : timeline = []
  · refine ⟨timeline, [], hof, by rw [if_pos hempty], ?_⟩
    rw [hempty]
    exact .nil
  · obtain ⟨read, hread, hlisted⟩ := readPosts_listed order hposts
      (HomeTimeline.nodup_window hnodup 0 10)
    refine ⟨timeline, read, hof, ?_, hlisted⟩
    rw [if_neg hempty, fetch, hread]
    rfl

/-- Both handlers answer with ten posts at most, which a client reads back
from the lines of the body: stored posts of the window, each once, with one
missing at most.  The window of a user's timeline is that of the posts written
for the user, as long as Redis has lost none. -/
theorem timeline_bodies (order : FindOrder) (hposts : posts.Coherent)
    (hform : parseID (form "user_id") = .ok userID) :
    (∀ redis, HoldsIDs (redis (idText userID)) → ∃ ids read body,
      HomeTimeline.readCachedTimeline redis userID 0 10 = .ok ids ∧
      (readHomeTimelineHandler order posts redis (.ok form)).1 =
        .success body ∧
      readLines body = some read ∧ Listed posts ids read ∧
      read.length ≤ 10) ∧
    ∀ calls, UserTimeline.Exact (written calls) →
      ∃ stores timeline read body,
      run UserTimeline.step UserTimeline.Stores.empty calls = some stores ∧
      TimelineOf (written calls) userID timeline ∧
      (readUserTimelineHandler order posts stores (.ok form)).1 =
        .success body ∧
      readLines body = some read ∧
      Listed posts (window timeline 0 10) read ∧ read.length ≤ 10 := by
  constructor
  · intro redis hset
    obtain ⟨ids, read, hids, hlength, hread, hlisted⟩ :=
      readHomeTimeline_listed order hposts hset
    exact ⟨ids, read, writePosts read, hids,
      readTimelineHandler_ok hform hread, readLines_writePosts read,
      hlisted, (hlisted.length_le hposts).trans hlength⟩
  · intro calls hexact
    obtain ⟨stores, hrun, hgood⟩ := UserTimeline.run_holds calls
    obtain ⟨timeline, read, hof, hread, hlisted⟩ :=
      readUserTimeline_listed order hposts hgood hexact userID
    exact ⟨stores, timeline, read, writePosts read, hrun, hof,
      readTimelineHandler_ok hform hread, readLines_writePosts read,
      hlisted,
      (hlisted.length_le hposts).trans (length_window_ten timeline)⟩

end Responses

def sampleForm : Form
  | "user_id" => "5"
  | _ => ""

/-- Three posts are written for user 5, with a read in between. -/
def sampleCalls : List UserTimeline.Call :=
  [.write ⟨7, 5, 100⟩, .write ⟨8, 5, 200⟩,
    .read FindOrder.natural HomeTimeline.threePosts 5 0 10,
    .write ⟨9, 5, 300⟩]

/-- Two of the three posts are read at least, from either timeline. -/
theorem timeline_bodies_sample :
    (∃ read body,
      (readHomeTimelineHandler FindOrder.natural HomeTimeline.threePosts
        HomeTimeline.sampleTimelines (.ok sampleForm)).1 = .success body ∧
      readLines body = some read ∧ read.Nodup) ∧
    ∃ stores read body,
      run UserTimeline.step UserTimeline.Stores.empty sampleCalls =
        some stores ∧
      (readUserTimelineHandler FindOrder.natural HomeTimeline.threePosts
        stores (.ok sampleForm)).1 = .success body ∧
      readLines body = some read ∧ read.Nodup ∧ 2 ≤ read.length := by
  have hform : parseID (sampleForm "user_id") = .ok 5 := parseID_idText 5
  obtain ⟨hhome, huser⟩ := timeline_bodies FindOrder.natural
    HomeTimeline.threePosts_coherent hform
  constructor
  · obtain ⟨ids, read, body, -, hbody, hread, hlisted, -⟩ :=
      hhome HomeTimeline.sampleTimelines
        HomeTimeline.holdsIDs_sampleTimelines
    exact ⟨read, body, hbody, hread, hlisted.nodup⟩
  · have hwritten : written sampleCalls =
        [⟨7, 5, 100⟩, ⟨8, 5, 200⟩, ⟨9, 5, 300⟩] := rfl
    have hexact : UserTimeline.Exact (written sampleCalls) := by
      rw [hwritten]
      unfold UserTimeline.Exact
      decide
    obtain ⟨stores, timeline, read, body, hrun, hof, hbody, hread, hlisted,
      -⟩ := huser sampleCalls hexact
    refine ⟨stores, read, body, hrun, hbody, hread, hlisted.nodup, ?_⟩
    have hmem : ∀ id, id ∈ timeline ↔ id = 7 ∨ id = 8 ∨ id = 9 := by
      intro id
      rw [hof.mem_iff, hwritten]
      simp [eq_comm]
    have hlength : timeline.length ≤ 3 := by
      have hsubset : timeline ⊆ [7, 8, 9] := by
        intro id hid
        simpa using (hmem id).mp hid
      exact (List.subperm_of_subset hof.nodup hsubset).length_le
    have hwindow : window timeline 0 10 = timeline :=
      List.take_of_length_le (by simp; omega)
    have hmissing := hlisted.missing
    rw [hwindow, Stores.requested] at hmissing
    simp only [hmem] at hmissing
    have hthree : 3 ≤ (HomeTimeline.threePosts.posts.filter fun post =>
        decide (post.postID = 7 ∨ post.postID = 8 ∨ post.postID = 9)).length :=
      by decide
    exact Nat.le_of_succ_le_succ (hthree.trans hmissing)

end SocialNetwork.ReadHandlers
