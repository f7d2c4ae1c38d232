import SocialNetwork.PostedTimelines
import SocialNetwork.UserTimelineRuns
import SocialNetwork.UserTimelineSoundness

/-!
# What was posted is read

What holds of one compose request alone holds of each view, also when other
requests write to the timelines.  So a success reply means the same as for a
request alone, and the timelines hold the writes of composed posts.
-/

namespace SocialNetwork.PostedTimelines

open Machine ComposePostHandler
open ComposePost (Method)
open ReadHandlers (Form readHomeTimelineHandler readUserTimelineHandler)

variable {ι : Type}

/-! ## Timelines that grow -/

/-- What is in the timelines stays there. -/
structure Grows (before after : UserTimeline.Stores) : Prop where
  collection : before.collection ⊆ after.collection
  redis : ∀ key, (before.redis key).members ⊆ (after.redis key).members

theorem Grows.refl (timelines : UserTimeline.Stores) :
    Grows timelines timelines where
  collection := List.Subset.refl _
  redis _ := List.Subset.refl _

/-- The write of a composed post. -/
def writeOf (post : Post) : UserTimeline.Write :=
  ⟨post.postID, post.creator.userID, post.timestamp⟩

theorem writeUserTimelineWith_eq {calls : UserTimeline.WriteCalls}
    (hfind : calls.find = true) (hinsertOne : calls.insertOne = .done)
    (hzaddNX : calls.zaddNX.applied = true)
    (timelines : UserTimeline.Stores) (postID userID timestamp : Int64) :
    UserTimeline.WriteUserTimeline timelines postID userID timestamp =
      some (UserTimeline.WriteUserTimelineWith calls timelines postID userID
        timestamp).2 := by
  unfold UserTimeline.WriteUserTimelineWith
  rw [hfind, hinsertOne]
  cases hwrite : calls.zaddNX with
  | done => rfl
  | failed applied =>
      rw [hwrite] at hzaddNX
      cases hzaddNX
      rfl

theorem Grows.write {timelines next : UserTimeline.Stores}
    (write : UserTimeline.Write)
    (hnext : UserTimeline.WriteUserTimeline timelines write.postID
      write.userID write.timestamp = some next) : Grows timelines next := by
  rw [UserTimeline.writeUserTimeline_eq, Option.some.injEq] at hnext
  subst hnext
  constructor
  · exact List.subset_append_left _ _
  · intro key text htext
    simp only [UserTimeline.Stores.zaddNX]
    by_cases hkey : key = idText write.userID
    · subst hkey
      rw [Function.update_self, SortedSet.mem_members_addNX]
      exact .inr htext
    · rw [Function.update_of_ne hkey]
      exact htext

section Grow

variable {deployment : ComposePostHandler.Deployment} {request : Request}
  {posts : List Post} {timelines : UserTimeline.Stores}

theorem delivered_grow {stores : ComposePostHandler.Stores} {post : Post}
    (hdelivered : Delivered deployment request posts stores post)
    (hgrows : Grows stores.timelines timelines) :
    Delivered deployment request posts
      { stores with timelines := timelines } post where
  composed := hdelivered.composed
  stored := hdelivered.stored
  published := hdelivered.published
  mongoDB := by
    obtain ⟨timeline, huser, hmem, hpost⟩ := hdelivered.mongoDB
    exact ⟨timeline, huser, hgrows.collection hmem, hpost⟩
  redis := hgrows.redis _ hdelivered.redis

theorem effects_grow {labels : List ComposePostHandler.Label}
    {state : ComposePostHandler.State}
    (hgood : Effects deployment request posts labels state)
    (hgrows : Grows state.stores.timelines timelines) :
    Effects deployment request posts labels
      ⟨{ state.stores with timelines := timelines }, state.phase⟩ where
  waiting := hgood.waiting
  composer method hget := by
    have hcomposer := hgood.composer method hget
    dsimp only
    cases hphase : state.phase method with
    | returned err =>
        rw [hphase] at hcomposer
        cases err with
        | none =>
            obtain ⟨post, hdelivered⟩ := hcomposer
            exact ⟨post, delivered_grow hdelivered hgrows⟩
        | some err => trivial
    | _ =>
        rw [hphase] at hcomposer
        exact hcomposer

end Grow

/-! ## The invariant -/

def Label.composing [DecidableEq ι] (i : ι) :
    Label ι → Option ComposePostHandler.Label
  | .compose j label => if j = i then some label else none
  | _ => none

/-- The steps of one request. -/
def composing [DecidableEq ι] (i : ι) (labels : List (Label ι)) :
    List ComposePostHandler.Label :=
  labels.filterMap (Label.composing i)

def Label.Delivers (deployment : Deployment ι) : Label ι → Prop
  | .compose i label => label.Delivers (deployment.request i)
  | _ => True

structure Good [DecidableEq ι] (deployment : Deployment ι)
    (labels : List (Label ι)) (state : State ι) : Prop where
  accounting : ∀ i, Accounting (deployment.request i) (composing i labels)
    (state.view deployment i)
  effects : ∀ i, Effects deployment.compose (deployment.request i) []
    (composing i labels) (state.view deployment i)
  composed : ∀ post ∈ state.posts.posts, ∃ i,
    (deployment.request i).Composes post
  cache : state.posts.CacheHolds
  timelines : ∃ writes, state.timelines.Holds writes ∧
    ∀ write ∈ writes, ∃ post ∈ state.posts.posts, write = writeOf post

/-- What a step of a request does to the shared stores. -/
structure Moves (deployment : Deployment ι) (i : ι) (state next : State ι) :
    Prop where
  posts : state.posts.posts ⊆ next.posts.posts
  composed : ∀ post ∈ next.posts.posts, post ∈ state.posts.posts ∨
    (deployment.request i).Composes post
  cache : next.posts.cache = state.posts.cache
  timelines : next.timelines = state.timelines ∨
    ∃ post ∈ state.posts.posts,
      UserTimeline.WriteUserTimeline state.timelines post.postID
        post.creator.userID post.timestamp = some next.timelines

theorem Moves.grows {deployment : Deployment ι} {i : ι}
    {state next : State ι}
    (hmoves : Moves deployment i state next) :
    Grows state.timelines next.timelines := by
  rcases hmoves.timelines with hsame | ⟨post, -, hwrite⟩
  · rw [hsame]
    exact Grows.refl _
  · exact Grows.write (writeOf post) hwrite

section Steps

variable [DecidableEq ι] {deployment : Deployment ι}
  {labels : List (Label ι)} {state : State ι}

theorem Good.initial : Good deployment [] (State.initial : State ι) where
  accounting _ := State.start_accounting _ _ _ _
  effects _ := State.start_effects _ _ _ _ _
  composed _ hpost := absurd hpost List.not_mem_nil
  cache _ _ hjson := nomatch hjson
  timelines := ⟨[], .empty, fun _ hwrite => absurd hwrite List.not_mem_nil⟩

theorem composing_self (i : ι) (labels : List (Label ι))
    (label : ComposePostHandler.Label) :
    composing i (labels ++ [.compose i label]) =
      composing i labels ++ [label] := by
  simp [composing, Label.composing]

theorem composing_of_none {i : ι} {label : Label ι}
    (hlabel : label.composing i = none) (labels : List (Label ι)) :
    composing i (labels ++ [label]) = composing i labels := by
  simp [composing, hlabel]

theorem view_put_self (i : ι) (next : ComposePostHandler.State) :
    (state.put deployment i next).view deployment i =
      viewState (deployment.reqID i) next := by
  simp [State.view, viewState, viewStores, State.put, State.composeState]

/-- What a step of one request leaves of the view of another. -/
theorem view_put_of_ne (hreqIDs : Function.Injective deployment.reqID)
    {i j : ι} (hne : j ≠ i) {label : ComposePostHandler.Label}
    {next : ComposePostHandler.State}
    (hown : ∀ method, OwnPhase (deployment.request i)
      (state.phase i method))
    (hstep : ComposePostHandler.step deployment.compose
      (deployment.request i) (state.composeState deployment i) label =
        some next) :
    (state.put deployment i next).view deployment j =
      ⟨{ (state.view deployment j).stores with
          timelines := next.stores.timelines },
        (state.view deployment j).phase⟩ := by
  have hreqID : deployment.reqID j ≠ deployment.reqID i :=
    fun h => hne (hreqIDs h)
  obtain ⟨stores, phase, hact, rfl⟩ := step_cases hstep
  obtain ⟨hposts, hpublished⟩ := act_frame (hown label.method) hact hreqID.symm
  unfold viewStores at hposts hpublished
  simp only [State.view, viewState, viewStores, State.put,
    State.composeState, ComposePostHandler.State.set,
    Function.update_of_ne hne, Function.update_of_ne hreqID] at *
  rw [hposts, hpublished]

theorem Good.own (hgood : Good deployment labels state) (i : ι)
    (method : Method) :
    OwnPhase (deployment.request i) (state.phase i method) :=
  ownPhase_of_good ((hgood.accounting i).phase method)

/-- A method writes to the timelines the post that it has stored. -/
theorem Good.publishing_mem (hgood : Good deployment labels state) {i : ι}
    {method : Method} {post : Post} {regions : List String}
    (hphase : state.phase i method = .publishing post regions) :
    post ∈ state.posts.posts := by
  have hsixth := (hgood.accounting i).phase method
  have hcomposer := (hgood.effects i).composer method
  have hview : ((state.view deployment i).phase method) =
      .publishing post regions := hphase
  rw [hview] at hsixth hcomposer
  have hstored := (hcomposer hsixth.1).1
  have hmem : post ∈ (state.view deployment i).stores.posts := by
    rw [hstored]
    exact List.mem_append_right _ (List.mem_singleton_self post)
  exact (List.mem_filter.mp hmem).1

theorem Good.moves (hgood : Good deployment labels state) {i : ι}
    {label : ComposePostHandler.Label} {next : ComposePostHandler.State}
    (hdelivers : label.Delivers (deployment.request i))
    (hstep : ComposePostHandler.step deployment.compose
      (deployment.request i) (state.composeState deployment i) label =
        some next) :
    Moves deployment i state (state.put deployment i next) := by
  have hphase := (hgood.accounting i).phase label.method
  obtain ⟨stores, phase, hact, rfl⟩ := step_cases hstep
  obtain ⟨method, action⟩ := label
  rcases act_stores hact with ⟨hposts, -, htimelines⟩ |
    ⟨post, hstoring, rfl⟩ | ⟨post, regions, region, -, rfl⟩ |
    ⟨calls, post, rfl, hpublishing, rfl⟩
  · have hsame : (state.put deployment i
        ((state.composeState deployment i).set method stores
          phase)).posts.posts = state.posts.posts := hposts
    exact ⟨by rw [hsame]; exact List.Subset.refl _,
      fun post hpost => .inl (hsame ▸ hpost), rfl, .inl htimelines⟩
  · have hstoring' : (state.view deployment i).phase method =
        .storing post := hstoring
    rw [hstoring'] at hphase
    refine ⟨List.subset_append_left _ _, ?_, rfl, .inl rfl⟩
    intro other hother
    rcases List.mem_append.mp hother with hold | hnew
    · exact .inl hold
    · rw [List.mem_singleton.mp hnew]
      exact .inr hphase.2
  · exact ⟨List.Subset.refl _, fun _ hpost => .inl hpost, rfl, .inl rfl⟩
  · obtain ⟨hfind, hinsertOne, hzaddNX⟩ := hdelivers
    exact ⟨List.Subset.refl _, fun _ hpost => .inl hpost, rfl,
      .inr ⟨post, hgood.publishing_mem hpublishing,
        writeUserTimelineWith_eq hfind hinsertOne hzaddNX _ _ _ _⟩⟩

theorem Good.compose (hreqIDs : Function.Injective deployment.reqID)
    (hgood : Good deployment labels state) {i : ι}
    {label : ComposePostHandler.Label} {next : ComposePostHandler.State}
    (hdelivers : label.Delivers (deployment.request i))
    (hstep : ComposePostHandler.step deployment.compose
      (deployment.request i) (state.composeState deployment i) label =
        some next) :
    Good deployment (labels ++ [.compose i label])
      (state.put deployment i next) := by
  have hview := step_view (hgood.own i) hstep
  have hmoves := hgood.moves hdelivers hstep
  have hother : ∀ j, j ≠ i → composing j
      (labels ++ [.compose i label]) = composing j labels := by
    intro j hne
    have hnone : (Label.compose i label).composing j = none :=
      if_neg hne.symm
    exact composing_of_none hnone labels
  refine ⟨?_, ?_, ?_, ?_, ?_⟩
  · intro j
    by_cases hj : j = i
    · subst hj
      rw [composing_self, view_put_self]
      exact (hgood.accounting j).step hdelivers hview
    · rw [hother j hj, view_put_of_ne hreqIDs hj (hgood.own i) hstep]
      have haccounting := hgood.accounting j
      exact ⟨haccounting.nodup, haccounting.counter, haccounting.hash,
        haccounting.phase⟩
  · intro j
    by_cases hj : j = i
    · subst hj
      rw [composing_self, view_put_self]
      exact (hgood.effects j).step (hgood.accounting j) hdelivers hview
    · rw [hother j hj, view_put_of_ne hreqIDs hj (hgood.own i) hstep]
      exact effects_grow (hgood.effects j) hmoves.grows
  · intro post hpost
    rcases hmoves.composed post hpost with hold | hcomposes
    · exact hgood.composed post hold
    · exact ⟨i, hcomposes⟩
  · intro id json hjson
    rw [hmoves.cache] at hjson
    obtain ⟨post, hpost, hid⟩ := hgood.cache id json hjson
    exact ⟨post, hmoves.posts hpost, hid⟩
  · obtain ⟨writes, hholds, hwrites⟩ := hgood.timelines
    have hkept : ∀ write ∈ writes, ∃ post ∈ (state.put deployment i
        next).posts.posts, write = writeOf post := by
      intro write hwrite
      obtain ⟨post, hpost, heq⟩ := hwrites write hwrite
      exact ⟨post, hmoves.posts hpost, heq⟩
    rcases hmoves.timelines with hsame | ⟨post, hpost, hwrite⟩
    · rw [hsame]
      exact ⟨writes, hholds, hkept⟩
    · obtain ⟨timelines, htimelines, hnext⟩ := hholds.write (writeOf post)
      have hsame := Option.some.inj (hwrite.symm.trans htimelines)
      rw [hsame]
      refine ⟨writes ++ [writeOf post], hnext, ?_⟩
      intro write hmem
      rcases List.mem_append.mp hmem with hold | hnew
      · exact hkept write hold
      · exact ⟨post, hmoves.posts hpost, List.mem_singleton.mp hnew⟩

/-- A step that leaves the posts and the timelines alone. -/
theorem Good.congr (hgood : Good deployment labels state) {label : Label ι}
    (hlabel : ∀ i, label.composing i = none) {next : State ι}
    (hviews : ∀ i, next.view deployment i = state.view deployment i)
    (hposts : next.posts.posts = state.posts.posts)
    (htimelines : next.timelines = state.timelines)
    (hcache : next.posts.CacheHolds) :
    Good deployment (labels ++ [label]) next where
  accounting i := by
    rw [composing_of_none (hlabel i), hviews]
    exact hgood.accounting i
  effects i := by
    rw [composing_of_none (hlabel i), hviews]
    exact hgood.effects i
  composed := by
    rw [hposts]
    exact hgood.composed
  cache := hcache
  timelines := by
    rw [htimelines, hposts]
    exact hgood.timelines

end Steps

/-! ## Reads -/

theorem tryNext_subset {cur after : PostStorage.Cursor} {found : Bool}
    (hnext : cur.tryNext = (found, after)) : after.rest ⊆ cur.rest := by
  obtain ⟨rest⟩ := cur
  cases rest with
  | nil =>
      cases hnext
      exact List.Subset.refl _
  | cons post rest =>
      cases hnext
      exact List.subset_cons_self _ _

/-- `ReadPosts` caches stored posts. -/
theorem readPosts_stores (order : PostStorage.FindOrder)
    {stores : PostStorage.Stores} (hcache : stores.CacheHolds)
    (postIDs : List Int64) :
    (PostStorage.ReadPosts order stores postIDs).2.posts = stores.posts ∧
      (PostStorage.ReadPosts order stores postIDs).2.CacheHolds := by
  unfold PostStorage.ReadPosts
  dsimp only
  split
  next => exact ⟨rfl, hcache⟩
  next =>
    split
    next => exact ⟨rfl, hcache⟩
    next posts _ =>
      split
      next =>
        split
        next => exact ⟨rfl, hcache⟩
        next cur htry =>
          refine ⟨rfl, PostStorage.cacheHolds_foldl ?_ hcache⟩
          intro post hpost
          have hfound := (order.perm _ _).subset (tryNext_subset htry hpost)
          exact (List.mem_filter.mp hfound).1
      next => exact ⟨rfl, hcache⟩

theorem readHomeTimelineHandler_stores (order : PostStorage.FindOrder)
    {posts : PostStorage.Stores} (hcache : posts.CacheHolds)
    (redis : String → SortedSet Int String) (form : Except String Form) :
    (readHomeTimelineHandler order posts redis form).2.posts = posts.posts ∧
      (readHomeTimelineHandler order posts redis form).2.CacheHolds := by
  refine ReadHandlers.readTimelineHandler_stores
    (P := fun after : PostStorage.Stores =>
      after.posts = posts.posts ∧ after.CacheHolds)
    ⟨rfl, hcache⟩ ?_ form
  intro userID start stop
  unfold HomeTimeline.ReadHomeTimeline
  split
  next => exact ⟨rfl, hcache⟩
  next =>
    split
    next => exact ⟨rfl, hcache⟩
    next ids _ => exact readPosts_stores order hcache ids

theorem readUserTimeline_posts (order : PostStorage.FindOrder)
    {posts : PostStorage.Stores} (hcache : posts.CacheHolds)
    (timelines : UserTimeline.Stores) (userID start stop : Int64) :
    (UserTimeline.ReadUserTimeline order posts timelines userID start
        stop).posts.posts = posts.posts ∧
      (UserTimeline.ReadUserTimeline order posts timelines userID start
        stop).posts.CacheHolds := by
  unfold UserTimeline.ReadUserTimeline
  dsimp only
  split
  next => exact ⟨rfl, hcache⟩
  next =>
    split
    next => exact ⟨rfl, hcache⟩
    next ids _ =>
      split
      next =>
        split
        next => exact ⟨rfl, hcache⟩
        next =>
          split
          next => exact ⟨rfl, hcache⟩
          next => exact readPosts_stores order hcache _
      next => exact readPosts_stores order hcache ids

theorem readUserTimelineHandler_stores (order : PostStorage.FindOrder)
    {posts : PostStorage.Stores} (hcache : posts.CacheHolds)
    {timelines : UserTimeline.Stores} {writes : List UserTimeline.Write}
    (hholds : timelines.Holds writes) (form : Except String Form) :
    (readUserTimelineHandler order posts timelines form).2.1 = timelines ∧
      (readUserTimelineHandler order posts timelines form).2.2.posts =
        posts.posts ∧
      (readUserTimelineHandler order posts timelines
        form).2.2.CacheHolds := by
  refine ReadHandlers.readTimelineHandler_stores
    (P := fun after : UserTimeline.Stores × PostStorage.Stores =>
      after.1 = timelines ∧ after.2.posts = posts.posts ∧
        after.2.CacheHolds) ⟨rfl, rfl, hcache⟩ ?_ form
  intro userID start stop
  exact ⟨hholds.read_stores,
    readUserTimeline_posts order hcache timelines userID start stop⟩

section Runs

variable [DecidableEq ι] {deployment : Deployment ι}
  {labels : List (Label ι)} {state : State ι}

theorem Good.step (hreqIDs : Function.Injective deployment.reqID)
    (hgood : Good deployment labels state) {label : Label ι}
    {next : State ι} (hdelivers : label.Delivers deployment)
    (hstep : PostedTimelines.step deployment state label = some next) :
    Good deployment (labels ++ [label]) next := by
  cases label with
  | compose i label =>
      obtain ⟨after, hafter, rfl⟩ := Option.map_eq_some_iff.mp hstep
      exact hgood.compose hreqIDs hdelivers hafter
  | readHomeTimeline order redis form =>
      cases hstep
      obtain ⟨hposts, hcache⟩ :=
        readHomeTimelineHandler_stores order hgood.cache redis form
      refine hgood.congr (fun _ => rfl) ?_ hposts rfl hcache
      intro i
      simp only [State.view, State.composeState, hposts]
  | readUserTimeline order form =>
      cases hstep
      obtain ⟨writes, hholds, -⟩ := hgood.timelines
      obtain ⟨htimelines, hposts, hcache⟩ :=
        readUserTimelineHandler_stores order hgood.cache hholds form
      refine hgood.congr (fun _ => rfl) ?_ hposts htimelines hcache
      intro i
      simp only [State.view, State.composeState, hposts, htimelines]
  | evict key =>
      cases hstep
      refine hgood.congr (fun _ => rfl) (fun _ => rfl) rfl rfl ?_
      intro id json hjson
      dsimp only at hjson ⊢
      by_cases hkey : idText id = key
      · simp [hkey] at hjson
      · rw [Function.update_of_ne hkey] at hjson
        exact hgood.cache id json hjson

theorem Good.of_run (hreqIDs : Function.Injective deployment.reqID)
    (hdelivers : ∀ label ∈ labels, label.Delivers deployment)
    (hrun : run (PostedTimelines.step deployment) State.initial labels =
      some state) : Good deployment labels state :=
  run_induction_of_labels (P := Good deployment) Good.initial
    (fun _ _ _ _ hlabel hgood hstep => hgood.step hreqIDs hlabel hstep)
    hdelivers hrun

/-! ## What was posted is read -/

/-- A stored post of the request, published for every region and in both
timelines of its author. -/
structure Posted (deployment : Deployment ι) (state : State ι) (i : ι)
    (post : Post) : Prop where
  composed : (deployment.request i).Composes post
  stored : state.posts.posts.filter
    (fun post => post.reqID = deployment.reqID i) = [post]
  published : ∀ region ∈ deployment.compose.regions,
    (routingKey region, message post) ∈ state.published
  mongoDB : InMongoDB state.timelines post
  redis : InRedis state.timelines post

/-- The ids of the posts of a user, newest first. -/
structure Lists (deployment : Deployment ι) (state : State ι)
    (userID : Int64) (timeline : List Int64) : Prop where
  nodup : timeline.Nodup
  sound : ∀ postID ∈ timeline, ∃ post ∈ state.posts.posts,
    post.postID = postID ∧ ∃ i, (deployment.request i).Composes post ∧
      (deployment.request i).params.userID = userID
  complete : ∀ i post, Posted deployment state i post →
    (deployment.request i).params.userID = userID →
    post.postID ∈ timeline
  ordered : timeline.Pairwise fun a b =>
    ∀ post ∈ state.posts.posts, ∀ other ∈ state.posts.posts,
      post.postID = a → other.postID = b →
      float64 other.timestamp ≤ float64 post.timestamp

theorem Good.posted (hgood : Good deployment labels state) {i : ι}
    {response : String}
    (hreply : state.reply deployment i = some (.ok response)) :
    ∃ post, Posted deployment state i post := by
  have hphase : ∀ method,
      (state.view deployment i).phase method = .returned none := by
    intro method
    have hresult := result_of_success hreply method
    unfold ComposePostHandler.State.result Phase.result at hresult
    split at hresult
    next err hreturned =>
      rw [Option.some.injEq] at hresult
      rw [← hresult]
      exact hreturned
    next => cases hresult
  have hall : ∀ method, method ∈ increments (composing i labels) := by
    intro method
    have hmethod := (hgood.accounting i).phase method
    rw [hphase] at hmethod
    exact hmethod rfl
  obtain ⟨method, hget⟩ := exists_sixth (hgood.accounting i).nodup hall
  have hcomposer := (hgood.effects i).composer method hget
  rw [hphase] at hcomposer
  obtain ⟨post, hdelivered⟩ := hcomposer
  refine ⟨post, hdelivered.composed, hdelivered.stored, ?_,
    hdelivered.mongoDB, hdelivered.redis⟩
  intro region hregion
  exact (List.mem_filter.mp (hdelivered.published region hregion)).1

/-- The sorted set of a user lists the posts of the user. -/
theorem Good.lists (hgood : Good deployment labels state)
    (hids : (state.posts.posts.map Post.postID).Nodup) (userID : Int64) :
    ∃ timeline : List Int64, Lists deployment state userID timeline ∧
      (state.timelines.redis (idText userID)).members.reverse =
        timeline.map idText := by
  obtain ⟨writes, hholds, hwrites⟩ := hgood.timelines
  have htimestamp : ∀ postID timestamp,
      UserTimeline.firstTimestamp writes userID postID = some timestamp →
      ∃ post ∈ state.posts.posts, post.postID = postID ∧
        post.creator.userID = userID ∧ post.timestamp = timestamp := by
    intro postID timestamp hfirst
    obtain ⟨write, hfind, rfl⟩ := Option.map_eq_some_iff.mp hfirst
    have hkey := List.find?_some hfind
    obtain ⟨post, hpost, rfl⟩ :=
      hwrites write (List.mem_of_find?_eq_some hfind)
    rw [decide_eq_true_eq] at hkey
    exact ⟨post, hpost, hkey.2, hkey.1, rfl⟩
  have hscore : ∀ text score,
      (state.timelines.redis (idText userID)).score? text = some score ↔
        ∃ postID timestamp, UserTimeline.firstTimestamp writes userID
          postID = some timestamp ∧ text = idText postID ∧
          score = float64 timestamp := by
    intro text score
    constructor
    · intro hscore
      obtain ⟨postID, rfl⟩ := hholds.members userID text
        (SortedSet.isSome_score?_iff.mp (by rw [hscore]; rfl))
      rw [hholds.score, Option.map_eq_some_iff] at hscore
      obtain ⟨timestamp, hfirst, heq⟩ := hscore
      exact ⟨postID, timestamp, hfirst, rfl, heq.symm⟩
    · rintro ⟨postID, timestamp, hfirst, rfl, rfl⟩
      rw [hholds.score, hfirst, Option.map_some]
  obtain ⟨timeline, htimeline, hnodup, hmem, hordered⟩ :=
    UserTimeline.Concurrent.exists_timeline_of_score hscore
  refine ⟨timeline, ⟨hnodup, ?_, ?_, ?_⟩, htimeline⟩
  · intro postID hpostID
    obtain ⟨timestamp, hfirst⟩ := (hmem postID).mp hpostID
    obtain ⟨post, hpost, hid, huser, -⟩ := htimestamp postID timestamp hfirst
    obtain ⟨i, hcomposes⟩ := hgood.composed post hpost
    refine ⟨post, hpost, hid, i, hcomposes, ?_⟩
    rw [hcomposes.creator] at huser
    exact huser
  · intro i post hposted huser
    have hredis := hposted.redis
    have hcreator : post.creator.userID = userID := by
      rw [hposted.composed.creator]
      exact huser
    unfold InRedis at hredis
    rw [hcreator, ← List.mem_reverse, htimeline] at hredis
    exact (List.mem_map_of_injective idText_injective).mp hredis
  · refine hordered.imp_of_mem ?_
    intro a b ha hb hlater post hpost other hother hida hidb
    have hfirst : ∀ stored ∈ state.posts.posts, stored.postID ∈ timeline →
        UserTimeline.firstTimestamp writes userID stored.postID =
          some stored.timestamp := by
      intro stored hstored hlisted
      obtain ⟨timestamp, hfirst⟩ := (hmem _).mp hlisted
      obtain ⟨same, hsame, hid, -, htime⟩ := htimestamp _ timestamp hfirst
      have heq := List.inj_on_of_nodup_map hids hsame hstored hid
      rw [hfirst, ← htime, heq]
    subst hida hidb
    exact hlater _ _ (hfirst post hpost ha) (hfirst other hother hb)

/-- However the requests and the reads are interleaved: a success reply means
that the request has exactly one post, which is stored, published and in both
timelines of its author; and, with distinct post ids, a read of a user's
timeline answers with a body from which a client reads the newest posts of
that user's requests, each once, with one missing at most. -/
theorem posted_posts_read (hreqIDs : Function.Injective deployment.reqID)
    (hdelivers : ∀ label ∈ labels, label.Delivers deployment)
    (hrun : run (PostedTimelines.step deployment) State.initial labels =
      some state) :
    (∀ i response, state.reply deployment i = some (.ok response) →
      ∃ post, Posted deployment state i post) ∧
    ((state.posts.posts.map Post.postID).Nodup →
      ∀ (order : PostStorage.FindOrder) (form : Form) (userID : Int64),
      parseID (form "user_id") = .ok userID →
      ∃ timeline body read, Lists deployment state userID timeline ∧
        (readUserTimelineHandler order state.posts state.timelines
          (.ok form)).1 = .success body ∧
        ReadHandlers.readLines body = some read ∧
        ReadHandlers.Listed state.posts
          (UserTimeline.window timeline 0 10) read ∧
        ∀ post ∈ read, ∃ i, (deployment.request i).Composes post ∧
          (deployment.request i).params.userID = userID) := by
  have hgood := Good.of_run hreqIDs hdelivers hrun
  refine ⟨fun i response hreply => hgood.posted hreply, ?_⟩
  intro hids order form userID hform
  have hcoherent : state.posts.Coherent := ⟨hids, hgood.cache⟩
  obtain ⟨timeline, hlists, htimeline⟩ := hgood.lists hids userID
  obtain ⟨writes, hholds, -⟩ := hgood.timelines
  obtain ⟨read, hread, hlisted⟩ := ReadHandlers.readPosts_listed order
    hcoherent (HomeTimeline.nodup_window hlists.nodup 0 10)
  have hresult : (UserTimeline.ReadUserTimeline order state.posts
      state.timelines userID 0 10).result = .ok read := by
    rw [hholds.read htimeline (by decide) (by decide)]
    split
    next hempty =>
      have hnil : UserTimeline.window timeline 0 10 = [] := by
        rw [hempty]
        rfl
      rw [hnil] at hread
      exact congrArg Except.ok (Except.ok.inj hread)
    next => simp only [UserTimeline.fetch, hread, Except.mapError]
  refine ⟨timeline, ReadHandlers.writePosts read, read, hlists,
    ReadHandlers.readTimelineHandler_ok hform hresult,
    ReadHandlers.readLines_writePosts read, hlisted, ?_⟩
  intro post hpost
  obtain ⟨hstored, hwindow⟩ := hlisted.stored post hpost
  have hmem : post.postID ∈ timeline :=
    List.mem_of_mem_drop (List.mem_of_mem_take hwindow)
  obtain ⟨same, hsame, hid, i, hcomposes, huser⟩ :=
    hlists.sound post.postID hmem
  rw [hcoherent.eq_of_postID hsame hstored hid] at hcomposes
  exact ⟨i, hcomposes, huser⟩

end Runs

def sampleRequests (second : Bool) : Request :=
  { sampleRequest with
    params :=
      { sampleRequest.params with
        reqID := if second then 4 else 3 } }

def sampleDeployment : Deployment Bool where
  compose := ComposePostHandler.sampleDeployment
  request := sampleRequests

/-- The second request gets its post id at another time. -/
def later : ComposePostHandler.Label → ComposePostHandler.Label
  | ⟨method, .call answers⟩ =>
      ⟨method, .call { answers with timestamp := 6 }⟩
  | label => label

def sampleForm : Form
  | "user_id" => "7"
  | _ => ""

/-- Two requests step by step in turn, and a read after them. -/
def sampleLabels : List (Label Bool) :=
  (ComposePostHandler.sampleLabels .done).flatMap (fun label =>
    [.compose false label, .compose true (later label)]) ++
  [.readUserTimeline PostStorage.FindOrder.natural (.ok sampleForm)]

theorem actions_deliver {request : Request}
    (husernames : request.uploads.usernames = []) :
    ∀ label ∈ ComposePostHandler.sampleLabels .done,
      label.Delivers request := by
  have hupload : ∀ method, ∀ action ∈ uploadActions,
      ComposePostHandler.Label.Delivers request ⟨method, action⟩ := by
    simp [uploadActions, ComposePostHandler.Label.Delivers, husernames,
      UserMentions.userIDsCached]
  have hcompose : ∀ action ∈ composeActions .done,
      ComposePostHandler.Label.Delivers request ⟨.creator, action⟩ := by
    intro action haction
    rcases List.mem_append.mp haction with haction | haction
    · obtain ⟨key, -, rfl⟩ := List.mem_map.mp haction
      trivial
    · simp only [List.mem_cons, List.not_mem_nil, or_false] at haction
      rcases haction with rfl | rfl | rfl | rfl | rfl | rfl
      · trivial
      · trivial
      · trivial
      · trivial
      · rfl
      · exact ⟨rfl, rfl, rfl⟩
  intro label hlabel
  rcases List.mem_append.mp hlabel with hlabel | hlabel
  · obtain ⟨method, -, hlabel⟩ := List.mem_flatMap.mp hlabel
    obtain ⟨action, haction, rfl⟩ := List.mem_map.mp hlabel
    exact hupload method action haction
  · obtain ⟨action, haction, rfl⟩ := List.mem_map.mp hlabel
    exact hcompose action haction

theorem later_delivers {request : Request}
    {label : ComposePostHandler.Label} (hlabel : label.Delivers request) :
    (later label).Delivers request := by
  obtain ⟨method, action⟩ := label
  cases action <;> exact hlabel

theorem sampleLabels_deliver :
    ∀ label ∈ sampleLabels, label.Delivers sampleDeployment := by
  have husernames : ∀ second, (sampleRequests second).uploads.usernames =
      [] := by
    decide +kernel
  intro label hlabel
  rcases List.mem_append.mp hlabel with hlabel | hlabel
  · obtain ⟨action, haction, hlabel⟩ := List.mem_flatMap.mp hlabel
    rcases List.mem_pair.mp hlabel with rfl | rfl
    · exact actions_deliver (husernames false) action haction
    · exact later_delivers (actions_deliver (husernames true) action haction)
  · rw [List.mem_singleton.mp hlabel]
    trivial

theorem posted_posts_read_sample :
    ∃ state, run (PostedTimelines.step sampleDeployment) State.initial
        sampleLabels = some state ∧
      (∃ post, Posted sampleDeployment state true post) ∧
      ∃ body read, (readUserTimelineHandler PostStorage.FindOrder.natural
          state.posts state.timelines (.ok sampleForm)).1 = .success body ∧
        ReadHandlers.readLines body = some read := by
  have hrun : (run (PostedTimelines.step sampleDeployment) State.initial
      sampleLabels).any fun state =>
        decide (state.posts.posts.map Post.postID).Nodup &&
          decide ((state.reply sampleDeployment true) =
            some (.ok "success! user ana (id=7) composed post: hello\n")) := by
    decide +kernel
  obtain ⟨state, hrun, hstate⟩ := (Option.any_eq_true _ _).mp hrun
  rw [Bool.and_eq_true, decide_eq_true_eq, decide_eq_true_eq] at hstate
  have hreqIDs : Function.Injective sampleDeployment.reqID := by decide
  obtain ⟨hposted, hread⟩ :=
    posted_posts_read hreqIDs sampleLabels_deliver hrun
  obtain ⟨_, body, read, -, hbody, hlines, -⟩ := hread hstate.1
    PostStorage.FindOrder.natural sampleForm 7 (parseID_idText 7)
  exact ⟨state, hrun, hposted true _ hstate.2, body, read, hbody, hlines⟩

end SocialNetwork.PostedTimelines
