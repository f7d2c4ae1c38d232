import SocialNetwork.ApplicationRefinement
import SocialNetwork.FeedTermination

/-!
# Home timelines of composed posts

What holds of the feeds holds of the application: only composed posts of
followed authors, or with a mention, are in a home timeline; and a post whose
request was answered with success is on its way to every user it is for.
-/

namespace SocialNetwork.Application

open Json Machine
open ComposePostHandler (routingKey)
open Notification (Region)
open ReadHandlers (Form readHomeTimelineHandler)

variable {Run ι κ : Type}

/-- The user is mentioned, or asked to follow the author. -/
def Receives (deployment : Deployment Run ι κ) (state : State Run ι κ)
    (post : Post) (userID : Int64) : Prop :=
  userID ∈ post.userMentions.map UserMention.userID ∨
    Feeds.Asked (deployment.feeds fun _ => post)
      state.follows.service.users userID post.creator.userID

/-- A stored post of a request, for the user. -/
structure Shows (deployment : Deployment Run ι κ) (state : State Run ι κ)
    (userID : Int64) (post : Post) : Prop where
  composed : ∃ i, (deployment.posting.request i).Composes post
  stored : post ∈ state.posting.posts.posts
  receives : Receives deployment state post userID

/-! ## Both levels -/

section Levels

variable {deployment : Deployment Run ι κ} {state : State Run ι κ}
  {runs : Run → Notification.RunPhase} {post : Run → Post}

theorem primary_posts (deployment : Deployment Run ι κ)
    (state : State Run ι κ) (runs : Run → Notification.RunPhase) :
    (state.feeds deployment runs).posts.posts deployment.primary =
      state.posting.posts.posts :=
  Function.update_self _ _ _

end Levels

section Runs

variable [DecidableEq Run] [DecidableEq ι] [DecidableEq κ]
  {hashPwd : String → String} {deployment : Deployment Run ι κ}
  {labels before after : List (Label Run ι κ)}
  {start state : State Run ι κ}

/-- The application refines the machine of the feeds: for every run there is
one of the feeds, with the posts that the requests composed, in which the
steps that are not those of handlers are steps of the run, and which ends with
the same stores, messages, workers and home timelines. -/
theorem application_refines_feeds
    (hreqIDs : Function.Injective deployment.posting.reqID)
    (hdelivers : ∀ label ∈ labels, label.Delivers deployment)
    (hrun : run (step hashPwd deployment) State.initial labels =
      some state) :
    ∃ commands runs,
      run (Feeds.step hashPwd (deployment.feeds (state.composed deployment)))
          Feeds.State.initial commands =
        some (state.feeds deployment runs) ∧
      Matches deployment labels commands ∧
      ∀ i, ∀ post ∈ state.posting.posts.posts,
        post.reqID = deployment.posting.reqID i →
        state.composed deployment i = post := by
  obtain ⟨posting, hgood⟩ := (Simulated.initial hashPwd deployment
    (state.composed deployment)).of_run hreqIDs hdelivers hrun
  obtain ⟨commands, abstract, hcommands, hmatches, hrefines⟩ :=
    hgood.feeds hgood.gives
  refine ⟨commands, abstract.posts.run, ?_, hmatches, hgood.gives⟩
  rw [← hrefines.feeds]
  exact hcommands

theorem shows_of_run
    (hreqIDs : Function.Injective deployment.posting.reqID)
    (hdelivers : ∀ label ∈ labels, label.Delivers deployment)
    (hrun : run (step hashPwd deployment) State.initial labels =
      some state) :
    state.posting.posts.CacheHolds ∧ ∀ region userID,
      ∀ text ∈ (state.homeTimelines region (idText userID)).members,
        ∃ post, Shows deployment state userID post ∧
          text = idText post.postID := by
  obtain ⟨posting, hgood⟩ := (Simulated.initial hashPwd deployment
    (state.composed deployment)).of_run hreqIDs hdelivers hrun
  obtain ⟨commands, abstract, hcommands, -, hrefines⟩ :=
    hgood.feeds hgood.gives
  have hsound := (Feeds.Good.of_run hcommands).sound
  rw [hrefines.feeds] at hsound
  refine ⟨hgood.good.cache, ?_⟩
  intro region userID text htext
  obtain ⟨msg, ⟨i, rfl, hstored⟩, htext, hreceives⟩ :=
    hsound.homeTimelines region userID text htext
  have hmem : state.composed deployment i ∈ state.posting.posts.posts := by
    rw [← primary_posts deployment state abstract.posts.run]
    exact hstored
  exact ⟨_, ⟨hgood.good.composed _ hmem, hmem, hreceives⟩, htext⟩

/-- Whatever is interleaved: in every home timeline are only ids of stored
posts that requests have composed, and that mention the user or whose author
the user asked to follow; and with distinct post ids a client that reads a
home timeline gets such posts, each once. -/
theorem homeTimelines_show
    (hreqIDs : Function.Injective deployment.posting.reqID)
    (hdelivers : ∀ label ∈ labels, label.Delivers deployment)
    (hrun : run (step hashPwd deployment) State.initial labels =
      some state)
    (region : Region) (userID : Int64) :
    (∀ text ∈ (state.homeTimelines region (idText userID)).members,
      ∃ post, Shows deployment state userID post ∧
        text = idText post.postID) ∧
    ((state.posting.posts.posts.map Post.postID).Nodup →
      ∀ (order : PostStorage.FindOrder) (form : Form),
      parseID (form "user_id") = .ok userID →
      ∃ body read, (readHomeTimelineHandler order state.posting.posts
          (state.homeTimelines region) (.ok form)).1 = .success body ∧
        ReadHandlers.readLines body = some read ∧ read.Nodup ∧
        ∀ post ∈ read, Shows deployment state userID post) := by
  obtain ⟨hcache, hshows⟩ := shows_of_run hreqIDs hdelivers hrun
  refine ⟨hshows region userID, ?_⟩
  intro hids order form hform
  have hcoherent : state.posting.posts.Coherent := ⟨hids, hcache⟩
  have hset : HomeTimeline.HoldsIDs
      (state.homeTimelines region (idText userID)) := by
    intro text htext
    obtain ⟨post, -, hid⟩ := hshows region userID text htext
    exact ⟨post.postID, hid⟩
  obtain ⟨timeline, htimeline, hnodup⟩ := hset.exists_timeline
  obtain ⟨read, hread, hlisted⟩ := ReadHandlers.readPosts_listed order
    hcoherent (HomeTimeline.nodup_window hnodup 0 10)
  have hresult : (HomeTimeline.ReadHomeTimeline order state.posting.posts
      (state.homeTimelines region) userID 0 10).1 = .ok read := by
    rw [HomeTimeline.readHomeTimeline_eq order htimeline (by decide)
      (by decide), hread]
    rfl
  refine ⟨ReadHandlers.writePosts read, read,
    ReadHandlers.readTimelineHandler_ok hform hresult,
    ReadHandlers.readLines_writePosts read, hlisted.nodup, ?_⟩
  intro post hpost
  obtain ⟨hstored, hwindow⟩ := hlisted.stored post hpost
  have hmem : post.postID ∈ timeline :=
    List.mem_of_mem_drop (List.mem_of_mem_take hwindow)
  have htext : idText post.postID ∈
      (state.homeTimelines region (idText userID)).members := by
    rw [← List.mem_reverse, htimeline]
    exact List.mem_map_of_mem hmem
  obtain ⟨shown, hshown, hid⟩ := hshows region userID _ htext
  have hsame := hcoherent.eq_of_postID hstored hshown.stored
    (idText_inj.mp hid)
  rw [hsame]
  exact hshown

end Runs

/-- User 1 follows user 7, who then composes a post. -/
def sampleDeployment : Deployment Unit Unit Unit where
  posting :=
    ⟨ComposePostHandler.sampleDeployment,
      fun _ => ComposePostHandler.sampleRequest⟩
  follows :=
    { request := fun _ => ⟨.ids 1 7, .follow ⟨0, "epoch"⟩⟩
      client := fun _ => .getUserId "ana"
      replica := fun _ => 0
      machineID := fun _ => "a7" }
  workerRegion _ := "eu"
  primary := "eu"

def followLabels : List (Label Unit Unit Unit) :=
  (.start () :: ([.pipelined (.zcard .followees) .done,
      .pipelined (.write .followees) .done,
      .pipelined (.zcard .followers) .done,
      .pipelined (.write .followers) .done] :
      List StoreFailures.Label).map (.update () 1 7)).map
    (Label.feeds ∘ Feeds.Label.follows)

def workerLabels : List (Feeds.Label Unit Unit Unit) :=
  [.posts (.deliver 0 0), .posts (.unmarshal 0 true),
    .posts (.findOne 0 "eu"), .zcard 0 true, .zrange 0 true,
    .posts (.zaddNX 0 1 true)]

def composeLabels : List (Label Unit Unit Unit) :=
  (ComposePostHandler.sampleLabels .done).map (.compose ())

def postLabels : List (Label Unit Unit Unit) :=
  composeLabels ++ workerLabels.map .feeds

theorem sampleLabels_deliver :
    ∀ label ∈ followLabels ++ postLabels,
      label.Delivers sampleDeployment := by
  have husernames : ComposePostHandler.sampleRequest.uploads.usernames =
      [] := by
    decide +kernel
  intro label hlabel
  rcases List.mem_append.mp hlabel with hlabel | hlabel
  · obtain ⟨command, -, rfl⟩ := List.mem_map.mp hlabel
    trivial
  · rcases List.mem_append.mp hlabel with hlabel | hlabel
    · obtain ⟨action, haction, rfl⟩ := List.mem_map.mp hlabel
      exact PostedTimelines.actions_deliver husernames action haction
    · obtain ⟨command, -, rfl⟩ := List.mem_map.mp hlabel
      trivial

theorem sampleDeployment_reqIDs :
    Function.Injective sampleDeployment.posting.reqID := by
  intro i j _
  rfl

def sampleEnd : Option (State Unit Unit Unit) :=
  run (step UserService.sampleHash sampleDeployment) State.initial
    (followLabels ++ postLabels)

theorem application_refines_feeds_sample :
    ∃ state, sampleEnd = some state ∧ ∃ commands runs,
      run (Feeds.step UserService.sampleHash
          (sampleDeployment.feeds (state.composed sampleDeployment)))
          Feeds.State.initial commands =
        some (state.feeds sampleDeployment runs) := by
  obtain ⟨state, hrun⟩ : ∃ state, sampleEnd = some state :=
    Option.isSome_iff_exists.mp (by decide +kernel)
  obtain ⟨commands, runs, hcommands, -⟩ := application_refines_feeds
    sampleDeployment_reqIDs sampleLabels_deliver hrun
  exact ⟨state, hrun, commands, runs, hcommands⟩

theorem homeTimelines_show_sample :
    ∃ state, sampleEnd = some state ∧
      (∃ post, Shows sampleDeployment state 1 post) ∧
      ∃ body read, (readHomeTimelineHandler PostStorage.FindOrder.natural
          state.posting.posts (state.homeTimelines "eu")
          (.ok fun _ => "1")).1 = .success body ∧
        ReadHandlers.readLines body = some read ∧
        ∀ post ∈ read, Shows sampleDeployment state 1 post := by
  have hrun : sampleEnd.any fun state =>
      decide (state.posting.posts.posts.map Post.postID).Nodup &&
        decide ((state.homeTimelines "eu" (idText 1)).members =
          [idText 864691128455155713]) := by
    decide +kernel
  obtain ⟨state, hrun, hstate⟩ := (Option.any_eq_true _ _).mp hrun
  rw [Bool.and_eq_true, decide_eq_true_eq, decide_eq_true_eq] at hstate
  obtain ⟨hids, hmembers⟩ := hstate
  obtain ⟨hshows, hread⟩ := homeTimelines_show sampleDeployment_reqIDs
    sampleLabels_deliver hrun "eu" 1
  obtain ⟨post, hpost, -⟩ := hshows (idText 864691128455155713)
    (by rw [hmembers]; exact List.mem_singleton_self _)
  obtain ⟨body, read, hbody, hlines, -, hall⟩ := hread hids
    PostStorage.FindOrder.natural (fun _ => "1") (parseID_idText 1)
  exact ⟨state, hrun, ⟨post, hpost⟩, body, read, hbody, hlines, hall⟩

end SocialNetwork.Application
