import SocialNetwork.Application

/-!
# From composing to the feeds

The application refines the machine of the feeds.  Which post a request
composes is decided while it runs, so the abstract machine is given the posts
that the run has stored; each step of a handler is then at most one step of
its run of `composeAndUpload`.
-/

namespace SocialNetwork.Application

open Json Machine
open ComposePost (Method)
open ComposePostHandler (Accounting Phase increments routingKey step_cases
  act_cases)
open Notification (Database Region RunPhase Worker WorkerPhase)

variable {Run ι κ : Type}

/-! ## Runs of `composeAndUpload` -/

/-- Where the run of a request is in a phase of its composer. -/
def PhaseTracks (regions : List Region) (run : RunPhase) : Phase → Prop
  | .stored _ | .popped _ => run = .publishing regions
  | .publishing _ rest => run = .publishing rest
  | .returned _ => True
  | _ => run = .joined

/-- The composer is the method with the sixth increment. -/
structure Tracks (regions : List Region)
    (labels : List ComposePostHandler.Label) (phase : Method → Phase)
    (run : RunPhase) : Prop where
  waiting : (increments labels)[5]? = none → run = .joined
  composer : ∀ method, (increments labels)[5]? = some method →
    PhaseTracks regions run (phase method)

/-- Before `StorePost`. -/
def IsEarly : Phase → Prop
  | .stored _ | .popped _ | .publishing _ _ | .returned _ => False
  | _ => True

section Tracks

variable {regions : List Region} {labels : List ComposePostHandler.Label}
  {label : ComposePostHandler.Label} {method : Method}
  {phases : Method → Phase} {phase : Phase} {run : RunPhase}

theorem phaseTracks_early (hearly : IsEarly phase) :
    PhaseTracks regions run phase ↔ run = .joined := by
  cases phase with
  | stored post => cases hearly
  | popped post => cases hearly
  | publishing post rest => cases hearly
  | returned err => cases hearly
  | _ => rfl

theorem sixth_concat (hget : (increments labels)[5]? = some method)
    (label : ComposePostHandler.Label) :
    (increments (labels ++ [label]))[5]? = some method := by
  rw [ComposePostHandler.increments_concat,
    List.getElem?_append_left (List.getElem?_eq_some_iff.mp hget).1]
  exact hget

theorem sixth_of_concat
    (hget : (increments (labels ++ [label]))[5]? = some method)
    (hne : method ≠ label.method) :
    (increments labels)[5]? = some method := by
  rw [ComposePostHandler.increments_concat, List.getElem?_append] at hget
  split at hget
  next => exact hget
  next =>
    have hmem := List.mem_of_getElem? hget
    unfold ComposePostHandler.Label.increment at hmem
    split at hmem
    next =>
      split at hmem
      next => exact absurd (by simpa using hmem) hne
      next => cases hmem
    next => cases hmem

/-- A step before `StorePost` is none of the run. -/
theorem Tracks.early (hgood : Tracks regions labels phases run)
    (hearly : IsEarly (phases label.method))
    (hnext : PhaseTracks regions .joined phase) :
    Tracks regions (labels ++ [label])
      (Function.update phases label.method phase) run := by
  have hjoined : ∀ method, (increments (labels ++ [label]))[5]? =
      some method → method = label.method → run = .joined := by
    intro method hget hmethod
    cases hbefore : (increments labels)[5]? with
    | none => exact hgood.waiting hbefore
    | some other =>
        have hsame := (sixth_concat hbefore label).symm.trans hget
        rw [Option.some.injEq] at hsame
        have hcomposer := hgood.composer other hbefore
        rw [hsame, hmethod] at hcomposer
        exact (phaseTracks_early hearly).mp hcomposer
  constructor
  · intro hnone
    apply hgood.waiting
    by_contra hsome
    obtain ⟨other, hother⟩ := Option.ne_none_iff_exists'.mp hsome
    rw [sixth_concat hother] at hnone
    cases hnone
  · intro method hget
    by_cases hmethod : method = label.method
    · rw [hjoined method hget hmethod, hmethod, Function.update_self]
      exact hnext
    · rw [Function.update_of_ne hmethod]
      exact hgood.composer method (sixth_of_concat hget hmethod)

/-- A step of the composer. -/
theorem tracks_late (hget : (increments labels)[5]? = some label.method)
    (hnext : PhaseTracks regions run phase) :
    Tracks regions (labels ++ [label])
      (Function.update phases label.method phase) run := by
  have hsixth := sixth_concat hget label
  constructor
  · intro hnone
    rw [hsixth] at hnone
    cases hnone
  · intro method hmethod
    rw [hsixth, Option.some.injEq] at hmethod
    subst hmethod
    rw [Function.update_self]
    exact hnext

end Tracks

/-- What a step of a handler is to its run: nothing before `StorePost`, the
step that stores the post or fails to, the publication for a region, and
nothing again. -/
theorem act_tracks {deployment : ComposePostHandler.Deployment}
    {request : ComposePostHandler.Request} {method : Method}
    {stores stores' : ComposePostHandler.Stores} {phase phase' : Phase}
    {action : ComposePostHandler.Action}
    (hact : ComposePostHandler.act deployment request method stores phase
      action = some (stores', phase')) :
    (stores'.posts = stores.posts ∧ stores'.published = stores.published ∧
        IsEarly phase ∧ PhaseTracks deployment.regions .joined phase') ∨
      (∃ post, phase = .storing post ∧
        stores'.posts = stores.posts ++ [post] ∧
        stores'.published = stores.published ∧
        PhaseTracks deployment.regions (.publishing deployment.regions)
          phase') ∨
      (∃ post region rest, phase = .publishing post (region :: rest) ∧
        phase' = .publishing post rest ∧ stores'.posts = stores.posts ∧
        (stores'.published = stores.published ∨
          stores'.published = stores.published ++
            [(routingKey region, ComposePostHandler.message post)])) ∨
      (stores'.posts = stores.posts ∧ stores'.published = stores.published ∧
        (∃ post, phase = .stored post ∨ phase = .popped post ∨
          phase = .publishing post []) ∧
        ∀ run, PhaseTracks deployment.regions run phase →
          PhaseTracks deployment.regions run phase') := by
  have hcases := act_cases hact
  cases action with
  | call answers =>
      obtain ⟨rfl, rfl, ⟨err, -, rfl⟩ | ⟨-, rfl⟩ | ⟨fieldsValues, -, rfl⟩⟩ :=
        hcases
      · exact .inl ⟨rfl, rfl, trivial, trivial⟩
      · exact .inl ⟨rfl, rfl, trivial, trivial⟩
      · exact .inl ⟨rfl, rfl, trivial, rfl⟩
  | hset write =>
      obtain ⟨fieldsValues, rfl, rfl, rfl⟩ := hcases
      exact .inl ⟨rfl, rfl, trivial, rfl⟩
  | hincrBy write =>
      cases phase with
      | wroteFields err =>
          simp only [ComposePostHandler.act] at hact
          split at hact <;> cases hact <;> exact .inl ⟨rfl, rfl, trivial, rfl⟩
      | _ => cases hact
  | expire ok =>
      obtain ⟨numComponents, err, rfl, rfl, rfl⟩ := hcases
      refine .inl ⟨rfl, rfl, trivial, ?_⟩
      unfold ComposePostHandler.afterPipeline
      split
      next => trivial
      next => split <;> trivial
  | hget key ok =>
      obtain ⟨replies, rfl, -, -, rfl, rfl⟩ := hcases
      exact .inl ⟨rfl, rfl, trivial, rfl⟩
  | join timestamp =>
      obtain ⟨replies, rfl, -, rfl, ⟨err, -, rfl⟩ | ⟨post, -, rfl⟩⟩ := hcases
      · exact .inl ⟨rfl, rfl, trivial, trivial⟩
      · exact .inl ⟨rfl, rfl, trivial, rfl⟩
  | insertOne write =>
      cases phase with
      | storing post =>
          cases write with
          | done =>
              cases hact
              exact .inr (.inl ⟨post, rfl, rfl, rfl, rfl⟩)
          | failed applied =>
              cases applied with
              | false =>
                  cases hact
                  exact .inl ⟨rfl, rfl, trivial, trivial⟩
              | true =>
                  cases hact
                  exact .inr (.inl ⟨post, rfl, rfl, rfl, trivial⟩)
      | _ => cases hact
  | pop ok =>
      obtain ⟨post, rfl, rfl, rfl⟩ := hcases
      refine .inr (.inr (.inr ⟨rfl, rfl, ⟨post, .inl rfl⟩, ?_⟩))
      intro run htracks
      cases ok with
      | true => exact htracks
      | false => trivial
  | exchangeDeclare ok =>
      obtain ⟨post, rfl, rfl, rfl⟩ := hcases
      refine .inr (.inr (.inr ⟨rfl, rfl, ⟨post, .inr (.inl rfl)⟩, ?_⟩))
      intro run htracks
      cases ok with
      | true => exact htracks
      | false => trivial
  | publish write =>
      obtain ⟨post, region, rest, rfl, rfl, rfl⟩ := hcases
      refine .inr (.inr (.inl ⟨post, region, rest, rfl, rfl, rfl, ?_⟩))
      by_cases happlied : write.applied = true
      · rw [if_pos happlied]
        exact .inr rfl
      · rw [if_neg happlied]
        exact .inl rfl
  | writeUserTimeline calls =>
      obtain ⟨post, rfl, rfl, rfl⟩ := hcases
      exact .inr (.inr (.inr ⟨rfl, rfl, ⟨post, .inr (.inr rfl)⟩,
        fun _ _ => trivial⟩))

/-! ## One post for a request -/

/-- The posts of a request, before its `StorePost` none. -/
structure StoresOnce [DecidableEq Run]
    (deployment : PostedTimelines.Deployment Run)
    (labels : List (PostedTimelines.Label Run))
    (state : PostedTimelines.State Run) (i : Run) (run : RunPhase) :
    Prop where
  tracks : Tracks deployment.compose.regions
    (PostedTimelines.composing i labels) (state.phase i) run
  joined : run = .joined → (state.view deployment i).stores.posts = []
  once : (state.view deployment i).stores.posts.length ≤ 1

section Once

variable [DecidableEq Run] {deployment : PostedTimelines.Deployment Run}
  {labels : List (PostedTimelines.Label Run)}
  {state : PostedTimelines.State Run} {i : Run}

theorem StoresOnce.of_put {label : ComposePostHandler.Label}
    {after : ComposePostHandler.State} {run : RunPhase}
    (htracks : Tracks deployment.compose.regions
      (PostedTimelines.composing i labels ++ [label]) after.phase run)
    (hjoined : run = .joined → after.stores.posts.filter
      (fun post => post.reqID = deployment.reqID i) = [])
    (honce : (after.stores.posts.filter fun post =>
      post.reqID = deployment.reqID i).length ≤ 1) :
    StoresOnce deployment (labels ++ [.compose i label])
      (state.put deployment i after) i run where
  tracks := by
    have hphase : (state.put deployment i after).phase i = after.phase :=
      Function.update_self _ _ _
    rw [PostedTimelines.composing_self, hphase]
    exact htracks
  joined := by
    rw [PostedTimelines.view_put_self]
    exact hjoined
  once := by
    rw [PostedTimelines.view_put_self]
    exact honce

theorem StoresOnce.compose (hgood : PostedTimelines.Good deployment labels
      state) {label : ComposePostHandler.Label}
    {after : ComposePostHandler.State} {run : RunPhase}
    (honce : StoresOnce deployment labels state i run)
    (hstep : ComposePostHandler.step deployment.compose
      (deployment.request i) (state.composeState deployment i) label =
        some after) :
    ∃ run', StoresOnce deployment (labels ++ [.compose i label])
      (state.put deployment i after) i run' := by
  have hphase := (hgood.accounting i).phase label.method
  obtain ⟨stores, phase, hact, hafter⟩ := step_cases hstep
  obtain rfl : stores = after.stores := by rw [hafter]; rfl
  have hphases : after.phase = Function.update (state.phase i)
      label.method phase := by rw [hafter]; rfl
  change (state.phase i label.method).Good _ _ _ at hphase
  change ComposePostHandler.act _ _ _ _ (state.phase i label.method) _ = _
    at hact
  have hsame : after.stores.posts = state.posts.posts →
      after.stores.posts.filter (fun post =>
        post.reqID = deployment.reqID i) =
          (state.view deployment i).stores.posts :=
    fun hposts => congrArg (List.filter _) hposts
  rcases act_tracks hact with ⟨hposts, -, hearly, hnext⟩ |
    ⟨stored, hstoring, hposts, -, hnext⟩ |
    ⟨stored, region, rest, hpublishing, rfl, hposts, -⟩ |
    ⟨hposts, -, ⟨stored, hlate⟩, hnext⟩
  · refine ⟨run, .of_put ?_ ?_ ?_⟩
    · rw [hphases]
      exact honce.tracks.early hearly hnext
    · rw [hsame hposts]
      exact honce.joined
    · rw [hsame hposts]
      exact honce.once
  · rw [hstoring] at hphase
    have hjoined := honce.tracks.composer label.method hphase.1
    rw [hstoring] at hjoined
    have hnone := honce.joined hjoined
    have hone : after.stores.posts.filter (fun post =>
        post.reqID = deployment.reqID i) = [stored] := by
      rw [hposts]
      refine (PostedTimelines.filter_concat_own _ hphase.2.reqID).trans ?_
      exact congrArg (· ++ [stored]) hnone
    refine ⟨.publishing deployment.compose.regions, .of_put ?_ ?_ ?_⟩
    · rw [hphases]
      exact tracks_late hphase.1 hnext
    · exact fun hpublishing => nomatch hpublishing
    · rw [hone]
      exact le_rfl
  · rw [hpublishing] at hphase
    refine ⟨.publishing rest, .of_put ?_ ?_ ?_⟩
    · rw [hphases]
      exact tracks_late hphase.1 rfl
    · exact fun hjoined => nomatch hjoined
    · rw [hsame hposts]
      exact honce.once
  · have hsixth : (increments (PostedTimelines.composing i labels))[5]? =
        some label.method := by
      rcases hlate with hlate | hlate | hlate <;> rw [hlate] at hphase <;>
        exact hphase.1
    refine ⟨run, .of_put ?_ ?_ ?_⟩
    · rw [hphases]
      exact tracks_late hsixth
        (hnext _ (honce.tracks.composer label.method hsixth))
    · rw [hsame hposts]
      exact honce.joined
    · rw [hsame hposts]
      exact honce.once

/-- A step that is none of the request. -/
theorem StoresOnce.congr {run : RunPhase}
    (honce : StoresOnce deployment labels state i run)
    {label : PostedTimelines.Label Run} (hlabel : label.composing i = none)
    {next : PostedTimelines.State Run} (hphase : next.phase i = state.phase i)
    (hposts : (next.view deployment i).stores.posts =
      (state.view deployment i).stores.posts) :
    StoresOnce deployment (labels ++ [label]) next i run where
  tracks := by
    rw [PostedTimelines.composing_of_none hlabel, hphase]
    exact honce.tracks
  joined := by
    rw [hposts]
    exact honce.joined
  once := by
    rw [hposts]
    exact honce.once

/-- What a step of the machine can do to the handlers. -/
theorem posting_step_cases {label : PostedTimelines.Label Run}
    {next : PostedTimelines.State Run}
    (hgood : PostedTimelines.Good deployment labels state)
    (hstep : PostedTimelines.step deployment state label = some next) :
    (∃ i handler after, label = .compose i handler ∧
        ComposePostHandler.step deployment.compose (deployment.request i)
          (state.composeState deployment i) handler = some after ∧
        next = state.put deployment i after) ∨
      ((∀ i, label.composing i = none) ∧ next.phase = state.phase ∧
        next.posts.posts = state.posts.posts ∧
        next.published = state.published) := by
  cases label with
  | compose i handler =>
      obtain ⟨after, hafter, rfl⟩ := Option.map_eq_some_iff.mp hstep
      exact .inl ⟨i, handler, after, rfl, hafter, rfl⟩
  | readHomeTimeline order redis form =>
      cases hstep
      exact .inr ⟨fun _ => rfl, rfl,
        (PostedTimelines.readHomeTimelineHandler_stores order hgood.cache
          redis form).1, rfl⟩
  | readUserTimeline order form =>
      cases hstep
      obtain ⟨writes, hholds, -⟩ := hgood.timelines
      exact .inr ⟨fun _ => rfl, rfl,
        (PostedTimelines.readUserTimelineHandler_stores order hgood.cache
          hholds form).2.1, rfl⟩
  | evict key =>
      cases hstep
      exact .inr ⟨fun _ => rfl, rfl, rfl, rfl⟩

theorem posts_subset (hgood : PostedTimelines.Good deployment labels state)
    {label : PostedTimelines.Label Run} {next : PostedTimelines.State Run}
    (hdelivers : label.Delivers deployment)
    (hstep : PostedTimelines.step deployment state label = some next) :
    state.posts.posts ⊆ next.posts.posts := by
  rcases posting_step_cases hgood hstep with
    ⟨i, handler, after, rfl, hafter, rfl⟩ | ⟨-, -, hposts, -⟩
  · exact (hgood.moves hdelivers hafter).posts
  · rw [hposts]
    exact List.Subset.refl _

theorem storesOnce_step (hreqIDs : Function.Injective deployment.reqID)
    (hgood : PostedTimelines.Good deployment labels state)
    (honce : ∀ i, ∃ run, StoresOnce deployment labels state i run)
    {label : PostedTimelines.Label Run}
    {next : PostedTimelines.State Run}
    (hstep : PostedTimelines.step deployment state label = some next)
    (i : Run) :
    ∃ run, StoresOnce deployment (labels ++ [label]) next i run := by
  obtain ⟨run, hrun⟩ := honce i
  rcases posting_step_cases hgood hstep with
    ⟨j, handler, after, rfl, hafter, rfl⟩ | ⟨hlabel, hphase, hposts, -⟩
  · by_cases hj : i = j
    · subst hj
      exact hrun.compose hgood hafter
    · have hlabel : (PostedTimelines.Label.compose j handler).composing i =
          none := if_neg (Ne.symm hj)
      refine ⟨run, hrun.congr hlabel (Function.update_of_ne hj _ _) ?_⟩
      rw [PostedTimelines.view_put_of_ne hreqIDs hj (hgood.own j) hafter]
  · refine ⟨run, hrun.congr (hlabel i) (congrFun hphase i) ?_⟩
    exact congrArg (List.filter _) hposts

end Once

/-! ## Refinement -/

/-- The abstract state is that of the feeds, and its runs follow the
handlers. -/
structure Refines [DecidableEq Run] (deployment : Deployment Run ι κ)
    (labels : List (PostedTimelines.Label Run)) (state : State Run ι κ)
    (abstract : Feeds.State Run ι κ) : Prop where
  feeds : abstract = state.feeds deployment abstract.posts.run
  tracks : ∀ i, Tracks deployment.posting.compose.regions
    (PostedTimelines.composing i labels) (state.posting.phase i)
    (abstract.posts.run i)

theorem Refines.initial [DecidableEq Run] (deployment : Deployment Run ι κ) :
    Refines deployment [] State.initial Feeds.State.initial where
  feeds := by
    simp [Feeds.State.initial, Notification.State.initial, State.feeds,
      State.initial, PostedTimelines.State.initial]
  tracks i := ⟨fun _ => rfl, fun method hget => by cases hget⟩

section Steps

variable [DecidableEq Run] {deployment : Deployment Run ι κ}
  {labels : List (PostedTimelines.Label Run)} {state : State Run ι κ}
  {abstract abstract' : Feeds.State Run ι κ} {i : Run}
  {label : ComposePostHandler.Label}

/-- After a step of one request the runs of the others follow as before. -/
theorem Refines.of_compose (hrefines : Refines deployment labels state abstract)
    {after : ComposePostHandler.State}
    (hfeeds : abstract' = (state.setPosting (state.posting.put
      deployment.posting i after)).feeds deployment abstract'.posts.run)
    (hothers : ∀ j, j ≠ i →
      abstract'.posts.run j = abstract.posts.run j)
    (htracks : Tracks deployment.posting.compose.regions
      (PostedTimelines.composing i labels ++ [label]) after.phase
      (abstract'.posts.run i)) :
    Refines deployment (labels ++ [.compose i label])
      (state.setPosting (state.posting.put deployment.posting i after))
      abstract' where
  feeds := hfeeds
  tracks j := by
    by_cases hj : j = i
    · subst hj
      have hphase : (state.setPosting (state.posting.put deployment.posting j
          after)).posting.phase j = after.phase := Function.update_self _ _ _
      rw [PostedTimelines.composing_self, hphase]
      exact htracks
    · have hphase : (state.setPosting (state.posting.put deployment.posting i
          after)).posting.phase j = state.posting.phase j :=
        Function.update_of_ne hj _ _
      have hnone : (PostedTimelines.Label.compose i label).composing j =
          none := if_neg (Ne.symm hj)
      rw [PostedTimelines.composing_of_none hnone, hphase, hothers j hj]
      exact hrefines.tracks j

/-- A step of the handlers that is none of a request. -/
theorem Refines.read (hrefines : Refines deployment labels state abstract)
    {label : PostedTimelines.Label Run}
    (hlabel : ∀ i, label.composing i = none)
    {posting : PostedTimelines.State Run}
    (hphase : posting.phase = state.posting.phase)
    (hposts : posting.posts.posts = state.posting.posts.posts)
    (hpublished : posting.published = state.posting.published) :
    Refines deployment (labels ++ [label]) (state.setPosting posting)
      abstract where
  feeds := by
    rw [feeds_setPosting posting hposts hpublished]
    exact hrefines.feeds
  tracks i := by
    have hsame : (state.setPosting posting).posting.phase i =
        state.posting.phase i := congrFun hphase i
    rw [PostedTimelines.composing_of_none (hlabel i), hsame]
    exact hrefines.tracks i

variable [DecidableEq ι] [DecidableEq κ] {hashPwd : String → String}
  {post : Run → Post}

/-- Steps of its runs take the abstract state to that of the next. -/
def Reaches (hashPwd : String → String) (deployment : Deployment Run ι κ)
    (post : Run → Post) (labels : List (PostedTimelines.Label Run))
    (abstract : Feeds.State Run ι κ) (next : State Run ι κ) : Prop :=
  ∃ commands abstract',
    run (Feeds.step hashPwd (deployment.feeds post)) abstract commands =
      some abstract' ∧
    (∀ command ∈ commands, isFeeds deployment.primary command = false) ∧
    Refines deployment labels next abstract'

theorem storePost_step (deployment : Deployment Run ι κ)
    (hashPwd : String → String) (post : Run → Post)
    (hjoined : abstract.posts.run i = .joined) :
    Feeds.step hashPwd (deployment.feeds post) abstract
        (.posts (.storePost i true)) =
      some { abstract with
        posts := (abstract.posts.insert deployment.primary
          (post i)).setRun i
            (.publishing deployment.posting.compose.regions) } := by
  simp only [Feeds.step, Feeds.isGetFollowers, Notification.step, hjoined]
  rfl

theorem publish_step (deployment : Deployment Run ι κ)
    (hashPwd : String → String) (post : Run → Post) (ok : Bool)
    {region : Region} {regions : List Region}
    (hpublishing : abstract.posts.run i = .publishing (region :: regions)) :
    Feeds.step hashPwd (deployment.feeds post) abstract
        (.posts (.publish i ok)) =
      some { abstract with
        posts := if ok then
            { abstract.posts.setRun i (.publishing regions) with
              published := abstract.posts.published ++
                [(region, marshal (Notification.message (post i)))]
              inFlight := abstract.posts.inFlight ++
                [(region, marshal (Notification.message (post i)))] }
          else abstract.posts.setRun i (.publishing regions) } := by
  cases ok <;> simp only [Feeds.step, Feeds.isGetFollowers,
    Notification.step, hpublishing] <;> rfl

/-- A step of a handler that neither stores nor publishes. -/
theorem Refines.silent (hrefines : Refines deployment labels state abstract)
    {after : ComposePostHandler.State}
    (hposts : after.stores.posts = state.posting.posts.posts)
    (hpublished : after.stores.published = state.posting.published)
    (htracks : Tracks deployment.posting.compose.regions
      (PostedTimelines.composing i labels ++ [label]) after.phase
      (abstract.posts.run i)) :
    Reaches hashPwd deployment post (labels ++ [.compose i label]) abstract
      (state.setPosting (state.posting.put deployment.posting i after)) := by
  refine ⟨[], abstract, rfl, fun _ hmem => absurd hmem List.not_mem_nil,
    hrefines.of_compose ?_ (fun _ _ => rfl) htracks⟩
  rw [feeds_setPosting (state.posting.put deployment.posting i after) hposts
    hpublished]
  exact hrefines.feeds

/-- A step of a handler that is a step of its run. -/
theorem Refines.moved (hrefines : Refines deployment labels state abstract)
    {after : ComposePostHandler.State}
    {command : Feeds.Label Run ι κ} {posts : Notification.State Run}
    {phase : RunPhase}
    (hcommand : isFeeds deployment.primary command = false)
    (hstep : Feeds.step hashPwd (deployment.feeds post) abstract command =
      some { abstract with posts := posts })
    (hrun : posts.run = Function.update abstract.posts.run i phase)
    (hfeeds : { abstract with posts := posts } =
      (state.setPosting (state.posting.put deployment.posting i
        after)).feeds deployment posts.run)
    (htracks : Tracks deployment.posting.compose.regions
      (PostedTimelines.composing i labels ++ [label]) after.phase phase) :
    Reaches hashPwd deployment post (labels ++ [.compose i label]) abstract
      (state.setPosting (state.posting.put deployment.posting i after)) := by
  refine ⟨[command], { abstract with posts := posts }, ?_, ?_,
    hrefines.of_compose hfeeds ?_ ?_⟩
  · rw [run_cons, hstep]
    rfl
  · intro other hother
    rw [List.mem_singleton.mp hother]
    exact hcommand
  · intro j hj
    dsimp only
    rw [hrun, Function.update_of_ne hj]
  · dsimp only
    rw [hrun, Function.update_self]
    exact htracks

/-- A step of a handler is one step of its run, or none. -/
theorem Refines.compose (hgood : PostedTimelines.Good deployment.posting
      labels state.posting)
    (hrefines : Refines deployment labels state abstract)
    {after : ComposePostHandler.State}
    (hstep : ComposePostHandler.step deployment.posting.compose
      (deployment.posting.request i)
      (state.posting.composeState deployment.posting i) label = some after)
    (hpost : ∀ stored ∈ after.stores.posts,
      stored.reqID = deployment.posting.reqID i → post i = stored) :
    Reaches hashPwd deployment post (labels ++ [.compose i label]) abstract
      (state.setPosting (state.posting.put deployment.posting i after)) := by
  have hphase := (hgood.accounting i).phase label.method
  have htracks := hrefines.tracks i
  obtain ⟨runs, rfl⟩ : ∃ runs, abstract = state.feeds deployment runs :=
    ⟨_, hrefines.feeds⟩
  obtain ⟨stores, phase, hact, hafter⟩ := step_cases hstep
  obtain rfl : stores = after.stores := by rw [hafter]; rfl
  have hphases : after.phase = Function.update (state.posting.phase i)
      label.method phase := by rw [hafter]; rfl
  change (state.posting.phase i label.method).Good _ _ _ at hphase
  change ComposePostHandler.act _ _ _ _ (state.posting.phase i label.method)
    _ = _ at hact
  have hcomposer : ∀ {stored}, stored ∈ after.stores.posts →
      (deployment.posting.request i).Composes stored → post i = stored :=
    fun hmem hcomposes => hpost _ hmem hcomposes.reqID
  rcases act_tracks hact with ⟨hposts, hpublished, hearly, hnext⟩ |
    ⟨stored, hstoring, hposts, hpublished, hnext⟩ |
    ⟨stored, region, rest, hpublishing, rfl, hposts, hpublished⟩ |
    ⟨hposts, hpublished, ⟨stored, hlate⟩, hnext⟩
  · refine hrefines.silent hposts hpublished ?_
    rw [hphases]
    exact htracks.early hearly hnext
  · rw [hstoring] at hphase
    have hjoined := htracks.composer label.method hphase.1
    rw [hstoring] at hjoined
    have hstored : post i = stored := by
      refine hcomposer ?_ hphase.2
      rw [hposts]
      exact List.mem_append_right _ (List.mem_singleton_self stored)
    refine hrefines.moved rfl
      (storePost_step deployment hashPwd post hjoined) rfl ?_ ?_
    · rw [feeds_setPosting_stored (state.posting.put deployment.posting i
        after) hposts hpublished, hstored]
      rfl
    · rw [hphases]
      exact tracks_late hphase.1 hnext
  · rw [hpublishing] at hphase
    have hrun := htracks.composer label.method hphase.1
    rw [hpublishing] at hrun
    have hstored : post i = stored := by
      refine hcomposer ?_ hphase.2
      rw [hposts]
      exact hgood.publishing_mem hpublishing
    have hlate : Tracks deployment.posting.compose.regions
        (PostedTimelines.composing i labels ++ [label]) after.phase
        (.publishing rest) := by
      rw [hphases]
      exact tracks_late hphase.1 rfl
    rcases hpublished with hpublished | hpublished
    · refine hrefines.moved rfl
        (publish_step deployment hashPwd post false hrun) rfl ?_ hlate
      rw [feeds_setPosting (state.posting.put deployment.posting i after)
        hposts hpublished]
      rfl
    · refine hrefines.moved rfl
        (publish_step deployment hashPwd post true hrun) rfl ?_ hlate
      rw [feeds_setPosting_published (state.posting.put deployment.posting i
        after) hposts hpublished, hstored]
      rfl
  · have hsixth : (increments (PostedTimelines.composing i labels))[5]? =
        some label.method := by
      rcases hlate with hlate | hlate | hlate <;> rw [hlate] at hphase <;>
        exact hphase.1
    refine hrefines.silent hposts hpublished ?_
    rw [hphases]
    exact tracks_late hsixth (hnext _ (htracks.composer label.method hsixth))

/-- A step of the environment is the same step of the feeds. -/
theorem Refines.environment
    (hrefines : Refines deployment labels state abstract)
    {command : Feeds.Label Run ι κ}
    (hcommand : isFeeds deployment.primary command)
    {given : Run → Post} {runs : Run → RunPhase}
    {next : Feeds.State Run ι κ}
    (hstep : Feeds.step hashPwd (deployment.feeds given)
      (state.feeds deployment runs) command = some next)
    (post : Run → Post) :
    ∃ abstract', Feeds.step hashPwd (deployment.feeds post) abstract
        command = some abstract' ∧
      Refines deployment labels (state.setFeeds next) abstract' := by
  obtain ⟨hnext, hunmoved⟩ := feeds_step hcommand hstep post
    abstract.posts.run
  have habstract : withRun abstract.posts.run (state.feeds deployment runs) =
      abstract := hrefines.feeds.symm
  rw [habstract] at hnext
  refine ⟨_, hnext, ?_, hrefines.tracks⟩
  exact (feeds_setFeeds hunmoved _).symm

end Steps

/-! ## Runs -/

def Label.Delivers (deployment : Deployment Run ι κ) : Label Run ι κ → Prop
  | .compose i label => label.Delivers (deployment.posting.request i)
  | _ => True

/-- The posts that the run has stored. -/
def Gives (deployment : Deployment Run ι κ) (state : State Run ι κ)
    (post : Run → Post) : Prop :=
  ∀ i, ∀ stored ∈ state.posting.posts.posts,
    stored.reqID = deployment.posting.reqID i → post i = stored

/-- The first post that the request has stored. -/
def State.composed (deployment : Deployment Run ι κ) (state : State Run ι κ)
    (i : Run) : Post :=
  (state.posting.posts.posts.find? fun post =>
    post.reqID = deployment.posting.reqID i).getD noPost

/-- The steps that are none of a run are those of the environment. -/
def Matches (deployment : Deployment Run ι κ) (labels : List (Label Run ι κ))
    (commands : List (Feeds.Label Run ι κ)) : Prop :=
  ∀ command ∈ commands, isFeeds deployment.primary command = true →
    .feeds command ∈ labels

/-- From the start on the handlers run as by themselves, and the whole refines
the feeds. -/
structure Simulated [DecidableEq Run] [DecidableEq ι] [DecidableEq κ]
    (hashPwd : String → String) (deployment : Deployment Run ι κ)
    (post : Run → Post) (start : State Run ι κ)
    (abstract : Feeds.State Run ι κ) (labels : List (Label Run ι κ))
    (state : State Run ι κ) (posting : List (PostedTimelines.Label Run)) :
    Prop where
  good : PostedTimelines.Good deployment.posting posting state.posting
  once : ∀ i, ∃ run, StoresOnce deployment.posting posting state.posting i
    run
  posts : start.posting.posts.posts ⊆ state.posting.posts.posts
  feeds : Gives deployment state post → ∃ commands abstract',
    run (Feeds.step hashPwd (deployment.feeds post)) abstract commands =
      some abstract' ∧
    Matches deployment labels commands ∧
    Refines deployment posting state abstract'

theorem Gives.mono {deployment : Deployment Run ι κ}
    {state next : State Run ι κ} {post : Run → Post}
    (hgives : Gives deployment next post)
    (hposts : state.posting.posts.posts ⊆ next.posting.posts.posts) :
    Gives deployment state post :=
  fun i stored hstored => hgives i stored (hposts hstored)

theorem Matches.append {deployment : Deployment Run ι κ}
    {labels : List (Label Run ι κ)} {label : Label Run ι κ}
    {commands commands' : List (Feeds.Label Run ι κ)}
    (hmatches : Matches deployment labels commands)
    (hnew : Matches deployment [label] commands') :
    Matches deployment (labels ++ [label]) (commands ++ commands') := by
  intro command hcommand hfeeds
  rcases List.mem_append.mp hcommand with hold | hlast
  · exact List.mem_append_left _ (hmatches command hold hfeeds)
  · exact List.mem_append_right _ (hnew command hlast hfeeds)

section Runs

variable [DecidableEq Run] [DecidableEq ι] [DecidableEq κ]
  {hashPwd : String → String} {deployment : Deployment Run ι κ}
  {post : Run → Post} {start state next : State Run ι κ}
  {abstract : Feeds.State Run ι κ} {labels : List (Label Run ι κ)}
  {posting : List (PostedTimelines.Label Run)}

theorem Simulated.nil (hashPwd : String → String) (post : Run → Post)
    (hgood : PostedTimelines.Good deployment.posting posting start.posting)
    (honce : ∀ i, ∃ run, StoresOnce deployment.posting posting start.posting
      i run)
    (hrefines : Refines deployment posting start abstract) :
    Simulated hashPwd deployment post start abstract [] start posting where
  good := hgood
  once := honce
  posts := List.Subset.refl _
  feeds _ := ⟨[], abstract, rfl, fun _ hmem => absurd hmem List.not_mem_nil,
    hrefines⟩

theorem Simulated.serve
    (hreqIDs : Function.Injective deployment.posting.reqID)
    (hgood : Simulated hashPwd deployment post start abstract labels state
      posting)
    (handler : PostedTimelines.Label Run)
    (hdelivers : handler.Delivers deployment.posting)
    (hstep : state.serve deployment handler = some next)
    (label : Label Run ι κ) :
    Simulated hashPwd deployment post start abstract (labels ++ [label]) next
      (posting ++ [handler]) := by
  obtain ⟨after, hafter, rfl⟩ := Option.map_eq_some_iff.mp hstep
  have hsubset := posts_subset hgood.good hdelivers hafter
  refine ⟨hgood.good.step hreqIDs hdelivers hafter,
    storesOnce_step hreqIDs hgood.good hgood.once hafter,
    List.Subset.trans hgood.posts hsubset, ?_⟩
  intro hgives
  obtain ⟨commands, before, hrun, hmatches, hrefines⟩ :=
    hgood.feeds (hgives.mono hsubset)
  rcases posting_step_cases hgood.good hafter with
    ⟨i, handler, served, rfl, hserved, rfl⟩ |
    ⟨hlabel, hphase, hposts, hpublished⟩
  · obtain ⟨moves, abstract', hmoves, hown, hnext⟩ :=
      hrefines.compose hgood.good hserved (hgives i)
    refine ⟨commands ++ moves, abstract',
      run_append_eq_some.mpr ⟨before, hrun, hmoves⟩,
      hmatches.append ?_, hnext⟩
    intro command hcommand hfeeds
    rw [hown command hcommand] at hfeeds
    cases hfeeds
  · refine ⟨commands, before, hrun, ?_,
      hrefines.read hlabel hphase hposts hpublished⟩
    intro command hcommand hfeeds
    exact List.mem_append_left _ (hmatches command hcommand hfeeds)

theorem Simulated.step
    (hreqIDs : Function.Injective deployment.posting.reqID)
    (hgood : Simulated hashPwd deployment post start abstract labels state
      posting)
    {label : Label Run ι κ} (hdelivers : label.Delivers deployment)
    (hstep : Application.step hashPwd deployment state label = some next) :
    ∃ posting', Simulated hashPwd deployment post start abstract
      (labels ++ [label]) next posting' := by
  cases label with
  | compose i label =>
      exact ⟨_, hgood.serve hreqIDs (.compose i label) hdelivers hstep _⟩
  | readHomeTimeline region order form =>
      exact ⟨_, hgood.serve hreqIDs (.readHomeTimeline order _ form) trivial
        hstep _⟩
  | readUserTimeline order form =>
      exact ⟨_, hgood.serve hreqIDs (.readUserTimeline order form) trivial
        hstep _⟩
  | evict key => exact ⟨_, hgood.serve hreqIDs (.evict key) trivial hstep _⟩
  | feeds command =>
      simp only [Application.step] at hstep
      split at hstep
      next hcommand =>
        obtain ⟨feeds, hfeeds, rfl⟩ := Option.map_eq_some_iff.mp hstep
        refine ⟨posting, hgood.good, hgood.once, hgood.posts, ?_⟩
        intro hgives
        obtain ⟨commands, before, hrun, hmatches, hrefines⟩ :=
          hgood.feeds hgives
        obtain ⟨abstract', hnext, hrefines'⟩ :=
          hrefines.environment hcommand hfeeds post
        refine ⟨commands ++ [command], abstract', ?_,
          hmatches.append ?_, hrefines'⟩
        · exact run_concat_eq_some.mpr ⟨before, hrun, hnext⟩
        · intro other hother _
          rw [List.mem_singleton.mp hother]
          exact List.mem_singleton_self _
      next => cases hstep

theorem Simulated.of_run
    (hreqIDs : Function.Injective deployment.posting.reqID)
    (hstart : Simulated hashPwd deployment post start abstract [] start
      posting)
    (hdelivers : ∀ label ∈ labels, label.Delivers deployment)
    (hrun : run (Application.step hashPwd deployment) start labels =
      some state) :
    ∃ posting', Simulated hashPwd deployment post start abstract labels state
      posting' :=
  run_induction_of_labels
    (P := fun labels state => ∃ posting', Simulated hashPwd deployment post
      start abstract labels state posting')
    ⟨posting, hstart⟩
    (fun _ _ _ _ hlabel hgood hstep =>
      hgood.choose_spec.step hreqIDs hlabel hstep) hdelivers hrun

theorem Simulated.initial (hashPwd : String → String)
    (deployment : Deployment Run ι κ) (post : Run → Post) :
    Simulated hashPwd deployment post State.initial Feeds.State.initial []
      State.initial [] :=
  .nil hashPwd post PostedTimelines.Good.initial
    (fun _ => ⟨.joined, ⟨fun _ => rfl, fun _ hget => by cases hget⟩,
      fun _ => rfl, Nat.zero_le 1⟩)
    (Refines.initial deployment)

/-- Of a request no other post is stored. -/
theorem Simulated.gives (hgood : Simulated hashPwd deployment post start
      abstract labels state posting) :
    Gives deployment state (state.composed deployment) := by
  intro i stored hstored hreqID
  obtain ⟨run, honce⟩ := hgood.once i
  have hlength := honce.once
  have hmem : stored ∈ (state.posting.view deployment.posting
      i).stores.posts :=
    List.mem_filter.mpr ⟨hstored, decide_eq_true hreqID⟩
  change (state.posting.posts.posts.filter _).length ≤ 1 at hlength
  change stored ∈ state.posting.posts.posts.filter _ at hmem
  unfold State.composed
  rw [← List.head?_filter]
  cases hposts : state.posting.posts.posts.filter fun post =>
      post.reqID = deployment.posting.reqID i with
  | nil =>
      rw [hposts] at hmem
      cases hmem
  | cons post posts =>
      rw [hposts] at hlength hmem
      obtain rfl : posts = [] := List.length_eq_zero_iff.mp (by
        rw [List.length_cons] at hlength
        omega)
      exact (List.mem_singleton.mp hmem).symm

end Runs

end SocialNetwork.Application
