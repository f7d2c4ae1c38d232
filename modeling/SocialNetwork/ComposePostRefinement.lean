import SocialNetwork.ComposeDelivery
import SocialNetwork.ComposePostJoin

/-!
# The handler over the compose-post machine

While all calls of a request succeed, its upload methods are executions of
the compose-post machine: their Redis commands, the join and the call of
`StorePost` are steps of that machine, and the other steps of the handler are
none.
-/

namespace SocialNetwork.ComposePostHandler

open Json Redis Machine ComposePost
open UserService (Write)

variable {deployment : Deployment} {request : Request}
  {fields : ComposePost.Request} {posts : List Post} {state next : State}
  {abstract : ComposePost.State} {label : Label} {labels : List Label}

/-- The calls of the step succeed, and the services upload `fields`. -/
def Label.Succeeds (deployment : Deployment) (request : Request)
    (fields : ComposePost.Request) (label : Label) : Prop :=
  match label.action with
  | .call answers =>
      upload deployment request answers label.method =
        .ok (some (fields.upload label.method))
  | .hset write | .hincrBy write | .insertOne write | .publish write =>
      write = .done
  | .expire ok | .hget _ ok | .pop ok | .exchangeDeclare ok => ok = true
  | .join _ | .writeUserTimeline _ => True

def Request.execution (request : Request) (method : Method) : Execution :=
  ⟨request.params.reqID, method, 0⟩

theorem Request.execution_ne {method other : Method} (hne : other ≠ method) :
    request.execution other ≠ request.execution method :=
  fun heq => hne (Execution.mk.inj heq).2.1

def Label.command (request : Request) (label : Label) :
    Option ComposePost.Label :=
  let e := request.execution label.method
  match label.action with
  | .hset _ => some (.hset e)
  | .hincrBy _ => some (.hincrBy e)
  | .expire _ => some (.expire e)
  | .hget key _ => some (.hget e key)
  | .join timestamp => some (.join e timestamp)
  | .insertOne _ => some (.storePost e)
  | _ => none

/-- The progress of the execution in a phase of its method.  What follows
`StorePost` is no progress of the compose-post machine. -/
def Phase.Refines (fields : ComposePost.Request) (method : Method)
    (progress : Progress) : Phase → Prop
  | .notCalled => progress = .notCalled
  | .called fieldsValues =>
      progress = .notCalled ∧ fieldsValues = fields.upload method
  | .wroteFields err => progress = .wroteFields ∧ err = none
  | .counted numComponents err =>
      progress = .counted numComponents ∧ err = none
  | .composing replies => progress = .composing replies
  | .storing post => progress = .storing post
  | .stored post | .popped post | .publishing post _ =>
      progress = .stored post
  | .returned none =>
      progress = .returned none ∨ ∃ post, progress = .stored post
  | .returned (some err) =>
      ∃ err', err = .compose err' ∧ progress = .returned (some err')

structure Refines (request : Request) (fields : ComposePost.Request)
    (posts : List Post) (state : State) (abstract : ComposePost.State) :
    Prop where
  counter : ∃ n, CounterIs state.stores.hash "num_components" n
  hash : abstract.hash request.params.reqID = state.stores.hash
  progress : ∀ method, (state.phase method).Refines fields method
    (abstract.progress (request.execution method))
  posts : state.stores.posts =
    posts ++ abstract.storedFor request.params.reqID

theorem State.start_refines (request : Request)
    (fields : ComposePost.Request) (posts : List Post)
    (published : List (String × Message)) (timelines : UserTimeline.Stores) :
    Refines request fields posts (.start posts published timelines)
      ComposePost.State.initial where
  counter := ⟨0, counterIs_empty _⟩
  hash := rfl
  progress _ := rfl
  posts := (List.append_nil posts).symm

/-- A step of the handler that is none of the machine. -/
theorem Refines.silent {method : Method} {stores : Stores} {phase : Phase}
    (hgood : Refines request fields posts state abstract)
    (hhash : stores.hash = state.stores.hash)
    (hposts : stores.posts = state.stores.posts)
    (hphase : phase.Refines fields method
      (abstract.progress (request.execution method))) :
    Refines request fields posts (state.set method stores phase)
      abstract where
  counter := by
    obtain ⟨n, hcount⟩ := hgood.counter
    exact ⟨n, hcount.congr (congrFun hhash _)⟩
  hash := hgood.hash.trans hhash.symm
  progress other := by
    by_cases hother : other = method
    · subst hother
      rw [State.set_phase_self]
      exact hphase
    · rw [State.set_phase_of_ne state hother]
      exact hgood.progress other
  posts := hposts.trans hgood.posts

/-- A step of both. -/
theorem Refines.command {method : Method} {stores : Stores} {phase : Phase}
    {abstract' : ComposePost.State} {progress : Progress}
    (hgood : Refines request fields posts state abstract)
    (hcounter : ∃ n, CounterIs stores.hash "num_components" n)
    (hhash : abstract'.hash request.params.reqID = stores.hash)
    (hprogress : abstract'.progress =
      Function.update abstract.progress (request.execution method) progress)
    (hphase : phase.Refines fields method progress)
    (hposts : stores.posts =
      posts ++ abstract'.storedFor request.params.reqID) :
    Refines request fields posts (state.set method stores phase)
      abstract' where
  counter := hcounter
  hash := hhash
  progress other := by
    rw [hprogress]
    by_cases hother : other = method
    · subst hother
      rw [State.set_phase_self, Function.update_self]
      exact hphase
    · rw [State.set_phase_of_ne state hother,
        Function.update_of_ne (Request.execution_ne hother)]
      exact hgood.progress other
  posts := hposts

theorem Refines.of_phase {method : Method} {phase : Phase}
    (hgood : Refines request fields posts state abstract)
    (hphase : state.phase method = phase) :
    phase.Refines fields method
      (abstract.progress (request.execution method)) := by
  rw [← hphase]
  exact hgood.progress method

theorem Refines.hset {method : Method}
    (hgood : Refines request fields posts state abstract)
    (hphase : state.phase method = .called (fields.upload method)) :
    ∃ abstract',
      ComposePost.step (fun _ => fields) abstract
        (.hset (request.execution method)) = some abstract' ∧
      Refines request fields posts
        (state.set method
          { state.stores with
            hash := Redis.hset state.stores.hash (fields.upload method) }
          (.wroteFields none)) abstract' := by
  have hprogress := hgood.of_phase hphase
  refine ⟨_, by simp only [ComposePost.step, hprogress.1]; rfl, ?_⟩
  refine hgood.command ?_ ?_ rfl ⟨rfl, rfl⟩ hgood.posts
  · obtain ⟨n, hcount⟩ := hgood.counter
    refine ⟨n, hcount.congr (hset_of_not_mem ?_)⟩
    rw [Request.upload_keys]
    exact numComponents_not_mem_keys method
  · rw [State.setProgress_hash, Request.execution, State.setHash_hash_self,
      hgood.hash]

theorem Refines.hincrBy {method : Method} {n : ℕ}
    (hgood : Refines request fields posts state abstract)
    (hcount : CounterIs state.stores.hash "num_components" n)
    (hphase : state.phase method = .wroteFields none) :
    ∃ abstract',
      ComposePost.step (fun _ => fields) abstract
        (.hincrBy (request.execution method)) = some abstract' ∧
      Refines request fields posts
        (state.set method
          { state.stores with
            hash := Function.update state.stores.hash "num_components"
              (some (.num ((n + 1 : ℕ) : Int))) }
          (.counted ((n + 1 : ℕ) : Int) none)) abstract' := by
  have hprogress := hgood.of_phase hphase
  have hcounted : Redis.hincrBy
      (abstract.hash (request.execution method).reqID) "num_components" 1 =
        some (((n + 1 : ℕ) : Int),
          Function.update state.stores.hash "num_components"
            (some (.num ((n + 1 : ℕ) : Int)))) := by
    rw [Request.execution, hgood.hash]
    exact hcount.hincrBy
  refine ⟨_, by simp only [ComposePost.step, hprogress.1, hcounted]; rfl, ?_⟩
  refine hgood.command ⟨n + 1, counterIs_update_self _ _ _⟩ ?_ rfl
    ⟨rfl, rfl⟩ hgood.posts
  rw [State.setProgress_hash, Request.execution, State.setHash_hash_self]

/-- A step of both which only moves the method. -/
theorem Refines.move {method : Method} {phase : Phase} {progress : Progress}
    (hgood : Refines request fields posts state abstract)
    (hphase : phase.Refines fields method progress) :
    Refines request fields posts
      (state.set method state.stores phase)
      (abstract.setProgress (request.execution method) progress) :=
  hgood.command hgood.counter hgood.hash rfl hphase hgood.posts

theorem Refines.expire {method : Method} {numComponents : Int}
    (hgood : Refines request fields posts state abstract)
    (hphase : state.phase method = .counted numComponents none) :
    ∃ abstract',
      ComposePost.step (fun _ => fields) abstract
        (.expire (request.execution method)) = some abstract' ∧
      Refines request fields posts
        (state.set method state.stores (afterPipeline numComponents none))
        abstract' := by
  have hprogress := hgood.of_phase hphase
  simp only [ComposePost.step, hprogress.1, afterPipeline]
  split
  next => exact ⟨_, rfl, hgood.move rfl⟩
  next => exact ⟨_, rfl, hgood.move (.inl rfl)⟩

theorem Refines.hget {method : Method} {key : String}
    {replies : String → Option (Option Json)}
    (hgood : Refines request fields posts state abstract)
    (hphase : state.phase method = .composing replies)
    (hkey : key ∈ componentKeys) (hreply : replies key = none) :
    ∃ abstract',
      ComposePost.step (fun _ => fields) abstract
        (.hget (request.execution method) key) = some abstract' ∧
      Refines request fields posts
        (state.set method state.stores (.composing (Function.update replies
          key (some (Redis.hget state.stores.hash key))))) abstract' := by
  have hprogress : abstract.progress (request.execution method) =
      .composing replies :=
    hgood.of_phase hphase
  simp only [ComposePost.step, hprogress]
  rw [if_pos ⟨hkey, hreply⟩]
  refine ⟨_, rfl, hgood.move ?_⟩
  rw [Request.execution, hgood.hash]
  rfl

theorem Refines.join {method : Method} {timestamp : Int64}
    {replies : String → Option (Option Json)} {phase : Phase}
    (hgood : Refines request fields posts state abstract)
    (hphase : state.phase method = .composing replies)
    (hready : ∀ key ∈ componentKeys, (replies key).isSome)
    (hnext : (∃ err, buildPost request.params.reqID timestamp
          (fun key => (replies key).join) = .error err ∧
        phase = .returned (some (.compose err))) ∨
      ∃ post, buildPost request.params.reqID timestamp
          (fun key => (replies key).join) = .ok post ∧
        phase = .storing post) :
    ∃ abstract',
      ComposePost.step (fun _ => fields) abstract
        (.join (request.execution method) timestamp) = some abstract' ∧
      Refines request fields posts (state.set method state.stores phase)
        abstract' := by
  have hprogress : abstract.progress (request.execution method) =
      .composing replies :=
    hgood.of_phase hphase
  simp only [ComposePost.step, hprogress]
  rw [if_pos hready]
  rcases hnext with ⟨err, hbuild, rfl⟩ | ⟨post, hbuild, rfl⟩
  · simp only [Request.execution, hbuild]
    exact ⟨_, rfl, hgood.move ⟨err, rfl, rfl⟩⟩
  · simp only [Request.execution, hbuild]
    exact ⟨_, rfl, hgood.move rfl⟩

theorem Refines.storePost {method : Method} {post : Post}
    (hgood : Refines request fields posts state abstract)
    (hphase : state.phase method = .storing post) :
    ∃ abstract',
      ComposePost.step (fun _ => fields) abstract
        (.storePost (request.execution method)) = some abstract' ∧
      Refines request fields posts
        (state.set method
          { state.stores with posts := state.stores.posts ++ [post] }
          (.stored post)) abstract' := by
  have hprogress : abstract.progress (request.execution method) =
      .storing post :=
    hgood.of_phase hphase
  refine ⟨_, by simp only [ComposePost.step, hprogress]; rfl, ?_⟩
  refine hgood.command hgood.counter hgood.hash rfl rfl ?_
  simp [ComposePost.State.storedFor, hgood.posts, Request.execution]

/-- The steps of the handler without failures are steps of the machine. -/
theorem Refines.step (hgood : Refines request fields posts state abstract)
    (hsucceeds : label.Succeeds deployment request fields)
    (hstep : step deployment request state label = some next) :
    match label.command request with
    | some command => ∃ abstract',
        ComposePost.step (fun _ => fields) abstract command =
          some abstract' ∧
        Refines request fields posts next abstract'
    | none => Refines request fields posts next abstract := by
  obtain ⟨stores, phase, hact, rfl⟩ := step_cases hstep
  obtain ⟨method, action⟩ := label
  have hprogress := hgood.progress method
  have hcases := act_cases hact
  dsimp only at hact hcases ⊢
  cases action with
  | call answers =>
      obtain ⟨hready, rfl, hnext⟩ := hcases
      have hupload : upload deployment request answers method =
          .ok (some (fields.upload method)) := hsucceeds
      rw [hready] at hprogress
      simp only [hupload, reduceCtorEq, false_and, exists_false,
        Except.ok.injEq, Option.some.injEq, false_or] at hnext
      obtain ⟨fieldsValues, rfl, rfl⟩ := hnext
      exact hgood.silent rfl rfl ⟨hprogress, rfl⟩
  | hset write =>
      obtain ⟨fieldsValues, hcalled, rfl, rfl⟩ := hcases
      cases hsucceeds
      rw [hcalled] at hprogress
      obtain ⟨-, rfl⟩ := hprogress
      exact hgood.hset hcalled
  | hincrBy write =>
      obtain ⟨err, hwrote, hnext⟩ := hcases
      cases hsucceeds
      rw [hwrote] at hprogress
      obtain ⟨-, rfl⟩ := hprogress
      obtain ⟨n, hcount⟩ := hgood.counter
      obtain ⟨rfl, rfl⟩ := hnext _ _ hcount.hincrBy
      exact hgood.hincrBy hcount hwrote
  | expire ok =>
      obtain ⟨numComponents, err, hcounted, rfl, rfl⟩ := hcases
      cases hsucceeds
      rw [hcounted] at hprogress
      obtain ⟨-, rfl⟩ := hprogress
      exact hgood.expire hcounted
  | hget key ok =>
      obtain ⟨replies, hcomposing, hkey, hreply, rfl, rfl⟩ := hcases
      cases hsucceeds
      exact hgood.hget hcomposing hkey hreply
  | join timestamp =>
      obtain ⟨replies, hcomposing, hready, rfl, hnext⟩ := hcases
      exact hgood.join hcomposing hready hnext
  | insertOne write =>
      obtain ⟨post, hstoring, hnext⟩ := hcases
      rcases hnext with ⟨hfailed, -⟩ | ⟨-, rfl, rfl⟩
      · exact absurd hsucceeds hfailed
      · exact hgood.storePost hstoring
  | pop ok =>
      obtain ⟨post, hstored, rfl, rfl⟩ := hcases
      cases hsucceeds
      rw [hstored] at hprogress
      exact hgood.silent rfl rfl hprogress
  | exchangeDeclare ok =>
      obtain ⟨post, hpopped, rfl, rfl⟩ := hcases
      cases hsucceeds
      rw [hpopped] at hprogress
      exact hgood.silent rfl rfl hprogress
  | publish write =>
      obtain ⟨post, region, regions, hpublishing, rfl, rfl⟩ := hcases
      rw [hpublishing] at hprogress
      exact hgood.silent rfl rfl hprogress
  | writeUserTimeline calls =>
      obtain ⟨post, hpublishing, rfl, rfl⟩ := hcases
      rw [hpublishing] at hprogress
      exact hgood.silent rfl rfl (.inr ⟨post, hprogress⟩)

/-- A run of the handler without failures is a run of the compose-post
machine. -/
theorem run_refines {published : List (String × Message)}
    {timelines : UserTimeline.Stores}
    (hsucceeds : ∀ label ∈ labels, label.Succeeds deployment request fields)
    (hrun : run (step deployment request) (.start posts published timelines)
      labels = some state) :
    ∃ abstract,
      run (ComposePost.step fun _ => fields) ComposePost.State.initial
        (labels.filterMap (Label.command request)) = some abstract ∧
      Refines request fields posts state abstract := by
  refine run_simulation ?_ hsucceeds (State.start_refines _ _ _ _ _) hrun
  intro state label next abstract hlabel hgood hstep
  have hnext := hgood.step hlabel hstep
  cases hcommand : label.command request with
  | none =>
      rw [hcommand] at hnext
      exact hnext
  | some command =>
      rw [hcommand] at hnext
      exact hnext

/-- The machine's result on one request: without failures at most one post is
stored, and it is the post of the uploaded fields. -/
theorem run_posts {published : List (String × Message)}
    {timelines : UserTimeline.Stores}
    (hsucceeds : ∀ label ∈ labels, label.Succeeds deployment request fields)
    (hrun : run (step deployment request) (.start posts published timelines)
      labels = some state) :
    ∃ stored, state.stores.posts = posts ++ stored ∧ stored.length ≤ 1 ∧
      ∀ post ∈ stored, ∃ timestamp,
        post = fields.post request.params.reqID timestamp := by
  obtain ⟨abstract, habstract, hrefines⟩ := run_refines hsucceeds hrun
  have haccounting := run_accounting habstract
  have hcontents := run_contents habstract
  have honce : AtMostOnce (labels.filterMap (Label.command request)) := by
    have hexecution : ∀ e,
        .hset e ∈ labels.filterMap (Label.command request) →
        e = request.execution e.method := by
      intro e hmem
      obtain ⟨label, -, hcommand⟩ := List.mem_filterMap.mp hmem
      unfold Label.command at hcommand
      split at hcommand <;> cases hcommand
      rfl
    intro e e' he he' _ hmethod
    rw [hexecution e he, hexecution e' he', hmethod]
  refine ⟨_, hrefines.posts, ?_, ?_⟩
  · exact hcontents.storedFor_length_le
      (haccounting.composerUnique_of_atMostOnce honce)
  · intro post hmem
    exact hcontents.exists_eq_post hmem

end SocialNetwork.ComposePostHandler
