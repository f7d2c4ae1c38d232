import SocialNetwork.Notification

/-!
# Notifications follow their posts

A message is published only by a run that has stored its post, and MongoDB
collections only grow, so a published post stays where it was stored.  A
worker misses it exactly when it reads a replica that does not have it yet.
-/

namespace SocialNetwork.Notification

open Json Machine

variable {Run : Type} {deployment : Deployment Run}
  {state next : State Run} {labels : List (Label Run)} {label : Label Run}

/-- The run has inserted its post into the MongoDB of its region. -/
def State.Stored (deployment : Deployment Run) (state : State Run)
    (i : Run) : Prop :=
  deployment.post i ∈ state.posts (deployment.database i)

def State.Backed (deployment : Deployment Run) (state : State Run)
    (body : Json) : Prop :=
  ∃ i, body = marshal (message (deployment.post i)) ∧
    state.Stored deployment i

structure Invariant (deployment : Deployment Run) (state : State Run) :
    Prop where
  posts : ∀ database, ∀ post ∈ state.posts database,
    ∃ i, post = deployment.post i
  publishing : ∀ i regions, state.run i = .publishing regions →
    state.Stored deployment i
  published : ∀ entry ∈ state.published, state.Backed deployment entry.2
  inFlight : ∀ entry ∈ state.inFlight, entry ∈ state.published
  received : ∀ w body, state.worker w = .received body →
    state.Backed deployment body
  reading : ∀ w msg, state.worker w = .reading msg →
    ∃ i, msg = message (deployment.post i) ∧ state.Stored deployment i

theorem State.initial_invariant (deployment : Deployment Run) :
    Invariant deployment (State.initial : State Run) := by
  constructor <;> simp [State.initial]

def State.Extends (state next : State Run) : Prop :=
  ∀ database, state.posts database ⊆ next.posts database

theorem State.Stored.extends {i : Run} (h : state.Stored deployment i)
    (hextends : state.Extends next) : next.Stored deployment i :=
  hextends _ h

theorem State.Backed.extends {body : Json}
    (h : state.Backed deployment body) (hextends : state.Extends next) :
    next.Backed deployment body := by
  obtain ⟨i, hbody, hstored⟩ := h
  exact ⟨i, hbody, hstored.extends hextends⟩

theorem State.insert_extends (database : Database) (post : Post) :
    state.Extends (state.insert database post) := by
  intro other
  by_cases h : other = database
  · subst h
    simp [State.insert]
  · simp [State.insert, h]

theorem State.mem_insert_self (database : Database) (post : Post) :
    post ∈ (state.insert database post).posts database := by
  simp [State.insert]

theorem State.mem_of_mem_insert {database other : Database}
    {post post' : Post} (h : post' ∈ (state.insert database post).posts other) :
    post' = post ∨ post' ∈ state.posts other := by
  by_cases hother : other = database
  · subst hother
    simpa [State.insert, or_comm] using h
  · right
    simpa [State.insert, hother] using h

@[simp] theorem State.setRun_self [DecidableEq Run] (i : Run)
    (phase : RunPhase) :
    (state.setRun i phase).run i = phase :=
  Function.update_self _ _ _

@[simp] theorem State.setWorker_self (w : Worker) (phase : WorkerPhase) :
    (state.setWorker w phase).worker w = phase :=
  Function.update_self _ _ _

/-! ## Steps of a run -/

theorem Invariant.insert (hgood : Invariant deployment state) (i : Run)
    (database : Database) :
    Invariant deployment (state.insert database (deployment.post i)) where
  posts other post hmem := by
    rcases State.mem_of_mem_insert hmem with rfl | hmem
    · exact ⟨i, rfl⟩
    · exact hgood.posts other post hmem
  publishing j regions hrun :=
    (hgood.publishing j regions hrun).extends (State.insert_extends _ _)
  published entry hmem :=
    (hgood.published entry hmem).extends (State.insert_extends _ _)
  inFlight := hgood.inFlight
  received w body hworker :=
    (hgood.received w body hworker).extends (State.insert_extends _ _)
  reading w msg hworker := by
    obtain ⟨j, hmsg, hstored⟩ := hgood.reading w msg hworker
    exact ⟨j, hmsg, hstored.extends (State.insert_extends _ _)⟩

theorem Invariant.setRun [DecidableEq Run]
    (hgood : Invariant deployment state) {i : Run} {phase : RunPhase}
    (hphase : ∀ regions, phase = .publishing regions →
      state.Stored deployment i) :
    Invariant deployment (state.setRun i phase) where
  posts := hgood.posts
  publishing j regions hrun := by
    by_cases hj : j = i
    · subst hj
      rw [State.setRun_self] at hrun
      exact hphase regions hrun
    · apply hgood.publishing j regions
      simpa [State.setRun, hj] using hrun
  published := hgood.published
  inFlight := hgood.inFlight
  received := hgood.received
  reading := hgood.reading

theorem Invariant.publish (hgood : Invariant deployment state) {i : Run}
    (hstored : state.Stored deployment i) (region : Region) :
    Invariant deployment
      { state with
        published := state.published ++
          [(region, marshal (message (deployment.post i)))]
        inFlight := state.inFlight ++
          [(region, marshal (message (deployment.post i)))] } where
  posts := hgood.posts
  publishing := hgood.publishing
  published entry hmem := by
    rcases List.mem_append.mp hmem with hmem | hmem
    · exact hgood.published entry hmem
    · rw [List.mem_singleton.mp hmem]
      exact ⟨i, rfl, hstored⟩
  inFlight entry hmem := by
    rcases List.mem_append.mp hmem with hmem | hmem
    · exact List.mem_append_left _ (hgood.inFlight entry hmem)
    · exact List.mem_append_right _ hmem
  received := hgood.received
  reading := hgood.reading

/-! ## Steps of a worker -/

theorem Invariant.setWorker (hgood : Invariant deployment state)
    {w : Worker} {phase : WorkerPhase}
    (hreceived : ∀ body, phase = .received body →
      state.Backed deployment body)
    (hreading : ∀ msg, phase = .reading msg →
      ∃ i, msg = message (deployment.post i) ∧ state.Stored deployment i) :
    Invariant deployment (state.setWorker w phase) where
  posts := hgood.posts
  publishing := hgood.publishing
  published := hgood.published
  inFlight := hgood.inFlight
  received w' body hworker := by
    by_cases hw : w' = w
    · subst hw
      rw [State.setWorker_self] at hworker
      exact hreceived body hworker
    · apply hgood.received w' body
      simpa [State.setWorker, hw] using hworker
  reading w' msg hworker := by
    by_cases hw : w' = w
    · subst hw
      rw [State.setWorker_self] at hworker
      exact hreading msg hworker
    · apply hgood.reading w' msg
      simpa [State.setWorker, hw] using hworker

/-- Home timelines and metrics do not matter to the invariant. -/
theorem Invariant.outputs (hgood : Invariant deployment state)
    (homeTimelines : Region → String → SortedSet Int String)
    (inconsistencies : Region → ℕ) :
    Invariant deployment
      { state with
        homeTimelines := homeTimelines
        inconsistencies := inconsistencies } :=
  ⟨hgood.posts, hgood.publishing, hgood.published, hgood.inFlight,
    hgood.received, hgood.reading⟩

/-- `FindOne` misses the post of a run exactly where the post is missing. -/
theorem Invariant.findOne_eq_none_iff (hgood : Invariant deployment state)
    (hids : Function.Injective fun i => (deployment.post i).postID)
    (i : Run) (database : Database) :
    findOne (state.posts database) (deployment.post i).postID = none ↔
      deployment.post i ∉ state.posts database := by
  unfold findOne
  rw [List.find?_eq_none]
  constructor
  · intro hnone hmem
    simpa using hnone _ hmem
  · intro hmissing post hmem hid
    obtain ⟨j, rfl⟩ := hgood.posts database post hmem
    obtain rfl := hids (of_decide_eq_true hid)
    exact hmissing hmem

variable [DecidableEq Run]

theorem step_deliver {w : Worker} {index : ℕ}
    (hstep : step deployment state (.deliver w index) = some next) :
    ∃ body, (deployment.workerRegion w, body) ∈ state.inFlight ∧
      next = { state with
        inFlight := state.inFlight.eraseIdx index }.setWorker w
          (.received body) := by
  simp only [step] at hstep
  split at hstep
  next region body _ hget =>
    split at hstep
    next hregion =>
      subst hregion
      exact ⟨body, List.mem_of_getElem? hget, (Option.some.inj hstep).symm⟩
    next => cases hstep
  next => cases hstep

theorem Invariant.step (hgood : Invariant deployment state)
    (hstep : Notification.step deployment state label = some next) :
    Invariant deployment next := by
  cases label with
  | storePost i ok =>
      simp only [Notification.step] at hstep
      split at hstep
      next =>
        split at hstep <;> obtain rfl := Option.some.inj hstep
        · exact (hgood.insert i _).setRun fun _ _ =>
            State.mem_insert_self _ _
        · exact hgood.setRun (by simp)
      next => cases hstep
  | publish i ok =>
      simp only [Notification.step] at hstep
      split at hstep
      next region regions hrun =>
        have hstored := hgood.publishing i _ hrun
        split at hstep <;> obtain rfl := Option.some.inj hstep
        · exact (hgood.setRun fun _ _ => hstored).publish hstored region
        · exact hgood.setRun fun _ _ => hstored
      next => cases hstep
  | leaveHelper i =>
      simp only [Notification.step] at hstep
      split at hstep
      next =>
        obtain rfl := Option.some.inj hstep
        exact hgood.setRun (by simp)
      next => cases hstep
  | replicate source replica post =>
      simp only [Notification.step] at hstep
      split at hstep
      next hpost =>
        obtain rfl := Option.some.inj hstep
        obtain ⟨i, rfl⟩ := hgood.posts source post hpost.1
        exact hgood.insert i replica
      next => cases hstep
  | deliver w index =>
      obtain ⟨body, hmem, rfl⟩ := step_deliver hstep
      have hbacked := hgood.published _ (hgood.inFlight _ hmem)
      have hless : Invariant deployment
          { state with inFlight := state.inFlight.eraseIdx index } :=
        ⟨hgood.posts, hgood.publishing, hgood.published,
          fun entry h => hgood.inFlight entry (List.mem_of_mem_eraseIdx h),
          hgood.received, hgood.reading⟩
      refine hless.setWorker ?_ (by simp)
      rintro body' heq
      obtain rfl := WorkerPhase.received.inj heq
      exact hbacked
  | unmarshal w spanOk =>
      simp only [Notification.step] at hstep
      split at hstep
      next body hworker =>
        obtain ⟨i, rfl, hstored⟩ := hgood.received w body hworker
        rw [unmarshal_marshal] at hstep
        simp only at hstep
        split at hstep <;> obtain rfl := Option.some.inj hstep
        · refine hgood.setWorker (by simp) ?_
          rintro msg heq
          exact ⟨i, (WorkerPhase.reading.inj heq).symm, hstored⟩
        · exact hgood.setWorker (by simp) (by simp)
      next => cases hstep
  | findOne w database =>
      simp only [Notification.step] at hstep
      split at hstep
      next =>
        split at hstep <;> obtain rfl := Option.some.inj hstep
        · exact (hgood.outputs state.homeTimelines _).setWorker (by simp)
            (by simp)
        · exact hgood.setWorker (by simp) (by simp)
      next => cases hstep
  | findFailed w =>
      simp only [Notification.step] at hstep
      split at hstep
      next =>
        obtain rfl := Option.some.inj hstep
        exact hgood.setWorker (by simp) (by simp)
      next => cases hstep
  | getFollowers w followers =>
      simp only [Notification.step] at hstep
      split at hstep
      next =>
        split at hstep <;> obtain rfl := Option.some.inj hstep <;>
          exact hgood.setWorker (by simp) (by simp)
      next => cases hstep
  | zaddNX w id ok =>
      simp only [Notification.step] at hstep
      split at hstep
      next =>
        split at hstep
        next =>
          split at hstep <;> obtain rfl := Option.some.inj hstep
          · exact (hgood.outputs _ state.inconsistencies).setWorker
              (by simp) (by simp)
          · exact hgood.setWorker (by simp) (by simp)
        next => cases hstep
      next => cases hstep
  | leave w =>
      simp only [Notification.step] at hstep
      split at hstep
      next =>
        split at hstep
        next =>
          obtain rfl := Option.some.inj hstep
          exact hgood.setWorker (by simp) (by simp)
        next => cases hstep
      next => cases hstep

theorem run_invariant
    (hrun : run (Notification.step deployment) State.initial labels =
      some state) : Invariant deployment state :=
  Machine.run_invariant (State.initial_invariant deployment)
    (fun _ _ _ hgood hstep => hgood.step hstep) hrun

/-! ## Missing a post -/

theorem step_findOne {w : Worker} {database : Database} {msg : Message}
    (hworker : state.worker w = .reading msg)
    (hstep : step deployment state (.findOne w database) = some next) :
    (findOne (state.posts database) msg.postID = none ∧
        next = { state with
          inconsistencies := Function.update state.inconsistencies
            (deployment.workerRegion w)
            (state.inconsistencies (deployment.workerRegion w) + 1)
              }.setWorker w .waiting) ∨
      (findOne (state.posts database) msg.postID ≠ none ∧
        next = state.setWorker w (.found msg)) := by
  simp only [step, hworker] at hstep
  split at hstep
  next hnone => exact .inl ⟨hnone, (Option.some.inj hstep).symm⟩
  next post hsome =>
    exact .inr ⟨by simp [hsome], (Option.some.inj hstep).symm⟩

/-- Notifications never overtake their posts in the MongoDB that stored
them: every published post is there, and a worker takes the `ErrNoDocuments`
branch exactly when it reads a replica which lacks the post; then it writes
no home timeline and counts one inconsistency. -/
theorem notification_after_store (deployment : Deployment Run)
    (hids : Function.Injective fun i => (deployment.post i).postID)
    (labels : List (Label Run)) (state : State Run)
    (hrun : run (step deployment) State.initial labels = some state) :
    (∀ entry ∈ state.published, ∃ i,
        entry.2 = marshal (message (deployment.post i)) ∧
          deployment.post i ∈ state.posts (deployment.database i)) ∧
      (∀ entry ∈ state.inFlight, entry ∈ state.published) ∧
      ∀ w msg database next, state.worker w = .reading msg →
        step deployment state (.findOne w database) = some next →
          ∃ i, msg = message (deployment.post i) ∧
            (database = deployment.database i →
              next.worker w = .found msg) ∧
            (next.worker w = .waiting ↔
              deployment.post i ∉ state.posts database) ∧
            next.homeTimelines = state.homeTimelines ∧
            next.inconsistencies =
              if deployment.post i ∈ state.posts database then
                state.inconsistencies
              else Function.update state.inconsistencies
                (deployment.workerRegion w)
                (state.inconsistencies (deployment.workerRegion w) + 1) := by
  have hgood := run_invariant hrun
  refine ⟨hgood.published, hgood.inFlight, ?_⟩
  intro w msg database next hworker hstep
  obtain ⟨i, rfl, hstored⟩ := hgood.reading w msg hworker
  refine ⟨i, rfl, ?_⟩
  have hmissing := hgood.findOne_eq_none_iff hids i database
  rcases step_findOne hworker hstep with ⟨hnone, rfl⟩ | ⟨hsome, rfl⟩
  · have hnot := hmissing.mp hnone
    refine ⟨?_, ?_, rfl, ?_⟩
    · rintro rfl
      exact absurd hstored hnot
    · simp [hnot]
    · rw [if_neg hnot]
      rfl
  · have hmem := not_not.mp (hmissing.not.mp hsome)
    refine ⟨fun _ => State.setWorker_self _ _, ?_, rfl, ?_⟩
    · simp [hmem]
    · rw [if_pos hmem]
      rfl

/-- Two posts from region "eu", and workers in region "us". -/
def sampleDeployment : Deployment Bool where
  composition i :=
    ⟨⟨if i then 1 else 0, 1, ⟨3, "ana"⟩, "hello", [], [], [], 0, 0⟩, "eu",
      ["us"]⟩
  workerRegion _ := "us"

theorem notification_after_store_sample :
    ∃ (state next : State Bool),
      run (step sampleDeployment) State.initial
        [.storePost true true, .publish true true, .deliver 0 0,
          .unmarshal 0 true] = some state ∧
      step sampleDeployment state (.findOne 0 "us") = some next ∧
      next.inconsistencies "us" = state.inconsistencies "us" + 1 := by
  have hids : Function.Injective fun i =>
      (sampleDeployment.post i).postID := by decide
  have hrun : (run (step sampleDeployment) State.initial
      [.storePost true true, .publish true true, .deliver 0 0,
        .unmarshal 0 true]).any fun state =>
          (step sampleDeployment state (.findOne 0 "us")).isSome ∧
            state.posts "us" = [] := by decide +kernel
  obtain ⟨state, hrun, hnext⟩ := (Option.any_eq_true _ _).mp hrun
  rw [decide_eq_true_eq] at hnext
  obtain ⟨next, hstep⟩ := Option.isSome_iff_exists.mp hnext.1
  refine ⟨state, next, hrun, hstep, ?_⟩
  have hgood := (notification_after_store sampleDeployment hids _ state
    hrun).2.2
  cases hworker : state.worker 0 with
  | reading msg =>
      obtain ⟨i, -, -, -, -, hcount⟩ := hgood 0 msg "us" next hworker hstep
      rw [hcount, hnext.2, if_neg List.not_mem_nil]
      simp [sampleDeployment]
  | _ => simp [step, hworker] at hstep

end SocialNetwork.Notification
