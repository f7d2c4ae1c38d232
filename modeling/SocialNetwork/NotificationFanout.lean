import SocialNetwork.NotificationCausality

/-!
# Fan-out to the home timelines

The runs of `WriteHomeTimeline` in which all posts are visible and all calls
succeed.  What is still to be added is covered by a message in flight or by a
worker; when nothing is covered any more, each sorted set is the initial one
with the entries of the messages, in whatever order they were added.
-/

namespace SocialNetwork.Notification

open Json Machine

variable {Run : Type}

/-- The keys of `uniqueIDs` in `WriteHomeTimeline`. -/
def recipients (followers : Int64 → List Int64) (msg : Message) :
    Finset Int64 :=
  (followers msg.userID).toFinset ∪ msg.userMentionIDs.toFinset

/-- The step is one of a worker, the post is visible, the reply of
`GetFollowers` is the fixed list, and no call fails. -/
def succeeds (followers : Int64 → List Int64) (state : State Run) :
    Label Run → Bool
  | .deliver _ _ => true
  | .unmarshal _ spanOk => spanOk
  | .findOne w database =>
      match state.worker w with
      | .reading msg => (findOne (state.posts database) msg.postID).isSome
      | _ => false
  | .getFollowers w reply =>
      match state.worker w with
      | .found msg => reply = some (followers msg.userID)
      | _ => false
  | .zaddNX _ _ ok => ok
  | .leave _ => true
  | _ => false

def succeedingStep [DecidableEq Run] (deployment : Deployment Run)
    (followers : Int64 → List Int64) (state : State Run)
    (label : Label Run) : Option (State Run) :=
  if succeeds followers state label then step deployment state label
  else none

/-- The messages are in flight and all workers wait. -/
def State.start (posts : Database → List Post)
    (msgs : List (Region × Message))
    (timelines : Region → String → SortedSet Int String) : State Run :=
  { State.initial with
    posts := posts
    inFlight := msgs.map fun entry => (entry.1, marshal entry.2)
    homeTimelines := timelines }

def State.Finished (state : State Run) : Prop :=
  state.inFlight = [] ∧ ∀ w, state.worker w = .waiting

/-- Messages with one `PostID` agree on what `WriteHomeTimeline` uses. -/
def Agree (msgs : List (Region × Message)) : Prop :=
  ∀ entry ∈ msgs, ∀ other ∈ msgs, entry.2.postID = other.2.postID →
    entry.2.timestamp = other.2.timestamp ∧
      entry.2.userID = other.2.userID ∧
      entry.2.userMentionIDs = other.2.userMentionIDs

/-- The messages add the member with the score to the set of the key. -/
def Adds (followers : Int64 → List Int64) (msgs : List (Region × Message))
    (region : Region) (key member : String) (score : Int) : Prop :=
  ∃ msg, (region, msg) ∈ msgs ∧
    (∃ id ∈ recipients followers msg, key = idText id) ∧
    member = idText msg.postID ∧ score = float64 msg.timestamp

theorem Adds.score_eq {followers : Int64 → List Int64}
    {msgs : List (Region × Message)} (hagree : Agree msgs)
    {region : Region} {key member : String} {score score' : Int}
    (h : Adds followers msgs region key member score)
    (h' : Adds followers msgs region key member score') :
    score = score' := by
  obtain ⟨msg, hmem, -, hmember, rfl⟩ := h
  obtain ⟨msg', hmem', -, hmember', rfl⟩ := h'
  have hid : msg.postID = msg'.postID :=
    idText_inj.mp (hmember.symm.trans hmember')
  rw [(hagree _ hmem _ hmem' hid).1]

/-! ## What a worker has still to add -/

/-- The worker will add the post of the message for the user. -/
def WorkerPhase.Covers (phase : WorkerPhase) (msg : Message) (id : Int64) :
    Prop :=
  match phase with
  | .waiting => False
  | .received body => body = marshal msg
  | .reading other => other = msg
  | .found other => other = msg
  | .writing other uniqueIDs => other = msg ∧ id ∈ uniqueIDs

/-- The worker processes the message. -/
def WorkerPhase.Carries (followers : Int64 → List Int64)
    (phase : WorkerPhase) (msg : Message) : Prop :=
  match phase with
  | .waiting => False
  | .received body => body = marshal msg
  | .reading other => other = msg
  | .found other => other = msg
  | .writing other uniqueIDs =>
      other = msg ∧ uniqueIDs ⊆ recipients followers msg

/-- `initial` are the home timelines at the start of the run. -/
structure FanOut (deployment : Deployment Run)
    (followers : Int64 → List Int64) (msgs : List (Region × Message))
    (initial : Region → String → SortedSet Int String)
    (state : State Run) : Prop where
  inFlight : ∀ entry ∈ state.inFlight, ∃ msg,
    (entry.1, msg) ∈ msgs ∧ entry.2 = marshal msg
  worker : ∀ w, state.worker w = .waiting ∨ ∃ msg,
    (deployment.workerRegion w, msg) ∈ msgs ∧
      (state.worker w).Carries followers msg
  kept : ∀ region key member score,
    (initial region key).score? member = some score →
      (state.homeTimelines region key).score? member = some score
  added : ∀ region key member score,
    (state.homeTimelines region key).score? member = some score →
      (initial region key).score? member = some score ∨
        Adds followers msgs region key member score
  covered : ∀ region msg, (region, msg) ∈ msgs →
    ∀ id ∈ recipients followers msg,
      idText msg.postID ∈
          (state.homeTimelines region (idText id)).members ∨
        (region, marshal msg) ∈ state.inFlight ∨
        ∃ w, deployment.workerRegion w = region ∧
          (state.worker w).Covers msg id

section Invariant

variable {deployment : Deployment Run} {followers : Int64 → List Int64}
  {msgs : List (Region × Message)}
  {initial : Region → String → SortedSet Int String}
  {state next : State Run} {label : Label Run}

theorem FanOut.start (posts : Database → List Post) :
    FanOut deployment followers msgs initial
      (State.start posts msgs initial : State Run) where
  inFlight entry hentry := by
    obtain ⟨source, hsource, rfl⟩ := List.mem_map.mp hentry
    exact ⟨source.2, hsource, rfl⟩
  worker w := .inl rfl
  kept region key member score hscore := hscore
  added region key member score hscore := .inl hscore
  covered region msg hmsg id hid :=
    .inr (.inl (List.mem_map.mpr ⟨(region, msg), hmsg, rfl⟩))

/-- A worker may go on when it covers the same posts as before, except those
that are already in their sets. -/
theorem FanOut.setWorker
    (hgood : FanOut deployment followers msgs initial state)
    {w : Worker} {phase : WorkerPhase}
    (hcarries : phase = .waiting ∨ ∃ msg,
      (deployment.workerRegion w, msg) ∈ msgs ∧ phase.Carries followers msg)
    (hcovers : ∀ msg, (deployment.workerRegion w, msg) ∈ msgs →
      ∀ id ∈ recipients followers msg, (state.worker w).Covers msg id →
        phase.Covers msg id ∨ idText msg.postID ∈
          (state.homeTimelines (deployment.workerRegion w)
            (idText id)).members) :
    FanOut deployment followers msgs initial (state.setWorker w phase) where
  inFlight := hgood.inFlight
  worker other := by
    by_cases hother : other = w
    · subst hother
      rw [State.setWorker_self]
      exact hcarries
    · simp only [State.setWorker, Function.update_of_ne hother]
      exact hgood.worker other
  kept := hgood.kept
  added := hgood.added
  covered region msg hmsg id hid := by
    rcases hgood.covered region msg hmsg id hid with hmem | hmem | hworker
    · exact .inl hmem
    · exact .inr (.inl hmem)
    · obtain ⟨other, rfl, hcover⟩ := hworker
      by_cases hother : other = w
      · subst hother
        rcases hcovers msg hmsg id hid hcover with hnext | hmem
        · refine .inr (.inr ⟨other, rfl, ?_⟩)
          rw [State.setWorker_self]
          exact hnext
        · exact .inl hmem
      · refine .inr (.inr ⟨other, rfl, ?_⟩)
        simp only [State.setWorker, Function.update_of_ne hother]
        exact hcover

theorem FanOut.phase_cases
    (hgood : FanOut deployment followers msgs initial state) {w : Worker}
    (hphase : state.worker w ≠ .waiting) :
    ∃ msg, (deployment.workerRegion w, msg) ∈ msgs ∧
      (state.worker w).Carries followers msg :=
  (hgood.worker w).resolve_left hphase

/-- A message that a worker has taken may leave the queue. -/
theorem FanOut.eraseIdx
    (hgood : FanOut deployment followers msgs initial state)
    {w : Worker} {index : ℕ} {body : Json}
    (hget : state.inFlight[index]? =
      some (deployment.workerRegion w, body))
    (hworker : state.worker w = .received body) :
    FanOut deployment followers msgs initial
      { state with inFlight := state.inFlight.eraseIdx index } where
  inFlight entry hentry :=
    hgood.inFlight entry (List.mem_of_mem_eraseIdx hentry)
  worker := hgood.worker
  kept := hgood.kept
  added := hgood.added
  covered region msg hmsg id hid := by
    rcases hgood.covered region msg hmsg id hid with hmem | hmem | hother
    · exact .inl hmem
    · obtain ⟨i, hi⟩ := List.getElem?_of_mem hmem
      by_cases hindex : i = index
      · subst hindex
        rw [hget, Option.some.injEq, Prod.mk.injEq] at hi
        refine .inr (.inr ⟨w, hi.1, ?_⟩)
        rw [hworker]
        exact hi.2
      · exact .inr (.inl
          (List.mem_eraseIdx_iff_getElem?.mpr ⟨i, hindex, hi⟩))
    · exact .inr (.inr hother)

theorem FanOut.zaddNX
    (hgood : FanOut deployment followers msgs initial state)
    {region : Region} {msg : Message} (hmsg : (region, msg) ∈ msgs)
    {id : Int64} (hid : id ∈ recipients followers msg) :
    FanOut deployment followers msgs initial
      (state.zaddNX region id msg) := by
  have hsame : ((state.zaddNX region id msg).homeTimelines region
      (idText id)) = (state.homeTimelines region (idText id)).addNX
        (idText msg.postID) (float64 msg.timestamp) := by
    simp only [State.zaddNX, Function.update_self]
  have hother : ∀ region' key, ¬(region' = region ∧ key = idText id) →
      (state.zaddNX region id msg).homeTimelines region' key =
        state.homeTimelines region' key := by
    intro region' key hne
    by_cases hregion : region' = region
    · subst hregion
      have hkey : key ≠ idText id := fun h => hne ⟨rfl, h⟩
      simp only [State.zaddNX, Function.update_self,
        Function.update_of_ne hkey]
    · simp only [State.zaddNX, Function.update_of_ne hregion]
  refine ⟨hgood.inFlight, hgood.worker, ?_, ?_, ?_⟩
  · intro region' key member score hscore
    have hold := hgood.kept region' key member score hscore
    by_cases hset : region' = region ∧ key = idText id
    · obtain ⟨rfl, rfl⟩ := hset
      rw [hsame]
      by_cases hmember : member = idText msg.postID
      · subst hmember
        rw [SortedSet.score?_addNX_self, hold, Option.getD_some]
      · rw [SortedSet.score?_addNX_of_ne hmember]
        exact hold
    · rw [hother region' key hset]
      exact hold
  · intro region' key member score hscore
    by_cases hset : region' = region ∧ key = idText id
    · obtain ⟨rfl, rfl⟩ := hset
      rw [hsame] at hscore
      by_cases hmember : member = idText msg.postID
      · subst hmember
        rw [SortedSet.score?_addNX_self, Option.some.injEq] at hscore
        cases hold : (state.homeTimelines region' (idText id)).score?
            (idText msg.postID) with
        | none =>
            rw [hold, Option.getD_none] at hscore
            exact .inr ⟨msg, hmsg, ⟨id, hid, rfl⟩, rfl, hscore.symm⟩
        | some old =>
            rw [hold, Option.getD_some] at hscore
            subst hscore
            exact hgood.added region' _ _ _ hold
      · rw [SortedSet.score?_addNX_of_ne hmember] at hscore
        exact hgood.added region' _ _ _ hscore
    · rw [hother region' key hset] at hscore
      exact hgood.added region' key member score hscore
  · intro region' msg' hmsg' id' hid'
    rcases hgood.covered region' msg' hmsg' id' hid' with hmem | hcover
    · left
      by_cases hset : region' = region ∧ idText id' = idText id
      · rw [hset.1, hset.2] at hmem ⊢
        rw [hsame, SortedSet.mem_members_addNX]
        exact .inr hmem
      · rw [hother region' _ hset]
        exact hmem
    · exact .inr hcover

/-! ## When nothing is covered any more -/

theorem FanOut.score_iff
    (hgood : FanOut deployment followers msgs initial state)
    (hagree : Agree msgs) (hfinished : state.Finished) (region : Region)
    (key member : String) (score : Int) :
    (state.homeTimelines region key).score? member = some score ↔
      (initial region key).score? member = some score ∨
        (initial region key).score? member = none ∧
          Adds followers msgs region key member score := by
  constructor
  · intro hscore
    rcases hgood.added region key member score hscore with hold | hadds
    · exact .inl hold
    · cases hinitial : (initial region key).score? member with
      | none => exact .inr ⟨rfl, hadds⟩
      | some old =>
          have hkept := hgood.kept region key member old hinitial
          rw [hscore] at hkept
          exact .inl hkept.symm
  · intro hscore
    rcases hscore with hold | ⟨hnew, hadds⟩
    · exact hgood.kept region key member score hold
    · have hsource := hadds
      obtain ⟨msg, hmsg, ⟨id, hid, hkey⟩, hmember, -⟩ := hsource
      have hmem : idText msg.postID ∈
          (state.homeTimelines region (idText id)).members := by
        rcases hgood.covered region msg hmsg id hid with hmem | hmem | hcover
        · exact hmem
        · rw [hfinished.1] at hmem
          exact absurd hmem List.not_mem_nil
        · obtain ⟨w, -, hcover⟩ := hcover
          rw [hfinished.2 w] at hcover
          exact hcover.elim
      rw [← hkey, ← hmember] at hmem
      obtain ⟨found, hfound⟩ := Option.isSome_iff_exists.mp
        (SortedSet.isSome_score?_iff.mpr hmem)
      rcases hgood.added region key member found hfound with hold | hfoundAdds
      · rw [hnew] at hold
        cases hold
      · rw [hfound, hadds.score_eq hagree hfoundAdds]

/-! ## Steps of a worker -/

variable [DecidableEq Run]

theorem FanOut.deliver
    (hgood : FanOut deployment followers msgs initial state)
    {w : Worker} {index : ℕ}
    (hstep : Notification.step deployment state (.deliver w index) =
      some next) : FanOut deployment followers msgs initial next := by
  simp only [Notification.step] at hstep
  split at hstep
  next region body hwaiting hget =>
    split at hstep
    next hregion =>
      subst hregion
      obtain ⟨msg, hmsg, hbody⟩ :=
        hgood.inFlight _ (List.mem_of_getElem? hget)
      have hreceived : FanOut deployment followers msgs initial
          (state.setWorker w (.received body)) := by
        apply hgood.setWorker
        · exact .inr ⟨msg, hmsg, hbody⟩
        · intro other _ id _ hcover
          rw [hwaiting] at hcover
          exact hcover.elim
      rw [Option.some.injEq] at hstep
      subst hstep
      exact hreceived.eraseIdx hget (State.setWorker_self w _)
    next => cases hstep
  next => cases hstep

theorem FanOut.unmarshal
    (hgood : FanOut deployment followers msgs initial state) {w : Worker}
    (hstep : Notification.step deployment state (.unmarshal w true) =
      some next) : FanOut deployment followers msgs initial next := by
  simp only [Notification.step] at hstep
  split at hstep
  next body hphase =>
    obtain ⟨msg, hmsg, hcarries⟩ := hgood.phase_cases
      (by rw [hphase]; exact WorkerPhase.noConfusion)
    rw [hphase] at hcarries
    have hbody : body = marshal msg := hcarries
    subst hbody
    simp only [unmarshal_marshal, if_true, Option.some.injEq] at hstep
    subst hstep
    apply hgood.setWorker
    · exact .inr ⟨msg, hmsg, rfl⟩
    · intro other _ id _ hcover
      rw [hphase] at hcover
      have hjson : some msg = some other := by
        rw [← unmarshal_marshal msg, ← unmarshal_marshal other]
        exact congrArg JsonCodec.unmarshal hcover
      exact .inl (Option.some.inj hjson)
  next => cases hstep

theorem FanOut.findOne
    (hgood : FanOut deployment followers msgs initial state)
    {w : Worker} {database : Database}
    (hsucceeds : succeeds followers state (.findOne w database) = true)
    (hstep : Notification.step deployment state (.findOne w database) =
      some next) : FanOut deployment followers msgs initial next := by
  simp only [Notification.step] at hstep
  split at hstep
  next msg hphase =>
    simp only [succeeds, hphase] at hsucceeds
    split at hstep
    next hnone =>
      rw [hnone] at hsucceeds
      cases hsucceeds
    next =>
      rw [Option.some.injEq] at hstep
      subst hstep
      obtain ⟨source, hsource, hcarries⟩ := hgood.phase_cases
        (by rw [hphase]; exact WorkerPhase.noConfusion)
      rw [hphase] at hcarries
      apply hgood.setWorker
      · exact .inr ⟨source, hsource, hcarries⟩
      · intro other _ id _ hcover
        rw [hphase] at hcover
        exact .inl hcover
  next => cases hstep

theorem FanOut.getFollowers
    (hgood : FanOut deployment followers msgs initial state)
    {w : Worker} {reply : Option (List Int64)}
    (hsucceeds : succeeds followers state (.getFollowers w reply) = true)
    (hstep : Notification.step deployment state (.getFollowers w reply) =
      some next) : FanOut deployment followers msgs initial next := by
  simp only [Notification.step] at hstep
  split at hstep
  next msg hphase =>
    simp only [succeeds, hphase, decide_eq_true_eq] at hsucceeds
    subst hsucceeds
    simp only [Option.some.injEq] at hstep
    subst hstep
    obtain ⟨source, hsource, hcarries⟩ := hgood.phase_cases
      (by rw [hphase]; exact WorkerPhase.noConfusion)
    rw [hphase] at hcarries
    have hsame : msg = source := hcarries
    subst hsame
    apply hgood.setWorker
    · exact .inr ⟨msg, hsource, rfl, Finset.Subset.refl _⟩
    · intro other _ id hid hcover
      rw [hphase] at hcover
      have hother : msg = other := hcover
      subst hother
      exact .inl ⟨rfl, hid⟩
  next => cases hstep

theorem FanOut.zaddNX_step
    (hgood : FanOut deployment followers msgs initial state)
    {w : Worker} {id : Int64}
    (hstep : Notification.step deployment state (.zaddNX w id true) =
      some next) : FanOut deployment followers msgs initial next := by
  simp only [Notification.step] at hstep
  split at hstep
  next msg uniqueIDs hphase =>
    split at hstep
    next hid =>
      obtain ⟨source, hsource, hcarries⟩ := hgood.phase_cases
        (by rw [hphase]; exact WorkerPhase.noConfusion)
      rw [hphase] at hcarries
      obtain ⟨hsame, hsubset⟩ := hcarries
      subst hsame
      have hadded := hgood.zaddNX hsource (hsubset hid)
      simp only [if_true, Option.some.injEq] at hstep
      subst hstep
      apply hadded.setWorker
      · exact .inr ⟨msg, hsource, rfl,
          (Finset.erase_subset id uniqueIDs).trans hsubset⟩
      · intro other _ id' _ hcover
        have hphase' : (state.zaddNX (deployment.workerRegion w) id
            msg).worker w = .writing msg uniqueIDs := hphase
        rw [hphase'] at hcover
        obtain ⟨hother, hid'⟩ := hcover
        subst hother
        by_cases heq : id' = id
        · subst heq
          right
          simp only [State.zaddNX, Function.update_self]
          exact SortedSet.mem_members_addNX.mpr (.inl rfl)
        · exact .inl ⟨rfl, Finset.mem_erase.mpr ⟨heq, hid'⟩⟩
    next => cases hstep
  next => cases hstep

theorem FanOut.leave
    (hgood : FanOut deployment followers msgs initial state) {w : Worker}
    (hstep : Notification.step deployment state (.leave w) = some next) :
    FanOut deployment followers msgs initial next := by
  simp only [Notification.step] at hstep
  split at hstep
  next msg uniqueIDs hphase =>
    split at hstep
    next hempty =>
      rw [Option.some.injEq] at hstep
      subst hstep
      apply hgood.setWorker (.inl rfl)
      intro other _ id _ hcover
      rw [hphase] at hcover
      obtain ⟨-, hid⟩ := hcover
      rw [hempty] at hid
      exact absurd hid (Finset.notMem_empty id)
    next => cases hstep
  next => cases hstep

theorem FanOut.step
    (hgood : FanOut deployment followers msgs initial state)
    (hstep : succeedingStep deployment followers state label = some next) :
    FanOut deployment followers msgs initial next := by
  unfold succeedingStep at hstep
  split at hstep
  next hsucceeds =>
    cases label with
    | deliver w index => exact hgood.deliver hstep
    | unmarshal w spanOk =>
        have hspan : spanOk = true := hsucceeds
        subst hspan
        exact hgood.unmarshal hstep
    | findOne w database => exact hgood.findOne hsucceeds hstep
    | getFollowers w reply => exact hgood.getFollowers hsucceeds hstep
    | zaddNX w id ok =>
        have hok : ok = true := hsucceeds
        subst hok
        exact hgood.zaddNX_step hstep
    | leave w => exact hgood.leave hstep
    | storePost => cases hsucceeds
    | publish => cases hsucceeds
    | leaveHelper => cases hsucceeds
    | replicate => cases hsucceeds
    | findFailed => cases hsucceeds
  next => cases hstep

end Invariant

/-! ## Complete runs -/

def Label.worker? : Label Run → Option Worker
  | .storePost _ _ => none
  | .publish _ _ => none
  | .leaveHelper _ => none
  | .replicate _ _ _ => none
  | .deliver w _ => some w
  | .unmarshal w _ => some w
  | .findOne w _ => some w
  | .findFailed w => some w
  | .getFollowers w _ => some w
  | .zaddNX w _ _ => some w
  | .leave w => some w

def WorkerPhase.isWaiting : WorkerPhase → Bool
  | .waiting => true
  | _ => false

theorem WorkerPhase.isWaiting_iff {phase : WorkerPhase} :
    phase.isWaiting = true ↔ phase = .waiting := by
  cases phase <;> simp [WorkerPhase.isWaiting]

/-- A step leaves the other workers where they are. -/
theorem step_worker_of_ne [DecidableEq Run] {deployment : Deployment Run}
    {state next : State Run} {label : Label Run} {w : Worker}
    (hne : label.worker? ≠ some w)
    (hstep : step deployment state label = some next) :
    next.worker w = state.worker w := by
  have hset : ∀ {other : Worker} {state : State Run} {phase : WorkerPhase},
      some other ≠ some w →
        (state.setWorker other phase).worker w = state.worker w := by
    intro other state phase hother
    exact Function.update_of_ne (fun h => hother (congrArg some h.symm)) _ _
  -- Every branch that succeeds sets the worker of its label, or none.
  cases label with
  | _ =>
      simp only [Label.worker?] at hne
      simp only [step] at hstep
      repeat' split at hstep
      all_goals
        simp only [Option.some.injEq, reduceCtorEq] at hstep
        try subst hstep
      all_goals first | rfl | exact hset hne

theorem run_worker_of_ne [DecidableEq Run] {deployment : Deployment Run}
    {followers : Int64 → List Int64} {state final : State Run}
    {labels : List (Label Run)} {w : Worker}
    (hne : ∀ label ∈ labels, label.worker? ≠ some w)
    (hrun : run (succeedingStep deployment followers) state labels =
      some final) : final.worker w = state.worker w := by
  refine run_induction_of_labels
    (P := fun _ final => final.worker w = state.worker w) rfl ?_ hne hrun
  intro _ middle label next hlabel hsame hstep
  unfold succeedingStep at hstep
  split at hstep
  next => exact (step_worker_of_ne hlabel hstep).trans hsame
  next => cases hstep

theorem run_fanOut [DecidableEq Run] {deployment : Deployment Run}
    {followers : Int64 → List Int64} {msgs : List (Region × Message)}
    {initial : Region → String → SortedSet Int String}
    {posts : Database → List Post} {labels : List (Label Run)}
    {final : State Run}
    (hrun : run (succeedingStep deployment followers)
      (State.start posts msgs initial) labels = some final) :
    FanOut deployment followers msgs initial final :=
  Machine.run_invariant (P := FanOut deployment followers msgs initial)
    (FanOut.start posts) (fun _ _ _ hgood hstep => hgood.step hstep) hrun

/-- After every complete run each set is the initial one with the entries of
the messages; sets of other users are as before, and a run over the same
messages in another order or another number ends with the same sets. -/
theorem homeTimelines_fanOut [DecidableEq Run]
    (deployment : Deployment Run) (followers : Int64 → List Int64)
    (initial : Region → String → SortedSet Int String)
    {msgs : List (Region × Message)} (hagree : Agree msgs)
    {posts : Database → List Post} {labels : List (Label Run)}
    {final : State Run}
    (hrun : run (succeedingStep deployment followers)
      (State.start posts msgs initial) labels = some final)
    (hfinished : final.Finished) :
    (∀ region key member score,
      (final.homeTimelines region key).score? member = some score ↔
        (initial region key).score? member = some score ∨
          (initial region key).score? member = none ∧
            Adds followers msgs region key member score) ∧
    (∀ region key,
      (∀ msg, (region, msg) ∈ msgs → ∀ id ∈ recipients followers msg,
        key ≠ idText id) →
      final.homeTimelines region key = initial region key) ∧
    ∀ (msgs' : List (Region × Message)) (posts' : Database → List Post)
        (labels' : List (Label Run)) (final' : State Run),
      (∀ entry, entry ∈ msgs' ↔ entry ∈ msgs) →
      run (succeedingStep deployment followers)
          (State.start posts' msgs' initial) labels' = some final' →
      final'.Finished → final'.homeTimelines = final.homeTimelines := by
  have hscore := (run_fanOut hrun).score_iff hagree hfinished
  refine ⟨hscore, ?_, ?_⟩
  · intro region key hnone
    apply SortedSet.ext_score?
    intro member score
    rw [hscore]
    refine or_iff_left ?_
    intro hadds
    obtain ⟨-, msg, hmsg, ⟨id, hid, hkey⟩, -⟩ := hadds
    exact hnone msg hmsg id hid hkey
  · intro msgs' posts' labels' final' hsame hrun' hfinished'
    have hagree' : Agree msgs' := by
      intro entry hentry other hother
      exact hagree entry ((hsame entry).mp hentry) other
        ((hsame other).mp hother)
    have hscore' := (run_fanOut hrun').score_iff hagree' hfinished'
    have hadds : ∀ region key member score,
        Adds followers msgs' region key member score ↔
          Adds followers msgs region key member score := by
      intro region key member score
      simp only [Adds, hsame]
    funext region key
    apply SortedSet.ext_score?
    intro member score
    rw [hscore, hscore', hadds]

def fanOutDeployment : Deployment Empty where
  composition i := i.elim
  workerRegion _ := "eu"

def fanOutPost : Post :=
  ⟨7, 1, ⟨3, "ana"⟩, "hello", [⟨5, "eve"⟩], [], [], 100, 0⟩

/-- The message is delivered twice. -/
def fanOutMsgs : List (Region × Message) :=
  [("eu", message fanOutPost), ("eu", message fanOutPost)]

def fanOutLabels : List (Label Empty) :=
  [.deliver 0 1, .unmarshal 0 true, .deliver 1 0, .findOne 0 "db",
    .getFollowers 0 (some [4]), .zaddNX 0 5 true, .unmarshal 1 true,
    .findOne 1 "db", .getFollowers 1 (some [4]), .zaddNX 1 4 true,
    .zaddNX 0 4 true, .leave 0, .zaddNX 1 5 true, .leave 1]

theorem homeTimelines_fanOut_sample :
    ∃ final, run (succeedingStep fanOutDeployment fun _ => [4])
        (State.start (fun _ => [fanOutPost]) fanOutMsgs
          fun _ _ => SortedSet.empty) fanOutLabels = some final ∧
      (final.homeTimelines "eu" (idText 4)).score? (idText 7) = some 100 := by
  have hagree : Agree fanOutMsgs := by
    unfold Agree
    decide
  have hends : (run (succeedingStep fanOutDeployment fun _ => [4])
      (State.start (fun _ => [fanOutPost]) fanOutMsgs
        fun _ _ => SortedSet.empty) fanOutLabels).any (fun final =>
          final.inFlight.isEmpty && (final.worker 0).isWaiting &&
            (final.worker 1).isWaiting) := by decide +kernel
  obtain ⟨final, hrun, hends⟩ := (Option.any_eq_true _ _).mp hends
  simp only [Bool.and_eq_true, List.isEmpty_iff] at hends
  have hworker : ∀ w, final.worker w = .waiting := by
    intro w
    by_cases hzero : w = 0
    · subst hzero
      exact WorkerPhase.isWaiting_iff.mp hends.1.2
    · by_cases hone : w = 1
      · subst hone
        exact WorkerPhase.isWaiting_iff.mp hends.2
      · refine (run_worker_of_ne ?_ hrun).trans rfl
        intro label hlabel
        have hmoved : label.worker? = some 0 ∨ label.worker? = some 1 := by
          revert label
          simp [fanOutLabels, Label.worker?]
        intro hw
        rw [hw, Option.some.injEq, Option.some.injEq] at hmoved
        exact hmoved.elim hzero hone
  obtain ⟨hscore, -, -⟩ := homeTimelines_fanOut fanOutDeployment
    (fun _ => [4]) (fun _ _ => SortedSet.empty) hagree hrun
    ⟨hends.1.1, hworker⟩
  refine ⟨final, hrun, ?_⟩
  rw [hscore]
  refine .inr ⟨rfl, message fanOutPost, by simp [fanOutMsgs], ⟨4, ?_, rfl⟩,
    rfl, by decide +kernel⟩
  decide

end SocialNetwork.Notification
