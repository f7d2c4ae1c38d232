import SocialNetwork.NotificationFanout
import SocialNetwork.UserService

/-!
# Fan-out with failing commands

One call of `WriteHomeTimeline`, with every outcome of its store and component
calls: what it returns, and the home timelines it leaves.  The recipients are
visited in the order of a map iteration.
-/

namespace SocialNetwork.HomeTimelineWrites

open Notification
open UserService (Write)

abbrev Timelines := String → SortedSet Int String

inductive Error where
  | findOne
  | getFollowers
  | zaddNX
  deriving DecidableEq, Repr

/-- The order in which a map is iterated. -/
structure MapOrder where
  visit : Finset Int64 → List Int64
  mem_visit : ∀ ids id, id ∈ visit ids ↔ id ∈ ids
  nodup : ∀ ids, (visit ids).Nodup

/-- The outcomes of the calls: the posts that `FindOne` searches, the reply of
`GetFollowers`, and the outcome of each `ZADD NX`. -/
structure Env where
  posts : Option (List Post)
  followers : Option (List Int64)
  order : MapOrder
  zaddNX : Int64 → Write

def add (timelines : Timelines) (id : Int64) (msg : Message) : Timelines :=
  Function.update timelines (idText id)
    ((timelines (idText id)).addNX (idText msg.postID)
      (float64 msg.timestamp))

/-- The closure of the pipeline, which stops at the first error. -/
def addAll (zaddNX : Int64 → Write) (msg : Message) :
    List Int64 → Timelines → Except Error Unit × Timelines
  | [], timelines => (.ok (), timelines)
  | id :: ids, timelines =>
      let next :=
        if (zaddNX id).applied then add timelines id msg else timelines
      match zaddNX id with
      | .done => addAll zaddNX msg ids next
      | .failed _ => (.error .zaddNX, next)

/-- The keys of `uniqueIDs`. -/
def uniqueIDs (followersID : List Int64) (msg : Message) : Finset Int64 :=
  followersID.toFinset ∪ msg.userMentionIDs.toFinset

def WriteHomeTimeline (env : Env) (timelines : Timelines) (msg : Message) :
    Except Error Unit × Timelines :=
  match env.posts with
  | none => (.error .findOne, timelines)
  | some posts =>
      match findOne posts msg.postID with
      -- `mongo.ErrNoDocuments`.
      | none => (.ok (), timelines)
      | some _ =>
          match env.followers with
          | none => (.error .getFollowers, timelines)
          | some followersID =>
              -- `Pipelined` returns the error of its closure, which is
              -- assigned to `err`; the function returns nil.
              let (_err, timelines) := addAll env.zaddNX msg
                (env.order.visit (uniqueIDs followersID msg)) timelines
              (.ok (), timelines)

/-! ## What the loop leaves out -/

/-- The recipients whose command has no effect: from the first failed one on,
without it when it was applied. -/
def missed (zaddNX : Int64 → Write) : List Int64 → List Int64
  | [] => []
  | id :: ids =>
      match zaddNX id with
      | .done => missed zaddNX ids
      | .failed applied => if applied then ids else id :: ids

theorem missed_subset (zaddNX : Int64 → Write) (ids : List Int64) :
    missed zaddNX ids ⊆ ids := by
  induction ids with
  | nil => exact List.Subset.refl _
  | cons id ids ih =>
      unfold missed
      split
      next => exact fun _ hmem => List.mem_cons_of_mem _ (ih hmem)
      next =>
        split
        next => exact List.subset_cons_self _ _
        next => exact List.Subset.refl _

def Has (timelines : Timelines) (id : Int64) (msg : Message) : Prop :=
  idText msg.postID ∈ (timelines (idText id)).members

theorem has_add (timelines : Timelines) (id other : Int64) (msg : Message) :
    Has (add timelines id msg) other msg ↔
      other = id ∨ Has timelines other msg := by
  unfold Has add
  by_cases hid : other = id
  · subst hid
    rw [Function.update_self, SortedSet.mem_members_addNX]
    simp
  · have hkey : idText other ≠ idText id := fun h => hid (idText_inj.mp h)
    rw [Function.update_of_ne hkey, or_iff_right hid]

/-- After the loop a timeline has the post if it had it before, or if its
command took effect. -/
theorem has_addAll (zaddNX : Int64 → Write) (msg : Message)
    {ids : List Int64} (hnodup : ids.Nodup) (timelines : Timelines)
    (other : Int64) :
    Has (addAll zaddNX msg ids timelines).2 other msg ↔
      other ∈ ids ∧ other ∉ missed zaddNX ids ∨
        Has timelines other msg := by
  induction ids generalizing timelines with
  | nil => simp [addAll]
  | cons id ids ih =>
      rw [List.nodup_cons] at hnodup
      have hnot : id ∉ missed zaddNX ids :=
        fun hmem => hnodup.1 (missed_subset zaddNX ids hmem)
      cases hwrite : zaddNX id with
      | done =>
          simp only [addAll, missed, hwrite, Write.applied, if_true]
          rw [ih hnodup.2, has_add, List.mem_cons]
          by_cases hid : other = id
          · subst hid
            simp [hnot]
          · simp [hid]
      | failed applied =>
          simp only [addAll, missed, hwrite, Write.applied]
          cases applied with
          | true =>
              simp only [if_true]
              rw [has_add, List.mem_cons]
              by_cases hid : other = id
              · subst hid
                simp [hnodup.1]
              · simp [hid]
          | false =>
              simp only [Bool.false_eq_true, if_false, and_not_self, false_or]

/-! ## The call as a run of a worker -/

section Worker

open Machine

variable {Run : Type} [DecidableEq Run]

/-- The commands of the loop. -/
def loopLabels (w : Worker) (zaddNX : Int64 → Write) :
    List Int64 → List (Label Run)
  | [] => [.leave w]
  | id :: ids =>
      match zaddNX id with
      | .done => .zaddNX w id true :: loopLabels w zaddNX ids
      | .failed _ => [.zaddNX w id false]

theorem run_loopLabels {deployment : Deployment Run} {w : Worker}
    {zaddNX : Int64 → Write} (hfailed : ∀ id, zaddNX id ≠ .failed true)
    {msg : Message} {ids : List Int64} (hnodup : ids.Nodup)
    {uniqueIDs : Finset Int64} (hids : ∀ id, id ∈ ids ↔ id ∈ uniqueIDs)
    {state : State Run} (hworker : state.worker w = .writing msg uniqueIDs) :
    ∃ final, run (step deployment) state (loopLabels w zaddNX ids) =
        some final ∧
      final.homeTimelines (deployment.workerRegion w) =
        (addAll zaddNX msg ids
          (state.homeTimelines (deployment.workerRegion w))).2 := by
  induction ids generalizing uniqueIDs state with
  | nil =>
      have hempty : uniqueIDs = ∅ :=
        Finset.eq_empty_of_forall_notMem fun id hid =>
          List.not_mem_nil ((hids id).mpr hid)
      refine ⟨state.setWorker w .waiting, ?_, rfl⟩
      simp [loopLabels, step, hworker, hempty]
  | cons id ids ih =>
      rw [List.nodup_cons] at hnodup
      have hmem : id ∈ uniqueIDs := (hids id).mp List.mem_cons_self
      cases hwrite : zaddNX id with
      | done =>
          have hrest : ∀ other, other ∈ ids ↔ other ∈ uniqueIDs.erase id := by
            intro other
            rw [Finset.mem_erase, ← hids, List.mem_cons]
            constructor
            · intro hother
              refine ⟨?_, .inr hother⟩
              rintro rfl
              exact hnodup.1 hother
            · rintro ⟨hne, rfl | hother⟩
              · exact absurd rfl hne
              · exact hother
          have hnext : ((state.zaddNX (deployment.workerRegion w) id
              msg).setWorker w (.writing msg (uniqueIDs.erase id))).worker
                w = .writing msg (uniqueIDs.erase id) :=
            State.setWorker_self _ _
          obtain ⟨final, hrun, hfinal⟩ := ih hnodup.2 hrest hnext
          refine ⟨final, ?_, ?_⟩
          · simpa [loopLabels, hwrite, step, hworker, hmem] using hrun
          · rw [hfinal]
            simp [addAll, hwrite, Write.applied, add, State.zaddNX,
              State.setWorker]
      | failed applied =>
          have happlied : applied = false := by
            cases applied with
            | true => exact absurd hwrite (hfailed id)
            | false => rfl
          subst happlied
          refine ⟨state.setWorker w .waiting, ?_, ?_⟩
          · simp [loopLabels, hwrite, step, hworker, hmem]
          · simp [addAll, hwrite, Write.applied, State.setWorker]

/-- The commands of a call. -/
def callLabels (w : Worker) (database : Database) (env : Env)
    (msg : Message) : List (Label Run) :=
  .findOne w database :: .getFollowers w env.followers ::
    match env.followers with
    | none => []
    | some followersID =>
        loopLabels w env.zaddNX (env.order.visit (uniqueIDs followersID msg))

/-- The machine of the workers makes the same changes, when a failed command
has no effect. -/
theorem run_callLabels {deployment : Deployment Run} {w : Worker}
    {database : Database} {env : Env} {state : State Run} {msg : Message}
    (hfailed : ∀ id, env.zaddNX id ≠ .failed true)
    (hworker : state.worker w = .reading msg)
    (hposts : env.posts = some (state.posts database))
    (hvisible : (findOne (state.posts database) msg.postID).isSome) :
    ∃ final, run (step deployment) state (callLabels w database env msg) =
        some final ∧
      final.homeTimelines (deployment.workerRegion w) =
        (WriteHomeTimeline env
          (state.homeTimelines (deployment.workerRegion w)) msg).2 := by
  obtain ⟨post, hpost⟩ := Option.isSome_iff_exists.mp hvisible
  have hfound : step deployment state (.findOne w database) =
      some (state.setWorker w (.found msg)) := by
    simp only [step, hworker, hpost]
  unfold WriteHomeTimeline callLabels
  rw [run_cons, hfound, Option.bind_some, run_cons, hposts]
  simp only [hpost]
  cases hfollowers : env.followers with
  | none =>
      refine ⟨(state.setWorker w (.found msg)).setWorker w .waiting, ?_, rfl⟩
      simp [step]
  | some followersID =>
      have hwriting : (((state.setWorker w (.found msg)).setWorker w
          (.writing msg (uniqueIDs followersID msg))).worker w) =
            .writing msg (uniqueIDs followersID msg) :=
        State.setWorker_self _ _
      obtain ⟨final, hrun, hfinal⟩ :=
        run_loopLabels hfailed (env.order.nodup _)
          (env.order.mem_visit (uniqueIDs followersID msg)) hwriting
      refine ⟨final, ?_, hfinal⟩
      simpa [step, uniqueIDs] using hrun

end Worker

/-! ## The returned error -/

/-- `FindOne` finds the post of the message. -/
def Env.Visible (env : Env) (msg : Message) : Prop :=
  ∃ posts, env.posts = some posts ∧ (findOne posts msg.postID).isSome

/-- A call that returns nil has reached every follower and every mentioned
user. -/
def Complete (env : Env) (timelines : Timelines) (msg : Message) : Prop :=
  (WriteHomeTimeline env timelines msg).1 = .ok () →
    ∀ followersID, env.followers = some followersID →
      ∀ id ∈ uniqueIDs followersID msg,
        Has (WriteHomeTimeline env timelines msg).2 id msg

theorem writeHomeTimeline_eq {env : Env} {msg : Message}
    (hvisible : env.Visible msg) (timelines : Timelines) :
    WriteHomeTimeline env timelines msg =
      match env.followers with
      | none => (.error .getFollowers, timelines)
      | some followersID =>
          (.ok (), (addAll env.zaddNX msg
            (env.order.visit (uniqueIDs followersID msg)) timelines).2) := by
  obtain ⟨posts, hposts, hfind⟩ := hvisible
  obtain ⟨post, hpost⟩ := Option.isSome_iff_exists.mp hfind
  unfold WriteHomeTimeline
  rw [hposts]
  simp only [hpost]

/-- A nil error says that the fan-out is complete exactly when the
recipients left out had the post before. -/
theorem writeHomeTimeline_complete_iff {env : Env} {msg : Message}
    (hvisible : env.Visible msg) (timelines : Timelines) :
    Complete env timelines msg ↔
      ∀ followersID, env.followers = some followersID →
        ∀ id ∈ missed env.zaddNX
            (env.order.visit (uniqueIDs followersID msg)),
          Has timelines id msg := by
  unfold Complete
  rw [writeHomeTimeline_eq hvisible]
  cases hfollowers : env.followers with
  | none => simp
  | some followersID =>
      have hnodup := env.order.nodup (uniqueIDs followersID msg)
      simp only [Option.some.injEq, forall_const, forall_eq']
      constructor
      · intro hcomplete id hmissed
        have hvisit := missed_subset _ _ hmissed
        have hhas := hcomplete id ((env.order.mem_visit _ id).mp hvisit)
        rw [has_addAll _ _ hnodup] at hhas
        rcases hhas with hreached | hbefore
        · exact absurd hmissed hreached.2
        · exact hbefore
      · intro hbefore id hid
        rw [has_addAll _ _ hnodup]
        by_cases hmissed : id ∈ missed env.zaddNX
            (env.order.visit (uniqueIDs followersID msg))
        · exact .inr (hbefore id hmissed)
        · exact .inl ⟨(env.order.mem_visit _ id).mpr hid, hmissed⟩

def MapOrder.sorted : MapOrder where
  visit ids := ids.sort (· ≤ ·)
  mem_visit _ _ := Finset.mem_sort _
  nodup ids := ids.sort_nodup _

/-- A post for two followers. -/
def sampleMessage : Message := ⟨1, 3, 7, 0, []⟩

def sampleEnv (zaddNX : Int64 → Write) : Env where
  posts := some [⟨7, 1, ⟨3, "ana"⟩, "hello", [], [], [], 0, 0⟩]
  followers := some [4, 5]
  order := MapOrder.sorted
  zaddNX := zaddNX

theorem sampleEnv_visible (zaddNX : Int64 → Write) :
    (sampleEnv zaddNX).Visible sampleMessage :=
  ⟨_, rfl, by decide +kernel⟩

/-- The command of the second recipient fails, who has the post already. -/
theorem writeHomeTimeline_complete_iff_done :
    Complete
      (sampleEnv fun id => if id = 5 then .failed false else .done)
      (add (fun _ => SortedSet.empty) 5 sampleMessage) sampleMessage := by
  apply (writeHomeTimeline_complete_iff (sampleEnv_visible _) _).mpr
  intro followersID hfollowers
  obtain rfl := Option.some.inj hfollowers
  have hvisit : MapOrder.sorted.visit (uniqueIDs [4, 5] sampleMessage) =
      [4, 5] := by
    have hids : uniqueIDs [4, 5] sampleMessage = [4, 5].toFinset := by
      decide
    rw [hids]
    exact (List.toFinset_sort (· ≤ ·) (by decide)).mpr (by decide)
  intro id hmissed
  simp only [sampleEnv, hvisit] at hmissed
  have hfive : id = 5 := by
    revert hmissed
    simp [missed]
  rw [hfive, Has, add, Function.update_self, SortedSet.mem_members_addNX]
  exact .inl rfl

/-- The first recipient cannot be written, and nil is returned. -/
theorem not_writeHomeTimeline_complete :
    ¬ ∀ (env : Env) (timelines : Timelines) (msg : Message),
      env.Visible msg → Complete env timelines msg := by
  intro hclaim
  have hhas := hclaim (sampleEnv fun _ => .failed false)
    (fun _ => SortedSet.empty) sampleMessage (sampleEnv_visible _) rfl
    [4, 5] rfl 4 (by decide)
  have hmissed : ∀ ids, missed (fun _ => .failed false) ids = ids := by
    intro ids
    cases ids <;> rfl
  rw [writeHomeTimeline_eq (sampleEnv_visible _)] at hhas
  simp only [sampleEnv] at hhas
  rw [has_addAll _ _ (MapOrder.nodup _ _), hmissed] at hhas
  rcases hhas with hvisited | hbefore
  · exact hvisited.2 hvisited.1
  · simp [Has] at hbefore

end SocialNetwork.HomeTimelineWrites
