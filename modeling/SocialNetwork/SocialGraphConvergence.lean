import SocialNetwork.Machine
import SocialNetwork.SocialGraphRecords

/-!
# Concurrent updates of the social graph

Any number of Follow and Unfollow requests whose store commands interleave.
Nothing orders the commands of two requests, so the last command for a pair
may come from different requests on different records, and the four records
of the edge then differ for good.

They agree whenever one request has the last word: all its commands come
after every command that would undo them.
-/

namespace SocialNetwork.SocialGraph.Concurrent

open Bson Machine

structure Request where
  userID : Int64
  followeeID : Int64
  action : Action

/-- A running request still has to send the commands of `todo`. -/
inductive Phase where
  | waiting
  | running (todo : Finset Record)
  | returned
  deriving DecidableEq

variable {ι : Type}

inductive Label (ι : Type) where
  | start (i : ι)
  | exec (i : ι) (record : Record)
  | ret (i : ι)

structure State (ι : Type) where
  stores : Stores
  phase : ι → Phase

def State.initial (stores : Stores) : State ι := ⟨stores, fun _ => .waiting⟩

def State.setPhase [DecidableEq ι] (state : State ι) (i : ι)
    (phase : Phase) : State ι :=
  { state with phase := Function.update state.phase i phase }

/-- The two Redis commands of a request are one pipeline. -/
def Enabled (todo : Finset Record) (record : Record) : Prop :=
  record ∈ todo ∧
    (record = .redis .followers → Record.redis .followees ∉ todo)

instance (todo : Finset Record) (record : Record) :
    Decidable (Enabled todo record) := by
  unfold Enabled
  infer_instance

def step [DecidableEq ι] (requests : ι → Request) (state : State ι) :
    Label ι → Option (State ι)
  | .start i =>
      match state.phase i with
      | .waiting =>
          some (state.setPhase i (.running Record.all.toFinset))
      | _ => none
  | .exec i record =>
      match state.phase i with
      | .running todo =>
          if Enabled todo record then
            ((requests i).action.command (requests i).userID
              (requests i).followeeID state.stores record).map fun stores =>
                { state with stores := stores }.setPhase i
                  (.running (todo.erase record))
          else none
      | _ => none
  | .ret i =>
      -- `wg.Wait()`.
      match state.phase i with
      | .running todo =>
          if todo = ∅ then some (state.setPhase i .returned) else none
      | _ => none

/-! ## The last command on a record -/

variable {requests : ι → Request} {record : Record} {labels : List (Label ι)}

def Request.For (request : Request) (userID followeeID : Int64) : Prop :=
  request.userID = userID ∧ request.followeeID = followeeID

instance (request : Request) (userID followeeID : Int64) :
    Decidable (request.For userID followeeID) := by
  unfold Request.For
  infer_instance

def decision (requests : ι → Request) (userID followeeID : Int64)
    (record : Record) : Label ι → Option Bool
  | .exec i record' =>
      if record' = record ∧ (requests i).For userID followeeID then
        some (requests i).action.isFollow
      else none
  | _ => none

def decisions (requests : ι → Request) (labels : List (Label ι))
    (userID followeeID : Int64) (record : Record) : List Bool :=
  labels.filterMap (decision requests userID followeeID record)

variable {userID followeeID : Int64} {decided : Bool}

theorem decision_eq_some_iff {label : Label ι} :
    decision requests userID followeeID record label = some decided ↔
      ∃ i, label = .exec i record ∧
        (requests i).For userID followeeID ∧
        (requests i).action.isFollow = decided := by
  cases label with
  | start i => simp [decision]
  | ret i => simp [decision]
  | exec i record' =>
      simp only [decision, Option.ite_none_right_eq_some,
        Option.some.injEq, Label.exec.injEq]
      constructor
      · rintro ⟨⟨rfl, hpair⟩, hdecided⟩
        exact ⟨i, ⟨rfl, rfl⟩, hpair, hdecided⟩
      · rintro ⟨i', ⟨rfl, rfl⟩, hpair, hdecided⟩
        exact ⟨⟨rfl, hpair⟩, hdecided⟩

theorem mem_decisions_iff :
    decided ∈ decisions requests labels userID followeeID record ↔
      ∃ i, .exec i record ∈ labels ∧ (requests i).For userID followeeID ∧
        (requests i).action.isFollow = decided := by
  unfold decisions
  rw [List.mem_filterMap]
  constructor
  · rintro ⟨label, hlabel, hdecision⟩
    obtain ⟨i, rfl, hpair, hdecided⟩ := decision_eq_some_iff.mp hdecision
    exact ⟨i, hlabel, hpair, hdecided⟩
  · rintro ⟨i, hlabel, hpair, hdecided⟩
    exact ⟨_, hlabel, decision_eq_some_iff.mpr ⟨i, rfl, hpair, hdecided⟩⟩

def Registered (requests : ι → Request) (graph : Graph) : Prop :=
  ∀ i (side : Side), side.owner (requests i).userID
    (requests i).followeeID ∈ graph.users.map UserRecord.userID

/-- The stores are a well-formed graph with the registered users, and each
record holds an edge when its last command was a Follow's. -/
structure Good (requests : ι → Request) (start : Graph)
    (labels : List (Label ι)) (graph : Graph) : Prop where
  wellFormed : graph.WellFormed
  users : graph.users.map UserRecord.userID =
    start.users.map UserRecord.userID
  holds : ∀ userID followeeID record,
    graph.toStores.Holds userID followeeID record ↔
      match (decisions requests labels userID followeeID record).getLast? with
      | some decided => decided = true
      | none => start.toStores.Holds userID followeeID record

variable {start graph : Graph}

theorem Good.initial (hstart : start.WellFormed) :
    Good requests start [] start :=
  ⟨hstart, rfl, fun _ _ _ => Iff.rfl⟩

theorem Good.skip {label : Label ι} (hgood : Good requests start labels graph)
    (hlabel : ∀ userID followeeID record,
      decision requests userID followeeID record label = none) :
    Good requests start (labels ++ [label]) graph where
  wellFormed := hgood.wellFormed
  users := hgood.users
  holds := by
    intro userID followeeID record
    rw [hgood.holds, decisions, decisions, List.filterMap_append,
      List.filterMap_cons_none (hlabel userID followeeID record),
      List.filterMap_nil, List.append_nil]

theorem Good.exec (hgood : Good requests start labels graph)
    (hregistered : Registered requests start) (i : ι) (record : Record) :
    Good requests start (labels ++ [.exec i record])
      (graph.command (requests i).action (requests i).userID
        (requests i).followeeID record) where
  wellFormed := hgood.wellFormed.command
  users := userIDs_command.trans hgood.users
  holds := by
    intro userID followeeID record'
    have hcommand := holds_command (requests i).action record
      hgood.wellFormed (fun side => hgood.users ▸ hregistered i side)
      record' userID followeeID
    rw [hcommand, decisions, List.filterMap_append]
    by_cases hpair : record = record' ∧
        (requests i).For userID followeeID
    · have hdecision : decision requests userID followeeID record'
          (.exec i record) = some (requests i).action.isFollow :=
        if_pos hpair
      rw [if_pos ⟨hpair.1.symm, hpair.2.1.symm, hpair.2.2.symm⟩,
        List.filterMap_cons_some hdecision, List.filterMap_nil,
        List.getLast?_concat]
    · have hdecision : decision requests userID followeeID record'
          (.exec i record) = none := if_neg hpair
      rw [if_neg fun h => hpair ⟨h.1.symm, h.2.1.symm, h.2.2.symm⟩,
        List.filterMap_cons_none hdecision, List.filterMap_nil,
        List.append_nil]
      exact hgood.holds userID followeeID record'

/-! ## What a step does -/

variable [DecidableEq ι] {state next : State ι} {i j : ι}

theorem step_start (hstep : step requests state (.start i) = some next) :
    state.phase i = .waiting ∧
      next = state.setPhase i (.running Record.all.toFinset) := by
  simp only [step] at hstep
  split at hstep
  next hphase => exact ⟨hphase, (Option.some.inj hstep).symm⟩
  next => cases hstep

theorem step_exec
    (hstep : step requests state (.exec i record) = some next) :
    ∃ todo stores, state.phase i = .running todo ∧ Enabled todo record ∧
      (requests i).action.command (requests i).userID
        (requests i).followeeID state.stores record = some stores ∧
      next = { state with stores := stores }.setPhase i
        (.running (todo.erase record)) := by
  simp only [step] at hstep
  split at hstep
  next todo hphase =>
    split at hstep
    next henabled =>
      obtain ⟨stores, hcommand, hnext⟩ := Option.map_eq_some_iff.mp hstep
      exact ⟨todo, stores, hphase, henabled, hcommand, hnext.symm⟩
    next => cases hstep
  next => cases hstep

theorem step_ret (hstep : step requests state (.ret i) = some next) :
    state.phase i = .running ∅ ∧ next = state.setPhase i .returned := by
  simp only [step] at hstep
  split at hstep
  next todo hphase =>
    split at hstep
    next hempty =>
      exact ⟨by rw [hphase, hempty], (Option.some.inj hstep).symm⟩
    next => cases hstep
  next => cases hstep

def Label.request : Label ι → ι
  | .start i => i
  | .exec i _ => i
  | .ret i => i

theorem phase_of_ne {label : Label ι}
    (hstep : step requests state label = some next)
    (hne : j ≠ label.request) : next.phase j = state.phase j := by
  cases label with
  | start i =>
      obtain ⟨-, rfl⟩ := step_start hstep
      exact Function.update_of_ne hne _ _
  | exec i record =>
      obtain ⟨todo, stores, -, -, -, rfl⟩ := step_exec hstep
      exact Function.update_of_ne hne _ _
  | ret i =>
      obtain ⟨-, rfl⟩ := step_ret hstep
      exact Function.update_of_ne hne _ _

theorem not_returned_of_step {label : Label ι}
    (hstep : step requests state label = some next) :
    state.phase label.request ≠ .returned := by
  cases label with
  | start i =>
      rw [Label.request, (step_start hstep).1]
      nofun
  | exec i record =>
      obtain ⟨todo, stores, hphase, -⟩ := step_exec hstep
      rw [Label.request, hphase]
      nofun
  | ret i =>
      rw [Label.request, (step_ret hstep).1]
      nofun

theorem request_ne_of_returned {label : Label ι}
    (hstep : step requests state label = some next)
    (hphase : state.phase i = .returned) : i ≠ label.request := by
  rintro rfl
  exact not_returned_of_step hstep hphase

/-! ## Where the commands of a request lie in a run -/

theorem not_mem_of_returned {finish : State ι}
    (hrun : run (step requests) state labels = some finish)
    (hphase : state.phase i = .returned) :
    ∀ label ∈ labels, i ≠ label.request := by
  induction labels generalizing state with
  | nil => simp
  | cons label labels ih =>
      rw [run_cons, Option.bind_eq_some_iff] at hrun
      obtain ⟨next, hstep, hrest⟩ := hrun
      have hne := request_ne_of_returned hstep hphase
      rw [List.forall_mem_cons]
      exact ⟨hne, ih hrest ((phase_of_ne hstep hne).trans hphase)⟩

theorem returned_of_run {finish : State ι}
    (hrun : run (step requests) state labels = some finish)
    (hphase : state.phase i = .returned) : finish.phase i = .returned :=
  run_invariant (P := fun state => state.phase i = .returned) hphase
    (fun _ _ _ h hstep =>
      (phase_of_ne hstep (request_ne_of_returned hstep h)).trans h) hrun

theorem returned_of_mem {stores : Stores}
    (hrun : run (step requests) (State.initial stores) labels = some state)
    (hmem : .ret i ∈ labels) : state.phase i = .returned := by
  obtain ⟨before, after, rfl⟩ := List.append_of_mem hmem
  obtain ⟨middle, next, -, hstep, hafter⟩ := exists_step_of_run hrun
  obtain ⟨-, rfl⟩ := step_ret hstep
  exact returned_of_run hafter (Function.update_self _ _ _)

/-- A request returns only after it has sent every command. -/
theorem exec_mem_of_running {finish : State ι} {todo : Finset Record}
    (hrun : run (step requests) state labels = some finish)
    (hphase : state.phase i = .running todo) (hmem : record ∈ todo)
    (hreturned : finish.phase i = .returned) :
    .exec i record ∈ labels := by
  induction labels generalizing state todo with
  | nil =>
      rw [run_nil, Option.some.injEq] at hrun
      rw [hrun, hreturned] at hphase
      cases hphase
  | cons label labels ih =>
      rw [run_cons, Option.bind_eq_some_iff] at hrun
      obtain ⟨next, hstep, hrest⟩ := hrun
      by_cases hi : i = label.request
      · cases label with
        | start i' =>
            obtain rfl : i = i' := hi
            have hwaiting := (step_start hstep).1
            rw [hphase] at hwaiting
            cases hwaiting
        | exec i' record' =>
            obtain rfl : i = i' := hi
            obtain ⟨todo', stores, hphase', -, -, rfl⟩ := step_exec hstep
            obtain rfl := Phase.running.inj (hphase.symm.trans hphase')
            by_cases hrecord : record = record'
            · rw [hrecord]
              exact List.mem_cons_self
            · exact List.mem_cons_of_mem _ (ih hrest
                (Function.update_self _ _ _)
                (Finset.mem_erase.mpr ⟨hrecord, hmem⟩))
        | ret i' =>
            obtain rfl : i = i' := hi
            have hempty := (step_ret hstep).1
            rw [hphase, Phase.running.injEq] at hempty
            rw [hempty] at hmem
            exact absurd hmem (Finset.notMem_empty _)
      · exact List.mem_cons_of_mem _
          (ih hrest ((phase_of_ne hstep hi).trans hphase) hmem)

theorem start_mem_of_not_waiting {stores : Stores}
    (hrun : run (step requests) (State.initial stores) labels = some state)
    (hphase : state.phase i ≠ .waiting) : .start i ∈ labels := by
  revert hphase
  refine run_induction
    (P := fun labels state => state.phase i ≠ .waiting →
      .start i ∈ labels) ?_ ?_ hrun
  · intro h
    exact absurd rfl h
  · intro labels state label next _ ih hstep hphase
    rw [List.mem_append, List.mem_singleton]
    by_cases hi : i = label.request
    · cases label with
      | start i' => exact .inr (congrArg Label.start hi)
      | exec i' record =>
          obtain ⟨todo, stores, hrunning, -⟩ := step_exec hstep
          exact .inl (ih (by rw [hi, Label.request, hrunning]; nofun))
      | ret i' =>
          have hrunning := (step_ret hstep).1
          exact .inl (ih (by rw [hi, Label.request, hrunning]; nofun))
    · rw [phase_of_ne hstep hi] at hphase
      exact .inl (ih hphase)

theorem run_good (hstart : start.WellFormed)
    (hregistered : Registered requests start)
    (hrun : run (step requests) (State.initial start.toStores) labels =
      some state) :
    ∃ graph, state.stores = graph.toStores ∧
      Good requests start labels graph := by
  refine run_induction
    (P := fun labels state => ∃ graph, state.stores = graph.toStores ∧
      Good requests start labels graph) ?_ ?_ hrun
  · exact ⟨start, rfl, Good.initial hstart⟩
  · rintro labels state label next - ⟨graph, hstores, hgood⟩ hstep
    cases label with
    | start i =>
        obtain ⟨-, rfl⟩ := step_start hstep
        exact ⟨graph, hstores, hgood.skip fun _ _ _ => rfl⟩
    | exec i record =>
        obtain ⟨todo, stores, -, -, hcommand, rfl⟩ := step_exec hstep
        rw [hstores, command_toStores, Option.some.injEq] at hcommand
        exact ⟨_, hcommand.symm, hgood.exec hregistered i record⟩
    | ret i =>
        obtain ⟨-, rfl⟩ := step_ret hstep
        exact ⟨graph, hstores, hgood.skip fun _ _ _ => rfl⟩

/-! ## Convergence -/

def Agree (stores : Stores) (userID followeeID : Int64) : Prop :=
  ∀ record record', stores.Holds userID followeeID record ↔
    stores.Holds userID followeeID record'

/-- The second request started when the first one had returned. -/
def ReturnedBefore (labels : List (Label ι)) (j i : ι) : Prop :=
  ∃ before after, labels = before ++ .start i :: after ∧ .ret j ∈ before

/-- A request for the pair that started when every opposite one had
returned. -/
def LastWord (requests : ι → Request) (labels : List (Label ι))
    (userID followeeID : Int64) (i : ι) : Prop :=
  (requests i).For userID followeeID ∧
    ∃ before after, labels = before ++ .start i :: after ∧
      ∀ j, (requests j).For userID followeeID →
        (requests j).action.isFollow ≠ (requests i).action.isFollow →
          .ret j ∈ before

/-- A pair that no request is for, or for which one has the last word. -/
def Settled (requests : ι → Request) (labels : List (Label ι))
    (userID followeeID : Int64) : Prop :=
  (∀ i, ¬ (requests i).For userID followeeID) ∨
    ∃ i, LastWord requests labels userID followeeID i

theorem exists_last_of_mem {α : Type*} {p : α → Prop} {l : List α}
    (h : ∃ a ∈ l, p a) :
    ∃ before a after, l = before ++ a :: after ∧ p a ∧
      ∀ b ∈ after, ¬ p b := by
  induction l with
  | nil => simp at h
  | cons a l ih =>
      by_cases hl : ∃ b ∈ l, p b
      · obtain ⟨before, b, after, rfl, hb, hafter⟩ := ih hl
        exact ⟨a :: before, b, after, rfl, hb, hafter⟩
      · rw [List.exists_mem_cons_iff, or_iff_left hl] at h
        exact ⟨[], a, l, rfl, h, fun b hb hpb => hl ⟨b, hb, hpb⟩⟩

/-- When no Follow of the pair overlaps an Unfollow of it, the request that
started last has the last word. -/
theorem settled_of_disjoint {stores : Stores}
    (hrun : run (step requests) (State.initial stores) labels = some state)
    (hreturned : ∀ i, state.phase i = .returned)
    (hdisjoint : ∀ i j, (requests i).For userID followeeID →
      (requests j).For userID followeeID →
      (requests i).action.isFollow ≠ (requests j).action.isFollow →
        ReturnedBefore labels i j ∨ ReturnedBefore labels j i) :
    Settled requests labels userID followeeID := by
  by_cases hnone : ∀ i, ¬ (requests i).For userID followeeID
  · exact .inl hnone
  obtain ⟨i₀, hi₀⟩ := not_forall_not.mp hnone
  have hstarted : .start i₀ ∈ labels :=
    start_mem_of_not_waiting hrun (by rw [hreturned]; nofun)
  obtain ⟨before, label, after, rfl, ⟨i, rfl, hi⟩, hlast⟩ :=
    exists_last_of_mem (p := fun label => ∃ i, label = .start i ∧
      (requests i).For userID followeeID) ⟨_, hstarted, i₀, rfl, hi₀⟩
  refine .inr ⟨i, hi, before, after, rfl, ?_⟩
  intro j hj hne
  rcases hdisjoint i j hi hj hne.symm with
    ⟨before', after', hsplit, hret⟩ | ⟨before', after', hsplit, hret⟩
  · exfalso
    rcases List.append_eq_append_iff.mp hsplit with
      ⟨mid, hbefore, hmid⟩ | ⟨mid, hbefore, hmid⟩
    · -- The request `j` starts after `i`, the last one to start.
      cases mid with
      | nil =>
          obtain rfl := Label.start.inj (List.cons.inj hmid).1
          exact hne rfl
      | cons label mid =>
          have hmem : .start j ∈ after := by
            rw [(List.cons.inj hmid).2]
            simp
          exact hlast _ hmem ⟨j, rfl, hj⟩
    · -- The request `i` starts after it has returned.
      obtain ⟨middle, next, hpre, hstep, -⟩ := exists_step_of_run hrun
      have hphase := returned_of_mem (i := i) hpre
        (by rw [hbefore]; exact List.mem_append_left _ hret)
      rw [(step_start hstep).1] at hphase
      cases hphase
  · rcases List.append_eq_append_iff.mp hsplit with
      ⟨mid, hbefore, hmid⟩ | ⟨mid, hbefore, -⟩
    · cases mid with
      | nil =>
          rw [hbefore, List.append_nil] at hret
          exact hret
      | cons label mid =>
          have hmem : .start i ∈ after := by
            rw [(List.cons.inj hmid).2]
            simp
          exact absurd ⟨i, rfl, hi⟩ (hlast _ hmem)
    · rw [hbefore]
      exact List.mem_append_left _ hret

/-- The last command on every record is of the kind of the request that has
the last word. -/
theorem holds_of_lastWord (hstart : start.WellFormed)
    (hregistered : Registered requests start)
    (hrun : run (step requests) (State.initial start.toStores) labels =
      some state)
    (hreturned : state.phase i = .returned)
    (hlast : LastWord requests labels userID followeeID i)
    (record : Record) :
    state.stores.Holds userID followeeID record ↔
      (requests i).action.isFollow = true := by
  obtain ⟨graph, hstores, hgood⟩ := run_good hstart hregistered hrun
  obtain ⟨hpair, before, after, rfl, hopposite⟩ := hlast
  obtain ⟨middle, next, hbefore, hstep, hafter⟩ := exists_step_of_run hrun
  have hexec : .exec i record ∈ after := by
    obtain ⟨-, rfl⟩ := step_start hstep
    exact exec_mem_of_running hafter (Function.update_self _ _ _)
      (List.mem_toFinset.mpr record.mem_all) hreturned
  have hsame : ∀ decided ∈
      decisions requests after userID followeeID record,
        decided = (requests i).action.isFollow := by
    intro decided hdecided
    obtain ⟨j, hj, hpair', rfl⟩ := mem_decisions_iff.mp hdecided
    by_contra hne
    have hphase := returned_of_mem hbefore (hopposite j hpair' hne)
    have hnext : next.phase j = .returned :=
      (phase_of_ne hstep (request_ne_of_returned hstep hphase)).trans hphase
    exact not_mem_of_returned hafter hnext _ hj rfl
  have hmem : (requests i).action.isFollow ∈
      decisions requests after userID followeeID record :=
    mem_decisions_iff.mpr ⟨i, hexec, hpair, rfl⟩
  have hsplit : decisions requests (before ++ .start i :: after) userID
      followeeID record = decisions requests before userID followeeID record ++
        decisions requests after userID followeeID record :=
    List.filterMap_append
  rw [hstores, hgood.holds, hsplit,
    List.getLast?_append_of_ne_nil _ (List.ne_nil_of_mem hmem),
    List.getLast?_eq_some_getLast (List.ne_nil_of_mem hmem),
    hsame _ (List.getLast_mem _)]

theorem holds_of_no_request (hstart : start.WellFormed)
    (hregistered : Registered requests start)
    (hrun : run (step requests) (State.initial start.toStores) labels =
      some state)
    (hnone : ∀ i, ¬ (requests i).For userID followeeID)
    (record : Record) :
    state.stores.Holds userID followeeID record ↔
      start.toStores.Holds userID followeeID record := by
  obtain ⟨graph, hstores, hgood⟩ := run_good hstart hregistered hrun
  have hnil : decisions requests labels userID followeeID record = [] := by
    rw [List.eq_nil_iff_forall_not_mem]
    intro decided hdecided
    obtain ⟨i, -, hpair, -⟩ := mem_decisions_iff.mp hdecided
    exact hnone i hpair
  rw [hstores, hgood.holds, hnil]
  rfl

/-- In every interleaving no array repeats an id, and when all requests have
returned the four records of every settled pair agree. -/
theorem records_converge (requests : ι → Request) (start : Graph)
    (labels : List (Label ι)) (state : State ι) (hstart : start.WellFormed)
    (hagree : ∀ userID followeeID, Agree start.toStores userID followeeID)
    (hregistered : Registered requests start)
    (hrun : run (step requests) (State.initial start.toStores) labels =
      some state)
    (hreturned : ∀ i, state.phase i = .returned) :
    (∀ doc ∈ state.stores.collection, ∀ side : Side,
      (edgeIDs side.key doc).Nodup) ∧
    ∀ userID followeeID, Settled requests labels userID followeeID →
      Agree state.stores userID followeeID := by
  constructor
  · obtain ⟨graph, hstores, hgood⟩ := run_good hstart hregistered hrun
    intro doc hdoc side
    rw [hstores] at hdoc
    obtain ⟨user, huser, rfl⟩ := List.mem_map.mp hdoc
    rw [edgeIDs_toDoc]
    exact hgood.wellFormed.ids user huser side
  · rintro userID followeeID (hnone | ⟨i, hlast⟩) record record'
    · have hkept := holds_of_no_request hstart hregistered hrun hnone
      rw [hkept, hkept]
      exact hagree userID followeeID record record'
    · have hholds := holds_of_lastWord hstart hregistered hrun
        (hreturned i) hlast
      rw [hholds, hholds]

/-! ## A Follow and an Unfollow of one pair -/

def sampleGraph : Graph :=
  ⟨[UserRecord.fresh 1, UserRecord.fresh 2], fun _ => SortedSet.empty⟩

theorem sampleGraph_wellFormed : sampleGraph.WellFormed where
  userIDs := by decide
  ids := by simp [sampleGraph, UserRecord.fresh, UserRecord.ids]

theorem sampleGraph_agree (userID followeeID : Int64) :
    Agree sampleGraph.toStores userID followeeID := by
  have hnone : ∀ record,
      ¬ sampleGraph.toStores.Holds userID followeeID record := by
    intro record
    cases record with
    | mongo side =>
        rw [Stores.Holds, recorded_iff]
        simp [sampleGraph, UserRecord.fresh, UserRecord.ids]
    | redis side => simp [Stores.Holds, sampleGraph, Graph.toStores]
  exact fun record record' =>
    iff_of_false (hnone record) (hnone record')

def sampleRequests (follow : Bool) : Request :=
  ⟨1, 2, if follow then .follow ⟨0, "epoch"⟩ else .unfollow⟩

theorem sampleRequests_registered :
    Registered sampleRequests sampleGraph := by
  intro follow side
  cases side <;> simp [sampleRequests, sampleGraph, UserRecord.fresh,
    Side.owner]

/-- Two Follows of the pair, and an Unfollow. -/
def threeRequests : Option Bool → Request
  | some _ => ⟨1, 2, .follow ⟨0, "epoch"⟩⟩
  | none => ⟨1, 2, .unfollow⟩

theorem threeRequests_registered :
    Registered threeRequests sampleGraph := by
  intro i side
  cases i <;> cases side <;> simp [threeRequests, sampleGraph,
    UserRecord.fresh, Side.owner]

/-- The commands of the two Follows alternate. -/
def followLabels : List (Label (Option Bool)) :=
  [.start (some false), .start (some true)] ++
    Record.all.flatMap (fun record =>
      [.exec (some true) record, .exec (some false) record]) ++
    [.ret (some false), .ret (some true)]

def unfollowLabels : List (Label (Option Bool)) :=
  .start none :: Record.all.map (.exec none) ++ [.ret none]

/-- The Follows overlap, the Unfollow comes after them. -/
theorem records_converge_serial :
    ∃ state, run (step threeRequests) (State.initial sampleGraph.toStores)
      (followLabels ++ unfollowLabels) = some state ∧
      Agree state.stores 1 2 := by
  have h : (run (step threeRequests) (State.initial sampleGraph.toStores)
      (followLabels ++ unfollowLabels)).any
        fun state => ∀ i, state.phase i = .returned := by decide +kernel
  obtain ⟨state, hrun, h⟩ := (Option.any_eq_true _ _).mp h
  rw [decide_eq_true_eq] at h
  refine ⟨state, hrun, (records_converge threeRequests sampleGraph _ state
    sampleGraph_wellFormed sampleGraph_agree threeRequests_registered hrun
    h).2 1 2 (.inr ⟨none, ⟨rfl, rfl⟩, followLabels, _, rfl, ?_⟩)⟩
  intro j _ hne
  cases j with
  | none => exact absurd rfl hne
  | some second => cases second <;> simp [followLabels]

/-- The Unfollow comes last on the followees and first on the followers. -/
def racingLabels : List (Label Bool) :=
  [.start true, .start false,
    .exec true (.mongo .followees), .exec false (.mongo .followees),
    .exec false (.mongo .followers), .exec true (.mongo .followers),
    .exec true (.redis .followees), .exec true (.redis .followers),
    .exec false (.redis .followees), .exec false (.redis .followers),
    .ret true, .ret false]

theorem not_records_converge :
    ¬ ∀ (requests : Bool → Request) (start : Graph)
      (labels : List (Label Bool)) (state : State Bool), start.WellFormed →
        (∀ userID followeeID, Agree start.toStores userID followeeID) →
        Registered requests start →
        run (step requests) (State.initial start.toStores) labels =
          some state →
        (∀ i, state.phase i = .returned) →
        ∀ userID followeeID, Agree state.stores userID followeeID := by
  intro hclaim
  have h : (run (step sampleRequests) (State.initial sampleGraph.toStores)
      racingLabels).any fun state => ∀ i, state.phase i = .returned := by
    decide +kernel
  obtain ⟨state, hrun, h⟩ := (Option.any_eq_true _ _).mp h
  rw [decide_eq_true_eq] at h
  have hagree := hclaim sampleRequests sampleGraph racingLabels state
    sampleGraph_wellFormed sampleGraph_agree sampleRequests_registered hrun h
    1 2 (.mongo .followers) (.mongo .followees)
  obtain ⟨graph, hstores, hgood⟩ := run_good sampleGraph_wellFormed
    sampleRequests_registered hrun
  have hfollowers : (decisions sampleRequests racingLabels 1 2
      (.mongo .followers)).getLast? = some true := by decide
  have hfollowees : (decisions sampleRequests racingLabels 1 2
      (.mongo .followees)).getLast? = some false := by decide
  rw [hstores, hgood.holds, hgood.holds, hfollowers, hfollowees] at hagree
  exact absurd (hagree.mp rfl) Bool.false_ne_true

end SocialNetwork.SocialGraph.Concurrent
