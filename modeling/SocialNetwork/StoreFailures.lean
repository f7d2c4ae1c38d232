import SocialNetwork.PostStorage
import SocialNetwork.SocialGraphConvergence
import SocialNetwork.UserService

/-!
# Store calls that fail

`Follow` and `Unfollow` of `socialgraph.go` as three goroutines and a
`wg.Wait()`, and `StorePost` of `poststorage.go`, with every outcome of their
store calls.

The error of `UpdateOne` is declared again by the `:=` of its goroutine, so
the variable that the call reads after the join stays nil.  The goroutine
itself goes on to log the counts of a result which is nil after an error.
-/

namespace SocialNetwork.StoreFailures

open Machine SocialGraph
open SocialGraph.Concurrent (Request)
open UserService (Write)

/-- The two edges of a request, each after a `ZCARD` whose reply is not
read. -/
inductive PipelineCommand where
  | zcard (side : Side)
  | write (side : Side)
  deriving DecidableEq, Repr

def PipelineCommand.all : List PipelineCommand :=
  [.zcard .followees, .write .followees, .zcard .followers,
    .write .followers]

inductive Error where
  | updateOne (side : Side)
  | pipelined (command : PipelineCommand)
  | insertOne
  deriving DecidableEq, Repr

/-- How a call ends.  A panic of a goroutine is recovered nowhere. -/
inductive Outcome where
  | returned (err : Option Error)
  | panicked
  deriving DecidableEq, Repr

/-- The pointer to the result of a write, and its error. -/
def results (write : Write) (err : Error) : Option Unit × Option Error :=
  match write with
  | .done => (some (), none)
  | .failed _ => (none, some err)

/-! ## Goroutines -/

inductive UpdatePhase where
  | updating
  | updated (updateResult : Option Unit) (err : Option Error)
  | done
  deriving DecidableEq, Repr

/-- `err` is the first error of the commands executed so far. -/
inductive PipelinePhase where
  | running (rest : List PipelineCommand) (err : Option Error)
  | done
  deriving DecidableEq, Repr

/-- `mongoErr` are the variables that the call declares for the errors of
MongoDB. -/
structure State where
  stores : Stores
  update : Side → UpdatePhase
  pipeline : PipelinePhase
  mongoErr : Side → Option Error
  redisErr : Option Error
  outcome : Option Outcome

def State.start (stores : Stores) : State where
  stores := stores
  update _ := .updating
  pipeline := .running PipelineCommand.all none
  mongoErr _ := none
  redisErr := none
  outcome := none

inductive Label where
  | updateOne (side : Side) (write : Write)
  | log (side : Side)
  | pipelined (command : PipelineCommand) (write : Write)
  | exec
  | wait
  deriving DecidableEq, Repr

def execute (request : Request) (write : Write) (stores : Stores)
    (record : Record) : Option Stores :=
  if write.applied then
    request.action.command request.userID request.followeeID stores record
  else some stores

def State.setUpdate (state : State) (side : Side) (phase : UpdatePhase) :
    State :=
  { state with update := Function.update state.update side phase }

/-- One command of the pipeline. -/
def State.pipelined (state : State) (request : Request)
    (command : PipelineCommand) (write : Write) : Option Stores :=
  match command with
  | .zcard _ => some state.stores
  | .write side => execute request write state.stores (.redis side)

def State.finish (state : State) (outcome : Outcome) : State :=
  { state with outcome := some outcome }

def step (request : Request) (state : State) (label : Label) :
    Option State :=
  if state.outcome.isSome then none
  else
    match label with
    | .updateOne side write =>
        match state.update side with
        | .updating =>
            (execute request write state.stores (.mongo side)).map
              fun stores =>
                let (updateResult, err) := results write (.updateOne side)
                { state with stores := stores }.setUpdate side
                  (.updated updateResult err)
        | _ => none
    | .log side =>
        match state.update side with
        -- The error is logged, and then `updateResult.MatchedCount`.
        | .updated updateResult _ =>
            match updateResult with
            | none => some (state.finish .panicked)
            | some _ => some (state.setUpdate side .done)
        | _ => none
    | .pipelined command write =>
        match state.pipeline with
        | .running (command' :: rest) err =>
            if command = command' then
              (state.pipelined request command write).map fun stores =>
                let (_, err') := results write (.pipelined command)
                { state with
                  stores := stores
                  pipeline := .running rest (err <|> err') }
            else none
        | _ => none
    | .exec =>
        match state.pipeline with
        | .running [] err =>
            some { state with pipeline := .done, redisErr := err }
        | _ => none
    | .wait =>
        if state.update .followees = .done ∧ state.update .followers = .done ∧
            state.pipeline = .done then
          some (state.finish (.returned (state.mongoErr .followees <|>
            state.mongoErr .followers <|> state.redisErr)))
        else none

/-! ## One step -/

variable {request : Request} {stores : Stores} {state next : State}
  {label : Label} {labels : List Label}

theorem step_cases (hstep : step request state label = some next) :
    state.outcome = none ∧
      match label with
      | .updateOne side write =>
          state.update side = .updating ∧
            ∃ stores, execute request write state.stores (.mongo side) =
                some stores ∧
              next = { state with stores := stores }.setUpdate side
                (.updated (results write (.updateOne side)).1
                  (results write (.updateOne side)).2)
      | .log side =>
          ∃ updateResult err,
            state.update side = .updated updateResult err ∧
              (updateResult = none ∧ next = state.finish .panicked ∨
                updateResult = some () ∧ next = state.setUpdate side .done)
      | .pipelined command write =>
          ∃ rest err, state.pipeline = .running (command :: rest) err ∧
            ∃ stores, state.pipelined request command write =
                some stores ∧
              next = { state with
                stores := stores
                pipeline := .running rest
                  (err <|> (results write (.pipelined command)).2) }
      | .exec =>
          ∃ err, state.pipeline = .running [] err ∧
            next = { state with pipeline := .done, redisErr := err }
      | .wait =>
          state.update .followees = .done ∧
            state.update .followers = .done ∧ state.pipeline = .done ∧
            next = state.finish (.returned (state.mongoErr .followees <|>
              state.mongoErr .followers <|> state.redisErr)) := by
  unfold step at hstep
  split at hstep
  next => cases hstep
  next hrunning =>
    refine ⟨by simpa using hrunning, ?_⟩
    cases label with
    | updateOne side write =>
        cases hphase : state.update side with
        | updating =>
            simp only [hphase, Option.map_eq_some_iff] at hstep
            obtain ⟨stores, hstores, hnext⟩ := hstep
            exact ⟨hphase, stores, hstores, hnext.symm⟩
        | updated updateResult err => simp [hphase] at hstep
        | done => simp [hphase] at hstep
    | log side =>
        cases hphase : state.update side with
        | updating => simp [hphase] at hstep
        | updated updateResult err =>
            refine ⟨updateResult, err, hphase, ?_⟩
            cases updateResult with
            | none =>
                simp only [hphase, Option.some.injEq] at hstep
                exact .inl ⟨rfl, hstep.symm⟩
            | some result =>
                simp only [hphase, Option.some.injEq] at hstep
                exact .inr ⟨rfl, hstep.symm⟩
        | done => simp [hphase] at hstep
    | pipelined command write =>
        cases hphase : state.pipeline with
        | running rest err =>
            cases rest with
            | nil => simp [hphase] at hstep
            | cons command' rest =>
                simp only [hphase] at hstep
                split at hstep
                next heq =>
                  rw [Option.map_eq_some_iff] at hstep
                  obtain ⟨stores, hstores, hnext⟩ := hstep
                  exact ⟨rest, err, by rw [heq], stores, hstores,
                    hnext.symm⟩
                next => cases hstep
        | done => simp [hphase] at hstep
    | exec =>
        cases hphase : state.pipeline with
        | running rest err =>
            cases rest with
            | nil =>
                simp only [hphase, Option.some.injEq] at hstep
                exact ⟨err, rfl, hstep.symm⟩
            | cons command rest => simp [hphase] at hstep
        | done => simp [hphase] at hstep
    | wait =>
        simp only at hstep
        split at hstep
        next hdone =>
          rw [Option.some.injEq] at hstep
          exact ⟨hdone.1, hdone.2.1, hdone.2.2, hstep.symm⟩
        next => cases hstep

/-- The command of the stores that a step executes. -/
def Label.record : Label → Option Record
  | .updateOne side write => if write.applied then some (.mongo side) else none
  | .pipelined (.write side) write =>
      if write.applied then some (.redis side) else none
  | _ => none

theorem execute_applied {write : Write} (happlied : write.applied = true)
    (record : Record) :
    execute request write stores record =
      request.action.command request.userID request.followeeID stores
        record := by
  rw [execute, if_pos happlied]

theorem execute_lost {write : Write} (happlied : write.applied = false)
    (record : Record) :
    execute request write stores record = some stores := by
  rw [execute, if_neg (by rw [happlied]; exact Bool.false_ne_true)]

/-- The stores change as by the commands of the social graph alone. -/
theorem step_stores (hstep : step request state label = some next) :
    match label.record with
    | some record =>
        request.action.command request.userID request.followeeID
          state.stores record = some next.stores
    | none => next.stores = state.stores := by
  obtain ⟨-, hlabel⟩ := step_cases hstep
  cases label with
  | updateOne side write =>
      obtain ⟨-, stores, hstores, rfl⟩ := hlabel
      cases happlied : write.applied with
      | true =>
          rw [execute_applied happlied] at hstores
          simpa [Label.record, happlied, State.setUpdate] using hstores
      | false =>
          rw [execute_lost happlied, Option.some.injEq] at hstores
          simp [Label.record, happlied, State.setUpdate, hstores]
  | log side =>
      obtain ⟨updateResult, err, -, hnext⟩ := hlabel
      rcases hnext with ⟨-, rfl⟩ | ⟨-, rfl⟩ <;> rfl
  | pipelined command write =>
      obtain ⟨rest, err, -, stores, hstores, rfl⟩ := hlabel
      cases command with
      | zcard side =>
          rw [State.pipelined, Option.some.injEq] at hstores
          exact hstores.symm
      | write side =>
          rw [State.pipelined] at hstores
          cases happlied : write.applied with
          | true =>
              rw [execute_applied happlied] at hstores
              simpa [Label.record, happlied] using hstores
          | false =>
              rw [execute_lost happlied, Option.some.injEq] at hstores
              simp [Label.record, happlied, hstores]
  | exec =>
      obtain ⟨err, -, rfl⟩ := hlabel
      rfl
  | wait =>
      obtain ⟨-, -, -, rfl⟩ := hlabel
      rfl

theorem run_stores (hrun : run (step request) (.start stores) labels =
      some state) :
    run (request.action.command request.userID request.followeeID) stores
      (labels.filterMap Label.record) = some state.stores := by
  refine run_project State.stores ?_ hrun
  intro state label next hstep
  have hstores := step_stores hstep
  cases hrecord : label.record with
  | none =>
      rw [hrecord] at hstores
      exact hstores
  | some record =>
      rw [hrecord] at hstores
      exact hstores

/-! ## Every run ends -/

def UpdatePhase.work : UpdatePhase → ℕ
  | .updating => 2
  | .updated _ _ => 1
  | .done => 0

def PipelinePhase.work : PipelinePhase → ℕ
  | .running rest _ => rest.length + 1
  | .done => 0

/-- The number of steps that are left. -/
def State.work (state : State) : ℕ :=
  (state.update .followees).work + (state.update .followers).work +
    state.pipeline.work + if state.outcome.isSome then 0 else 1

theorem State.work_setUpdate (state : State) (side : Side)
    (phase : UpdatePhase) :
    (state.setUpdate side phase).work + (state.update side).work =
      state.work + phase.work := by
  unfold State.work State.setUpdate
  cases side with
  | followees =>
      simp only [Function.update_self, ne_eq, reduceCtorEq,
        not_false_eq_true, Function.update_of_ne]
      omega
  | followers =>
      simp only [Function.update_self, ne_eq, reduceCtorEq,
        not_false_eq_true, Function.update_of_ne]
      omega

theorem step_work (hstep : step request state label = some next) :
    next.work < state.work := by
  obtain ⟨houtcome, hlabel⟩ := step_cases hstep
  cases label with
  | updateOne side write =>
      obtain ⟨hphase, stores, -, rfl⟩ := hlabel
      have hwork := State.work_setUpdate { state with stores } side
        (.updated (results write (.updateOne side)).1
          (results write (.updateOne side)).2)
      simp only [hphase, UpdatePhase.work] at hwork
      change _ + 2 = state.work + 1 at hwork
      omega
  | log side =>
      obtain ⟨updateResult, err, hphase, hnext⟩ := hlabel
      rcases hnext with ⟨-, rfl⟩ | ⟨-, rfl⟩
      · simp [State.work, State.finish, houtcome]
      · have hwork := state.work_setUpdate side .done
        simp only [hphase, UpdatePhase.work] at hwork
        omega
  | pipelined command write =>
      obtain ⟨rest, err, hphase, stores, -, rfl⟩ := hlabel
      simp [State.work, PipelinePhase.work, hphase]
  | exec =>
      obtain ⟨err, hphase, rfl⟩ := hlabel
      simp [State.work, PipelinePhase.work, hphase]
  | wait =>
      obtain ⟨-, -, -, rfl⟩ := hlabel
      simp [State.work, State.finish, houtcome]

theorem run_work (hrun : run (step request) (.start stores) labels =
      some state) : labels.length + state.work ≤ 10 := by
  refine run_induction
    (P := fun labels state => labels.length + state.work ≤ 10) ?_ ?_ hrun
  · rfl
  · intro labels state label next _ hwork hstep
    have hless := step_work hstep
    rw [List.length_append, List.length_singleton]
    omega

theorem exists_step (hrunning : state.outcome = none) :
    ∃ label, (step request state label).isSome := by
  have hupdate : ∀ side, state.update side = .done ∨
      ∃ label, (step request state label).isSome := by
    intro side
    cases hphase : state.update side with
    | updating =>
        refine .inr ⟨.updateOne side (.failed false), ?_⟩
        simp [step, hrunning, hphase, execute, Write.applied]
    | updated updateResult err =>
        refine .inr ⟨.log side, ?_⟩
        cases updateResult <;> simp [step, hrunning, hphase]
    | done => exact .inl rfl
  have hpipeline : state.pipeline = .done ∨
      ∃ label, (step request state label).isSome := by
    cases hphase : state.pipeline with
    | running rest err =>
        cases rest with
        | nil => exact .inr ⟨.exec, by simp [step, hrunning, hphase]⟩
        | cons command rest =>
            refine .inr ⟨.pipelined command (.failed false), ?_⟩
            cases command <;>
              simp [step, hrunning, hphase, State.pipelined, execute,
                Write.applied]
    | done => exact .inl rfl
  rcases hupdate .followees with hfollowees | hstep
  · rcases hupdate .followers with hfollowers | hstep
    · rcases hpipeline with hdone | hstep
      · refine ⟨.wait, ?_⟩
        simp [step, hrunning, hfollowees, hfollowers, hdone]
      · exact hstep
    · exact hstep
  · exact hstep

/-! ## Failed calls -/

def UpdateFailed (labels : List Label) (side : Side) : Prop :=
  ∃ applied, Label.updateOne side (.failed applied) ∈ labels

def PipelineFailed (labels : List Label) : Prop :=
  ∃ command applied, Label.pipelined command (.failed applied) ∈ labels

/-- At least one store call of the request failed. -/
def Failed (labels : List Label) : Prop :=
  (∃ side, UpdateFailed labels side) ∨ PipelineFailed labels

theorem updateFailed_concat {side : Side} :
    UpdateFailed (labels ++ [label]) side ↔
      UpdateFailed labels side ∨
        ∃ applied, label = .updateOne side (.failed applied) := by
  unfold UpdateFailed
  simp only [List.mem_append, List.mem_singleton, exists_or,
    eq_comm (b := label)]

theorem pipelineFailed_concat :
    PipelineFailed (labels ++ [label]) ↔
      PipelineFailed labels ∨
        ∃ command applied, label = .pipelined command (.failed applied) := by
  unfold PipelineFailed
  simp only [List.mem_append, List.mem_singleton, exists_or,
    eq_comm (b := label)]

theorem updateFailed_frame (side : Side)
    (hlabel : ∀ applied, label ≠ .updateOne side (.failed applied)) :
    UpdateFailed (labels ++ [label]) side ↔ UpdateFailed labels side := by
  rw [updateFailed_concat]
  simp [hlabel]

theorem pipelineFailed_frame
    (hlabel : ∀ command applied, label ≠ .pipelined command (.failed applied)) :
    PipelineFailed (labels ++ [label]) ↔ PipelineFailed labels := by
  rw [pipelineFailed_concat]
  simp [hlabel]

/-- The result that `log` is going to read is nil. -/
def State.NilResult (state : State) (side : Side) : Prop :=
  ∃ err, state.update side = .updated none err

/-- The error of the pipeline so far. -/
def State.pipelineErr (state : State) : Option Error :=
  match state.pipeline with
  | .running _ err => err
  | .done => state.redisErr

/-- No error of MongoDB reaches the variable that is read after the join. -/
structure Surfacing (labels : List Label) (state : State) : Prop where
  mongoErr : ∀ side, state.mongoErr side = none
  update : ∀ side, UpdateFailed labels side ↔ state.NilResult side
  pipeline : PipelineFailed labels ↔ state.pipelineErr.isSome
  outcome : ∀ outcome, state.outcome = some outcome →
    (outcome = .panicked ∧ ∃ side, state.NilResult side) ∨
    (outcome = .returned state.pipelineErr ∧
      ∀ side, ¬state.NilResult side)

theorem nilResult_setUpdate (side other : Side) (phase : UpdatePhase) :
    (state.setUpdate side phase).NilResult other ↔
      (other = side ∧ ∃ err, phase = .updated none err) ∨
        (other ≠ side ∧ state.NilResult other) := by
  unfold State.NilResult State.setUpdate
  by_cases hside : other = side
  · subst other
    simp
  · simp [hside]

theorem surfacing_start (stores : Stores) : Surfacing [] (.start stores) where
  mongoErr _ := rfl
  update side := by simp [UpdateFailed, State.NilResult, State.start]
  pipeline := by simp [PipelineFailed, State.pipelineErr, State.start]
  outcome := by simp [State.start]

theorem Surfacing.updateOne {side : Side} {write : Write}
    (hgood : Surfacing labels state) (hrunning : state.outcome = none)
    (hphase : state.update side = .updating) (stores : Stores) :
    Surfacing (labels ++ [.updateOne side write])
      ({ state with stores := stores }.setUpdate side
        (.updated (results write (.updateOne side)).1
          (results write (.updateOne side)).2)) where
  mongoErr := hgood.mongoErr
  update other := by
    have hother : ({ state with stores := stores } : State).NilResult other ↔
        state.NilResult other := Iff.rfl
    rw [updateFailed_concat, nilResult_setUpdate, hgood.update, hother]
    by_cases hside : other = side
    · subst other
      have hfresh : ¬state.NilResult side := by
        simp [State.NilResult, hphase]
      cases write <;> simp [hfresh, results]
    · have hne : ¬side = other := fun h => hside h.symm
      simp [hside, hne]
  pipeline := (pipelineFailed_frame (by simp)).trans hgood.pipeline
  outcome outcome houtcome := by
    cases hrunning.symm.trans houtcome

theorem Surfacing.log {side : Side} {updateResult : Option Unit}
    {err : Option Error} (hgood : Surfacing labels state)
    (hrunning : state.outcome = none)
    (hphase : state.update side = .updated updateResult err)
    (hnext : updateResult = none ∧ next = state.finish .panicked ∨
      updateResult = some () ∧ next = state.setUpdate side .done) :
    Surfacing (labels ++ [.log side]) next := by
  have hupdate : ∀ other, UpdateFailed (labels ++ [.log side]) other ↔
      state.NilResult other := fun other =>
    (updateFailed_frame other (by simp)).trans (hgood.update other)
  have hpipeline : PipelineFailed (labels ++ [.log side]) ↔
      state.pipelineErr.isSome :=
    (pipelineFailed_frame (by simp)).trans hgood.pipeline
  rcases hnext with ⟨rfl, rfl⟩ | ⟨rfl, rfl⟩
  · refine ⟨hgood.mongoErr, hupdate, hpipeline, ?_⟩
    intro outcome houtcome
    rw [State.finish, Option.some.injEq] at houtcome
    exact .inl ⟨houtcome.symm, side, err, hphase⟩
  · refine ⟨hgood.mongoErr, ?_, hpipeline, ?_⟩
    · intro other
      rw [hupdate, nilResult_setUpdate]
      by_cases hside : other = side
      · subst other
        simp [State.NilResult, hphase]
      · simp [hside]
    · intro outcome houtcome
      cases hrunning.symm.trans houtcome

theorem Surfacing.pipelined {command : PipelineCommand} {write : Write}
    {rest : List PipelineCommand} {err : Option Error}
    (hgood : Surfacing labels state) (hrunning : state.outcome = none)
    (hphase : state.pipeline = .running (command :: rest) err)
    (stores : Stores) :
    Surfacing (labels ++ [.pipelined command write])
      { state with
        stores := stores
        pipeline := .running rest
          (err <|> (results write (.pipelined command)).2) } where
  mongoErr := hgood.mongoErr
  update side :=
    (updateFailed_frame side (by simp)).trans (hgood.update side)
  pipeline := by
    rw [pipelineFailed_concat, hgood.pipeline]
    cases write <;> simp [State.pipelineErr, hphase, results]
  outcome outcome houtcome := by
    cases hrunning.symm.trans houtcome

theorem Surfacing.exec {err : Option Error} (hgood : Surfacing labels state)
    (hrunning : state.outcome = none)
    (hphase : state.pipeline = .running [] err) :
    Surfacing (labels ++ [.exec])
      { state with pipeline := .done, redisErr := err } where
  mongoErr := hgood.mongoErr
  update side :=
    (updateFailed_frame side (by simp)).trans (hgood.update side)
  pipeline := by
    rw [pipelineFailed_concat, hgood.pipeline]
    simp [State.pipelineErr, hphase]
  outcome outcome houtcome := by
    cases hrunning.symm.trans houtcome

theorem Surfacing.wait (hgood : Surfacing labels state)
    (hfollowees : state.update .followees = .done)
    (hfollowers : state.update .followers = .done)
    (hphase : state.pipeline = .done) :
    Surfacing (labels ++ [.wait])
      (state.finish (.returned (state.mongoErr .followees <|>
        state.mongoErr .followers <|> state.redisErr))) where
  mongoErr := hgood.mongoErr
  update side :=
    (updateFailed_frame side (by simp)).trans (hgood.update side)
  pipeline := (pipelineFailed_frame (by simp)).trans hgood.pipeline
  outcome outcome houtcome := by
    rw [State.finish, Option.some.injEq] at houtcome
    subst outcome
    refine .inr ⟨?_, ?_⟩
    · simp [hgood.mongoErr, State.pipelineErr, State.finish, hphase]
    · intro side
      cases side <;> simp [State.NilResult, State.finish, *]

theorem Surfacing.step (hgood : Surfacing labels state)
    (hstep : step request state label = some next) :
    Surfacing (labels ++ [label]) next := by
  obtain ⟨hrunning, hlabel⟩ := step_cases hstep
  cases label with
  | updateOne side write =>
      obtain ⟨hphase, stores, -, rfl⟩ := hlabel
      exact hgood.updateOne hrunning hphase stores
  | log side =>
      obtain ⟨updateResult, err, hphase, hnext⟩ := hlabel
      exact hgood.log hrunning hphase hnext
  | pipelined command write =>
      obtain ⟨rest, err, hphase, stores, -, rfl⟩ := hlabel
      exact hgood.pipelined hrunning hphase stores
  | exec =>
      obtain ⟨err, hphase, rfl⟩ := hlabel
      exact hgood.exec hrunning hphase
  | wait =>
      obtain ⟨hfollowees, hfollowers, hphase, rfl⟩ := hlabel
      exact hgood.wait hfollowees hfollowers hphase

theorem run_surfacing (hrun : run (step request) (.start stores) labels =
    some state) : Surfacing labels state :=
  run_induction (P := Surfacing) (surfacing_start stores)
    (fun _ _ _ _ _ hgood hstep => hgood.step hstep) hrun

/-- The call returns, with an error exactly when a store call failed. -/
def Outcome.Surfaces (outcome : Outcome) (failed : Prop) : Prop :=
  ∃ err, outcome = .returned err ∧ (err.isSome ↔ failed)

theorem Surfacing.surfaces_iff {outcome : Outcome}
    (hgood : Surfacing labels state)
    (houtcome : state.outcome = some outcome) :
    outcome.Surfaces (Failed labels) ↔ ∀ side, ¬UpdateFailed labels side := by
  simp only [Outcome.Surfaces, Failed, hgood.update, hgood.pipeline]
  rcases hgood.outcome outcome houtcome with ⟨rfl, hnil⟩ | ⟨rfl, hnil⟩
  · simpa using hnil
  · simp [hnil]

/-! ## `StorePost` -/

def StorePost (posts : List Post) (post : Post) (insertOne : Write) :
    Outcome × List Post :=
  let next := if insertOne.applied then posts ++ [post] else posts
  let (r, _err) := results insertOne .insertOne
  -- The error is logged, and then `r.InsertedID`.
  match r with
  | none => (.panicked, next)
  | some _ => (.returned none, next)

theorem storePost_surfaces_iff (posts : List Post) (post : Post)
    (insertOne : Write) :
    (StorePost posts post insertOne).1.Surfaces (insertOne ≠ .done) ↔
      insertOne = .done := by
  cases insertOne with
  | done => simp [StorePost, results, Outcome.Surfaces]
  | failed applied => simp [StorePost, results, Outcome.Surfaces]

/-! ## Failures that surface -/

/-- Every run of `Follow` or `Unfollow` goes on until the call ends; failures
surface as errors exactly when no call to MongoDB fails, and so they do in
`StorePost`. -/
theorem failures_surface_iff
    (hrun : run (step request) (.start stores) labels = some state) :
    (labels.length ≤ 10 ∧
      (state.outcome = none → ∃ label, (step request state label).isSome) ∧
      ∀ outcome, state.outcome = some outcome →
        (outcome.Surfaces (Failed labels) ↔
          ∀ side, ¬UpdateFailed labels side)) ∧
    ∀ (posts : List Post) (post : Post) (insertOne : Write),
      (StorePost posts post insertOne).1.Surfaces (insertOne ≠ .done) ↔
        insertOne = .done := by
  refine ⟨⟨?_, exists_step, ?_⟩, storePost_surfaces_iff⟩
  · have hwork := run_work hrun
    omega
  · intro outcome houtcome
    exact (run_surfacing hrun).surfaces_iff houtcome

/-- User 1 stops to follow user 2. -/
def sampleRequest : Request := ⟨1, 2, .unfollow⟩

/-- The first `ZREM` fails, and everything else succeeds. -/
def zremFailsLabels : List Label :=
  [.updateOne .followees .done, .log .followees,
    .pipelined (.zcard .followees) .done,
    .pipelined (.write .followees) (.failed false),
    .updateOne .followers .done, .pipelined (.zcard .followers) .done,
    .pipelined (.write .followers) .done, .exec, .log .followers, .wait]

theorem failures_surface_iff_zremFails :
    ∃ state outcome,
      run (step sampleRequest) (.start Stores.empty) zremFailsLabels =
        some state ∧
      state.outcome = some outcome ∧
      outcome.Surfaces (Failed zremFailsLabels) := by
  obtain ⟨state, hrun, houtcome⟩ : ∃ state,
      run (step sampleRequest) (.start Stores.empty) zremFailsLabels =
        some state ∧
      state.outcome = some
        (.returned (some (.pipelined (.write .followees)))) :=
    ⟨_, rfl, rfl⟩
  refine ⟨state, _, hrun, houtcome, ?_⟩
  apply ((failures_surface_iff hrun).1.2.2 _ houtcome).mpr
  rintro side ⟨applied, hmem⟩
  simp [zremFailsLabels] at hmem

/-- `UpdateOne` fails, and its goroutine reads the nil result. -/
theorem not_failures_surface :
    ¬ ∀ (request : Request) (stores : Stores) (labels : List Label)
        (state : State) (outcome : Outcome),
      run (step request) (.start stores) labels = some state →
      state.outcome = some outcome →
      outcome.Surfaces (Failed labels) := by
  intro hclaim
  obtain ⟨err, hreturned, -⟩ := hclaim sampleRequest Stores.empty
    [.updateOne .followees (.failed false), .log .followees] _ .panicked rfl
    rfl
  cases hreturned

end SocialNetwork.StoreFailures
