import SocialNetwork.RabbitMQCapacity

/-!
# The users of the channel pool

`uploadHomeTimelineHelper` and `workerThread` pop one channel, use it, and
push it back in a deferred call; the success path of the former has pushed it
once before.  The machine below runs any number of executions of both on one
pool; seen from the pool it is a run of the pool machine.
-/

namespace SocialNetwork.RabbitMQ.Clients

open Machine

/-- `uploadHomeTimelineHelper` with the configured regions, or
`workerThread`. -/
inductive Program where
  | uploadHomeTimelineHelper (regions : List String)
  | workerThread
  deriving DecidableEq, Repr

/-- What the execution does next.  `deferred` stands before the deferred
`Push`, on a panic as on a return. -/
inductive Pc where
  | start
  | popping
  | exchangeDeclare (ch : Channel)
  | marshal (ch : Channel)
  | publish (ch : Channel) (regions : List String)
  | pushing (ch : Channel)
  | queueDeclare (ch : Channel)
  | queueBind (ch : Channel)
  | consume (ch : Channel)
  | consuming (ch : Channel)
  | deferred (ch : Handle)
  | deferring (ch : Handle)
  | returned
  deriving DecidableEq, Repr

inductive Label where
  | pool (label : RabbitMQ.Label)
  | callPop (e : Goroutine)
  | popReturned (e : Goroutine)
  | exchangeDeclare (e : Goroutine) (ok : Bool)
  | marshal (e : Goroutine) (ok : Bool)
  | publish (e : Goroutine) (ok : Bool)
  | queueDeclare (e : Goroutine) (ok : Bool)
  | queueBind (e : Goroutine) (ok : Bool)
  | consume (e : Goroutine) (ok : Bool)
  | callPush (e : Goroutine) (ch : Handle)
  | pushReturned (e : Goroutine)
  deriving DecidableEq, Repr

/-- Steps inside `Pop` and `Push`, as opposed to calls of them. -/
def Internal : RabbitMQ.Label → Prop
  | .pop _ | .push _ _ => False
  | _ => True

instance : DecidablePred Internal := fun label => by
  cases label <;> unfold Internal <;> infer_instance

structure State where
  pool : Pool
  pc : Goroutine → Pc

def State.initial (maxSize : Int) : State :=
  ⟨NewRabbitMQClientPool maxSize, fun _ => .start⟩

def State.goto (state : State) (e : Goroutine) (pc : Pc) : State :=
  { state with pc := Function.update state.pc e pc }

/-- An error of an AMQP call or of `json.Marshal` ends the execution; either
way the deferred `Push` runs. -/
def State.advance (state : State) (e : Goroutine) (ch : Channel) (ok : Bool)
    (pc : Pc) : State :=
  state.goto e (if ok then pc else .deferred (some ch))

/-- The call whose next point is `pc` is made by a step of the pool. -/
def State.call (state : State) (label : RabbitMQ.Label) (e : Goroutine)
    (pc : Pc) : Option State :=
  (RabbitMQ.step state.pool label).map fun pool =>
    { state with pool := pool }.goto e pc

def step (program : Goroutine → Program) (state : State) :
    Label → Option State
  | .pool label =>
      if Internal label then
        (RabbitMQ.step state.pool label).map fun pool =>
          { state with pool := pool }
      else none
  | .callPop e =>
      match state.pc e with
      | .start => state.call (.pop e) e .popping
      | _ => none
  | .popReturned e =>
      match state.pc e, state.pool.call e with
      | .popping, .popReturned (some (some ch)) =>
          some (state.goto e (.exchangeDeclare ch))
      -- `panic(err)`, with a nil channel in the deferred `Push`.
      | .popping, .popReturned _ => some (state.goto e (.deferred none))
      | _, _ => none
  | .exchangeDeclare e ok =>
      match state.pc e, program e with
      | .exchangeDeclare ch, .uploadHomeTimelineHelper _ =>
          some (state.advance e ch ok (.marshal ch))
      | .exchangeDeclare ch, .workerThread =>
          some (state.advance e ch ok (.queueDeclare ch))
      | _, _ => none
  | .marshal e ok =>
      match state.pc e, program e with
      | .marshal ch, .uploadHomeTimelineHelper regions =>
          some (state.advance e ch ok (.publish ch regions))
      | _, _ => none
  | .publish e _ =>
      -- A failed `PublishWithContext` is only logged.
      match state.pc e with
      | .publish ch (_ :: regions) =>
          some (state.goto e (.publish ch regions))
      | _ => none
  | .queueDeclare e ok =>
      match state.pc e with
      | .queueDeclare ch => some (state.advance e ch ok (.queueBind ch))
      | _ => none
  | .queueBind e ok =>
      match state.pc e with
      | .queueBind ch => some (state.advance e ch ok (.consume ch))
      | _ => none
  | .consume e ok =>
      match state.pc e with
      | .consume ch => some (state.advance e ch ok (.consuming ch))
      | _ => none
  | .callPush e handle =>
      match state.pc e with
      | .publish ch [] =>
          if handle = some ch then
            state.call (.push e handle) e (.pushing ch)
          else none
      | .deferred ch =>
          if handle = ch then state.call (.push e handle) e (.deferring ch)
          else none
      | _ => none
  | .pushReturned e =>
      match state.pc e, state.pool.call e with
      | .pushing ch, .pushReturned =>
          some (state.goto e (.deferred (some ch)))
      | .deferring _, .pushReturned => some (state.goto e .returned)
      | _, _ => none

def Pc.uses : Pc → Option Channel
  | .exchangeDeclare ch | .publish ch (_ :: _) | .queueDeclare ch
  | .queueBind ch | .consume ch | .consuming ch => some ch
  | _ => none

def State.Holds (state : State) (e : Goroutine) (ch : Channel) : Prop :=
  state.pc e ≠ .returned ∧
    (state.pool.Pending e ch ∨
      (e, ch) ∈ state.pool.popped ∧ ch ∉ state.pool.closed)

/-! ## The clients as seen from the pool -/

def poolCommand : Label → Option RabbitMQ.Label
  | .pool label => some label
  | .callPop e => some (.pop e)
  | .callPush e ch => some (.push e ch)
  | _ => none

variable {program : Goroutine → Program} {state next : State}
  {labels : List Label} {label : Label}

@[simp] theorem State.goto_pool (e : Goroutine) (pc : Pc) :
    (state.goto e pc).pool = state.pool := rfl

@[simp] theorem State.goto_self (e : Goroutine) (pc : Pc) :
    (state.goto e pc).pc e = pc :=
  Function.update_self _ _ _

theorem State.goto_of_ne {e e' : Goroutine} (hne : e' ≠ e) (pc : Pc) :
    (state.goto e pc).pc e' = state.pc e' :=
  Function.update_of_ne hne _ _

theorem call_eq_some {command : RabbitMQ.Label} {e : Goroutine} {pc : Pc}
    (h : state.call command e pc = some next) :
    ∃ pool, RabbitMQ.step state.pool command = some pool ∧
      next = { state with pool := pool }.goto e pc := by
  obtain ⟨pool, hpool, rfl⟩ := Option.map_eq_some_iff.mp h
  exact ⟨pool, hpool, rfl⟩

/-- The channel that the execution is working with before it pushes it. -/
def Pc.working : Pc → Option Channel
  | .exchangeDeclare ch | .marshal ch | .publish ch _ | .queueDeclare ch
  | .queueBind ch | .consume ch | .consuming ch => some ch
  | _ => none

inductive CallsPush : Pc → Handle → Pc → Prop
  | explicit (ch : Channel) :
      CallsPush (.publish ch []) (some ch) (.pushing ch)
  | deferred (ch : Handle) : CallsPush (.deferred ch) ch (.deferring ch)

inductive Moves (call : Call) : Pc → Pc → Prop
  | popped (ch : Channel) : call = .popReturned (some (some ch)) →
      Moves call .popping (.exchangeDeclare ch)
  | popFailed (result : Option Handle) : call = .popReturned result →
      result.bind id = none → Moves call .popping (.deferred none)
  | work {pc pc' : Pc} (ch : Channel) : pc.working = some ch →
      pc'.working = some ch ∨ pc' = .deferred (some ch) → Moves call pc pc'
  | pushed (ch : Channel) : call = .pushReturned →
      Moves call (.pushing ch) (.deferred (some ch))
  | returned (ch : Handle) : call = .pushReturned →
      Moves call (.deferring ch) .returned

/-- What a step does: a step inside the pool, a call of `Pop` or `Push`, or
a move of one execution. -/
inductive ClientStep (state : State) : Label → State → Prop
  | pool (label : RabbitMQ.Label) (pool : Pool) : Internal label →
      RabbitMQ.step state.pool label = some pool →
      ClientStep state (.pool label) { state with pool := pool }
  | callPop (e : Goroutine) (pool : Pool) : state.pc e = .start →
      RabbitMQ.step state.pool (.pop e) = some pool →
      ClientStep state (.callPop e)
        ({ state with pool := pool }.goto e .popping)
  | callPush (e : Goroutine) (ch : Handle) (pc : Pc) (pool : Pool) :
      CallsPush (state.pc e) ch pc →
      RabbitMQ.step state.pool (.push e ch) = some pool →
      ClientStep state (.callPush e ch)
        ({ state with pool := pool }.goto e pc)
  | move (label : Label) (e : Goroutine) (pc : Pc) :
      poolCommand label = none → Moves (state.pool.call e) (state.pc e) pc →
      ClientStep state label (state.goto e pc)

theorem clientStep_advance {e : Goroutine} {ch : Channel} {ok : Bool}
    {pc : Pc} (hcommand : poolCommand label = none)
    (hbefore : (state.pc e).working = some ch)
    (hafter : pc.working = some ch) :
    ClientStep state label (state.advance e ch ok pc) := by
  refine .move label e _ hcommand (.work ch hbefore ?_)
  cases ok with
  | true => exact .inl hafter
  | false => exact .inr rfl

theorem step_cases (hstep : step program state label = some next) :
    ClientStep state label next := by
  cases label with
  | pool label =>
      simp only [step] at hstep
      split at hstep
      next hinternal =>
        obtain ⟨pool, hpool, rfl⟩ := Option.map_eq_some_iff.mp hstep
        exact .pool label pool hinternal hpool
      next => cases hstep
  | callPop e =>
      simp only [step] at hstep
      split at hstep
      next hpc =>
        obtain ⟨pool, hpool, rfl⟩ := call_eq_some hstep
        exact .callPop e pool hpc hpool
      next => cases hstep
  | popReturned e =>
      simp only [step] at hstep
      split at hstep
      next ch hpc hcall =>
        obtain rfl := Option.some.inj hstep
        exact .move _ e _ rfl (hpc ▸ .popped ch hcall)
      next result hne hpc hcall =>
        obtain rfl := Option.some.inj hstep
        refine .move _ e _ rfl (hpc ▸ .popFailed result hcall ?_)
        rcases result with _ | _ | ch
        · rfl
        · rfl
        · exact (hne ch rfl).elim
      next => cases hstep
  | exchangeDeclare e ok =>
      simp only [step] at hstep
      split at hstep
      next ch regions hpc hprogram =>
        obtain rfl := Option.some.inj hstep
        exact clientStep_advance rfl (by rw [hpc]; rfl) rfl
      next ch hpc hprogram =>
        obtain rfl := Option.some.inj hstep
        exact clientStep_advance rfl (by rw [hpc]; rfl) rfl
      next => cases hstep
  | marshal e ok =>
      simp only [step] at hstep
      split at hstep
      next ch regions hpc hprogram =>
        obtain rfl := Option.some.inj hstep
        exact clientStep_advance rfl (by rw [hpc]; rfl) rfl
      next => cases hstep
  | publish e ok =>
      simp only [step] at hstep
      split at hstep
      next ch region regions hpc =>
        obtain rfl := Option.some.inj hstep
        exact .move _ e _ rfl (.work ch (by rw [hpc]; rfl) (.inl rfl))
      next => cases hstep
  | queueDeclare e ok =>
      simp only [step] at hstep
      split at hstep
      next ch hpc =>
        obtain rfl := Option.some.inj hstep
        exact clientStep_advance rfl (by rw [hpc]; rfl) rfl
      next => cases hstep
  | queueBind e ok =>
      simp only [step] at hstep
      split at hstep
      next ch hpc =>
        obtain rfl := Option.some.inj hstep
        exact clientStep_advance rfl (by rw [hpc]; rfl) rfl
      next => cases hstep
  | consume e ok =>
      simp only [step] at hstep
      split at hstep
      next ch hpc =>
        obtain rfl := Option.some.inj hstep
        exact clientStep_advance rfl (by rw [hpc]; rfl) rfl
      next => cases hstep
  | callPush e handle =>
      simp only [step] at hstep
      split at hstep
      next ch hpc =>
        split at hstep
        next hhandle =>
          subst hhandle
          obtain ⟨pool, hpool, rfl⟩ := call_eq_some hstep
          exact .callPush e _ _ pool (hpc ▸ .explicit ch) hpool
        next => cases hstep
      next ch hpc =>
        split at hstep
        next hhandle =>
          subst hhandle
          obtain ⟨pool, hpool, rfl⟩ := call_eq_some hstep
          exact .callPush e _ _ pool (hpc ▸ .deferred handle) hpool
        next => cases hstep
      next => cases hstep
  | pushReturned e =>
      simp only [step] at hstep
      split at hstep
      next ch hpc hcall =>
        obtain rfl := Option.some.inj hstep
        exact .move _ e _ rfl (hpc ▸ .pushed ch hcall)
      next ch hpc hcall =>
        obtain rfl := Option.some.inj hstep
        exact .move _ e _ rfl (hpc ▸ .returned ch hcall)
      next => cases hstep

/-- The clients use the pool through `Pop` and `Push` only. -/
theorem run_pool {maxSize : Int}
    (hrun : run (step program) (State.initial maxSize) labels = some state) :
    run RabbitMQ.step (NewRabbitMQClientPool maxSize)
      (labels.filterMap poolCommand) = some state.pool := by
  refine run_project State.pool ?_ hrun
  intro state label next hstep
  cases step_cases hstep with
  | pool label pool _ hpool => exact hpool
  | callPop e pool _ hpool => exact hpool
  | callPush e ch pc pool _ hpool => exact hpool
  | move label e pc hcommand _ =>
      rw [hcommand]
      rfl

end SocialNetwork.RabbitMQ.Clients
