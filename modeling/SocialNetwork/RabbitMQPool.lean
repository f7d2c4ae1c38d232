import SocialNetwork.Machine

/-!
# The RabbitMQ channel pool

`Pop` and `Push` of `storage/rabbitmq.go`, cut at their select statements and
at the mutex.  `clients` is unbuffered and `Push` never blocks on it, so a
channel changes hands only when a receiver is already waiting in the second
select of `Pop`; for the same reason the receive in its first select never
finds a sender.
-/

namespace SocialNetwork.RabbitMQ

open Machine

abbrev Goroutine := ℕ

/-- AMQP channels, numbered in the order in which they are opened. -/
abbrev Channel := ℕ

/-- A `*amqp.Channel`, which is nil when `Pop` has failed. -/
abbrev Handle := Option Channel

/-- Where a goroutine is in `Pop` or `Push`.  The result of `Pop` is `none`
when it returns an error. -/
inductive Call where
  | idle
  | popSelect
  | popLock
  | popSize
  | popUnlock (result : Option Handle)
  | popFull
  | popBlock
  | popWait
  | popHanded (client : Handle)
  | popLower (client : Handle)
  | popReturned (result : Option Handle)
  | pushSelect (ch : Handle)
  | pushLock
  | pushRaise
  | pushClose (ch : Handle)
  | pushReturned
  deriving DecidableEq, Repr

def Call.Free : Call → Prop
  | .idle | .popReturned _ | .pushReturned => True
  | _ => False

instance : DecidablePred Call.Free := fun call => by
  cases call <;> unfold Call.Free <;> infer_instance

inductive Label where
  | pop (g : Goroutine)
  | select (g : Goroutine)
  | cancel (g : Goroutine)
  | lock (g : Goroutine)
  | newClient (g : Goroutine) (ok : Bool)
  | full (g : Goroutine)
  | unlock (g : Goroutine)
  | wait (g : Goroutine)
  | lower (g : Goroutine)
  | push (g : Goroutine) (ch : Handle)
  | offer (g : Goroutine)
  | raise (g : Goroutine)
  | close (g : Goroutine) (ch : Handle)
  deriving DecidableEq, Repr

/-- The pool with the state of its callers.  `waiting` are the receivers
blocked on `clients`; `popped` are the channels that `Pop` has returned. -/
structure Pool where
  maxSize : Int
  currSize : Int
  mu : Option Goroutine
  waiting : List Goroutine
  opened : ℕ
  closed : Finset Channel
  call : Goroutine → Call
  popped : List (Goroutine × Channel)

def NewRabbitMQClientPool (maxSize : Int) : Pool where
  maxSize := maxSize
  currSize := 0
  mu := none
  waiting := []
  opened := 0
  closed := ∅
  call := fun _ => .idle
  popped := []

def Pool.setCall (pool : Pool) (g : Goroutine) (call : Call) : Pool :=
  { pool with call := Function.update pool.call g call }

def Pool.returnPop (pool : Pool) (g : Goroutine) (result : Option Handle) :
    Pool :=
  match result with
  | some (some ch) =>
      { pool.setCall g (.popReturned result) with
        popped := pool.popped ++ [(g, ch)] }
  | _ => pool.setCall g (.popReturned result)

/-- The caller was given this channel by `Pop`, or the handle is nil. -/
def Pool.MayPush (pool : Pool) (g : Goroutine) (ch : Handle) : Prop :=
  ∀ c ∈ ch, (g, c) ∈ pool.popped

instance (pool : Pool) (g : Goroutine) (ch : Handle) :
    Decidable (pool.MayPush g ch) := by
  unfold Pool.MayPush
  infer_instance

def step (pool : Pool) : Label → Option Pool
  | .pop g =>
      if (pool.call g).Free then some (pool.setCall g .popSelect) else none
  | .select g =>
      match pool.call g with
      | .popSelect => some (pool.setCall g .popLock)
      | _ => none
  | .cancel g =>
      match pool.call g with
      | .popSelect => some (pool.returnPop g none)
      | .popWait =>
          some ({ pool with waiting := pool.waiting.erase g }.returnPop g
            none)
      | _ => none
  | .lock g =>
      if pool.mu = none then
        let locked := { pool with mu := some g }
        match pool.call g with
        | .popLock => some (locked.setCall g .popSize)
        | .popHanded client => some (locked.setCall g (.popLower client))
        | .pushLock => some (locked.setCall g .pushRaise)
        | _ => none
      else none
  | .newClient g ok =>
      match pool.call g with
      | .popSize =>
          if pool.currSize < pool.maxSize then
            if ok then
              some ({ pool with opened := pool.opened + 1 }.setCall g
                (.popUnlock (some (some pool.opened))))
            else some (pool.setCall g (.popUnlock none))
          else none
      | _ => none
  | .full g =>
      match pool.call g with
      | .popSize =>
          if pool.currSize < pool.maxSize then none
          else some (pool.setCall g .popFull)
      | _ => none
  | .unlock g =>
      match pool.call g with
      | .popUnlock result =>
          some ({ pool with mu := none }.returnPop g result)
      | .popFull => some ({ pool with mu := none }.setCall g .popBlock)
      | _ => none
  | .wait g =>
      match pool.call g with
      | .popBlock =>
          some ({ pool with waiting := pool.waiting ++ [g] }.setCall g
            .popWait)
      | _ => none
  | .lower g =>
      match pool.call g with
      | .popLower client =>
          some ({ pool with
            currSize := pool.currSize - 1, mu := none }.returnPop g
              (some client))
      | _ => none
  | .push g ch =>
      if (pool.call g).Free ∧ pool.MayPush g ch then
        some (pool.setCall g (.pushSelect ch))
      else none
  | .offer g =>
      match pool.call g with
      | .pushSelect ch =>
          match pool.waiting with
          | receiver :: waiting =>
              some (({ pool with waiting := waiting }.setCall receiver
                (.popHanded ch)).setCall g .pushLock)
          | [] => some (pool.setCall g (.pushClose ch))
      | _ => none
  | .raise g =>
      match pool.call g with
      | .pushRaise =>
          some ({ pool with
            currSize := pool.currSize + 1, mu := none }.setCall g
              .pushReturned)
      | _ => none
  | .close g ch =>
      if pool.call g = .pushClose ch then
        some ({ pool with
          closed := pool.closed ∪ ch.toFinset }.setCall g .pushReturned)
      else none

def Pool.openChannels (pool : Pool) : Finset Channel :=
  Finset.range pool.opened \ pool.closed

/-! ## The pool is never full and never used -/

/-- Not on a path that needs a full pool or a waiting receiver. -/
def Call.Plain : Call → Prop
  | .popFull | .popBlock | .popWait | .popHanded _ | .popLower _
  | .pushLock | .pushRaise => False
  | _ => True

structure Pool.Unused (pool : Pool) : Prop where
  positive : 0 < pool.maxSize
  currSize : pool.currSize = 0
  waiting : pool.waiting = []
  call : ∀ g, (pool.call g).Plain

variable {pool next : Pool}

@[simp] theorem Pool.setCall_self (g : Goroutine) (call : Call) :
    (pool.setCall g call).call g = call :=
  Function.update_self _ _ _

theorem Pool.setCall_of_ne {g g' : Goroutine} (hne : g' ≠ g) (call : Call) :
    (pool.setCall g call).call g' = pool.call g' :=
  Function.update_of_ne hne _ _

theorem Pool.Unused.setCall (hgood : pool.Unused) (g : Goroutine)
    {call : Call} (hcall : call.Plain) : (pool.setCall g call).Unused where
  positive := hgood.positive
  currSize := hgood.currSize
  waiting := hgood.waiting
  call g' := by
    by_cases hg : g' = g
    · subst hg
      rwa [Pool.setCall_self]
    · rw [Pool.setCall_of_ne hg]
      exact hgood.call g'

theorem initial_unused {maxSize : Int} (hpos : 0 < maxSize) :
    (NewRabbitMQClientPool maxSize).Unused :=
  ⟨hpos, rfl, rfl, fun _ => trivial⟩

inductive UnusedStep (pool : Pool) : Label → Pool → Prop
  | pop (g : Goroutine) : (pool.call g).Free →
      UnusedStep pool (.pop g) (pool.setCall g .popSelect)
  | select (g : Goroutine) : pool.call g = .popSelect →
      UnusedStep pool (.select g) (pool.setCall g .popLock)
  | cancel (g : Goroutine) : pool.call g = .popSelect →
      UnusedStep pool (.cancel g) (pool.setCall g (.popReturned none))
  | lock (g : Goroutine) : pool.mu = none → pool.call g = .popLock →
      UnusedStep pool (.lock g)
        ({ pool with mu := some g }.setCall g .popSize)
  | newClient (g : Goroutine) : pool.call g = .popSize →
      UnusedStep pool (.newClient g true)
        ({ pool with opened := pool.opened + 1 }.setCall g
          (.popUnlock (some (some pool.opened))))
  | newClientFailed (g : Goroutine) : pool.call g = .popSize →
      UnusedStep pool (.newClient g false)
        (pool.setCall g (.popUnlock none))
  | unlock (g : Goroutine) (result : Option Handle) :
      pool.call g = .popUnlock result →
      UnusedStep pool (.unlock g)
        ({ pool with mu := none }.returnPop g result)
  | push (g : Goroutine) (ch : Handle) :
      (pool.call g).Free → pool.MayPush g ch →
      UnusedStep pool (.push g ch) (pool.setCall g (.pushSelect ch))
  | offer (g : Goroutine) (ch : Handle) : pool.call g = .pushSelect ch →
      UnusedStep pool (.offer g) (pool.setCall g (.pushClose ch))
  | close (g : Goroutine) (ch : Handle) : pool.call g = .pushClose ch →
      UnusedStep pool (.close g ch)
        ({ pool with closed := pool.closed ∪ ch.toFinset }.setCall g
          .pushReturned)

theorem Pool.Unused.absurd_call (hgood : pool.Unused) {g : Goroutine}
    {call : Call} (hcall : pool.call g = call) (hplain : ¬ call.Plain)
    {P : Prop} : P :=
  absurd (hcall ▸ hgood.call g) hplain

theorem Pool.Unused.step_cases {label : Label} (hgood : pool.Unused)
    (hstep : step pool label = some next) : UnusedStep pool label next := by
  have hroom : pool.currSize < pool.maxSize := by
    rw [hgood.currSize]
    exact hgood.positive
  cases label with
  | pop g =>
      simp only [step] at hstep
      split at hstep
      next hfree =>
        obtain rfl := Option.some.inj hstep
        exact .pop g hfree
      next => cases hstep
  | select g =>
      simp only [step] at hstep
      split at hstep
      next hcall =>
        obtain rfl := Option.some.inj hstep
        exact .select g hcall
      next => cases hstep
  | cancel g =>
      simp only [step] at hstep
      split at hstep
      next hcall =>
        obtain rfl := Option.some.inj hstep
        exact .cancel g hcall
      next hcall => exact hgood.absurd_call hcall id
      next => cases hstep
  | lock g =>
      simp only [step] at hstep
      split at hstep
      next hmu =>
        split at hstep
        next hcall =>
          obtain rfl := Option.some.inj hstep
          exact .lock g hmu hcall
        next client hcall => exact hgood.absurd_call hcall id
        next hcall => exact hgood.absurd_call hcall id
        next => cases hstep
      next => cases hstep
  | newClient g ok =>
      simp only [step] at hstep
      split at hstep
      next hcall =>
        rw [if_pos hroom] at hstep
        cases ok with
        | true =>
            obtain rfl := Option.some.inj hstep
            exact .newClient g hcall
        | false =>
            obtain rfl := Option.some.inj hstep
            exact .newClientFailed g hcall
      next => cases hstep
  | full g =>
      simp only [step] at hstep
      split at hstep
      next =>
        rw [if_pos hroom] at hstep
        cases hstep
      next => cases hstep
  | unlock g =>
      simp only [step] at hstep
      split at hstep
      next result hcall =>
        obtain rfl := Option.some.inj hstep
        exact .unlock g result hcall
      next hcall => exact hgood.absurd_call hcall id
      next => cases hstep
  | wait g =>
      simp only [step] at hstep
      split at hstep
      next hcall => exact hgood.absurd_call hcall id
      next => cases hstep
  | lower g =>
      simp only [step] at hstep
      split at hstep
      next client hcall => exact hgood.absurd_call hcall id
      next => cases hstep
  | push g ch =>
      simp only [step] at hstep
      split at hstep
      next hmay =>
        obtain rfl := Option.some.inj hstep
        exact .push g ch hmay.1 hmay.2
      next => cases hstep
  | offer g =>
      simp only [step, hgood.waiting] at hstep
      split at hstep
      next ch hcall =>
        obtain rfl := Option.some.inj hstep
        exact .offer g ch hcall
      next => cases hstep
  | raise g =>
      simp only [step] at hstep
      split at hstep
      next hcall => exact hgood.absurd_call hcall id
      next => cases hstep
  | close g ch =>
      simp only [step] at hstep
      split at hstep
      next hcall =>
        obtain rfl := Option.some.inj hstep
        exact .close g ch hcall
      next => cases hstep

/-- `Pop` returning is a change of the caller's phase, but for the record of
the channels it handed out. -/
theorem Pool.returnPop_eq (pool : Pool) (g : Goroutine)
    (result : Option Handle) :
    pool.returnPop g result =
      { pool.setCall g (.popReturned result) with
        popped := pool.popped ++
          (result.bind id).toList.map fun ch => (g, ch) } := by
  rcases result with _ | _ | ch <;> simp [Pool.returnPop, Pool.setCall]

theorem Pool.Unused.step {label : Label} (hgood : pool.Unused)
    (hstep : RabbitMQ.step pool label = some next) : next.Unused := by
  have hlocked : ∀ mu opened closed,
      ({ pool with mu := mu, opened := opened, closed := closed } :
        Pool).Unused := fun _ _ _ =>
    ⟨hgood.positive, hgood.currSize, hgood.waiting, hgood.call⟩
  cases hgood.step_cases hstep with
  | pop g _ => exact hgood.setCall g trivial
  | select g _ => exact hgood.setCall g trivial
  | cancel g _ => exact hgood.setCall g trivial
  | lock g _ _ => exact (hlocked _ _ _).setCall g trivial
  | newClient g _ => exact (hlocked _ _ _).setCall g trivial
  | newClientFailed g _ => exact hgood.setCall g trivial
  | unlock g result _ =>
      rw [Pool.returnPop_eq]
      have hplain : (Call.popReturned result).Plain := trivial
      have hcall := (hlocked none pool.opened pool.closed).setCall g hplain
      exact ⟨hcall.positive, hcall.currSize, hcall.waiting, hcall.call⟩
  | push g ch _ _ => exact hgood.setCall g trivial
  | offer g ch _ => exact hgood.setCall g trivial
  | close g ch _ => exact (hlocked _ _ _).setCall g trivial

/-- Whatever the callers do, `currSize` stays zero and nobody waits: `Pop`
does not count the channels it opens, so the pool never fills up, and without
a waiting receiver `Push` counts nothing either. -/
theorem run_unused {maxSize : Int} (hpos : 0 < maxSize)
    {labels : List Label}
    (hrun : run RabbitMQ.step (NewRabbitMQClientPool maxSize) labels =
      some pool) : pool.Unused :=
  run_invariant (initial_unused hpos)
    (fun _ _ _ hgood hstep => hgood.step hstep) hrun

end SocialNetwork.RabbitMQ
