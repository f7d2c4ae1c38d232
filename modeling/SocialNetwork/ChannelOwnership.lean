import SocialNetwork.ChannelClients

/-!
# Exclusive channel ownership

The second `Push` of a channel only closes it again, because the pool never
keeps a channel: `Consistent` ties the point an execution has reached to the
phase of its call and to the one channel it has popped.
-/

namespace SocialNetwork.RabbitMQ.Clients

open Machine

variable {program : Goroutine → Program} {state next : State}
  {labels : List Label} {label : Label} {pool pool' : Pool}
  {e : Goroutine} {pc : Pc}

def InPop : Call → Prop
  | .popSelect | .popLock | .popSize | .popUnlock _ => True
  | _ => False

/-- Inside `Push` of this handle, or returned from it with the channel
closed. -/
def InPush (pool : Pool) (e : Goroutine) (ch : Handle) : Prop :=
  pool.call e = .pushSelect ch ∨ pool.call e = .pushClose ch ∨
    pool.call e = .pushReturned ∧ ∀ c ∈ ch, c ∈ pool.closed

/-- The channels that `Pop` has returned to the execution. -/
def Owns (pool : Pool) (e : Goroutine) (ch : Handle) : Prop :=
  ∀ c, (e, c) ∈ pool.popped ↔ ch = some c

inductive Consistent (pool : Pool) (e : Goroutine) : Pc → Prop
  | start : pool.call e = .idle → Owns pool e none →
      Consistent pool e .start
  | inPop : InPop (pool.call e) → Owns pool e none →
      Consistent pool e .popping
  | popReturned (result : Option Handle) :
      pool.call e = .popReturned result → Owns pool e (result.bind id) →
      (∀ ch, result = some (some ch) → ch ∉ pool.closed) →
      Consistent pool e .popping
  | working {pc : Pc} (ch : Channel) : pc.working = some ch →
      (pool.call e).Free → Owns pool e (some ch) → ch ∉ pool.closed →
      Consistent pool e pc
  | pushing (ch : Channel) : Owns pool e (some ch) →
      InPush pool e (some ch) → Consistent pool e (.pushing ch)
  | deferred (ch : Handle) : (pool.call e).Free → Owns pool e ch →
      Consistent pool e (.deferred ch)
  | deferring (ch : Handle) : Owns pool e ch → InPush pool e ch →
      Consistent pool e (.deferring ch)
  | returned : (pool.call e).Free →
      (∀ ch, (e, ch) ∈ pool.popped → ch ∈ pool.closed) →
      Consistent pool e .returned

/-! ## Steps of other executions -/

def goroutine : RabbitMQ.Label → Goroutine
  | .pop g | .select g | .cancel g | .lock g | .newClient g _ | .full g
  | .unlock g | .wait g | .lower g | .push g _ | .offer g | .raise g
  | .close g _ => g

structure Unchanged (pool pool' : Pool) (e : Goroutine) : Prop where
  call : pool'.call e = pool.call e
  popped : ∀ ch, (e, ch) ∈ pool'.popped ↔ (e, ch) ∈ pool.popped
  closed : ∀ ch, (e, ch) ∈ pool.popped →
    (ch ∈ pool'.closed ↔ ch ∈ pool.closed)

theorem Unchanged.owns (h : Unchanged pool pool' e) {ch : Handle} :
    Owns pool' e ch ↔ Owns pool e ch := by
  simp only [Owns, h.popped]

theorem Unchanged.inPush (h : Unchanged pool pool' e) {ch : Handle}
    (howns : Owns pool e ch) (hpush : InPush pool e ch) :
    InPush pool' e ch := by
  unfold InPush at *
  rw [h.call]
  rcases hpush with hcall | hcall | ⟨hcall, hclosed⟩
  · exact .inl hcall
  · exact .inr (.inl hcall)
  · refine .inr (.inr ⟨hcall, fun c hc => ?_⟩)
    exact (h.closed c ((howns c).mpr hc)).mpr (hclosed c hc)

theorem Consistent.unchanged (hgood : Consistent pool e pc)
    (h : Unchanged pool pool' e) : Consistent pool' e pc := by
  cases hgood with
  | start hcall howns => exact .start (h.call ▸ hcall) (h.owns.mpr howns)
  | inPop hcall howns => exact .inPop (h.call ▸ hcall) (h.owns.mpr howns)
  | popReturned result hcall howns hopen =>
      refine .popReturned result (h.call ▸ hcall) (h.owns.mpr howns) ?_
      rintro ch rfl
      rw [h.closed ch ((howns ch).mpr rfl)]
      exact hopen ch rfl
  | working ch hpc hcall howns hopen =>
      refine .working ch hpc (h.call ▸ hcall) (h.owns.mpr howns) ?_
      rwa [h.closed ch ((howns ch).mpr rfl)]
  | pushing ch howns hpush =>
      exact .pushing ch (h.owns.mpr howns) (h.inPush howns hpush)
  | deferred ch hcall howns =>
      exact .deferred ch (h.call ▸ hcall) (h.owns.mpr howns)
  | deferring ch howns hpush =>
      exact .deferring ch (h.owns.mpr howns) (h.inPush howns hpush)
  | returned hcall hclosed =>
      refine .returned (h.call ▸ hcall) fun ch hmem => ?_
      have hmem' := (h.popped ch).mp hmem
      exact (h.closed ch hmem').mpr (hclosed ch hmem')

/-- A pool step changes nothing for the executions that do not take it: the
only channel it may close was popped by the one that does. -/
theorem unchanged_of_ne {label : RabbitMQ.Label}
    (hunused : pool.Unused) (hownership : pool.Ownership)
    (hstep : RabbitMQ.step pool label = some pool')
    (hne : e ≠ goroutine label) : Unchanged pool pool' e := by
  have hsetCall : ∀ (pool : Pool) call,
      Unchanged pool (pool.setCall (goroutine label) call) e :=
    fun pool call => ⟨Pool.setCall_of_ne hne call, by simp [Pool.setCall],
      by simp [Pool.setCall]⟩
  cases hunused.step_cases hstep with
  | unlock g result hcall =>
      rw [Pool.returnPop_eq]
      refine ⟨(hsetCall pool (.popReturned result)).call, ?_, ?_⟩
      · intro ch
        have hg : g ≠ e := Ne.symm hne
        simp [hg]
      · intro ch hmem
        rfl
  | close g ch hcall =>
      refine ⟨(hsetCall pool .pushReturned).call, fun c => Iff.rfl, ?_⟩
      intro c hmem
      change c ∈ pool.closed ∪ ch.toFinset ↔ c ∈ pool.closed
      rw [Finset.mem_union, Option.mem_toFinset, Option.mem_def]
      refine or_iff_left ?_
      rintro rfl
      have hmine := hownership.pushing g c (.inr hcall)
      have hsame := List.inj_on_of_nodup_map hownership.nodup hmem hmine rfl
      exact hne (Prod.mk.inj hsame).1
  | lock g _ _ =>
      have h := hsetCall pool .popSize
      exact ⟨h.call, h.popped, h.closed⟩
  | newClient g _ =>
      have h := hsetCall pool (.popUnlock (some (some pool.opened)))
      exact ⟨h.call, h.popped, h.closed⟩
  | _ => exact hsetCall pool _

/-! ## An execution's own steps -/

theorem Consistent.of_inPop (hgood : Consistent pool e pc)
    (hcall : InPop (pool.call e)) : pc = .popping ∧ Owns pool e none := by
  have hnotFree : ¬ (pool.call e).Free := by
    intro hfree
    cases h : pool.call e <;> simp_all [InPop, Call.Free]
  have hnotPush : ∀ ch, ¬ InPush pool e ch := by
    rintro ch (h | h | ⟨h, -⟩) <;> rw [h] at hcall <;> exact hcall
  cases hgood with
  | start h _ =>
      rw [h] at hcall
      exact absurd hcall id
  | inPop _ howns => exact ⟨rfl, howns⟩
  | popReturned result h _ _ =>
      rw [h] at hcall
      exact absurd hcall id
  | working _ _ hfree _ _ => exact absurd hfree hnotFree
  | pushing ch _ hpush => exact absurd hpush (hnotPush _)
  | deferred _ hfree _ => exact absurd hfree hnotFree
  | deferring ch _ hpush => exact absurd hpush (hnotPush _)
  | returned hfree _ => exact absurd hfree hnotFree

theorem InPush.handle_eq {ch ch' : Handle} (hpush : InPush pool e ch)
    (hcall : pool.call e = .pushSelect ch' ∨ pool.call e = .pushClose ch') :
    ch = ch' := by
  rcases hpush with h | h | ⟨h, -⟩ <;> rcases hcall with h' | h' <;>
    rw [h] at h' <;> cases h' <;> rfl

/-- Only an execution that has called `Push` is inside it; whatever becomes
of its call, the execution stays where it is. -/
theorem Consistent.of_inPush (hgood : Consistent pool e pc) {ch : Handle}
    (hcall : pool.call e = .pushSelect ch ∨ pool.call e = .pushClose ch) :
    Owns pool e ch ∧
      ∀ pool', Owns pool' e ch → InPush pool' e ch →
        Consistent pool' e pc := by
  have hnotFree : ¬ (pool.call e).Free := by
    rcases hcall with h | h <;> rw [h] <;> exact id
  have hnotPop : ¬ InPop (pool.call e) := by
    rcases hcall with h | h <;> rw [h] <;> exact id
  cases hgood with
  | start h _ =>
      rw [h] at hnotFree
      exact absurd trivial hnotFree
  | inPop h _ => exact absurd h hnotPop
  | popReturned result h _ _ =>
      rw [h] at hnotFree
      exact absurd trivial hnotFree
  | working _ _ hfree _ _ => exact absurd hfree hnotFree
  | pushing c howns hpush =>
      obtain rfl := hpush.handle_eq hcall
      exact ⟨howns, fun pool' howns' hpush' => .pushing c howns' hpush'⟩
  | deferred _ hfree _ => exact absurd hfree hnotFree
  | deferring c howns hpush =>
      obtain rfl := hpush.handle_eq hcall
      exact ⟨howns, fun pool' howns' hpush' => .deferring c howns' hpush'⟩
  | returned hfree _ => exact absurd hfree hnotFree

theorem Consistent.internal {label : RabbitMQ.Label}
    (hunused : pool.Unused) (hownership : pool.Ownership)
    (hinternal : Internal label)
    (hstep : RabbitMQ.step pool label = some pool')
    (hgood : Consistent pool (goroutine label) pc) :
    Consistent pool' (goroutine label) pc := by
  have hpop : ∀ {pool : Pool} {g call}, InPop call → Owns pool g none →
      Consistent (pool.setCall g call) g .popping := by
    intro pool g call hcall howns
    refine .inPop ?_ howns
    rwa [Pool.setCall_self]
  cases hunused.step_cases hstep with
  | pop g _ => exact absurd hinternal id
  | push g ch _ _ => exact absurd hinternal id
  | select g hcall =>
      obtain ⟨rfl, howns⟩ := hgood.of_inPop (hcall ▸ trivial)
      exact hpop trivial howns
  | cancel g hcall =>
      obtain ⟨rfl, howns⟩ := hgood.of_inPop (hcall ▸ trivial)
      exact .popReturned none (Pool.setCall_self _ _) howns (by simp)
  | lock g _ hcall =>
      obtain ⟨rfl, howns⟩ := hgood.of_inPop (hcall ▸ trivial)
      exact hpop trivial howns
  | newClient g hcall =>
      obtain ⟨rfl, howns⟩ := hgood.of_inPop (hcall ▸ trivial)
      exact hpop trivial howns
  | newClientFailed g hcall =>
      obtain ⟨rfl, howns⟩ := hgood.of_inPop (hcall ▸ trivial)
      exact hpop trivial howns
  | unlock g result hcall =>
      obtain ⟨rfl, howns⟩ := hgood.of_inPop (hcall ▸ trivial)
      rw [Pool.returnPop_eq]
      refine .popReturned result (Pool.setCall_self _ _) ?_ ?_
      · intro c
        have hold : (g, c) ∉ pool.popped := fun hmem =>
          absurd ((howns c).mp hmem) (by simp)
        rcases result with _ | _ | ch <;>
          simp [goroutine, hold, eq_comm]
      · rintro ch rfl hclosed
        exact (hownership.pending g ch hcall).2 (hownership.closed ch hclosed)
  | offer g ch hcall =>
      obtain ⟨howns, hnext⟩ := hgood.of_inPush (.inl hcall)
      exact hnext _ howns (.inr (.inl (Pool.setCall_self _ _)))
  | close g ch hcall =>
      obtain ⟨howns, hnext⟩ := hgood.of_inPush (.inr hcall)
      refine hnext _ howns (.inr (.inr ⟨Pool.setCall_self _ _, ?_⟩))
      intro c hc
      exact Finset.mem_union_right _ (Option.mem_toFinset.mpr hc)

theorem Consistent.of_working (hgood : Consistent pool e pc) {ch : Channel}
    (hpc : pc.working = some ch) :
    (pool.call e).Free ∧ Owns pool e (some ch) ∧ ch ∉ pool.closed := by
  cases hgood with
  | working c hc hfree howns hopen =>
      obtain rfl := Option.some.inj (hc.symm.trans hpc)
      exact ⟨hfree, howns, hopen⟩
  | _ => cases hpc

theorem Consistent.callPush (hgood : Consistent pool e pc) {ch : Handle}
    {pc' : Pc} (hpush : CallsPush pc ch pc') :
    Consistent (pool.setCall e (.pushSelect ch)) e pc' := by
  have hinPush : InPush (pool.setCall e (.pushSelect ch)) e ch :=
    .inl (Pool.setCall_self _ _)
  cases hpush with
  | explicit c =>
      have hworking : (Pc.publish c []).working = some c := rfl
      exact .pushing c (hgood.of_working hworking).2.1 hinPush
  | deferred =>
      cases hgood with
      | working _ hpc _ _ _ => cases hpc
      | deferred _ _ howns => exact .deferring ch howns hinPush

theorem Consistent.move (hgood : Consistent pool e pc) {pc' : Pc}
    (hmove : Moves (pool.call e) pc pc') : Consistent pool e pc' := by
  cases hmove with
  | popped ch hcall =>
      cases hgood with
      | inPop h _ =>
          rw [hcall] at h
          exact absurd h id
      | popReturned result h howns hopen =>
          obtain rfl := Call.popReturned.inj (h.symm.trans hcall)
          exact .working ch rfl (hcall ▸ trivial) howns (hopen ch rfl)
      | working _ hpc _ _ _ => cases hpc
  | popFailed result hcall hnone =>
      cases hgood with
      | inPop h _ =>
          rw [hcall] at h
          exact absurd h id
      | popReturned result' h howns _ =>
          obtain rfl := Call.popReturned.inj (h.symm.trans hcall)
          exact .deferred none (hcall ▸ trivial) (hnone ▸ howns)
      | working _ hpc _ _ _ => cases hpc
  | work ch hpc hnext =>
      obtain ⟨hfree, howns, hopen⟩ := hgood.of_working hpc
      rcases hnext with hnext | rfl
      · exact .working ch hnext hfree howns hopen
      · exact .deferred (some ch) hfree howns
  | pushed ch hcall =>
      cases hgood with
      | working _ hpc _ _ _ => cases hpc
      | pushing _ howns _ => exact .deferred (some ch) (hcall ▸ trivial) howns
  | returned ch hcall =>
      cases hgood with
      | working _ hpc _ _ _ => cases hpc
      | deferring _ howns hpush =>
          refine .returned (hcall ▸ trivial) fun c hmem => ?_
          rcases hpush with h | h | ⟨-, hclosed⟩
          · cases h.symm.trans hcall
          · cases h.symm.trans hcall
          · exact hclosed c ((howns c).mp hmem)

/-! ## All executions together -/

structure State.Invariant (state : State) : Prop where
  unused : state.pool.Unused
  ownership : state.pool.Ownership
  consistent : ∀ e, Consistent state.pool e (state.pc e)

theorem State.initial_invariant {maxSize : Int} (hpos : 1 ≤ maxSize) :
    (State.initial maxSize).Invariant where
  unused := initial_unused hpos
  ownership := initial_ownership maxSize
  consistent e := by
    refine .start rfl fun c => ?_
    simp [State.initial, NewRabbitMQClientPool]

theorem State.Invariant.step (hgood : state.Invariant)
    (hstep : Clients.step program state label = some next) :
    next.Invariant := by
  have hpool : ∀ {command pool'},
      RabbitMQ.step state.pool command = some pool' →
        pool'.Unused ∧ pool'.Ownership :=
    fun h => ⟨hgood.unused.step h, hgood.ownership.step hgood.unused h⟩
  have hother : ∀ {command pool'},
      RabbitMQ.step state.pool command = some pool' →
        ∀ e, e ≠ goroutine command → Consistent pool' e (state.pc e) :=
    fun h e hne => (hgood.consistent e).unchanged
      (unchanged_of_ne hgood.unused hgood.ownership h hne)
  cases step_cases hstep with
  | pool command pool' hinternal h =>
      refine ⟨(hpool h).1, (hpool h).2, fun e => ?_⟩
      by_cases he : e = goroutine command
      · subst he
        exact (hgood.consistent _).internal hgood.unused hgood.ownership
          hinternal h
      · exact hother h e he
  | callPop e pool' hpc h =>
      refine ⟨(hpool h).1, (hpool h).2, fun e' => ?_⟩
      by_cases he : e' = e
      · subst he
        have hstart := hgood.consistent e'
        rw [hpc] at hstart
        cases hgood.unused.step_cases h
        cases hstart with
        | start _ howns =>
            rw [State.goto_pool, State.goto_self]
            exact .inPop (by rw [Pool.setCall_self]; trivial) howns
        | working _ hc _ _ _ => cases hc
      · rw [State.goto_pool, State.goto_of_ne he]
        exact hother h e' he
  | callPush e ch pc pool' hpush h =>
      refine ⟨(hpool h).1, (hpool h).2, fun e' => ?_⟩
      by_cases he : e' = e
      · subst he
        cases hgood.unused.step_cases h
        rw [State.goto_pool, State.goto_self]
        exact (hgood.consistent e').callPush hpush
      · rw [State.goto_pool, State.goto_of_ne he]
        exact hother h e' he
  | move label e pc _ hmove =>
      refine ⟨hgood.unused, hgood.ownership, fun e' => ?_⟩
      by_cases he : e' = e
      · subst he
        rw [State.goto_pool, State.goto_self]
        exact (hgood.consistent e').move hmove
      · rw [State.goto_pool, State.goto_of_ne he]
        exact hgood.consistent e'

theorem run_invariant {maxSize : Int} (hpos : 1 ≤ maxSize)
    (hrun : run (Clients.step program) (State.initial maxSize) labels =
      some state) : state.Invariant :=
  Machine.run_invariant (State.initial_invariant hpos)
    (fun _ _ _ hgood hstep => hgood.step hstep) hrun

theorem State.Invariant.not_returned (hgood : state.Invariant)
    {ch : Channel} (hheld : state.pool.Pending e ch ∨
      (e, ch) ∈ state.pool.popped ∧ ch ∉ state.pool.closed) :
    state.pc e ≠ .returned := by
  intro hpc
  have hreturned := hgood.consistent e
  rw [hpc] at hreturned
  cases hreturned with
  | working _ hc _ _ _ => cases hc
  | returned hfree hclosed =>
      rcases hheld with hpending | ⟨hmem, hopen⟩
      · rw [hpending] at hfree
        exact hfree
      · exact hopen (hclosed ch hmem)

theorem State.Invariant.holds_unique (hgood : state.Invariant)
    {e' : Goroutine} {ch : Channel} (h : state.Holds e ch)
    (h' : state.Holds e' ch) : e' = e := by
  have hmem : ∀ {g}, (g, ch) ∈ state.pool.popped →
      ch ∈ state.pool.popped.map Prod.snd :=
    fun h => List.mem_map_of_mem (f := Prod.snd) h
  rcases h.2 with hpending | ⟨hpopped, -⟩ <;>
    rcases h'.2 with hpending' | ⟨hpopped', -⟩
  · exact hgood.ownership.pending_unique e' e ch hpending' hpending
  · exact absurd (hmem hpopped') (hgood.ownership.pending e ch hpending).2
  · exact absurd (hmem hpopped) (hgood.ownership.pending e' ch hpending').2
  · exact (Prod.mk.inj (List.inj_on_of_nodup_map hgood.ownership.nodup
      hpopped' hpopped rfl)).1

theorem State.Invariant.exists_holds (hgood : state.Invariant)
    {ch : Channel} (hopen : ch ∈ state.pool.openChannels) :
    ∃ e, state.Holds e ch := by
  obtain ⟨hlt, hnot⟩ := Finset.mem_sdiff.mp hopen
  rcases hgood.ownership.covered ch (Finset.mem_range.mp hlt) with
    ⟨e, hpending⟩ | hmem
  · exact ⟨e, hgood.not_returned (.inl hpending), .inl hpending⟩
  · obtain ⟨⟨e, ch⟩, hpopped, rfl⟩ := List.mem_map.mp hmem
    exact ⟨e, hgood.not_returned (.inr ⟨hpopped, hnot⟩),
      .inr ⟨hpopped, hnot⟩⟩

/-- Channel ownership is exclusive although channels are pushed twice: an
open channel is held by exactly one execution, `Pop` hands each channel out
once, nothing is declared, published or consumed on a closed channel, and an
execution that has returned has left its channel closed. -/
theorem channel_ownership (program : Goroutine → Program) (maxSize : Int)
    (hpos : 1 ≤ maxSize) (labels : List Label) (state : State)
    (hrun : run (Clients.step program) (State.initial maxSize) labels =
      some state) :
    (∀ ch ∈ state.pool.openChannels,
        ∃ e, state.Holds e ch ∧ ∀ e', state.Holds e' ch → e' = e) ∧
      (state.pool.popped.map Prod.snd).Nodup ∧
      (∀ e ch, (state.pc e).uses = some ch →
        ch ∈ state.pool.openChannels) ∧
      ∀ e, state.pc e = .returned →
        ∀ ch, (e, ch) ∈ state.pool.popped → ch ∈ state.pool.closed := by
  have hgood := run_invariant hpos hrun
  refine ⟨?_, hgood.ownership.nodup, ?_, ?_⟩
  · intro ch hopen
    obtain ⟨e, hholds⟩ := hgood.exists_holds hopen
    exact ⟨e, hholds, fun e' h => hgood.holds_unique hholds h⟩
  · intro e ch huses
    have hworking : (state.pc e).working = some ch := by
      cases hpc : state.pc e with
      | publish c regions =>
          rw [hpc] at huses
          cases regions with
          | nil => cases huses
          | cons _ _ => exact huses
      | _ => rw [hpc] at huses; first | exact huses | cases huses
    obtain ⟨-, howns, hnot⟩ := (hgood.consistent e).of_working hworking
    have hlt := hgood.ownership.handed e ch ((howns ch).mpr rfl)
    exact Finset.mem_sdiff.mpr ⟨Finset.mem_range.mpr hlt, hnot⟩
  · intro e hpc ch hmem
    by_contra hopen
    exact hgood.not_returned (.inr ⟨hmem, hopen⟩) hpc

def samplePrograms (e : Goroutine) : Program :=
  if e = 0 then .uploadHomeTimelineHelper ["eu"] else .workerThread

/-- The worker pops its channel while the other execution publishes, which
then pushes its own channel twice. -/
def overlappingLabels : List Label :=
  [.callPop 0, .callPop 1, .pool (.select 0), .pool (.lock 0),
    .pool (.select 1), .pool (.newClient 0 true), .pool (.unlock 0),
    .popReturned 0, .pool (.lock 1), .exchangeDeclare 0 true,
    .marshal 0 true, .pool (.newClient 1 true), .publish 0 true,
    .pool (.unlock 1), .callPush 0 (some 0), .popReturned 1,
    .pool (.offer 0), .exchangeDeclare 1 true, .pool (.close 0 (some 0)),
    .pushReturned 0, .queueDeclare 1 true, .callPush 0 (some 0),
    .pool (.offer 0), .pool (.close 0 (some 0)), .pushReturned 0,
    .queueBind 1 true]

/-- The helper has returned, and the worker holds the other channel alone. -/
theorem channel_ownership_upload :
    ∃ state, run (Clients.step samplePrograms) (State.initial 1)
        overlappingLabels = some state ∧
      0 ∈ state.pool.closed ∧ 1 ∈ state.pool.openChannels ∧
      ∃ e, state.Holds e 1 ∧ ∀ e', state.Holds e' 1 → e' = e := by
  have hends : (run (Clients.step samplePrograms) (State.initial 1)
      overlappingLabels).any fun state => state.pc 0 = .returned ∧
        (0, 0) ∈ state.pool.popped ∧ (state.pc 1).uses = some 1 := by
    decide +kernel
  obtain ⟨state, hrun, hends⟩ := (Option.any_eq_true _ _).mp hends
  rw [decide_eq_true_eq] at hends
  obtain ⟨hreturned, hpopped, huses⟩ := hends
  obtain ⟨hexclusive, -, hopen, hclosed⟩ :=
    channel_ownership samplePrograms 1 le_rfl _ state hrun
  exact ⟨state, hrun, hclosed 0 hreturned 0 hpopped, hopen 1 1 huses,
    hexclusive 1 (hopen 1 1 huses)⟩

end SocialNetwork.RabbitMQ.Clients
