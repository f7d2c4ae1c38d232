import SocialNetwork.RabbitMQPool

/-!
# Who holds which channel, and how many are open

Every channel that the pool has opened belongs to one caller: the one whose
`Pop` opened it.  The number of open channels is therefore what the callers
make it, and `maxSize` bounds it only when they keep to it themselves.
-/

namespace SocialNetwork.RabbitMQ

open Machine

variable {pool next : Pool} {labels : List Label} {label : Label}

/-! ## Ownership -/

/-- The channel has been opened for this caller and its `Pop` is about to
return it. -/
def Pool.Pending (pool : Pool) (g : Goroutine) (ch : Channel) : Prop :=
  pool.call g = .popUnlock (some (some ch))

def Pool.Pushing (pool : Pool) (g : Goroutine) (ch : Channel) : Prop :=
  pool.call g = .pushSelect (some ch) ∨ pool.call g = .pushClose (some ch)

structure Pool.Ownership (pool : Pool) : Prop where
  handed : ∀ g ch, (g, ch) ∈ pool.popped → ch < pool.opened
  nodup : (pool.popped.map Prod.snd).Nodup
  pending : ∀ g ch, pool.Pending g ch →
    ch < pool.opened ∧ ch ∉ pool.popped.map Prod.snd
  pending_unique : ∀ g g' ch, pool.Pending g ch → pool.Pending g' ch → g = g'
  covered : ∀ ch < pool.opened,
    (∃ g, pool.Pending g ch) ∨ ch ∈ pool.popped.map Prod.snd
  pushing : ∀ g ch, pool.Pushing g ch → (g, ch) ∈ pool.popped
  closed : ∀ ch ∈ pool.closed, ch ∈ pool.popped.map Prod.snd

theorem initial_ownership (maxSize : Int) :
    (NewRabbitMQClientPool maxSize).Ownership := by
  constructor <;> simp [NewRabbitMQClientPool, Pool.Pending, Pool.Pushing]

theorem Pool.Ownership.lt_of_mem (hgood : pool.Ownership) {ch : Channel}
    (hmem : ch ∈ pool.popped.map Prod.snd) : ch < pool.opened := by
  obtain ⟨⟨g, ch⟩, hpopped, rfl⟩ := List.mem_map.mp hmem
  exact hgood.handed g ch hpopped

theorem Pool.Ownership.setCall (hgood : pool.Ownership) (g : Goroutine)
    {call : Call} (hbefore : ∀ ch, ¬ pool.Pending g ch)
    (hafter : ∀ ch, call ≠ .popUnlock (some (some ch)))
    (hpush : ∀ ch, call = .pushSelect (some ch) ∨
      call = .pushClose (some ch) → (g, ch) ∈ pool.popped) :
    (pool.setCall g call).Ownership := by
  have hpending : ∀ g' ch,
      (pool.setCall g call).Pending g' ch ↔ pool.Pending g' ch := by
    intro g' ch
    by_cases hg : g' = g
    · subst hg
      refine iff_of_false ?_ (hbefore ch)
      unfold Pool.Pending
      rw [Pool.setCall_self]
      exact hafter ch
    · unfold Pool.Pending
      rw [Pool.setCall_of_ne hg]
  constructor
  · exact hgood.handed
  · exact hgood.nodup
  · intro g' ch h
    exact hgood.pending g' ch ((hpending g' ch).mp h)
  · intro g' g'' ch h h'
    exact hgood.pending_unique g' g'' ch ((hpending g' ch).mp h)
      ((hpending g'' ch).mp h')
  · intro ch hlt
    rcases hgood.covered ch hlt with ⟨g', h⟩ | h
    · exact .inl ⟨g', (hpending g' ch).mpr h⟩
    · exact .inr h
  · intro g' ch h
    by_cases hg : g' = g
    · subst hg
      unfold Pool.Pushing at h
      rw [Pool.setCall_self] at h
      exact hpush ch h
    · unfold Pool.Pushing at h
      rw [Pool.setCall_of_ne hg] at h
      exact hgood.pushing g' ch h
  · exact hgood.closed

theorem Pool.Ownership.mu (hgood : pool.Ownership) (mu : Option Goroutine) :
    ({ pool with mu := mu } : Pool).Ownership :=
  ⟨hgood.handed, hgood.nodup, hgood.pending, hgood.pending_unique,
    hgood.covered, hgood.pushing, hgood.closed⟩

theorem Pool.Ownership.newClient (hgood : pool.Ownership) {g : Goroutine}
    (hcall : pool.call g = .popSize) :
    ({ pool with opened := pool.opened + 1 }.setCall g
      (.popUnlock (some (some pool.opened)))).Ownership := by
  have hpending : ∀ g' ch,
      ({ pool with opened := pool.opened + 1 }.setCall g
        (.popUnlock (some (some pool.opened)))).Pending g' ch ↔
          g' = g ∧ ch = pool.opened ∨ pool.Pending g' ch := by
    intro g' ch
    unfold Pool.Pending
    by_cases hg : g' = g
    · subst hg
      rw [Pool.setCall_self, hcall]
      simp [eq_comm]
    · rw [Pool.setCall_of_ne hg]
      simp [hg]
  constructor
  · intro g' ch h
    exact Nat.lt_succ_of_lt (hgood.handed g' ch h)
  · exact hgood.nodup
  · intro g' ch h
    rcases (hpending g' ch).mp h with ⟨rfl, rfl⟩ | h
    · exact ⟨Nat.lt_succ_self _,
        fun hmem => Nat.lt_irrefl _ (hgood.lt_of_mem hmem)⟩
    · obtain ⟨hlt, hnot⟩ := hgood.pending g' ch h
      exact ⟨Nat.lt_succ_of_lt hlt, hnot⟩
  · intro g' g'' ch h h'
    rcases (hpending g' ch).mp h with ⟨hg, hch⟩ | hold <;>
      rcases (hpending g'' ch).mp h' with ⟨hg', hch'⟩ | hold'
    · rw [hg, hg']
    · exact absurd (hch ▸ (hgood.pending g'' ch hold').1) (Nat.lt_irrefl _)
    · exact absurd (hch' ▸ (hgood.pending g' ch hold).1) (Nat.lt_irrefl _)
    · exact hgood.pending_unique g' g'' ch hold hold'
  · intro ch hlt
    rcases Nat.lt_succ_iff_lt_or_eq.mp hlt with hlt | rfl
    · rcases hgood.covered ch hlt with ⟨g', h⟩ | h
      · exact .inl ⟨g', (hpending g' ch).mpr (.inr h)⟩
      · exact .inr h
    · exact .inl ⟨g, (hpending g _).mpr (.inl ⟨rfl, rfl⟩)⟩
  · intro g' ch h
    by_cases hg : g' = g
    · subst hg
      unfold Pool.Pushing at h
      rw [Pool.setCall_self] at h
      rcases h with h | h <;> cases h
    · unfold Pool.Pushing at h
      rw [Pool.setCall_of_ne hg] at h
      exact hgood.pushing g' ch h
  · exact hgood.closed

theorem Pool.Ownership.hand (hgood : pool.Ownership) {g : Goroutine}
    {ch : Channel} (hcall : pool.Pending g ch) :
    ({ pool.setCall g (.popReturned (some (some ch))) with
      popped := pool.popped ++ [(g, ch)] } : Pool).Ownership := by
  obtain ⟨hlt, hnew⟩ := hgood.pending g ch hcall
  have hpending : ∀ g' ch',
      ({ pool.setCall g (.popReturned (some (some ch))) with
        popped := pool.popped ++ [(g, ch)] } : Pool).Pending g' ch' ↔
          g' ≠ g ∧ pool.Pending g' ch' := by
    intro g' ch'
    unfold Pool.Pending
    by_cases hg : g' = g
    · subst hg
      simp [Pool.setCall]
    · simp [Pool.setCall, hg]
  constructor
  · intro g' ch' h
    rcases List.mem_append.mp h with h | h
    · exact hgood.handed g' ch' h
    · obtain ⟨-, rfl⟩ := Prod.mk.inj (List.mem_singleton.mp h)
      exact hlt
  · rw [List.map_append]
    apply hgood.nodup.append (List.nodup_singleton _)
    intro ch' hmem hsingle
    rw [List.mem_singleton.mp hsingle] at hmem
    exact hnew hmem
  · intro g' ch' h
    obtain ⟨hne, h⟩ := (hpending g' ch').mp h
    obtain ⟨hlt', hnot⟩ := hgood.pending g' ch' h
    refine ⟨hlt', ?_⟩
    rw [List.map_append, List.mem_append]
    rintro (hmem | hmem)
    · exact hnot hmem
    · rw [List.mem_singleton.mp hmem] at h
      exact hne (hgood.pending_unique g' g ch h hcall)
  · intro g' g'' ch' h h'
    exact hgood.pending_unique g' g'' ch' ((hpending g' ch').mp h).2
      ((hpending g'' ch').mp h').2
  · intro ch' hlt'
    by_cases hch : ch' = ch
    · subst hch
      exact .inr (by simp)
    · rcases hgood.covered ch' hlt' with ⟨g', h⟩ | h
      · refine .inl ⟨g', (hpending g' ch').mpr ⟨?_, h⟩⟩
        rintro rfl
        have hsame := hcall.symm.trans h
        simp only [Call.popUnlock.injEq, Option.some.injEq] at hsame
        exact hch hsame.symm
      · exact .inr (by simp [h])
  · intro g' ch' h
    apply List.mem_append_left
    by_cases hg : g' = g
    · subst hg
      simp [Pool.Pushing, Pool.setCall] at h
    · apply hgood.pushing g' ch'
      simpa [Pool.Pushing, Pool.setCall, hg] using h
  · intro ch' hmem
    rw [List.map_append]
    exact List.mem_append_left _ (hgood.closed ch' hmem)

theorem Pool.Ownership.step (hunused : pool.Unused) (hgood : pool.Ownership)
    (hstep : RabbitMQ.step pool label = some next) : next.Ownership := by
  have hnotPending : ∀ {pool : Pool} {g call}, pool.call g = call →
      (∀ result, call ≠ .popUnlock result) → ∀ ch, ¬ pool.Pending g ch := by
    intro pool g call hcall hne ch hpending
    exact hne _ (hcall.symm.trans hpending)
  have hfree : ∀ {g}, (pool.call g).Free → ∀ ch, ¬ pool.Pending g ch := by
    intro g hfree ch hpending
    rw [hpending] at hfree
    exact hfree
  cases hunused.step_cases hstep with
  | pop g hcall => exact hgood.setCall g (hfree hcall) (by simp) (by simp)
  | select g hcall =>
      exact hgood.setCall g (hnotPending hcall (by simp)) (by simp) (by simp)
  | cancel g hcall =>
      exact hgood.setCall g (hnotPending hcall (by simp)) (by simp) (by simp)
  | lock g _ hcall =>
      exact (hgood.mu (some g)).setCall g (hnotPending hcall (by simp))
        (by simp) (by simp)
  | newClient g hcall => exact hgood.newClient hcall
  | newClientFailed g hcall =>
      exact hgood.setCall g (hnotPending hcall (by simp)) (by simp) (by simp)
  | unlock g result hcall =>
      rcases result with _ | _ | ch
      · exact (hgood.mu none).setCall g
          (by simp [Pool.Pending, hcall]) (by simp) (by simp)
      · exact (hgood.mu none).setCall g
          (by simp [Pool.Pending, hcall]) (by simp) (by simp)
      · exact (hgood.mu none).hand hcall
  | push g ch hcall hmay =>
      refine hgood.setCall g (hfree hcall) (by simp) ?_
      rintro c (heq | heq)
      · exact hmay c (Call.pushSelect.inj heq)
      · cases heq
  | offer g ch hcall =>
      refine hgood.setCall g (hnotPending hcall (by simp)) (by simp) ?_
      rintro c (heq | heq)
      · cases heq
      · exact hgood.pushing g c (.inl (hcall.trans
          (congrArg Call.pushSelect (Call.pushClose.inj heq))))
  | close g ch hcall =>
      have hsame : (pool.setCall g .pushReturned).Ownership :=
        hgood.setCall g (hnotPending hcall (by simp)) (by simp) (by simp)
      refine ⟨hsame.handed, hsame.nodup, hsame.pending,
        hsame.pending_unique, hsame.covered, hsame.pushing, ?_⟩
      intro c hmem
      rcases Finset.mem_union.mp hmem with hmem | hmem
      · exact hgood.closed c hmem
      · rw [Option.mem_toFinset, Option.mem_def] at hmem
        subst hmem
        exact List.mem_map_of_mem (hgood.pushing g c (.inr hcall))

theorem run_ownership {maxSize : Int} (hpos : 0 < maxSize)
    (hrun : run RabbitMQ.step (NewRabbitMQClientPool maxSize) labels =
      some pool) : pool.Ownership := by
  refine run_induction (P := fun _ pool => pool.Ownership)
    (initial_ownership maxSize) ?_ hrun
  intro labels pool label next hbefore hgood hstep
  exact hgood.step (run_unused hpos hbefore) hstep

/-! ## Counting the calls -/

def granted (labels : List Label) : ℕ :=
  labels.countP fun
    | .newClient _ true => true
    | _ => false

/-- The channels with which a `Push` has returned. -/
def givenBack (labels : List Label) : Finset Channel :=
  (labels.filterMap fun
    | .close _ ch => ch
    | _ => none).toFinset

/-- The channels that the callers have got and not given back. -/
def held (labels : List Label) : ℕ := granted labels - (givenBack labels).card

def begun (labels : List Label) : ℕ :=
  labels.countP fun
    | .pop _ => true
    | _ => false

/-- The calls of `Pop` that have failed. -/
def refused (labels : List Label) : ℕ :=
  labels.countP fun
    | .newClient _ false => true
    | .cancel _ => true
    | _ => false

/-- The calls of `Pop` that have neither failed nor had their channel given
back. -/
def inUse (labels : List Label) : ℕ :=
  begun labels - refused labels - (givenBack labels).card

theorem granted_append (labels more : List Label) :
    granted (labels ++ more) = granted labels + granted more := by
  simp [granted]

theorem givenBack_append (labels more : List Label) :
    givenBack (labels ++ more) = givenBack labels ∪ givenBack more := by
  simp [givenBack]

theorem begun_append (labels more : List Label) :
    begun (labels ++ more) = begun labels + begun more := by
  simp [begun]

theorem refused_append (labels more : List Label) :
    refused (labels ++ more) = refused labels + refused more := by
  simp [refused]

structure Counts (maxSize : Int) (labels : List Label) (pool : Pool) :
    Prop where
  maxSize : pool.maxSize = maxSize
  opened : pool.opened = granted labels
  closed : pool.closed = givenBack labels

theorem Counts.step {maxSize : Int} (hunused : pool.Unused)
    (hgood : Counts maxSize labels pool)
    (hstep : RabbitMQ.step pool label = some next) :
    Counts maxSize (labels ++ [label]) next := by
  constructor
  · rw [← hgood.maxSize]
    cases hunused.step_cases hstep with
    | unlock g result _ =>
        rw [Pool.returnPop_eq]
        rfl
    | _ => rfl
  · rw [granted_append, ← hgood.opened]
    cases hunused.step_cases hstep with
    | unlock g result _ =>
        rw [Pool.returnPop_eq]
        rfl
    | _ => rfl
  · rw [givenBack_append, ← hgood.closed]
    cases hunused.step_cases hstep with
    | unlock g result _ =>
        rw [Pool.returnPop_eq]
        simp [Pool.setCall, givenBack]
    | close g ch _ => cases ch <;> simp [Pool.setCall, givenBack]
    | _ => simp [Pool.setCall, givenBack]

theorem run_counts {maxSize : Int} (hpos : 0 < maxSize)
    (hrun : run RabbitMQ.step (NewRabbitMQClientPool maxSize) labels =
      some pool) : Counts maxSize labels pool := by
  refine run_induction (P := Counts maxSize) ⟨rfl, rfl, rfl⟩ ?_ hrun
  intro labels pool label next hbefore hgood hstep
  exact hgood.step (run_unused hpos hbefore) hstep

theorem card_openChannels {maxSize : Int} (hpos : 0 < maxSize)
    (hrun : run RabbitMQ.step (NewRabbitMQClientPool maxSize) labels =
      some pool) :
    pool.openChannels.card = held labels ∧
      (givenBack labels).card ≤ granted labels := by
  have hcounts := run_counts hpos hrun
  have hownership := run_ownership hpos hrun
  have hsubset : pool.closed ⊆ Finset.range pool.opened := by
    intro ch hmem
    exact Finset.mem_range.mpr
      (hownership.lt_of_mem (hownership.closed ch hmem))
  have hle := Finset.card_le_card hsubset
  rw [Pool.openChannels, Finset.card_sdiff_of_subset hsubset]
  rw [Finset.card_range, hcounts.opened, hcounts.closed] at *
  exact ⟨rfl, hle⟩

/-- In `Pop`, before a channel is opened for it. -/
def Call.Opening : Call → Prop
  | .popSelect | .popLock | .popSize => True
  | _ => False

/-- Each call of `Pop` has failed, has been granted a channel, or is still
before that. -/
structure Calls (labels : List Label) (pool : Pool)
    (callers : Finset Goroutine) : Prop where
  mem : ∀ g, g ∈ callers ↔ (pool.call g).Opening
  begun : begun labels = refused labels + granted labels + callers.card

section Calls

variable {callers : Finset Goroutine} {g : Goroutine} {call : Call}

theorem Calls.stay (hgood : Calls labels pool callers)
    (hnext : next.call = Function.update pool.call g call)
    (hcall : call.Opening ↔ (pool.call g).Opening)
    (hbegun : RabbitMQ.begun [label] = 0) (hrefused : refused [label] = 0)
    (hgranted : granted [label] = 0) :
    Calls (labels ++ [label]) next callers where
  mem g' := by
    rw [hgood.mem, hnext]
    by_cases hg : g' = g
    · rw [hg, Function.update_self, hcall]
    · rw [Function.update_of_ne hg]
  begun := by
    rw [begun_append, refused_append, granted_append, hbegun, hrefused,
      hgranted]
    exact hgood.begun

theorem Calls.enter (hgood : Calls labels pool callers)
    (hnext : next.call = Function.update pool.call g call)
    (hbefore : ¬ (pool.call g).Opening) (hafter : call.Opening) :
    Calls (labels ++ [.pop g]) next (insert g callers) where
  mem g' := by
    rw [Finset.mem_insert, hgood.mem, hnext]
    by_cases hg : g' = g
    · rw [hg, Function.update_self]
      simp [hafter]
    · rw [Function.update_of_ne hg]
      simp [hg]
  begun := by
    have hnew : g ∉ callers := (hgood.mem g).not.mpr hbefore
    have hpop : RabbitMQ.begun [.pop g] = 1 ∧ refused [.pop g] = 0 ∧
        granted [.pop g] = 0 := ⟨rfl, rfl, rfl⟩
    rw [begun_append, refused_append, granted_append, hpop.1, hpop.2.1,
      hpop.2.2, Finset.card_insert_of_notMem hnew, hgood.begun]
    omega

theorem Calls.leave (hgood : Calls labels pool callers)
    (hnext : next.call = Function.update pool.call g call)
    (hbefore : (pool.call g).Opening) (hafter : ¬ call.Opening)
    (hbegun : RabbitMQ.begun [label] = 0)
    (hended : refused [label] + granted [label] = 1) :
    Calls (labels ++ [label]) next (callers.erase g) where
  mem g' := by
    rw [Finset.mem_erase, hgood.mem, hnext]
    by_cases hg : g' = g
    · rw [hg, Function.update_self]
      simp [hafter]
    · rw [Function.update_of_ne hg]
      simp [hg]
  begun := by
    have hmem : g ∈ callers := (hgood.mem g).mpr hbefore
    have hcard := Finset.card_erase_add_one hmem
    rw [begun_append, refused_append, granted_append, hgood.begun, hbegun]
    omega

theorem Call.Free.not_opening (hfree : call.Free) : ¬ call.Opening := by
  intro hopening
  cases call <;> first | exact hfree | exact hopening

theorem Calls.step (hunused : pool.Unused)
    (hgood : Calls labels pool callers)
    (hstep : RabbitMQ.step pool label = some next) :
    ∃ callers', Calls (labels ++ [label]) next callers' := by
  cases hunused.step_cases hstep with
  | pop g hfree =>
      exact ⟨_, hgood.enter rfl hfree.not_opening trivial⟩
  | select g hcall =>
      exact ⟨_, hgood.stay rfl (by rw [hcall]; exact Iff.rfl) rfl rfl rfl⟩
  | cancel g hcall =>
      exact ⟨_, hgood.leave rfl (by rw [hcall]; trivial) id rfl rfl⟩
  | lock g _ hcall =>
      exact ⟨_, hgood.stay rfl (by rw [hcall]; exact Iff.rfl) rfl rfl rfl⟩
  | newClient g hcall =>
      exact ⟨_, hgood.leave rfl (by rw [hcall]; trivial) id rfl rfl⟩
  | newClientFailed g hcall =>
      exact ⟨_, hgood.leave rfl (by rw [hcall]; trivial) id rfl rfl⟩
  | unlock g result hcall =>
      rw [Pool.returnPop_eq]
      exact ⟨_, hgood.stay rfl (by rw [hcall]; exact Iff.rfl) rfl rfl rfl⟩
  | push g ch hfree _ =>
      exact ⟨_, hgood.stay rfl (iff_of_false id hfree.not_opening) rfl rfl
        rfl⟩
  | offer g ch hcall =>
      exact ⟨_, hgood.stay rfl (by rw [hcall]; exact Iff.rfl) rfl rfl rfl⟩
  | close g ch hcall =>
      exact ⟨_, hgood.stay rfl (by rw [hcall]; exact Iff.rfl) rfl rfl rfl⟩

end Calls

theorem exists_calls {maxSize : Int} (hpos : 0 < maxSize)
    (hrun : run RabbitMQ.step (NewRabbitMQClientPool maxSize) labels =
      some pool) : ∃ callers, Calls labels pool callers := by
  refine run_induction (P := fun labels pool => ∃ callers,
    Calls labels pool callers) ⟨∅, ?_, rfl⟩ ?_ hrun
  · intro g
    simp [NewRabbitMQClientPool, Call.Opening]
  · rintro labels pool label next hbefore ⟨callers, hgood⟩ hstep
    exact hgood.step (run_unused hpos hbefore) hstep

/-! ## Letting the calls proceed -/

def Call.Locked : Call → Prop
  | .popSize | .popUnlock _ => True
  | _ => False

/-- The mutex is held by the caller that is past its `Lock`. -/
def Pool.Mutex (pool : Pool) : Prop :=
  ∀ g, pool.mu = some g ↔ (pool.call g).Locked

section Mutex

variable {g : Goroutine} {call : Call}

theorem Pool.Mutex.stay (hgood : pool.Mutex) (hmu : next.mu = pool.mu)
    (hnext : next.call = Function.update pool.call g call)
    (hcall : call.Locked ↔ (pool.call g).Locked) : next.Mutex := by
  intro g'
  rw [hmu, hgood g', hnext]
  by_cases hg : g' = g
  · rw [hg, Function.update_self, hcall]
  · rw [Function.update_of_ne hg]

theorem Pool.Mutex.release (hgood : pool.Mutex) (hmu : next.mu = none)
    (hnext : next.call = Function.update pool.call g call)
    (hbefore : (pool.call g).Locked) (hafter : ¬ call.Locked) :
    next.Mutex := by
  have hholder := (hgood g).mpr hbefore
  intro g'
  rw [hmu, hnext]
  refine iff_of_false (Option.some_ne_none g').symm ?_
  by_cases hg : g' = g
  · rw [hg, Function.update_self]
    exact hafter
  · rw [Function.update_of_ne hg]
    intro hlocked
    have hother := hholder.symm.trans ((hgood g').mpr hlocked)
    exact hg (Option.some.inj hother).symm

theorem Call.Free.not_locked (hfree : call.Free) : ¬ call.Locked := by
  intro hlocked
  cases call <;> first | exact hfree | exact hlocked

theorem Pool.Mutex.step (hunused : pool.Unused) (hgood : pool.Mutex)
    (hstep : RabbitMQ.step pool label = some next) : next.Mutex := by
  cases hunused.step_cases hstep with
  | pop g hfree =>
      exact hgood.stay rfl rfl (iff_of_false id hfree.not_locked)
  | select g hcall => exact hgood.stay rfl rfl (by rw [hcall]; exact Iff.rfl)
  | cancel g hcall => exact hgood.stay rfl rfl (by rw [hcall]; exact Iff.rfl)
  | lock g hmu hcall =>
      intro g'
      change some g = some g' ↔ (Function.update pool.call g _ g').Locked
      by_cases hg : g' = g
      · rw [hg, Function.update_self]
        exact iff_of_true rfl trivial
      · rw [Function.update_of_ne hg, ← hgood g', hmu]
        exact iff_of_false (fun h => hg (Option.some.inj h).symm)
          (Option.some_ne_none g').symm
  | newClient g hcall =>
      exact hgood.stay rfl rfl (by rw [hcall]; exact Iff.rfl)
  | newClientFailed g hcall =>
      exact hgood.stay rfl rfl (by rw [hcall]; exact Iff.rfl)
  | unlock g result hcall =>
      rw [Pool.returnPop_eq]
      exact hgood.release rfl rfl (by rw [hcall]; trivial) id
  | push g ch hfree _ =>
      exact hgood.stay rfl rfl (iff_of_false id hfree.not_locked)
  | offer g ch hcall => exact hgood.stay rfl rfl (by rw [hcall]; exact Iff.rfl)
  | close g ch hcall => exact hgood.stay rfl rfl (by rw [hcall]; exact Iff.rfl)

theorem run_mutex {maxSize : Int} (hpos : 0 < maxSize)
    (hrun : run RabbitMQ.step (NewRabbitMQClientPool maxSize) labels =
      some pool) : pool.Mutex := by
  refine run_induction (P := fun _ pool => pool.Mutex) ?_ ?_ hrun
  · intro g
    exact iff_of_false (Option.some_ne_none g).symm id
  · intro labels pool label next hbefore hgood hstep
    exact hgood.step (run_unused hpos hbefore) hstep

/-- The commands by which a call of `Pop` gets its channel. -/
def Label.Opens : Label → Prop
  | .select _ | .lock _ | .newClient _ true | .unlock _ => True
  | _ => False

theorem run_unlock {result : Option Handle}
    (hcall : pool.call g = .popUnlock result) :
    ∃ next, run RabbitMQ.step pool [.unlock g] = some next ∧
      next.mu = none ∧
      next.call = Function.update pool.call g (.popReturned result) := by
  have hunlock : RabbitMQ.step pool (.unlock g) =
      some ({ pool with mu := none }.returnPop g result) := by
    simp only [RabbitMQ.step, hcall]
  refine ⟨{ pool with mu := none }.returnPop g result, ?_, ?_, ?_⟩
  · rw [run_cons, hunlock]
    rfl
  · rw [Pool.returnPop_eq]
    rfl
  · rw [Pool.returnPop_eq]
    rfl

theorem run_open (hunused : pool.Unused) (hcall : pool.call g = .popSize) :
    ∃ next, run RabbitMQ.step pool [.newClient g true, .unlock g] =
        some next ∧ next.mu = none ∧
      next.call = Function.update pool.call g
        (.popReturned (some (some pool.opened))) := by
  have hroom : pool.currSize < pool.maxSize := by
    rw [hunused.currSize]
    exact hunused.positive
  have hnew : RabbitMQ.step pool (.newClient g true) =
      some ({ pool with opened := pool.opened + 1 }.setCall g
        (.popUnlock (some (some pool.opened)))) := by
    simp only [RabbitMQ.step, hcall, if_pos hroom, if_true]
  have hself : ({ pool with opened := pool.opened + 1 }.setCall g
      (.popUnlock (some (some pool.opened)))).call g =
        .popUnlock (some (some pool.opened)) := Pool.setCall_self g _
  obtain ⟨next, hunlock, hmu, hcalls⟩ := run_unlock hself
  refine ⟨next, ?_, hmu, ?_⟩
  · rw [run_cons, hnew]
    exact hunlock
  · rw [hcalls]
    exact Function.update_idem _ _ _

/-- Nobody holds the mutex once its holder has unlocked it. -/
theorem exists_release (hunused : pool.Unused) (hgood : pool.Mutex) :
    ∃ more next, run RabbitMQ.step pool more = some next ∧
      (∀ label ∈ more, label.Opens) ∧ next.mu = none ∧
      ∀ g, (next.call g).Opening → (pool.call g).Opening := by
  have hothers : ∀ {next : Pool} {g : Goroutine} {result},
      next.call = Function.update pool.call g (.popReturned result) →
      ∀ g', (next.call g').Opening → (pool.call g').Opening := by
    intro next g result hnext g' hopening
    rw [hnext] at hopening
    by_cases hg : g' = g
    · rw [hg, Function.update_self] at hopening
      exact hopening.elim
    · rwa [Function.update_of_ne hg] at hopening
  cases hmu : pool.mu with
  | none => exact ⟨[], pool, rfl, by simp, hmu, fun _ => id⟩
  | some g =>
      have hlocked := (hgood g).mp hmu
      cases hcall : pool.call g with
      | popSize =>
          obtain ⟨next, hrun, hnext, hcalls⟩ := run_open hunused hcall
          refine ⟨_, next, hrun, ?_, hnext, hothers hcalls⟩
          simp [Label.Opens]
      | popUnlock result =>
          obtain ⟨next, hrun, hnext, hcalls⟩ := run_unlock hcall
          refine ⟨_, next, hrun, ?_, hnext, hothers hcalls⟩
          simp [Label.Opens]
      | _ => rw [hcall] at hlocked; exact hlocked.elim

/-- With the mutex free a call of `Pop` can open its channel. -/
theorem exists_turn (hunused : pool.Unused) (hgood : pool.Mutex)
    (hmu : pool.mu = none) (hopening : (pool.call g).Opening) :
    ∃ more next result, run RabbitMQ.step pool more = some next ∧
      (∀ label ∈ more, label.Opens) ∧ next.mu = none ∧
      next.call = Function.update pool.call g (.popReturned result) := by
  have hlock : ∀ {pool : Pool}, pool.Unused → pool.mu = none →
      pool.call g = .popLock →
      ∃ next result, run RabbitMQ.step pool
          [.lock g, .newClient g true, .unlock g] = some next ∧
        next.mu = none ∧
        next.call = Function.update pool.call g (.popReturned result) := by
    intro pool hunused hmu hcall
    have hstep : RabbitMQ.step pool (.lock g) =
        some ({ pool with mu := some g }.setCall g .popSize) := by
      simp only [RabbitMQ.step, hmu, if_true, hcall]
    obtain ⟨next, hrun, hnext, hcalls⟩ :=
      run_open (hunused.step hstep) (Pool.setCall_self g .popSize)
    refine ⟨next, some (some pool.opened), ?_, hnext, ?_⟩
    · rw [run_cons, hstep]
      exact hrun
    · rw [hcalls]
      exact Function.update_idem _ _ _
  cases hcall : pool.call g with
  | popSelect =>
      have hstep : RabbitMQ.step pool (.select g) =
          some (pool.setCall g .popLock) := by
        simp only [RabbitMQ.step, hcall]
      obtain ⟨next, result, hrun, hnext, hcalls⟩ :=
        hlock (hunused.step hstep) hmu (Pool.setCall_self g .popLock)
      refine ⟨[.select g, .lock g, .newClient g true, .unlock g], next,
        result, ?_, by simp [Label.Opens], hnext, ?_⟩
      · rw [run_cons, hstep]
        exact hrun
      · rw [hcalls]
        exact Function.update_idem _ _ _
  | popLock =>
      obtain ⟨next, result, hrun, hnext, hcalls⟩ := hlock hunused hmu hcall
      exact ⟨_, next, result, hrun, by simp [Label.Opens], hnext, hcalls⟩
  | popSize =>
      have hholder := (hgood g).mpr (by rw [hcall]; trivial)
      rw [hmu] at hholder
      cases hholder
  | _ => rw [hcall] at hopening; exact hopening.elim

theorem run_unused_mutex {more : List Label} (hunused : pool.Unused)
    (hgood : pool.Mutex)
    (hrun : run RabbitMQ.step pool more = some next) :
    next.Unused ∧ next.Mutex :=
  run_invariant (P := fun pool => pool.Unused ∧ pool.Mutex)
    ⟨hunused, hgood⟩
    (fun _ _ _ hgood hstep =>
      ⟨hgood.1.step hstep, hgood.2.step hgood.1 hstep⟩) hrun

/-- No call of `Pop` is made to wait: one after the other, they all get past
the opening of a channel. -/
theorem exists_drain (callers : Finset Goroutine) (hunused : pool.Unused)
    (hgood : pool.Mutex) (hmu : pool.mu = none)
    (hcallers : ∀ g, (pool.call g).Opening → g ∈ callers) :
    ∃ more next, run RabbitMQ.step pool more = some next ∧
      (∀ label ∈ more, label.Opens) ∧
      ∀ g, ¬ (next.call g).Opening := by
  induction callers using Finset.induction_on generalizing pool with
  | empty =>
      refine ⟨[], pool, rfl, by simp, ?_⟩
      intro g hopening
      exact absurd (hcallers g hopening) (Finset.notMem_empty g)
  | insert g callers _ ih =>
      by_cases hopening : (pool.call g).Opening
      · obtain ⟨more, middle, result, hmore, hopens, hmiddle, hcalls⟩ :=
          exists_turn hunused hgood hmu hopening
        obtain ⟨hunused', hgood'⟩ := run_unused_mutex hunused hgood hmore
        have hrest : ∀ g', (middle.call g').Opening → g' ∈ callers := by
          intro g' hopening'
          rw [hcalls] at hopening'
          by_cases hg : g' = g
          · rw [hg, Function.update_self] at hopening'
            exact hopening'.elim
          · rw [Function.update_of_ne hg] at hopening'
            exact Finset.mem_of_mem_insert_of_ne (hcallers g' hopening') hg
        obtain ⟨more', next, hmore', hopens', hnext⟩ :=
          ih hunused' hgood' hmiddle hrest
        refine ⟨more ++ more', next,
          run_append_eq_some.mpr ⟨middle, hmore, hmore'⟩, ?_, hnext⟩
        intro label hlabel
        rcases List.mem_append.mp hlabel with hlabel | hlabel
        · exact hopens label hlabel
        · exact hopens' label hlabel
      · apply ih hunused hgood hmu
        intro g' hopening'
        refine Finset.mem_of_mem_insert_of_ne (hcallers g' hopening') ?_
        rintro rfl
        exact hopening hopening'

end Mutex

/-! ## Capacity -/

/-- The callers themselves keep to the capacity: `Pop` is not called while
`maxSize` calls are in use. -/
def Restrained (maxSize : Int) (labels : List Label) : Prop :=
  ∀ before g, before ++ [.pop g] <+: labels →
    (inUse before : Int) < maxSize

theorem inUse_append_le {more : List Label} (hmore : ∀ g, .pop g ∉ more) :
    inUse (labels ++ more) ≤ inUse labels := by
  have hbegun : begun more = 0 := by
    refine List.countP_eq_zero.mpr ?_
    intro label hlabel
    cases label with
    | pop g => exact absurd hlabel (hmore g)
    | _ => exact Bool.false_ne_true
  have hback : (givenBack labels).card ≤
      (givenBack (labels ++ more)).card := by
    rw [givenBack_append]
    exact Finset.card_le_card Finset.subset_union_left
  rw [inUse, inUse, begun_append, refused_append, hbegun]
  omega

theorem inUse_concat_le (labels : List Label) (label : Label) :
    inUse (labels ++ [label]) ≤ inUse labels + 1 := by
  by_cases hlabel : ∃ g, label = .pop g
  · obtain ⟨g, rfl⟩ := hlabel
    have hpop : begun [.pop g] = 1 ∧ refused [.pop g] = 0 ∧
        givenBack [.pop g] = ∅ := ⟨rfl, rfl, rfl⟩
    rw [inUse, inUse, begun_append, refused_append, givenBack_append, hpop.1,
      hpop.2.1, hpop.2.2, Finset.union_empty]
    omega
  · have hle : inUse (labels ++ [label]) ≤ inUse labels := by
      refine inUse_append_le ?_
      intro g hg
      exact hlabel ⟨g, (List.mem_singleton.mp hg).symm⟩
    omega

theorem inUse_append_opens {more : List Label}
    (hmore : ∀ label ∈ more, label.Opens) :
    inUse (labels ++ more) = inUse labels := by
  have hbegun : begun more = 0 := by
    refine List.countP_eq_zero.mpr ?_
    intro label hlabel
    have hopens := hmore label hlabel
    cases label with
    | pop g => exact hopens.elim
    | _ => exact Bool.false_ne_true
  have hrefused : refused more = 0 := by
    refine List.countP_eq_zero.mpr ?_
    intro label hlabel
    have hopens := hmore label hlabel
    cases label with
    | newClient g ok =>
        cases ok with
        | true => exact Bool.false_ne_true
        | false => exact hopens.elim
    | cancel g => exact hopens.elim
    | _ => exact Bool.false_ne_true
  have hback : givenBack more = ∅ := by
    unfold givenBack
    rw [List.toFinset_eq_empty_iff, List.filterMap_eq_nil_iff]
    intro label hlabel
    have hopens := hmore label hlabel
    cases label with
    | close g ch => exact hopens.elim
    | _ => rfl
  rw [inUse, inUse, begun_append, refused_append, givenBack_append, hbegun,
    hrefused, hback, Finset.union_empty]
  rfl

/-- Every open channel is in use; when no call is before the opening of its
channel, nothing else is. -/
theorem held_le_inUse {callers : Finset Goroutine}
    (hgood : Calls labels pool callers) :
    held labels ≤ inUse labels ∧
      inUse labels ≤ held labels + callers.card := by
  have hbegun := hgood.begun
  unfold held inUse
  omega

theorem Restrained.inUse_le {maxSize : Int} (hpos : 1 ≤ maxSize)
    (hrestrained : Restrained maxSize labels) {before : List Label}
    (hbefore : before <+: labels) : (inUse before : Int) ≤ maxSize := by
  induction before using List.reverseRecOn with
  | nil =>
      change ((0 : ℕ) : Int) ≤ maxSize
      omega
  | append_singleton before label ih =>
      have hshorter := (List.prefix_append before [label]).trans hbefore
      by_cases hlabel : ∃ g, label = .pop g
      · obtain ⟨g, rfl⟩ := hlabel
        have hlt := hrestrained before g hbefore
        have hle := inUse_concat_le before (.pop g)
        omega
      · have hle : inUse (before ++ [label]) ≤ inUse before := by
          refine inUse_append_le ?_
          intro g hg
          exact hlabel ⟨g, (List.mem_singleton.mp hg).symm⟩
        have hbound := ih hshorter
        omega

/-- The callers keep to the capacity exactly in the runs from whose states no
state with more than `maxSize` open channels is reached, unless `Pop` is
called again: the pool itself makes nobody wait. -/
theorem pool_capacity (maxSize : Int) (hpos : 1 ≤ maxSize)
    (labels : List Label) (pool : Pool)
    (hrun : run RabbitMQ.step (NewRabbitMQClientPool maxSize) labels =
      some pool) :
    (∀ before more middle, before <+: labels → (∀ g, .pop g ∉ more) →
        run RabbitMQ.step (NewRabbitMQClientPool maxSize) (before ++ more) =
          some middle → (middle.openChannels.card : Int) ≤ maxSize) ↔
      Restrained maxSize labels := by
  constructor
  · intro hcapacity before g hpop
    obtain ⟨middle, hmiddle⟩ := exists_run_of_prefix hpop hrun
    obtain ⟨earlier, hearlier⟩ := exists_run_of_prefix
      (List.prefix_append before _) hmiddle
    -- After the call all pending calls open their channels.
    have hunused := run_unused hpos hmiddle
    obtain ⟨release, free, hrelease, hopens, hmu, -⟩ :=
      exists_release hunused (run_mutex hpos hmiddle)
    obtain ⟨hunused', hmutex'⟩ := run_unused_mutex hunused
      (run_mutex hpos hmiddle) hrelease
    have hfree := run_append_eq_some.mpr ⟨middle, hmiddle, hrelease⟩
    obtain ⟨callers, hcallers⟩ := exists_calls hpos hfree
    obtain ⟨more, last, hmore, hopens', hdone⟩ := exists_drain callers
      hunused' hmutex' hmu fun g hopening => (hcallers.mem g).mpr hopening
    have hlast : run RabbitMQ.step (NewRabbitMQClientPool maxSize)
        (before ++ [.pop g] ++ (release ++ more)) = some last := by
      rw [← List.append_assoc]
      exact run_append_eq_some.mpr ⟨free, hfree, hmore⟩
    have hall : ∀ label ∈ release ++ more, label.Opens := by
      intro label hlabel
      rcases List.mem_append.mp hlabel with hlabel | hlabel
      · exact hopens label hlabel
      · exact hopens' label hlabel
    have hnone : ∀ g', .pop g' ∉ release ++ more :=
      fun g' hg' => hall _ hg'
    have hle := hcapacity _ (release ++ more) last hpop hnone hlast
    obtain ⟨callers', hcallers'⟩ := exists_calls hpos hlast
    have hempty : callers' = ∅ := Finset.eq_empty_of_forall_notMem
      fun g' hg' => hdone g' ((hcallers'.mem g').mp hg')
    have hheld := (held_le_inUse hcallers').2
    rw [hempty, Finset.card_empty, inUse_append_opens hall] at hheld
    rw [(card_openChannels hpos hlast).1] at hle
    have hmore : inUse (before ++ [.pop g]) = inUse before + 1 := by
      obtain ⟨callers'', hcallers''⟩ := exists_calls hpos hearlier
      have hbegun := hcallers''.begun
      have hback := (card_openChannels hpos hearlier).2
      have hpop : begun [.pop g] = 1 ∧ refused [.pop g] = 0 ∧
          givenBack [.pop g] = ∅ := ⟨rfl, rfl, rfl⟩
      rw [inUse, inUse, begun_append, refused_append, givenBack_append,
        hpop.1, hpop.2.1, hpop.2.2, Finset.union_empty]
      omega
    omega
  · intro hrestrained before more middle hbefore hmore hmiddle
    obtain ⟨callers, hcallers⟩ := exists_calls hpos hmiddle
    have hheld := (held_le_inUse hcallers).1
    have huse : inUse (before ++ more) ≤ inUse before :=
      inUse_append_le hmore
    have hbound := hrestrained.inUse_le hpos hbefore
    rw [(card_openChannels hpos hmiddle).1]
    omega

def popCommands (g : Goroutine) : List Label :=
  [.pop g, .select g, .lock g, .newClient g true, .unlock g]

def pushCommands (g : Goroutine) (ch : Channel) : List Label :=
  [.push g (some ch), .offer g, .close g (some ch)]

/-- Two callers that take turns. -/
def turnLabels : List Label :=
  popCommands 0 ++ pushCommands 0 0 ++ popCommands 1

theorem pool_capacity_one :
    ∃ pool, run RabbitMQ.step (NewRabbitMQClientPool 1) turnLabels =
      some pool ∧ pool.opened = 2 ∧ pool.openChannels.card ≤ 1 := by
  have hrun : (run RabbitMQ.step (NewRabbitMQClientPool 1)
      turnLabels).any fun pool => pool.opened = 2 := by decide +kernel
  obtain ⟨pool, hrun, hopened⟩ := (Option.any_eq_true _ _).mp hrun
  rw [decide_eq_true_eq] at hopened
  refine ⟨pool, hrun, hopened, ?_⟩
  have hcapacity := (pool_capacity 1 le_rfl _ pool hrun).mpr ?_
  · have hend := hcapacity turnLabels [] pool List.prefix_rfl (by simp)
      (by rw [List.append_nil]; exact hrun)
    exact_mod_cast hend
  · intro before g hpop
    have hturns : ∀ n < turnLabels.length,
        begun turnLabels[n]?.toList = 1 →
          (inUse (turnLabels.take n) : Int) < 1 := by decide +kernel
    have htake := List.prefix_iff_eq_take.mp
      ((List.prefix_append before _).trans hpop)
    obtain ⟨after, hsplit⟩ := hpop
    have hlength : before.length < turnLabels.length := by
      rw [← hsplit]
      simp
    have hget : turnLabels[before.length]? = some (.pop g) := by
      rw [← hsplit]
      simp
    rw [htake]
    apply hturns _ hlength
    rw [hget]
    rfl

theorem not_pool_capacity :
    ¬ ∀ (maxSize : Int) (pool : Pool), 1 ≤ maxSize →
      Reachable RabbitMQ.step (NewRabbitMQClientPool maxSize) pool →
        (pool.openChannels.card : Int) ≤ maxSize := by
  intro hclaim
  have htwo : (run RabbitMQ.step (NewRabbitMQClientPool 1)
      (popCommands 0 ++ popCommands 1)).any fun pool =>
        pool.openChannels.card = 2 := by decide +kernel
  obtain ⟨pool, hrun, htwo⟩ := (Option.any_eq_true _ _).mp htwo
  rw [decide_eq_true_eq] at htwo
  have hle := hclaim 1 pool le_rfl ⟨_, hrun⟩
  rw [htwo] at hle
  exact absurd hle (by decide)

end SocialNetwork.RabbitMQ
