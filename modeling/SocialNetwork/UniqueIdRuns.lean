import SocialNetwork.UniqueId

/-!
# Ids over whole runs

`Accounting` follows the accepted critical sections: every id comes from one
of them, and the first two sections with the same reading both got counter
one.  Ids are therefore distinct when the accepted readings differ in the
digits that reach the id, and in a run in which all calls have returned they
are distinct only then.
-/

namespace SocialNetwork.UniqueId

open Ids Strconv Machine

variable {machineID : String} {state next : State} {labels : List Label}
  {label : Label}

@[simp] theorem State.setPhase_service (call : Call) (phase : Phase) :
    (state.setPhase call phase).service = state.service := rfl

@[simp] theorem State.setPhase_self (call : Call) (phase : Phase) :
    (state.setPhase call phase).phase call = phase :=
  Function.update_self _ _ _

theorem State.setPhase_of_ne {call call' : Call} (hne : call' ≠ call)
    (phase : Phase) :
    (state.setPhase call phase).phase call' = state.phase call' :=
  Function.update_of_ne hne _ _

/-! ## What each step does -/

theorem getCounter_cases (u : Service) (timestamp : Int64) :
    (timestamp < u.currentTimestamp ∧
        getCounter u timestamp = (.error .timestampsNotIncremental, u)) ∨
      (u.currentTimestamp = timestamp ∧
        getCounter u timestamp =
          (.ok u.counter, { u with counter := u.counter + 1 })) ∨
      (u.currentTimestamp < timestamp ∧
        getCounter u timestamp = (.ok 1, ⟨timestamp, 1⟩)) := by
  unfold getCounter
  by_cases hgt : u.currentTimestamp > timestamp
  · exact .inl ⟨hgt, if_pos hgt⟩
  · rw [if_neg hgt]
    by_cases heq : u.currentTimestamp = timestamp
    · exact .inr (.inl ⟨heq, if_pos heq⟩)
    · refine .inr (.inr ⟨?_, if_neg heq⟩)
      rw [← Int64.toInt_inj] at heq
      rw [gt_iff_lt, Int64.lt_iff_toInt_lt] at hgt
      rw [Int64.lt_iff_toInt_lt]
      omega

theorem step_readClock {call : Call} {timestamp : Int64}
    (hstep : step machineID state (.readClock call timestamp) = some next) :
    state.phase call = .notCalled ∧
      next = state.setPhase call (.read timestamp) := by
  simp only [step] at hstep
  split at hstep
  next hphase => exact ⟨hphase, (Option.some.inj hstep).symm⟩
  next => cases hstep

theorem step_getCounter {call : Call}
    (hstep : step machineID state (.getCounter call) = some next) :
    ∃ timestamp, state.phase call = .read timestamp ∧
      ((timestamp < state.service.currentTimestamp ∧
          next = state.setPhase call (.failed .timestampsNotIncremental)) ∨
        (state.service.currentTimestamp = timestamp ∧
          next = { state with service :=
              ⟨timestamp, state.service.counter + 1⟩ }.setPhase call
                (.counted timestamp state.service.counter)) ∨
        (state.service.currentTimestamp < timestamp ∧
          next = { state with service := ⟨timestamp, 1⟩ }.setPhase call
            (.counted timestamp 1))) := by
  simp only [step] at hstep
  split at hstep
  next timestamp hphase =>
    refine ⟨timestamp, hphase, ?_⟩
    rcases getCounter_cases state.service timestamp with
      ⟨hlt, hget⟩ | ⟨heq, hget⟩ | ⟨hlt, hget⟩
    · rw [hget] at hstep
      exact .inl ⟨hlt, (Option.some.inj hstep).symm⟩
    · rw [hget] at hstep
      subst heq
      exact .inr (.inl ⟨rfl, (Option.some.inj hstep).symm⟩)
    · rw [hget] at hstep
      exact .inr (.inr ⟨hlt, (Option.some.inj hstep).symm⟩)
  next => cases hstep

theorem step_genUniqueID {call : Call}
    (hstep : step machineID state (.genUniqueID call) = some next) :
    ∃ timestamp counter, state.phase call = .counted timestamp counter ∧
      next = state.setPhase call
        (match GenUniqueID machineID timestamp counter with
          | .error err => .failed (.parse err)
          | .ok id => .issued id) := by
  simp only [step] at hstep
  split at hstep
  next timestamp counter hphase =>
    refine ⟨timestamp, counter, hphase, ?_⟩
    split at hstep <;> simp_all
  next => cases hstep

/-! ## Calls and their labels -/

def Phase.HasEntered : Phase → Prop
  | .notCalled | .read _ => False
  | _ => True

structure Schedule (labels : List Label) (state : State) : Prop where
  notCalled : ∀ call,
    state.phase call = .notCalled ↔ reading labels call = none
  read : ∀ call timestamp, state.phase call = .read timestamp →
    reading labels call = some timestamp
  entered : ∀ call,
    .getCounter call ∈ labels ↔ (state.phase call).HasEntered

theorem State.initial_schedule : Schedule [] State.initial where
  notCalled := by simp [State.initial, reading]
  read := by simp [State.initial]
  entered := by simp [State.initial, Phase.HasEntered]

theorem Schedule.readClock (hgood : Schedule labels state) {call : Call}
    {timestamp : Int64}
    (hstep : step machineID state (.readClock call timestamp) = some next) :
    Schedule (labels ++ [.readClock call timestamp]) next := by
  obtain ⟨hphase, rfl⟩ := step_readClock hstep
  have hnone := (hgood.notCalled call).mp hphase
  have hother : ∀ call', call' ≠ call →
      reading (labels ++ [.readClock call timestamp]) call' =
        reading labels call' := by
    intro call' hne
    apply reading_concat
    intro timestamp' heq
    exact hne (Label.readClock.inj heq).1.symm
  constructor
  · intro call'
    by_cases hcall : call' = call
    · subst hcall
      simp [reading_concat_readClock hnone]
    · rw [State.setPhase_of_ne hcall, hother call' hcall]
      exact hgood.notCalled call'
  · intro call' timestamp' hread
    by_cases hcall : call' = call
    · subst hcall
      rw [State.setPhase_self, Phase.read.injEq] at hread
      rw [reading_concat_readClock hnone, hread]
    · rw [State.setPhase_of_ne hcall] at hread
      rw [hother call' hcall]
      exact hgood.read call' timestamp' hread
  · intro call'
    have hmem : .getCounter call' ∈ labels ++ [.readClock call timestamp] ↔
        .getCounter call' ∈ labels := by simp
    rw [hmem, hgood.entered call']
    by_cases hcall : call' = call
    · subst hcall
      simp [hphase, Phase.HasEntered]
    · rw [State.setPhase_of_ne hcall]

/-- The steps after the clock reading move a call into or past its critical
section and read no clock. -/
theorem Schedule.of_entered (hgood : Schedule labels state) (call : Call)
    {phase : Phase} (hlabel : ∀ call' t, label ≠ .readClock call' t)
    (hcalled : state.phase call ≠ .notCalled) (hentered : phase.HasEntered)
    (hmem : ∀ call', .getCounter call' ∈ labels ++ [label] ↔
      .getCounter call' ∈ labels ∨ call' = call)
    (hnext : next.phase = Function.update state.phase call phase) :
    Schedule (labels ++ [label]) next := by
  have hsame : ∀ call', reading (labels ++ [label]) call' =
      reading labels call' := fun call' => reading_concat (hlabel call')
  constructor
  · intro call'
    rw [hsame, ← hgood.notCalled call', hnext]
    by_cases hcall : call' = call
    · subst hcall
      rw [Function.update_self]
      refine iff_of_false ?_ hcalled
      rintro rfl
      exact hentered
    · rw [Function.update_of_ne hcall]
  · intro call' timestamp hread
    rw [hnext] at hread
    rw [hsame]
    by_cases hcall : call' = call
    · subst hcall
      rw [Function.update_self] at hread
      subst hread
      exact absurd hentered id
    · rw [Function.update_of_ne hcall] at hread
      exact hgood.read call' timestamp hread
  · intro call'
    rw [hmem, hgood.entered call', hnext]
    by_cases hcall : call' = call
    · subst hcall
      simp [hentered]
    · simp [hcall]

theorem Schedule.step (hgood : Schedule labels state)
    (hstep : step machineID state label = some next) :
    Schedule (labels ++ [label]) next := by
  cases label with
  | readClock call timestamp => exact hgood.readClock hstep
  | getCounter call =>
      obtain ⟨timestamp, hphase, ⟨-, rfl⟩ | ⟨-, rfl⟩ | ⟨-, rfl⟩⟩ :=
        step_getCounter hstep
      all_goals
        refine hgood.of_entered call (by simp) (by simp [hphase])
          ?_ (by simp [eq_comm]) rfl
        trivial
  | genUniqueID call =>
      obtain ⟨timestamp, counter, hphase, rfl⟩ := step_genUniqueID hstep
      refine hgood.of_entered call (by simp) (by simp [hphase])
        ?_ ?_ rfl
      · split <;> trivial
      · intro call'
        have hentered : .getCounter call ∈ labels := by
          rw [hgood.entered, hphase]
          trivial
        simp only [List.mem_append, List.mem_singleton, reduceCtorEq,
          or_false]
        constructor
        · exact .inl
        · rintro (hmem | rfl)
          · exact hmem
          · exact hentered

theorem run_schedule
    (hrun : run (step machineID) State.initial labels = some state) :
    Schedule labels state :=
  run_induction State.initial_schedule
    (fun _ _ _ _ _ hgood hstep => hgood.step hstep) hrun

theorem Schedule.sections_step (hgood : Schedule labels state)
    (hstep : UniqueId.step machineID state label = some next) :
    (∃ call timestamp, label = .getCounter call ∧
        state.phase call = .read timestamp ∧
        sections (labels ++ [label]) =
          sections labels ++ [(call, timestamp)]) ∨
      (∀ call, label ≠ .getCounter call) ∧
        sections (labels ++ [label]) = sections labels := by
  cases label with
  | readClock call timestamp =>
      obtain ⟨hphase, -⟩ := step_readClock hstep
      refine .inr ⟨by simp, sections_concat_of_ne (by simp) ?_⟩
      intro call' timestamp' heq
      rw [(Label.readClock.inj heq).1] at hphase
      rw [hgood.entered, hphase]
      exact id
  | getCounter call =>
      obtain ⟨timestamp, hphase, -⟩ := step_getCounter hstep
      exact .inl ⟨call, timestamp, rfl, hphase,
        sections_concat_getCounter (hgood.read call timestamp hphase)⟩
  | genUniqueID call =>
      exact .inr ⟨by simp, sections_concat_of_ne (by simp) (by simp)⟩

/-! ## Accepted sections -/

/-- The counter with which the call's id is, or was, formatted. -/
def Phase.Received (machineID : String) : Phase → Int64 → Int64 → Prop
  | .counted timestamp counter, t, k => timestamp = t ∧ counter = k
  | .issued id, t, k => GenUniqueID machineID t k = .ok id
  | .failed (.parse err), t, k => GenUniqueID machineID t k = .error err
  | _, _, _ => False

def accepted (labels : List Label) : List (Call × Int64) :=
  accept (sections labels)

theorem accept_nonneg (calls : List (Call × Int64)) :
    ∀ entry ∈ accept calls, 0 ≤ entry.2 := by
  induction calls using List.reverseRecOn with
  | nil => exact fun entry hmem => absurd hmem List.not_mem_nil
  | append_singleton calls last ih =>
      rw [accept_concat]
      split
      next hlast =>
        intro entry hmem
        rcases List.mem_append.mp hmem with hmem | hmem
        · exact ih entry hmem
        · rw [List.mem_singleton.mp hmem]
          exact hlast.1
      next => exact ih

structure Accounting (machineID : String) (labels : List Label)
    (state : State) : Prop where
  low : -1 ≤ state.service.currentTimestamp
  upper : ∀ entry ∈ accepted labels,
    entry.2 ≤ state.service.currentTimestamp
  latest : 0 ≤ state.service.currentTimestamp →
    ∃ entry ∈ accepted labels, entry.2 = state.service.currentTimestamp
  first : 0 ≤ state.service.currentTimestamp →
    ((accepted labels).map Prod.snd).count state.service.currentTimestamp ≤
        1 → state.service.counter = 1
  calls : ((accepted labels).map Prod.fst).Nodup
  counted : ∀ call timestamp counter,
    state.phase call = .counted timestamp counter → 0 ≤ timestamp →
      (call, timestamp) ∈ accepted labels
  issued : ∀ call id, state.phase call = .issued id →
    ∃ timestamp counter, (call, timestamp) ∈ accepted labels ∧
      GenUniqueID machineID timestamp counter = .ok id
  received : ∀ before call timestamp after,
    accepted labels = before ++ (call, timestamp) :: after →
      ∃ counter, (state.phase call).Received machineID timestamp counter ∧
        ((before.map Prod.snd).count timestamp ≤ 1 → counter = 1)

theorem State.initial_accounting (machineID : String) :
    Accounting machineID [] State.initial where
  low := Int64.le_rfl
  upper := by simp [accepted, sections, accept]
  latest := by decide
  first := by decide
  calls := by simp [accepted, sections, accept]
  counted := by simp [State.initial]
  issued := by simp [State.initial]
  received := by simp [accepted, sections, accept]

theorem Accounting.received_of_mem (hgood : Accounting machineID labels state)
    {call : Call} {timestamp : Int64}
    (hmem : (call, timestamp) ∈ accepted labels) :
    ∃ counter, (state.phase call).Received machineID timestamp counter := by
  obtain ⟨before, after, hsplit⟩ := List.append_of_mem hmem
  obtain ⟨counter, hreceived, -⟩ :=
    hgood.received before call timestamp after hsplit
  exact ⟨counter, hreceived⟩

theorem Accounting.frame (hgood : Accounting machineID labels state)
    {call : Call} {phase : Phase}
    (haccepted : accepted (labels ++ [label]) = accepted labels)
    (hcurrent : next.service.currentTimestamp =
      state.service.currentTimestamp)
    (hcounter : 0 ≤ state.service.currentTimestamp →
      next.service.counter = state.service.counter)
    (hnext : next.phase = Function.update state.phase call phase)
    (hreceived : ∀ t k, (state.phase call).Received machineID t k →
      phase.Received machineID t k)
    (hcounted : ∀ t k, phase = .counted t k → 0 ≤ t →
      (call, t) ∈ accepted labels)
    (hissued : ∀ id, phase = .issued id →
      ∃ t k, (call, t) ∈ accepted labels ∧
        GenUniqueID machineID t k = .ok id) :
    Accounting machineID (labels ++ [label]) next := by
  constructor
  · rw [hcurrent]
    exact hgood.low
  · rw [haccepted, hcurrent]
    exact hgood.upper
  · rw [haccepted, hcurrent]
    exact hgood.latest
  · rw [haccepted, hcurrent]
    intro hnonneg hcount
    rw [hcounter hnonneg]
    exact hgood.first hnonneg hcount
  · rw [haccepted]
    exact hgood.calls
  · intro call' t k hphase hnonneg
    rw [hnext] at hphase
    rw [haccepted]
    by_cases hcall : call' = call
    · subst hcall
      rw [Function.update_self] at hphase
      exact hcounted t k hphase hnonneg
    · rw [Function.update_of_ne hcall] at hphase
      exact hgood.counted call' t k hphase hnonneg
  · intro call' id hphase
    rw [hnext] at hphase
    rw [haccepted]
    by_cases hcall : call' = call
    · subst hcall
      rw [Function.update_self] at hphase
      exact hissued id hphase
    · rw [Function.update_of_ne hcall] at hphase
      exact hgood.issued call' id hphase
  · intro before call' t after hsplit
    rw [haccepted] at hsplit
    obtain ⟨k, hk, hfirst⟩ := hgood.received before call' t after hsplit
    refine ⟨k, ?_, hfirst⟩
    rw [hnext]
    by_cases hcall : call' = call
    · subst hcall
      rw [Function.update_self]
      exact hreceived t k hk
    · rwa [Function.update_of_ne hcall]

/-- The section of a reading that is accepted.  The first one with a new
reading gets one; the second one gets the one that the first has left. -/
theorem Accounting.accept (hgood : Accounting machineID labels state)
    {call : Call} {timestamp counter : Int64} {service : Service}
    (hphase : state.phase call = .read timestamp)
    (hnonneg : 0 ≤ timestamp)
    (haccepted : accepted (labels ++ [label]) =
      accepted labels ++ [(call, timestamp)])
    (hcases : state.service.currentTimestamp = timestamp ∧
        counter = state.service.counter ∨
      state.service.currentTimestamp < timestamp ∧ counter = 1 ∧
        service.counter = 1)
    (hcurrent : service.currentTimestamp = timestamp) :
    Accounting machineID (labels ++ [label])
      ({ state with service := service }.setPhase call
        (.counted timestamp counter)) := by
  have hnew : ∀ t, (call, t) ∉ accepted labels := by
    intro t hmem
    obtain ⟨k, hreceived⟩ := hgood.received_of_mem hmem
    rw [hphase] at hreceived
    exact hreceived
  have hle : state.service.currentTimestamp ≤ timestamp := by
    rcases hcases with ⟨heq, -⟩ | ⟨hlt, -⟩
    · exact heq ▸ Int64.le_rfl
    · exact Int64.le_of_lt hlt
  constructor
  · rw [State.setPhase_service, hcurrent]
    exact Int64.le_trans (by decide) hnonneg
  · rw [State.setPhase_service, hcurrent, haccepted]
    intro entry hmem
    rcases List.mem_append.mp hmem with hmem | hmem
    · exact Int64.le_trans (hgood.upper entry hmem) hle
    · rw [List.mem_singleton.mp hmem]
      exact Int64.le_rfl
  · rw [State.setPhase_service, hcurrent, haccepted]
    intro _
    exact ⟨(call, timestamp), by simp, rfl⟩
  · rw [State.setPhase_service, hcurrent, haccepted]
    intro _ honce
    rw [List.map_append, List.count_append, List.map_singleton,
      List.count_singleton_self] at honce
    rcases hcases with ⟨heq, -⟩ | ⟨-, -, hone⟩
    · obtain ⟨entry, hentry, hlatest⟩ := hgood.latest (heq ▸ hnonneg)
      have hpos : 0 < ((accepted labels).map Prod.snd).count timestamp :=
        List.count_pos_iff.mpr (List.mem_map.mpr
          ⟨entry, hentry, hlatest.trans heq⟩)
      omega
    · exact hone
  · rw [haccepted, List.map_append]
    apply hgood.calls.append (List.nodup_singleton call)
    intro call' hmem hsingle
    rw [List.mem_singleton.mp hsingle] at hmem
    obtain ⟨⟨call', t⟩, hentry, rfl⟩ := List.mem_map.mp hmem
    exact hnew t hentry
  · intro call' t k hcounted hnonneg'
    rw [haccepted, List.mem_append]
    by_cases hcall : call' = call
    · subst hcall
      rw [State.setPhase_self, Phase.counted.injEq] at hcounted
      rw [hcounted.1]
      exact .inr (List.mem_singleton.mpr rfl)
    · rw [State.setPhase_of_ne hcall] at hcounted
      exact .inl (hgood.counted call' t k hcounted hnonneg')
  · intro call' id hissued
    have hcall : call' ≠ call := by
      rintro rfl
      rw [State.setPhase_self] at hissued
      cases hissued
    rw [State.setPhase_of_ne hcall] at hissued
    obtain ⟨t, k, hmem, hid⟩ := hgood.issued call' id hissued
    rw [haccepted]
    exact ⟨t, k, List.mem_append_left _ hmem, hid⟩
  · intro before call' t after hsplit
    rw [haccepted] at hsplit
    rcases List.eq_nil_or_concat after with rfl | ⟨after, last, rfl⟩
    · obtain ⟨rfl, hlast⟩ := List.append_inj' hsplit rfl
      obtain ⟨rfl, rfl⟩ := Prod.mk.inj (List.singleton_inj.mp hlast)
      refine ⟨counter, ?_, ?_⟩
      · rw [State.setPhase_self]
        exact ⟨rfl, rfl⟩
      · intro honce
        rcases hcases with ⟨heq, rfl⟩ | ⟨-, rfl, -⟩
        · subst heq
          exact hgood.first hnonneg honce
        · rfl
    · rw [List.concat_eq_append, ← List.cons_append,
        ← List.append_assoc] at hsplit
      have hbefore := (List.append_inj' hsplit rfl).1
      obtain ⟨k, hreceived, hfirst⟩ :=
        hgood.received before call' t after hbefore
      refine ⟨k, ?_, hfirst⟩
      have hcall : call' ≠ call := by
        rintro rfl
        exact hnew t (hbefore ▸ by simp)
      rwa [State.setPhase_of_ne hcall]

/-- Only a critical section adds to the accepted ones. -/
theorem Schedule.accepted_step (hschedule : Schedule labels state)
    (hstep : UniqueId.step machineID state label = some next)
    (hlabel : ∀ call, label ≠ .getCounter call) :
    accepted (labels ++ [label]) = accepted labels := by
  rcases hschedule.sections_step hstep with ⟨call, _, heq, -⟩ | ⟨-, hsame⟩
  · exact absurd heq (hlabel call)
  · rw [accepted, hsame, accepted]

theorem Accounting.genUniqueID (hschedule : Schedule labels state)
    (hgood : Accounting machineID labels state)
    (hmachine : IsMachineID machineID) {call : Call}
    (hstep : UniqueId.step machineID state (.genUniqueID call) = some next) :
    Accounting machineID (labels ++ [.genUniqueID call]) next := by
  have haccepted := hschedule.accepted_step hstep (by simp)
  obtain ⟨timestamp, counter, hphase, rfl⟩ := step_genUniqueID hstep
  refine hgood.frame haccepted rfl (fun _ => rfl) rfl ?_ ?_ ?_
  · intro t k hreceived
    rw [hphase] at hreceived
    obtain ⟨rfl, rfl⟩ := hreceived
    cases hid : GenUniqueID machineID timestamp counter with
    | error err => exact hid
    | ok id => exact hid
  · intro t k heq
    split at heq
    next => cases heq
    next => cases heq
  · intro id heq
    cases hid : GenUniqueID machineID timestamp counter with
    | error err =>
        rw [hid] at heq
        cases heq
    | ok id' =>
        rw [hid, Phase.issued.injEq] at heq
        subst heq
        exact ⟨timestamp, counter, hgood.counted call timestamp counter
          hphase (nonneg_of_genUniqueID_ok hmachine hid), hid⟩

/-- The three outcomes of `getCounter`: behind the current reading, equal to
it, and ahead of it. -/
theorem Accounting.getCounter (hschedule : Schedule labels state)
    (hgood : Accounting machineID labels state) {call : Call}
    (hstep : UniqueId.step machineID state (.getCounter call) = some next) :
    Accounting machineID (labels ++ [.getCounter call]) next := by
  obtain ⟨timestamp, hphase, hcases⟩ := step_getCounter hstep
  have haccepted : accepted (labels ++ [.getCounter call]) =
      if 0 ≤ timestamp ∧
          ∀ earlier ∈ accepted labels, earlier.2 ≤ timestamp then
        accepted labels ++ [(call, timestamp)]
      else accepted labels := by
    rw [accepted, sections_concat_getCounter
      (hschedule.read call timestamp hphase)]
    exact accept_concat _ _
  have hnotReceived : ∀ t k,
      ¬ (state.phase call).Received machineID t k := by
    intro t k hreceived
    rw [hphase] at hreceived
    exact hreceived
  rcases hcases with ⟨hlt, rfl⟩ | ⟨heq, rfl⟩ | ⟨hlt, rfl⟩
  · have hbehind : ¬ (0 ≤ timestamp ∧
        ∀ earlier ∈ accepted labels, earlier.2 ≤ timestamp) := by
      intro hahead
      obtain ⟨entry, hentry, hlatest⟩ := hgood.latest
        (Int64.le_of_lt (Int64.lt_of_le_of_lt hahead.1 hlt))
      have hle := hahead.2 entry hentry
      rw [hlatest] at hle
      exact Int64.lt_irrefl (Int64.lt_of_lt_of_le hlt hle)
    rw [if_neg hbehind] at haccepted
    exact hgood.frame haccepted rfl (fun _ => rfl) rfl
      (fun t k h => absurd h (hnotReceived t k)) (by simp) (by simp)
  · by_cases hnonneg : 0 ≤ timestamp
    · have hfront : ∀ earlier ∈ accepted labels, earlier.2 ≤ timestamp :=
        fun earlier hmem => heq ▸ hgood.upper earlier hmem
      rw [if_pos ⟨hnonneg, hfront⟩] at haccepted
      exact hgood.accept hphase hnonneg haccepted (.inl ⟨heq, rfl⟩) rfl
    · rw [if_neg fun h => hnonneg h.1] at haccepted
      refine hgood.frame haccepted heq.symm ?_ rfl
        (fun t k h => absurd h (hnotReceived t k)) ?_ (by simp)
      · intro hcurrent
        exact absurd (heq ▸ hcurrent) hnonneg
      · intro t k hcounted hnonneg'
        rw [Phase.counted.injEq] at hcounted
        exact absurd (hcounted.1 ▸ hnonneg') hnonneg
  · have hnonneg : 0 ≤ timestamp := by
      have hlow := Int64.lt_of_le_of_lt hgood.low hlt
      rw [Int64.lt_iff_toInt_lt] at hlow
      rw [Int64.le_iff_toInt_le]
      change (-1 : Int) < timestamp.toInt at hlow
      change (0 : Int) ≤ timestamp.toInt
      omega
    have hfront : ∀ earlier ∈ accepted labels, earlier.2 ≤ timestamp :=
      fun earlier hmem =>
        Int64.le_trans (hgood.upper earlier hmem) (Int64.le_of_lt hlt)
    rw [if_pos ⟨hnonneg, hfront⟩] at haccepted
    exact hgood.accept hphase hnonneg haccepted (.inr ⟨hlt, rfl, rfl⟩) rfl

theorem Accounting.step (hschedule : Schedule labels state)
    (hgood : Accounting machineID labels state)
    (hmachine : IsMachineID machineID)
    (hstep : UniqueId.step machineID state label = some next) :
    Accounting machineID (labels ++ [label]) next := by
  cases label with
  | readClock call timestamp =>
      have haccepted := hschedule.accepted_step hstep (by simp)
      obtain ⟨hphase, rfl⟩ := step_readClock hstep
      refine hgood.frame haccepted rfl (fun _ => rfl) rfl ?_ (by simp)
        (by simp)
      intro t k hreceived
      rw [hphase] at hreceived
      exact absurd hreceived id
  | getCounter call => exact hgood.getCounter hschedule hstep
  | genUniqueID call => exact hgood.genUniqueID hschedule hmachine hstep

theorem run_accounting (hmachine : IsMachineID machineID)
    (hrun : run (step machineID) State.initial labels = some state) :
    Accounting machineID labels state := by
  refine run_induction (State.initial_accounting machineID) ?_ hrun
  intro labels state label next hbefore hgood hstep
  exact hgood.step (run_schedule hbefore) hmachine hstep

/-! ## Distinct ids -/

theorem Accounting.uniqueIds (hgood : Accounting machineID labels state)
    (hmachine : IsMachineID machineID)
    (hdistinct : DistinctReadings labels ∨ ¬ Usable machineID) :
    UniqueIds state := by
  rintro call call' id id' hne hissued hissued' rfl
  obtain ⟨t, k, hmem, hid⟩ := hgood.issued call id hissued
  obtain ⟨t', k', hmem', hid'⟩ := hgood.issued call' id hissued'
  rcases hdistinct with hdistinct | husable
  · have hsame := List.inj_on_of_nodup_map hdistinct hmem hmem'
      (timestampHex_eq_of_genUniqueID_eq hmachine hid hid')
    exact hne (Prod.mk.inj hsame).1
  · exact husable (usable_of_genUniqueID_ok hmachine hid)

private theorem exists_first_repeat {α β : Type} {f : α → β} (xs : List α)
    (h : ¬ (xs.map f).Nodup) :
    ∃ before x after, xs = before ++ x :: after ∧ (before.map f).Nodup ∧
      ∃ y ∈ before, f y = f x := by
  induction xs using List.reverseRecOn with
  | nil => exact absurd List.nodup_nil h
  | append_singleton xs x ih =>
      by_cases hxs : (xs.map f).Nodup
      · refine ⟨xs, x, [], rfl, hxs, ?_⟩
        by_contra hnot
        apply h
        rw [List.map_append]
        apply hxs.append (List.nodup_singleton _)
        intro b hmem hsingle
        obtain ⟨y, hy, rfl⟩ := List.mem_map.mp hmem
        exact hnot ⟨y, hy, List.mem_singleton.mp hsingle⟩
      · obtain ⟨before, y, after, rfl, hnodup, hrepeat⟩ := ih hxs
        exact ⟨before, y, after ++ [x], by simp, hnodup, hrepeat⟩

private theorem count_le_one {before : List (Call × Int64)}
    (hnodup : (before.map fun entry => timestampHex entry.2).Nodup)
    (t : Int64) : (before.map Prod.snd).count t ≤ 1 := by
  have hreadings : (before.map Prod.snd).Nodup := by
    apply List.Nodup.of_map timestampHex
    rwa [List.map_map]
  exact List.nodup_iff_count_le_one.mp hreadings t

/-- A returned call that received one has the id formatted with one. -/
theorem Accounting.issued_of_received
    (hmachine : IsMachineID machineID) (husable : Usable machineID)
    (hreturned : AllReturned state) {call : Call} {t : Int64}
    (hnonneg : 0 ≤ t)
    (hreceived : (state.phase call).Received machineID t 1) :
    ∃ id, state.phase call = .issued id ∧
      GenUniqueID machineID t 1 = .ok id := by
  obtain ⟨id, hid⟩ := exists_genUniqueID hmachine husable hnonneg
    (by decide : (0 : Int64) ≤ 1)
  rcases hreturned call with hphase | ⟨id', hphase⟩ | ⟨err, hphase⟩
  · rw [hphase] at hreceived
    exact absurd hreceived not_false
  · rw [hphase] at hreceived
    exact ⟨id', hphase, hreceived⟩
  · rw [hphase] at hreceived
    cases err with
    | timestampsNotIncremental => exact absurd hreceived not_false
    | parse err =>
        have herror : GenUniqueID machineID t 1 = .error err := hreceived
        rw [hid] at herror
        cases herror

theorem Accounting.distinctReadings
    (hgood : Accounting machineID labels state)
    (hmachine : IsMachineID machineID) (husable : Usable machineID)
    (hreturned : AllReturned state) (hunique : UniqueIds state) :
    DistinctReadings labels := by
  by_contra hrepeat
  obtain ⟨before, ⟨call, t⟩, after, hsplit, hnodup, ⟨call', t'⟩, hmem, htext⟩ :=
    exists_first_repeat (accepted labels) hrepeat
  obtain ⟨first, between, rfl⟩ := List.append_of_mem hmem
  have hsplit' : accepted labels =
      first ++ (call', t') :: (between ++ (call, t) :: after) := by
    rw [hsplit]
    simp
  have hnodup' : (first.map fun entry => timestampHex entry.2).Nodup := by
    rw [List.map_append] at hnodup
    exact hnodup.of_append_left
  obtain ⟨k, hreceived, hone⟩ :=
    hgood.received _ call t after hsplit
  obtain ⟨k', hreceived', hone'⟩ :=
    hgood.received first call' t' _ hsplit'
  rw [hone (count_le_one hnodup t)] at hreceived
  rw [hone' (count_le_one hnodup' t')] at hreceived'
  have hnonneg : ∀ entry ∈ accepted labels, 0 ≤ entry.2 :=
    accept_nonneg (sections labels)
  obtain ⟨id, hissued, hid⟩ := issued_of_received hmachine husable hreturned
    (hnonneg (call, t) (hsplit ▸ by simp)) hreceived
  obtain ⟨id', hissued', hid'⟩ := issued_of_received hmachine husable
    hreturned (hnonneg (call', t') (hsplit' ▸ by simp)) hreceived'
  have hne : call' ≠ call := by
    have hcalls := hgood.calls
    rw [hsplit'] at hcalls
    rintro rfl
    simp [List.nodup_append] at hcalls
  apply hunique call' call id' id hne hissued' hissued
  rw [genUniqueID_congr htext, hid] at hid'
  exact (Except.ok.inj hid').symm

/-- Whatever the machine, the clock readings and the order of the critical
sections: ids are distinct if the accepted readings are, and in runs in which
all calls have returned only if they are. -/
theorem genUniqueID_unique (interfaces : Option (List Interface)) (pid : Int)
    (labels : List Label) (state : State)
    (hrun : run (step (GetMachineID interfaces pid)) State.initial labels =
      some state) :
    (DistinctReadings labels ∨ ¬ Usable (GetMachineID interfaces pid) →
        UniqueIds state) ∧
      (AllReturned state → UniqueIds state →
        DistinctReadings labels ∨
          ¬ Usable (GetMachineID interfaces pid)) := by
  have hmachine := isMachineID interfaces pid
  have hgood := run_accounting hmachine hrun
  refine ⟨hgood.uniqueIds hmachine, fun hreturned hunique => ?_⟩
  by_cases husable : Usable (GetMachineID interfaces pid)
  · exact .inl (hgood.distinctReadings hmachine husable hreturned hunique)
  · exact .inr husable

/-- Two calls, the second of which reads the clock before the first has
entered its critical section. -/
def twoCalls (timestamp timestamp' : Int64) : List Label :=
  [.readClock 0 timestamp, .readClock 1 timestamp', .getCounter 0,
    .getCounter 1, .genUniqueID 0, .genUniqueID 1]

theorem genUniqueID_unique_twoCalls :
    ∃ state, run (step (GetMachineID none 1)) State.initial (twoCalls 5 6) =
      some state ∧ UniqueIds state := by
  have hsome : (run (step (GetMachineID none 1)) State.initial
      (twoCalls 5 6)).isSome := by decide +kernel
  obtain ⟨state, hrun⟩ := Option.isSome_iff_exists.mp hsome
  exact ⟨state, hrun, (genUniqueID_unique none 1 _ state hrun).1
    (.inl (by decide +kernel))⟩

/-- In one millisecond the first call resets the counter to one and returns
it, and the second returns it before raising it. -/
theorem not_genUniqueID_unique :
    ¬ ∀ (interfaces : Option (List Interface)) (pid : Int)
      (labels : List Label) (state : State),
      run (step (GetMachineID interfaces pid)) State.initial labels =
        some state → UniqueIds state := by
  intro hclaim
  have hissued : (run (step (GetMachineID none 1)) State.initial
      (twoCalls 5 5)).any fun state =>
        state.phase 0 = .issued 0x5001 ∧ state.phase 1 = .issued 0x5001 := by
    decide +kernel
  obtain ⟨state, hrun, hissued⟩ := (Option.any_eq_true _ _).mp hissued
  rw [decide_eq_true_eq] at hissued
  exact hclaim none 1 _ state hrun 0 1 _ _ (by decide) hissued.1 hissued.2
    rfl

end SocialNetwork.UniqueId
