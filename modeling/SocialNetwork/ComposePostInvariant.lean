import SocialNetwork.ComposePostTrace

/-!
# Invariants of the compose-post machine

Two invariants relate the state of the machine to the executed labels.
`Accounting` ties the counter of a request and the replies to its `HINCRBY`
commands to the list of increments.  `Contents` ties the hash, the replies of
the `HGET` commands and the posts handed to `StorePost` to the fields that
were written.
-/

namespace SocialNetwork.ComposePost

open Json Redis Machine

variable {requests : Int64 → Request} {state next : State}

@[simp] theorem State.setHash_progress (reqID : Int64) (hash : Hash) :
    (state.setHash reqID hash).progress = state.progress := rfl

@[simp] theorem State.setHash_storePostCalls (reqID : Int64) (hash : Hash) :
    (state.setHash reqID hash).storePostCalls = state.storePostCalls := rfl

@[simp] theorem State.setProgress_hash (e : Execution) (progress : Progress)
    (reqID : Int64) :
    (state.setProgress e progress).hash reqID = state.hash reqID := rfl

@[simp] theorem State.setProgress_storePostCalls (e : Execution)
    (progress : Progress) :
    (state.setProgress e progress).storePostCalls = state.storePostCalls :=
  rfl

@[simp] theorem State.setProgress_self (e : Execution)
    (progress : Progress) :
    (state.setProgress e progress).progress e = progress :=
  Function.update_self _ _ _

theorem State.setProgress_of_ne {e e' : Execution} (hne : e' ≠ e)
    (progress : Progress) :
    (state.setProgress e progress).progress e' = state.progress e' :=
  Function.update_of_ne hne _ _

@[simp] theorem State.setHash_hash_self (reqID : Int64) (hash : Hash) :
    (state.setHash reqID hash).hash reqID = hash :=
  Function.update_self _ _ _

theorem State.setHash_hash_of_ne {reqID other : Int64}
    (hne : other ≠ reqID) (hash : Hash) :
    (state.setHash reqID hash).hash other = state.hash other :=
  Function.update_of_ne (fun h => hne (idText_inj.mp h)) _ _

/-! ## What each step does -/

theorem step_hset {e : Execution}
    (hstep : step requests state (.hset e) = some next) :
    state.progress e = .notCalled ∧
      next = (state.setHash e.reqID (hset (state.hash e.reqID)
        ((requests e.reqID).upload e.method))).setProgress e
          .wroteFields := by
  simp only [step] at hstep
  split at hstep
  next hprogress => exact ⟨hprogress, (Option.some.inj hstep).symm⟩
  next => cases hstep

theorem step_hincrBy {e : Execution} {n : ℕ}
    (hcount : CounterIs (state.hash e.reqID) "num_components" n)
    (hstep : step requests state (.hincrBy e) = some next) :
    state.progress e = .wroteFields ∧
      next = (state.setHash e.reqID (Function.update (state.hash e.reqID)
        "num_components" (some (.num ((n + 1 : ℕ) : Int))))).setProgress e
          (.counted ((n + 1 : ℕ) : Int)) := by
  simp only [step] at hstep
  split at hstep
  next hprogress =>
    rw [hcount.hincrBy] at hstep
    exact ⟨hprogress, (Option.some.inj hstep).symm⟩
  next => cases hstep

theorem step_expire {e : Execution}
    (hstep : step requests state (.expire e) = some next) :
    ∃ n, state.progress e = .counted n ∧
      next = state.setProgress e
        (if n = NUM_COMPONENTS then .composing fun _ => none
          else .returned none) := by
  simp only [step] at hstep
  split at hstep
  next n hprogress =>
    refine ⟨n, hprogress, ?_⟩
    split at hstep
    next hsix => rw [if_pos hsix]; exact (Option.some.inj hstep).symm
    next hsix => rw [if_neg hsix]; exact (Option.some.inj hstep).symm
  next => cases hstep

theorem step_hget {e : Execution} {key : String}
    (hstep : step requests state (.hget e key) = some next) :
    ∃ replies, state.progress e = .composing replies ∧
      key ∈ componentKeys ∧ replies key = none ∧
      next = state.setProgress e (.composing
        (Function.update replies key
          (some (state.hash e.reqID key)))) := by
  simp only [step] at hstep
  split at hstep
  next replies hprogress =>
    split at hstep
    next hready =>
      exact ⟨replies, hprogress, hready.1, hready.2,
        (Option.some.inj hstep).symm⟩
    next => cases hstep
  next => cases hstep

theorem step_join {e : Execution} {timestamp : Int64}
    (hstep : step requests state (.join e timestamp) = some next) :
    ∃ replies, state.progress e = .composing replies ∧
      (∀ key ∈ componentKeys, (replies key).isSome) ∧
      next = state.setProgress e
        (match buildPost e.reqID timestamp fun key => (replies key).join with
          | .error err => .returned (some err)
          | .ok post => .storing post) := by
  simp only [step] at hstep
  split at hstep
  next replies hprogress =>
    split at hstep
    next hready =>
      refine ⟨replies, hprogress, hready, ?_⟩
      split at hstep <;> simp_all
    next => cases hstep
  next => cases hstep

theorem step_storePost {e : Execution}
    (hstep : step requests state (.storePost e) = some next) :
    ∃ post, state.progress e = .storing post ∧
      next = { state.setProgress e (.stored post) with
        storePostCalls := state.storePostCalls ++ [(e, post)] } := by
  simp only [step] at hstep
  split at hstep
  next post hprogress =>
    exact ⟨post, hprogress, (Option.some.inj hstep).symm⟩
  next => cases hstep

theorem step_keyExpired {key : String}
    (hstep : step requests state (.keyExpired key) = some next) :
    next = { state with
      hashes := Function.update state.hashes key Hash.empty } :=
  (Option.some.inj hstep).symm

/-! ## Phases of an execution -/

def Progress.HasIncremented : Progress → Prop
  | .notCalled | .wroteFields => False
  | _ => True

/-- The reply of `HINCRBY`, as far as the phase still tells. -/
def Progress.RepliedWith : Progress → ℕ → Prop
  | .notCalled, _ | .wroteFields, _ => False
  | .counted m, n => m = n
  | .returned none, n => n ≠ 6
  | _, n => n = 6

def Progress.Composes : Progress → Prop
  | .composing _ | .storing _ | .stored _ | .returned (some _) => True
  | _ => False

def Progress.Finished : Progress → Prop
  | .stored _ | .returned _ => True
  | _ => False

instance : DecidablePred Progress.Finished := fun progress => by
  cases progress <;> unfold Progress.Finished <;> infer_instance

theorem Progress.RepliedWith.eq_six {progress : Progress} {n : ℕ}
    (hreply : progress.RepliedWith n) (hcomposes : progress.Composes) :
    n = 6 := by
  cases progress with
  | returned err => cases err <;> simp_all [RepliedWith, Composes]
  | _ => simp_all [RepliedWith, Composes]

theorem Progress.Composes.hasIncremented {progress : Progress}
    (hcomposes : progress.Composes) : progress.HasIncremented := by
  cases progress <;> simp_all [Composes, HasIncremented]

theorem Progress.Finished.hasIncremented {progress : Progress}
    (hfinished : progress.Finished) : progress.HasIncremented := by
  cases progress <;> simp_all [Finished, HasIncremented]

/-- No label but an execution's own `HINCRBY` makes it increment or changes
the reply it got. -/
theorem progress_step {label : Label} (e : Execution)
    (hlabel : label ≠ .hincrBy e)
    (hstep : step requests state label = some next) :
    ((next.progress e).HasIncremented ↔
        (state.progress e).HasIncremented) ∧
      ∀ n, (state.progress e).RepliedWith n →
        (next.progress e).RepliedWith n := by
  cases label with
  | hset e' =>
      obtain ⟨hbefore, rfl⟩ := step_hset hstep
      by_cases he : e = e'
      · subst he
        simp [hbefore, Progress.HasIncremented, Progress.RepliedWith]
      · simp [State.setProgress_of_ne he]
  | hincrBy e' =>
      have he : e ≠ e' := by
        rintro rfl
        exact hlabel rfl
      simp only [step] at hstep
      split at hstep
      next =>
        split at hstep <;> simp only [Option.some.injEq] at hstep <;>
          subst next <;> simp [State.setProgress_of_ne he]
      next => cases hstep
  | expire e' =>
      obtain ⟨m, hbefore, rfl⟩ := step_expire hstep
      by_cases he : e = e'
      · subst he
        rw [State.setProgress_self, hbefore]
        by_cases hsix : m = NUM_COMPONENTS
        · subst hsix
          simp only [if_true, Progress.HasIncremented, Progress.RepliedWith,
            NUM_COMPONENTS, true_and]
          intro n hn
          omega
        · rw [if_neg hsix]
          simp only [Progress.HasIncremented, Progress.RepliedWith, true_and]
          rintro n rfl rfl
          exact hsix rfl
      · simp [State.setProgress_of_ne he]
  | hget e' key =>
      obtain ⟨replies, hbefore, -, -, rfl⟩ := step_hget hstep
      by_cases he : e = e'
      · subst he
        simp [hbefore, Progress.HasIncremented, Progress.RepliedWith]
      · simp [State.setProgress_of_ne he]
  | join e' timestamp =>
      obtain ⟨replies, hbefore, -, rfl⟩ := step_join hstep
      by_cases he : e = e'
      · subst he
        rw [State.setProgress_self, hbefore]
        split <;> simp [Progress.HasIncremented, Progress.RepliedWith]
      · simp [State.setProgress_of_ne he]
  | storePost e' =>
      obtain ⟨post, hbefore, rfl⟩ := step_storePost hstep
      by_cases he : e = e'
      · subst he
        simp [hbefore, Progress.HasIncremented, Progress.RepliedWith,
          State.setProgress]
      · simp [State.setProgress, Function.update_of_ne he]
  | keyExpired key =>
      rw [step_keyExpired hstep]
      simp

theorem notCalled_step {label : Label} (e : Execution)
    (hlabel : label ≠ .hset e)
    (hstep : step requests state label = some next) :
    next.progress e = .notCalled ↔ state.progress e = .notCalled := by
  cases label with
  | hset e' =>
      have he : e ≠ e' := by
        rintro rfl
        exact hlabel rfl
      obtain ⟨-, rfl⟩ := step_hset hstep
      simp [State.setProgress_of_ne he]
  | hincrBy e' =>
      simp only [step] at hstep
      split at hstep
      next hbefore =>
        by_cases he : e = e'
        · subst he
          split at hstep <;> simp only [Option.some.injEq] at hstep <;>
            subst next <;> simp [hbefore]
        · split at hstep <;> simp only [Option.some.injEq] at hstep <;>
            subst next <;> simp [State.setProgress_of_ne he]
      next => cases hstep
  | expire e' =>
      obtain ⟨m, hbefore, rfl⟩ := step_expire hstep
      by_cases he : e = e'
      · subst he
        rw [State.setProgress_self, hbefore]
        split <;> simp
      · simp [State.setProgress_of_ne he]
  | hget e' key =>
      obtain ⟨replies, hbefore, -, -, rfl⟩ := step_hget hstep
      by_cases he : e = e'
      · subst he
        simp [hbefore]
      · simp [State.setProgress_of_ne he]
  | join e' timestamp =>
      obtain ⟨replies, hbefore, -, rfl⟩ := step_join hstep
      by_cases he : e = e'
      · subst he
        rw [State.setProgress_self, hbefore]
        split <;> simp
      · simp [State.setProgress_of_ne he]
  | storePost e' =>
      obtain ⟨post, hbefore, rfl⟩ := step_storePost hstep
      by_cases he : e = e'
      · subst he
        simp [hbefore, State.setProgress]
      · simp [State.setProgress, Function.update_of_ne he]
  | keyExpired key =>
      rw [step_keyExpired hstep]

theorem counter_step {label : Label} (reqID : Int64)
    (hlabel : ∀ e, label ≠ .hincrBy e)
    (hstep : step requests state label = some next) :
    next.hash reqID "num_components" = state.hash reqID "num_components" ∨
      label = .keyExpired (idText reqID) ∧
        next.hash reqID = Hash.empty := by
  cases label with
  | hset e =>
      obtain ⟨-, rfl⟩ := step_hset hstep
      left
      by_cases hreq : reqID = e.reqID
      · subst hreq
        rw [State.setProgress_hash, State.setHash_hash_self]
        apply hset_of_not_mem
        rw [Request.upload_keys]
        exact numComponents_not_mem_keys e.method
      · rw [State.setProgress_hash, State.setHash_hash_of_ne hreq]
  | hincrBy e => exact absurd rfl (hlabel e)
  | expire e =>
      obtain ⟨_, _, rfl⟩ := step_expire hstep
      exact .inl rfl
  | hget e key =>
      obtain ⟨_, _, _, _, rfl⟩ := step_hget hstep
      exact .inl rfl
  | join e timestamp =>
      obtain ⟨_, _, _, rfl⟩ := step_join hstep
      exact .inl rfl
  | storePost e =>
      obtain ⟨_, _, rfl⟩ := step_storePost hstep
      exact .inl rfl
  | keyExpired key =>
      rw [step_keyExpired hstep]
      by_cases hkey : idText reqID = key
      · subst hkey
        exact .inr ⟨rfl, Function.update_self _ _ _⟩
      · exact .inl (congrFun (Function.update_of_ne hkey _ _) _)

/-! ## The counter and the replies -/

structure Accounting (labels : List Label) (state : State) : Prop where
  called : ∀ e, state.progress e = .notCalled ↔ .hset e ∉ labels
  counter : ∀ reqID, ∃ n,
    CounterIs (state.hash reqID) "num_components" n ∧
      n ≤ (increments reqID labels).length ∧
      (.keyExpired (idText reqID) ∉ labels →
        n = (increments reqID labels).length)
  mem_increments : ∀ reqID e,
    e ∈ increments reqID labels ↔
      e.reqID = reqID ∧ (state.progress e).HasIncremented
  nodup : ∀ reqID, (increments reqID labels).Nodup
  reply : ∀ e, (state.progress e).HasIncremented →
    ∃ before after n,
      increments e.reqID labels = before ++ e :: after ∧
        (state.progress e).RepliedWith n ∧
        n ≤ before.length + 1 ∧
        (CountsExact e.reqID labels → n = before.length + 1)

theorem State.initial_accounting : Accounting [] State.initial where
  called := by simp [State.initial]
  counter reqID := ⟨0, counterIs_empty _, le_rfl, fun _ => rfl⟩
  mem_increments := by simp [State.initial, Progress.HasIncremented]
  nodup := by simp
  reply := by simp [State.initial, Progress.HasIncremented]

theorem Accounting.step_of_ne {labels : List Label} {label : Label}
    (hgood : Accounting labels state) (hlabel : ∀ e, label ≠ .hincrBy e)
    (hstep : step requests state label = some next) :
    Accounting (labels ++ [label]) next := by
  constructor
  · intro e
    by_cases hset : label = .hset e
    · subst hset
      obtain ⟨-, rfl⟩ := step_hset hstep
      simp
    · rw [notCalled_step e hset hstep, hgood.called e]
      simp [Ne.symm hset]
  · intro reqID
    rw [increments_concat_of_ne reqID labels hlabel]
    obtain ⟨n, hcount, hle, hexact⟩ := hgood.counter reqID
    rcases counter_step reqID hlabel hstep with hsame | ⟨rfl, hempty⟩
    · refine ⟨n, hcount.congr hsame, hle, fun hexpired => hexact ?_⟩
      exact fun hmem => hexpired (List.mem_append_left _ hmem)
    · rw [hempty]
      exact ⟨0, counterIs_empty _, Nat.zero_le _, by simp⟩
  · intro reqID e
    rw [increments_concat_of_ne reqID labels hlabel,
      hgood.mem_increments reqID e, (progress_step e (hlabel e) hstep).1]
  · intro reqID
    rw [increments_concat_of_ne reqID labels hlabel]
    exact hgood.nodup reqID
  · intro e hincr
    have hphase := progress_step e (hlabel e) hstep
    rw [increments_concat_of_ne e.reqID labels hlabel]
    obtain ⟨before, after, n, hsplit, hreply, hle, hexact⟩ :=
      hgood.reply e (hphase.1.mp hincr)
    exact ⟨before, after, n, hsplit, hphase.2 n hreply, hle,
      fun h => hexact h.of_concat⟩

theorem Accounting.step_hincrBy {labels : List Label} {e : Execution}
    (hgood : Accounting labels state)
    (hstep : step requests state (.hincrBy e) = some next) :
    Accounting (labels ++ [.hincrBy e]) next := by
  obtain ⟨n, hcount, hle, hexact⟩ := hgood.counter e.reqID
  obtain ⟨hbefore, hnext⟩ := ComposePost.step_hincrBy hcount hstep
  have hfresh : ∀ reqID, e ∉ increments reqID labels := by
    intro reqID hmem
    have hincr := ((hgood.mem_increments reqID e).mp hmem).2
    simp [hbefore, Progress.HasIncremented] at hincr
  have hself : next.progress e = .counted ((n + 1 : ℕ) : Int) := by
    rw [hnext, State.setProgress_self]
  constructor
  · intro e'
    rw [notCalled_step e' (by simp) hstep, hgood.called e']
    simp
  · intro reqID
    rw [increments_concat_hincrBy]
    by_cases hreq : e.reqID = reqID
    · subst hreq
      refine ⟨n + 1, ?_, ?_, ?_⟩
      · rw [hnext, State.setProgress_hash, State.setHash_hash_self]
        exact counterIs_update_self _ _ _
      · simp [hle]
      · intro hexpired
        have := hexact fun hmem =>
          hexpired (List.mem_append_left _ hmem)
        simp [this]
    · obtain ⟨m, hm, hmle, hmexact⟩ := hgood.counter reqID
      rw [if_neg hreq, List.append_nil]
      refine ⟨m, ?_, hmle, fun hexpired => hmexact ?_⟩
      · rw [hnext, State.setProgress_hash,
          State.setHash_hash_of_ne (Ne.symm hreq)]
        exact hm
      · exact fun hmem => hexpired (List.mem_append_left _ hmem)
  · intro reqID e'
    rw [increments_concat_hincrBy, List.mem_append]
    by_cases he : e' = e
    · subst he
      by_cases hreq : e'.reqID = reqID <;>
        simp [hself, hreq, hfresh, Progress.HasIncremented]
    · have hlabel : Label.hincrBy e ≠ .hincrBy e' := by
        simpa using Ne.symm he
      rw [(progress_step e' hlabel hstep).1, ← hgood.mem_increments]
      by_cases hreq : e.reqID = reqID <;> simp [hreq, he]
  · intro reqID
    rw [increments_concat_hincrBy]
    by_cases hreq : e.reqID = reqID
    · rw [if_pos hreq]
      apply (hgood.nodup reqID).append (List.nodup_singleton e)
      intro e' hmem hsingle
      rw [List.mem_singleton] at hsingle
      subst e'
      exact hfresh reqID hmem
    · simpa [hreq] using hgood.nodup reqID
  · intro e' hincr
    rw [increments_concat_hincrBy]
    by_cases he : e' = e
    · subst he
      rw [if_pos rfl]
      refine ⟨increments e'.reqID labels, [], n + 1, rfl, ?_, by omega, ?_⟩
      · rw [hself]
        exact rfl
      · intro hcounts
        rw [hexact hcounts.not_expired]
    · have hlabel : Label.hincrBy e ≠ .hincrBy e' := by
        simpa using Ne.symm he
      have hphase := progress_step e' hlabel hstep
      obtain ⟨before, after, m, hsplit, hreply, hmle, hmexact⟩ :=
        hgood.reply e' (hphase.1.mp hincr)
      refine ⟨before, after ++ if e.reqID = e'.reqID then [e] else [], m,
        ?_, hphase.2 m hreply, hmle, fun h => hmexact h.of_concat⟩
      rw [hsplit]
      simp

/-- The counter never exceeds the increments of its request, and equals them
as long as the key has not expired. -/
theorem run_accounting {labels : List Label}
    (hrun : run (step requests) State.initial labels = some state) :
    Accounting labels state := by
  refine run_induction State.initial_accounting ?_ hrun
  intro labels state label next _ hgood hstep
  cases label with
  | hincrBy e => exact hgood.step_hincrBy hstep
  | _ => exact hgood.step_of_ne (by simp) hstep

/-! ## The fields, the replies and the posts -/

/-- A component was missing when `composeAndUpload` asked for it. -/
def Progress.HasMiss : Progress → Prop
  | .composing replies => ∃ key, replies key = some none
  | .returned (some _) => True
  | _ => False

/-- What the phase of one execution says about the executed labels. -/
structure ExecutionContents (requests : Int64 → Request)
    (labels : List Label) (e : Execution) (progress : Progress) : Prop where
  replies : ∀ replies, progress = .composing replies →
    ∀ key reply, replies key = some reply →
      key ∈ componentKeys ∧
        (reply = none ∨ reply = some ((requests e.reqID).component key))
  asked : ∀ key, .hget e key ∈ labels →
    progress.Composes ∧
      ∀ replies, progress = .composing replies → replies key ≠ none
  missed : progress.HasMiss ↔ Missed e labels
  post : ∀ post, progress = .storing post ∨ progress = .stored post →
    ∃ timestamp, post = (requests e.reqID).post e.reqID timestamp

structure Contents (requests : Int64 → Request) (labels : List Label)
    (state : State) : Prop where
  fields : ∀ reqID, ∀ key ∈ componentKeys,
    state.hash reqID key =
      if written reqID key labels then
        some ((requests reqID).component key)
      else none
  execution : ∀ e,
    ExecutionContents requests labels e (state.progress e)
  calls : ∀ e post,
    (e, post) ∈ state.storePostCalls ↔ state.progress e = .stored post
  callers : (state.storePostCalls.map Prod.fst).Nodup

theorem State.initial_contents (requests : Int64 → Request) :
    Contents requests [] State.initial where
  fields := by simp [State.initial, State.hash]
  execution e := by
    constructor <;> simp [State.initial, Progress.HasMiss, not_missed_nil]
  calls := by simp [State.initial]
  callers := by simp [State.initial]

theorem hset_upload (request : Request) (hash : Hash) (method : Method)
    (key : String) :
    hset hash (request.upload method) key =
      if key ∈ method.keys then some (request.component key)
      else hash key := by
  by_cases hkey : key ∈ method.keys
  · rw [if_pos hkey]
    apply hset_of_mem _ (Request.mem_upload hkey)
    rw [Request.upload_keys]
    exact method.keys_nodup
  · rw [if_neg hkey]
    apply hset_of_not_mem
    rwa [Request.upload_keys]

theorem Contents.fields_step {labels : List Label} {label : Label}
    (haccounting : Accounting labels state)
    (hgood : Contents requests labels state)
    (hstep : step requests state label = some next) :
    ∀ reqID, ∀ key ∈ componentKeys,
      next.hash reqID key =
        if written reqID key (labels ++ [label]) then
          some ((requests reqID).component key)
        else none := by
  intro reqID key hkey
  have hold := hgood.fields reqID key hkey
  cases label with
  | hset e =>
      obtain ⟨-, rfl⟩ := step_hset hstep
      rw [State.setProgress_hash, written_concat_hset]
      by_cases hreq : reqID = e.reqID
      · subst hreq
        rw [State.setHash_hash_self, hset_upload, hold]
        by_cases hmem : key ∈ e.method.keys <;> simp [hmem]
      · rw [State.setHash_hash_of_ne hreq, hold]
        simp [Ne.symm hreq]
  | hincrBy e =>
      obtain ⟨n, hcount, -⟩ := haccounting.counter e.reqID
      obtain ⟨-, rfl⟩ := step_hincrBy hcount hstep
      rw [State.setProgress_hash,
        written_concat_of_ne _ _ _ (by simp) (by simp)]
      by_cases hreq : reqID = e.reqID
      · subst hreq
        have hne : key ≠ "num_components" := by
          rintro rfl
          exact numComponents_not_mem_componentKeys hkey
        rw [State.setHash_hash_self, Function.update_of_ne hne, hold]
      · rw [State.setHash_hash_of_ne hreq, hold]
  | expire e =>
      obtain ⟨_, _, rfl⟩ := step_expire hstep
      rw [written_concat_of_ne _ _ _ (by simp) (by simp)]
      exact hold
  | hget e other =>
      obtain ⟨_, _, _, _, rfl⟩ := step_hget hstep
      rw [written_concat_of_ne _ _ _ (by simp) (by simp)]
      exact hold
  | join e timestamp =>
      obtain ⟨_, _, _, rfl⟩ := step_join hstep
      rw [written_concat_of_ne _ _ _ (by simp) (by simp)]
      exact hold
  | storePost e =>
      obtain ⟨_, _, rfl⟩ := step_storePost hstep
      rw [written_concat_of_ne _ _ _ (by simp) (by simp)]
      exact hold
  | keyExpired expired =>
      rw [step_keyExpired hstep, written_concat_keyExpired]
      by_cases hkey' : idText reqID = expired
      · subst hkey'
        simp [State.hash]
      · have hsame : ({ state with
              hashes := Function.update state.hashes expired Hash.empty } :
            State).hash reqID = state.hash reqID :=
          Function.update_of_ne hkey' _ _
        rw [hsame, hold]
        simp [Ne.symm hkey']

/-- The seven replies are joined into a post exactly when none of them was
missing, and then the post is the uploaded one. -/
theorem buildPost_replies {e : Execution} (timestamp : Int64)
    {replies : String → Option (Option Json)}
    (hready : ∀ key ∈ componentKeys, (replies key).isSome)
    (hcontents : ∀ key reply, replies key = some reply →
      key ∈ componentKeys ∧
        (reply = none ∨
          reply = some ((requests e.reqID).component key))) :
    (∃ key, replies key = some none) ∧
        (∃ err, buildPost e.reqID timestamp
          (fun key => (replies key).join) = .error err) ∨
      (¬ ∃ key, replies key = some none) ∧
        buildPost e.reqID timestamp (fun key => (replies key).join) =
          .ok ((requests e.reqID).post e.reqID timestamp) := by
  by_cases hmiss : ∃ key, replies key = some none
  · refine .inl ⟨hmiss, ?_⟩
    obtain ⟨key, hkey⟩ := hmiss
    cases hbuild : buildPost e.reqID timestamp
        fun key => (replies key).join with
    | error err => exact ⟨err, rfl⟩
    | ok post =>
        have hsome := isSome_of_buildPost hbuild key
          (hcontents key none hkey).1
        simp [hkey] at hsome
  · refine .inr ⟨hmiss, Request.buildPost_eq _ _ _ ?_⟩
    intro key hkey
    obtain ⟨reply, hreply⟩ := Option.isSome_iff_exists.mp (hready key hkey)
    rcases (hcontents key reply hreply).2 with rfl | rfl
    · exact absurd ⟨key, hreply⟩ hmiss
    · simp [hreply]

variable {labels : List Label} {label : Label} {e : Execution}
  {progress : Progress}

/-- A label that is not an `HGET` of the execution says nothing new about an
unchanged phase. -/
theorem ExecutionContents.frame
    (hgood : ExecutionContents requests labels e progress) (label : Label)
    (hlabel : ∀ key, label ≠ .hget e key) :
    ExecutionContents requests (labels ++ [label]) e progress where
  replies := hgood.replies
  asked key hmem := by
    rcases List.mem_append.mp hmem with hmem | hmem
    · exact hgood.asked key hmem
    · exact absurd (List.mem_singleton.mp hmem).symm (hlabel key)
  missed := by
    rw [hgood.missed, Missed.concat_iff]
    simp [hlabel]
  post := hgood.post

theorem ExecutionContents.before_composing {progress' : Progress}
    (hgood : ExecutionContents requests labels e progress)
    (hlabel : ∀ key, label ≠ .hget e key)
    (hbefore : ¬ progress.Composes)
    (hafter : progress' = .composing (fun _ => none) ∨
      ¬ progress'.Composes) :
    ExecutionContents requests (labels ++ [label]) e progress' := by
  have hnotAsked : ∀ key, .hget e key ∉ labels ++ [label] := by
    intro key hmem
    rcases List.mem_append.mp hmem with hmem | hmem
    · exact hbefore (hgood.asked key hmem).1
    · exact hlabel key (List.mem_singleton.mp hmem).symm
  have hnotMissed : ¬ Missed e (labels ++ [label]) := by
    rintro ⟨before, key, hpre, -⟩
    exact hnotAsked key (hpre.subset (by simp))
  have hnoMiss : ¬ progress'.HasMiss := by
    rcases hafter with rfl | hafter
    · simp [Progress.HasMiss]
    · intro hmiss
      apply hafter
      cases progress' with
      | returned err =>
          cases err <;> simp_all [Progress.HasMiss, Progress.Composes]
      | _ => simp_all [Progress.HasMiss, Progress.Composes]
  constructor
  · rintro replies rfl key reply hreply
    rcases hafter with heq | hafter
    · simp only [Progress.composing.injEq] at heq
      subst replies
      cases hreply
    · simp [Progress.Composes] at hafter
  · intro key hmem
    exact absurd hmem (hnotAsked key)
  · simp [hnoMiss, hnotMissed]
  · rintro post (rfl | rfl) <;> simp [Progress.Composes] at hafter

theorem ExecutionContents.hget {key : String} {hash : Hash}
    {replies : String → Option (Option Json)}
    (hgood : ExecutionContents requests labels e (.composing replies))
    (hkey : key ∈ componentKeys) (hnew : replies key = none)
    (hhash : hash key =
      if written e.reqID key labels then
        some ((requests e.reqID).component key)
      else none) :
    ExecutionContents requests (labels ++ [.hget e key]) e
      (.composing (Function.update replies key (some (hash key)))) := by
  constructor
  · rintro replies' heq key' reply hreply
    simp only [Progress.composing.injEq] at heq
    subst replies'
    by_cases hsame : key' = key
    · subst key'
      rw [Function.update_self, Option.some.injEq, hhash] at hreply
      subst reply
      refine ⟨hkey, ?_⟩
      split <;> simp
    · rw [Function.update_of_ne hsame] at hreply
      exact hgood.replies replies rfl key' reply hreply
  · intro key' hmem
    refine ⟨trivial, ?_⟩
    rintro replies' heq
    simp only [Progress.composing.injEq] at heq
    subst replies'
    by_cases hsame : key' = key
    · subst key'
      simp
    · rw [Function.update_of_ne hsame]
      have hbefore : .hget e key' ∈ labels := by
        simpa [hsame] using hmem
      exact (hgood.asked key' hbefore).2 replies rfl
  · rw [Missed.concat_iff, ← hgood.missed]
    simp only [Progress.HasMiss, Label.hget.injEq, true_and]
    constructor
    · rintro ⟨key', hmiss⟩
      by_cases hsame : key' = key
      · subst key'
        right
        refine ⟨key, rfl, ?_⟩
        rw [Function.update_self, Option.some.injEq, hhash] at hmiss
        by_contra hwritten
        simp [hwritten] at hmiss
      · rw [Function.update_of_ne hsame] at hmiss
        exact .inl ⟨key', hmiss⟩
    · rintro (⟨key', hmiss⟩ | ⟨key', rfl, hwritten⟩)
      · refine ⟨key', ?_⟩
        rw [Function.update_of_ne]
        · exact hmiss
        · rintro rfl
          rw [hnew] at hmiss
          cases hmiss
      · exact ⟨key, by rw [Function.update_self, hhash, hwritten]; rfl⟩
  · rintro post (heq | heq) <;> cases heq

theorem ExecutionContents.join {timestamp : Int64}
    {replies : String → Option (Option Json)}
    (hgood : ExecutionContents requests labels e (.composing replies))
    (hready : ∀ key ∈ componentKeys, (replies key).isSome) :
    ExecutionContents requests (labels ++ [.join e timestamp]) e
      (match buildPost e.reqID timestamp fun key => (replies key).join with
        | .error err => .returned (some err)
        | .ok post => .storing post) := by
  have hframe := hgood.frame (.join e timestamp) (by simp)
  rcases buildPost_replies timestamp hready
      (hgood.replies replies rfl) with ⟨hmiss, err, herr⟩ | ⟨hmiss, hok⟩
  · rw [herr]
    constructor
    · rintro replies' heq
      cases heq
    · intro key hmem
      exact ⟨trivial, by simp⟩
    · rw [← hframe.missed]
      simp only [Progress.HasMiss, true_iff]
      exact hmiss
    · rintro post (heq | heq) <;> cases heq
  · rw [hok]
    constructor
    · rintro replies' heq
      cases heq
    · intro key hmem
      exact ⟨trivial, by simp⟩
    · rw [← hframe.missed]
      simp only [Progress.HasMiss, false_iff]
      exact hmiss
    · rintro post (heq | heq)
      · simp only [Progress.storing.injEq] at heq
        exact ⟨timestamp, heq.symm⟩
      · cases heq

theorem ExecutionContents.storePost {post : Post}
    (hgood : ExecutionContents requests labels e (.storing post)) :
    ExecutionContents requests (labels ++ [.storePost e]) e
      (.stored post) := by
  have hframe := hgood.frame (.storePost e) (by simp)
  constructor
  · rintro replies heq
    cases heq
  · intro key hmem
    exact ⟨trivial, by simp⟩
  · rw [← hframe.missed]
    simp [Progress.HasMiss]
  · rintro post' (heq | heq)
    · cases heq
    · simp only [Progress.stored.injEq] at heq
      subst post'
      exact hgood.post post (.inl rfl)

/-- A step that moves one execution, to or from a phase other than
`stored`, leaves the calls of `StorePost` as they were. -/
theorem Contents.of_setProgress (hgood : Contents requests labels state)
    (hfields : ∀ reqID, ∀ key ∈ componentKeys,
      next.hash reqID key =
        if written reqID key (labels ++ [label]) then
          some ((requests reqID).component key)
        else none)
    (hprogress : next.progress = Function.update state.progress e progress)
    (hcalls : next.storePostCalls = state.storePostCalls)
    (hlabel : ∀ e' key, e' ≠ e → label ≠ .hget e' key)
    (hbefore : ∀ post, state.progress e ≠ .stored post)
    (hafter : ∀ post, progress ≠ .stored post)
    (hexecution :
      ExecutionContents requests (labels ++ [label]) e progress) :
    Contents requests (labels ++ [label]) next where
  fields := hfields
  execution e' := by
    rw [hprogress]
    by_cases he : e' = e
    · subst he
      rw [Function.update_self]
      exact hexecution
    · rw [Function.update_of_ne he]
      exact (hgood.execution e').frame _ fun key => hlabel e' key he
  calls e' post := by
    rw [hcalls, hprogress, hgood.calls]
    by_cases he : e' = e
    · subst he
      simp [hbefore, hafter]
    · rw [Function.update_of_ne he]
  callers := by
    rw [hcalls]
    exact hgood.callers

theorem Contents.step (haccounting : Accounting labels state)
    (hgood : Contents requests labels state)
    (hstep : step requests state label = some next) :
    Contents requests (labels ++ [label]) next := by
  have hfields := hgood.fields_step haccounting hstep
  cases label with
  | hset e =>
      obtain ⟨hbefore, rfl⟩ := step_hset hstep
      refine hgood.of_setProgress (e := e) hfields rfl rfl (by simp)
        (by simp [hbefore]) (by simp) ?_
      apply (hgood.execution e).before_composing (by simp) <;>
        simp [hbefore, Progress.Composes]
  | hincrBy e =>
      obtain ⟨n, hcount, -⟩ := haccounting.counter e.reqID
      obtain ⟨hbefore, rfl⟩ := step_hincrBy hcount hstep
      refine hgood.of_setProgress (e := e) hfields rfl rfl (by simp)
        (by simp [hbefore]) (by simp) ?_
      apply (hgood.execution e).before_composing (by simp) <;>
        simp [hbefore, Progress.Composes]
  | expire e =>
      obtain ⟨n, hbefore, rfl⟩ := step_expire hstep
      refine hgood.of_setProgress (e := e) hfields rfl rfl (by simp)
        (by simp [hbefore]) (by split <;> simp) ?_
      apply (hgood.execution e).before_composing (by simp)
      · simp [hbefore, Progress.Composes]
      · split <;> simp [Progress.Composes]
  | hget e key =>
      obtain ⟨replies, hbefore, hkey, hnew, rfl⟩ := step_hget hstep
      refine hgood.of_setProgress (e := e) hfields rfl rfl ?_
        (by simp [hbefore]) (by simp) ?_
      · intro e' key' he hlabel
        simp only [Label.hget.injEq] at hlabel
        exact he hlabel.1.symm
      · exact (hbefore ▸ hgood.execution e).hget hkey hnew
          (hgood.fields e.reqID key hkey)
  | join e timestamp =>
      obtain ⟨replies, hbefore, hready, rfl⟩ := step_join hstep
      refine hgood.of_setProgress (e := e) hfields rfl rfl (by simp)
        (by simp [hbefore]) (by split <;> simp) ?_
      exact (hbefore ▸ hgood.execution e).join hready
  | storePost e =>
      obtain ⟨post, hbefore, rfl⟩ := step_storePost hstep
      have hnew : ∀ post', (e, post') ∉ state.storePostCalls := by
        intro post' hmem
        have := (hgood.calls e post').mp hmem
        rw [hbefore] at this
        cases this
      refine ⟨hfields, ?_, ?_, ?_⟩
      · intro e'
        by_cases he : e' = e
        · subst he
          simpa [State.setProgress] using
            (hbefore ▸ hgood.execution e').storePost
        · simpa [State.setProgress, Function.update_of_ne he] using
            (hgood.execution e').frame (.storePost e) (by simp)
      · intro e' post'
        simp only [List.mem_append, List.mem_singleton, Prod.mk.injEq]
        by_cases he : e' = e
        · subst he
          simp [State.setProgress, hnew, eq_comm]
        · simp [State.setProgress, he, hgood.calls]
      · rw [List.map_append, List.map_singleton]
        apply hgood.callers.append (List.nodup_singleton e)
        intro e' hmem hsingle
        rw [List.mem_singleton] at hsingle
        subst e'
        obtain ⟨⟨e', post'⟩, hcall, rfl⟩ := List.mem_map.mp hmem
        exact hnew post' hcall
  | keyExpired key =>
      refine ⟨hfields, ?_, ?_, ?_⟩ <;> rw [step_keyExpired hstep]
      · intro e
        exact (hgood.execution e).frame _ (by simp)
      · exact hgood.calls
      · exact hgood.callers

theorem run_contents
    (hrun : run (step requests) State.initial labels = some state) :
    Contents requests labels state := by
  refine run_induction (State.initial_contents requests) ?_ hrun
  intro labels state label next hbefore hgood hstep
  exact hgood.step (run_accounting hbefore) hstep

end SocialNetwork.ComposePost
