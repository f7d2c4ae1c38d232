import SocialNetwork.ComposeDelivery

/-!
# Compose requests are answered

Every step of a compose request lowers its remaining work, and until the
handler has a reply some step is enabled, whatever has failed before.
-/

namespace SocialNetwork.ComposePostHandler

open Machine
open ComposePost (Method componentKeys)

variable {deployment : Deployment} {request : Request} {method : Method}
  {stores stores' : Stores} {phase phase' : Phase} {action : Action}
  {state next : State} {label : Label} {labels : List Label}

/-! ## Remaining work -/

/-- The keys whose `HGET` has no reply. -/
def missing (replies : String → Option (Option Json)) : Finset String :=
  componentKeys.toFinset.filter fun key => replies key = none

/-- A bound for the steps that a method still takes. -/
def Phase.work (deployment : Deployment) : Phase → ℕ
  | .notCalled => componentKeys.length + deployment.regions.length + 9
  | .called _ => componentKeys.length + deployment.regions.length + 8
  | .wroteFields _ => componentKeys.length + deployment.regions.length + 7
  | .counted _ _ => componentKeys.length + deployment.regions.length + 6
  | .composing replies => (missing replies).card + deployment.regions.length + 5
  | .storing _ => deployment.regions.length + 4
  | .stored _ => deployment.regions.length + 3
  | .popped _ => deployment.regions.length + 2
  | .publishing _ regions => regions.length + 1
  | .returned _ => 0

def State.work (deployment : Deployment) (state : State) : ℕ :=
  ∑ method, (state.phase method).work deployment

theorem card_missing_le (replies : String → Option (Option Json)) :
    (missing replies).card ≤ componentKeys.length :=
  (Finset.card_filter_le _ _).trans (List.toFinset_card_le _)

theorem card_missing_update_lt {replies : String → Option (Option Json)}
    {key : String} (hkey : key ∈ componentKeys) (hnone : replies key = none)
    (reply : Option Json) :
    (missing (Function.update replies key (some reply))).card <
      (missing replies).card := by
  apply Finset.card_lt_card
  refine ⟨?_, ?_⟩
  · intro other hother
    rw [missing, Finset.mem_filter] at hother ⊢
    refine ⟨hother.1, ?_⟩
    by_cases heq : other = key
    · rw [heq]
      exact hnone
    · exact (Function.update_of_ne heq _ _).symm.trans hother.2
  · intro hsubset
    have hmem : key ∈ missing replies :=
      Finset.mem_filter.mpr ⟨List.mem_toFinset.mpr hkey, hnone⟩
    have hreplied := (Finset.mem_filter.mp (hsubset hmem)).2
    rw [Function.update_self] at hreplied
    cases hreplied

theorem work_afterPipeline (numComponents : Int) (err : Option Error) :
    (afterPipeline numComponents err).work deployment <
      componentKeys.length + deployment.regions.length + 6 := by
  unfold afterPipeline
  split
  next => exact Nat.succ_pos _
  next =>
    split
    next =>
      have hle := card_missing_le fun _ => none
      simp only [Phase.work]
      omega
    next => exact Nat.succ_pos _

theorem act_work (hact : act deployment request method stores phase action =
      some (stores', phase')) :
    phase'.work deployment < phase.work deployment := by
  have hcases := act_cases hact
  cases action with
  | call answers =>
      obtain ⟨rfl, -, ⟨err, -, rfl⟩ | ⟨-, rfl⟩ | ⟨fieldsValues, -, rfl⟩⟩ :=
        hcases
      all_goals simp only [Phase.work]; omega
  | hset write =>
      obtain ⟨fieldsValues, rfl, -, rfl⟩ := hcases
      simp only [Phase.work]
      omega
  | hincrBy write =>
      cases phase with
      | wroteFields err =>
          simp only [act] at hact
          split at hact <;> cases hact <;> simp only [Phase.work] <;> omega
      | _ => cases hact
  | expire ok =>
      obtain ⟨numComponents, err, rfl, -, rfl⟩ := hcases
      exact work_afterPipeline _ _
  | hget key ok =>
      obtain ⟨replies, rfl, hkey, hnone, -, rfl⟩ := hcases
      have hlt := card_missing_update_lt hkey hnone
        (if ok then Redis.hget stores.hash key else none)
      simp only [Phase.work]
      omega
  | join timestamp =>
      obtain ⟨replies, rfl, -, -, ⟨err, -, rfl⟩ | ⟨post, -, rfl⟩⟩ := hcases
      all_goals simp only [Phase.work]; omega
  | insertOne write =>
      obtain ⟨post, rfl, ⟨-, -, rfl⟩ | ⟨-, -, rfl⟩⟩ := hcases
      all_goals simp only [Phase.work]; omega
  | pop ok =>
      obtain ⟨post, rfl, -, rfl⟩ := hcases
      cases ok <;> simp [Phase.work]
  | exchangeDeclare ok =>
      obtain ⟨post, rfl, -, rfl⟩ := hcases
      cases ok <;> simp [Phase.work]
  | publish write =>
      obtain ⟨post, region, regions, rfl, -, rfl⟩ := hcases
      simp [Phase.work]
  | writeUserTimeline calls =>
      obtain ⟨post, rfl, -, rfl⟩ := hcases
      simp [Phase.work]

theorem sum_update_lt {work : Phase → ℕ} {phase : Method → Phase}
    (hlt : work phase' < work (phase method)) :
    ∑ other, work (Function.update phase method phase' other) <
      ∑ other, work (phase other) := by
  apply Finset.sum_lt_sum
  · intro other _
    by_cases heq : other = method
    · subst heq
      rw [Function.update_self]
      exact hlt.le
    · rw [Function.update_of_ne heq]
  · refine ⟨method, Finset.mem_univ method, ?_⟩
    rwa [Function.update_self]

theorem step_work (hstep : step deployment request state label = some next) :
    next.work deployment < state.work deployment := by
  obtain ⟨stores, phase, hact, rfl⟩ := step_cases hstep
  exact sum_update_lt (act_work hact)

theorem run_work
    (hrun : run (step deployment request) state labels = some next) :
    labels.length + next.work deployment ≤ state.work deployment := by
  refine run_induction (P := fun labels next =>
    labels.length + next.work deployment ≤ state.work deployment)
    (Nat.zero_add _).le ?_ hrun
  intro labels middle label next _ hle hstep
  have hlt := step_work hstep
  rw [List.length_append, List.length_singleton]
  omega

theorem work_start (deployment : Deployment) (posts : List Post)
    (published : List (String × Message)) (timelines : UserTimeline.Stores) :
    (State.start posts published timelines).work deployment =
      6 * (deployment.regions.length + 16) := by
  have hcard : (Finset.univ : Finset Method).card = 6 := Method.card
  have hkeys : componentKeys.length = 7 := rfl
  simp only [State.work, State.start, Phase.work, Finset.sum_const, hcard,
    hkeys, smul_eq_mul]
  omega

/-! ## Enabled steps -/

/-- A method that has not returned can take a step. -/
theorem exists_act (deployment : Deployment) (request : Request)
    (method : Method) (stores : Stores) (hphase : phase.result = none) :
    ∃ action,
      (act deployment request method stores phase action).isSome := by
  cases phase with
  | notCalled =>
      refine ⟨.call sampleAnswers, ?_⟩
      simp only [act]
      split <;> rfl
  | called fieldsValues => exact ⟨.hset .done, rfl⟩
  | wroteFields err =>
      refine ⟨.hincrBy .done, ?_⟩
      simp only [act]
      split <;> rfl
  | counted numComponents err => exact ⟨.expire true, rfl⟩
  | composing replies =>
      by_cases hall : ∀ key ∈ componentKeys, (replies key).isSome
      · refine ⟨.join 0, ?_⟩
        simp only [act, if_pos hall]
        split <;> rfl
      · push Not at hall
        obtain ⟨key, hkey, hnone⟩ := hall
        have hready : key ∈ componentKeys ∧ replies key = none :=
          ⟨hkey, by simpa using hnone⟩
        refine ⟨.hget key true, ?_⟩
        simp only [act, if_pos hready]
        rfl
  | storing post => exact ⟨.insertOne .done, rfl⟩
  | stored post => exact ⟨.pop true, rfl⟩
  | popped post => exact ⟨.exchangeDeclare true, rfl⟩
  | publishing post regions =>
      cases regions with
      | nil => exact ⟨.writeUserTimeline .succeed, rfl⟩
      | cons region regions => exact ⟨.publish .done, rfl⟩
  | returned err => cases hphase

theorem exists_step_of_result (hmethod : method = .text →
      state.result .urls = some none) (hresult : state.result method = none) :
    ∃ label, (step deployment request state label).isSome := by
  obtain ⟨action, haction⟩ := exists_act deployment request method
    state.stores hresult
  have henabled : state.Enabled ⟨method, action⟩ := hmethod
  refine ⟨⟨method, action⟩, ?_⟩
  rw [step, if_pos henabled, Option.isSome_map]
  exact haction

/-- Without a reply some step is enabled. -/
theorem exists_step (deployment : Deployment)
    (hreply : composePostHandler request state = none) :
    ∃ label, (step deployment request state label).isSome := by
  by_contra hstuck
  have hresult : ∀ method,
      (method = .text → state.result .urls = some none) →
      ∃ err, state.result method = some err := by
    intro method hmethod
    rw [← Option.ne_none_iff_exists']
    exact fun hnone => hstuck (exists_step_of_result hmethod hnone)
  obtain ⟨urls, hurls⟩ := hresult .urls (by simp)
  obtain ⟨userMentions, huserMentions⟩ := hresult .userMentions (by simp)
  obtain ⟨media, hmedia⟩ := hresult .media (by simp)
  obtain ⟨uniqueId, huniqueId⟩ := hresult .uniqueId (by simp)
  obtain ⟨creator, hcreator⟩ := hresult .creator (by simp)
  have htext : ∃ err, state.textResult = some err := by
    unfold State.textResult
    cases urls with
    | some err => exact ⟨some err, by simp [hurls]⟩
    | none =>
        obtain ⟨text, htext⟩ := hresult .text fun _ => hurls
        cases userMentions with
        | some err => exact ⟨some err, by simp [hurls, huserMentions]⟩
        | none => exact ⟨text, by simp [hurls, huserMentions, htext]⟩
  obtain ⟨text, htext⟩ := htext
  unfold composePostHandler at hreply
  simp only [htext, hmedia, huniqueId, hcreator, Option.bind_eq_bind,
    Option.bind_some] at hreply
  split at hreply <;> cases hreply

/-- The steps go on until there is a reply. -/
theorem exists_reply (deployment : Deployment) (request : Request)
    (state : State) :
    ∃ labels final reply,
      run (step deployment request) state labels = some final ∧
        composePostHandler request final = some reply := by
  induction hwork : state.work deployment using Nat.strong_induction_on
      generalizing state with
  | h work ih =>
      cases hreply : composePostHandler request state with
      | some reply => exact ⟨[], state, reply, rfl, hreply⟩
      | none =>
          obtain ⟨label, hlabel⟩ := exists_step deployment hreply
          obtain ⟨next, hnext⟩ := Option.isSome_iff_exists.mp hlabel
          have hlt := step_work hnext
          rw [hwork] at hlt
          obtain ⟨labels, final, reply, hrun, hfinal⟩ := ih _ hlt next rfl
          refine ⟨label :: labels, final, reply, ?_, hfinal⟩
          rw [run_cons, hnext, Option.bind_some, hrun]

/-! ## Replies -/

/-- What a method has returned stays. -/
def State.Extends (next state : State) : Prop :=
  ∀ method err, state.result method = some err →
    next.result method = some err

theorem step_extends
    (hstep : step deployment request state label = some next) :
    next.Extends state := by
  obtain ⟨stores, phase, hact, rfl⟩ := step_cases hstep
  intro method err hresult
  by_cases hmethod : method = label.method
  · subst hmethod
    have hreturned : state.phase label.method = .returned err := by
      unfold State.result Phase.result at hresult
      split at hresult
      next err' hphase => rw [hphase, Option.some.inj hresult]
      next => cases hresult
    have hlt := act_work hact
    rw [hreturned] at hlt
    exact absurd hlt (Nat.not_lt_zero _)
  · unfold State.result at hresult ⊢
    rw [State.set_phase_of_ne state hmethod]
    exact hresult

theorem run_extends
    (hrun : run (step deployment request) state labels = some next) :
    next.Extends state :=
  run_invariant (P := fun next => next.Extends state)
    (fun _ _ hresult => hresult)
    (fun _ _ _ hgood hstep method err hresult =>
      step_extends hstep method err (hgood method err hresult)) hrun

theorem State.Extends.textResult (hextends : next.Extends state)
    {err : Option Error} (htext : state.textResult = some err) :
    next.textResult = some err := by
  unfold State.textResult at htext ⊢
  simp only [Option.bind_eq_bind, Option.bind_eq_some_iff] at htext ⊢
  obtain ⟨urls, hurls, htext⟩ := htext
  refine ⟨urls, hextends _ _ hurls, ?_⟩
  cases urls with
  | some err => exact htext
  | none =>
      simp only [Option.bind_eq_some_iff] at htext ⊢
      obtain ⟨userMentions, huserMentions, htext⟩ := htext
      refine ⟨userMentions, hextends _ _ huserMentions, ?_⟩
      cases userMentions with
      | some err => exact htext
      | none => exact hextends _ _ htext

theorem State.Extends.reply (hextends : next.Extends state)
    {reply : Except Error String}
    (hreply : composePostHandler request state = some reply) :
    composePostHandler request next = some reply := by
  unfold composePostHandler at hreply ⊢
  simp only [Option.bind_eq_bind, Option.bind_eq_some_iff] at hreply ⊢
  obtain ⟨text, htext, media, hmedia, uniqueId, huniqueId, creator, hcreator,
    hreply⟩ := hreply
  exact ⟨text, hextends.textResult htext, media, hextends _ _ hmedia,
    uniqueId, hextends _ _ huniqueId, creator, hextends _ _ hcreator, hreply⟩

/-- Whatever is interleaved and whatever fails, a request takes a bounded
number of steps, some step is enabled until it is answered, and the answer is
final. -/
theorem composePostHandler_answers {posts : List Post}
    {published : List (String × Message)} {timelines : UserTimeline.Stores}
    (hrun : run (step deployment request) (.start posts published timelines)
      labels = some state) :
    labels.length ≤ 6 * (deployment.regions.length + 16) ∧
      (composePostHandler request state = none →
        ∃ label, (step deployment request state label).isSome) ∧
      ∃ after final reply,
        run (step deployment request) state after = some final ∧
          composePostHandler request final = some reply ∧
          ∀ later last,
            run (step deployment request) final later = some last →
              composePostHandler request last = some reply := by
  have hwork := run_work hrun
  rw [work_start] at hwork
  obtain ⟨after, final, reply, hafter, hreply⟩ :=
    exists_reply deployment request state
  refine ⟨by omega, exists_step deployment, after, final, reply, hafter,
    hreply, ?_⟩
  intro later last hlater
  exact (run_extends hlater).reply hreply

theorem composePostHandler_answers_sample :
    ∃ state, run (step sampleDeployment sampleRequest)
        (.start [] [] UserTimeline.Stores.empty)
        [⟨.creator, .call sampleAnswers⟩] = some state ∧
      ∃ after final reply,
        run (step sampleDeployment sampleRequest) state after = some final ∧
          composePostHandler sampleRequest final = some reply := by
  obtain ⟨state, hrun⟩ : ∃ state, run (step sampleDeployment sampleRequest)
      (.start [] [] UserTimeline.Stores.empty)
      [⟨.creator, .call sampleAnswers⟩] = some state := ⟨_, rfl⟩
  obtain ⟨-, -, after, final, reply, hafter, hreply, -⟩ :=
    composePostHandler_answers hrun
  exact ⟨state, hrun, after, final, reply, hafter, hreply⟩

end SocialNetwork.ComposePostHandler
