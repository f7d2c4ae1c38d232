import SocialNetwork.ComposePostInvariant

/-!
# Composition is an all-or-nothing join

At most one execution per request is told `NUM_COMPONENTS`, because a reply
of six needs six increments and the executions are distinct methods.  That
execution finds all fields unless the key expires first, and a missing field
makes it fail before `StorePost`.
-/

namespace SocialNetwork.ComposePost

open Json Redis Machine

variable {requests : Int64 → Request} {state : State} {labels : List Label}
  {reqID : Int64}

def State.storedFor (state : State) (reqID : Int64) : List Post :=
  (state.storePostCalls.filter fun call => call.1.reqID = reqID).map Prod.snd

/-- Each method is executed at most once for each request. -/
def AtMostOnce (labels : List Label) : Prop :=
  ∀ e e', .hset e ∈ labels → .hset e' ∈ labels →
    e.reqID = e'.reqID → e.method = e'.method → e = e'

/-- Every expiry of the request's key comes after its seven `HGET`s. -/
def NoExpiryBeforeReads (reqID : Int64) (labels : List Label) : Prop :=
  ∀ before, before ++ [.keyExpired (idText reqID)] <+: labels →
    ∀ key ∈ componentKeys, ∃ e, e.reqID = reqID ∧ .hget e key ∈ before

/-! ## The composing execution -/

theorem Accounting.hset_of_hasIncremented (hgood : Accounting labels state)
    {e : Execution} (hincr : (state.progress e).HasIncremented) :
    .hset e ∈ labels := by
  by_contra hnot
  rw [(hgood.called e).mpr hnot] at hincr
  exact hincr

theorem Accounting.exists_split_of_composes (hgood : Accounting labels state)
    {e : Execution} (hcomposes : (state.progress e).Composes) :
    ∃ before after, increments e.reqID labels = before ++ e :: after ∧
      5 ≤ before.length ∧
      (CountsExact e.reqID labels → before.length = 5) := by
  obtain ⟨before, after, n, hsplit, hreply, hle, hexact⟩ :=
    hgood.reply e hcomposes.hasIncremented
  have hsix := hreply.eq_six hcomposes
  refine ⟨before, after, hsplit, by omega, fun hcounts => ?_⟩
  have := hexact hcounts
  omega

theorem Accounting.six_le_of_composes (hgood : Accounting labels state)
    {e : Execution} (hcomposes : (state.progress e).Composes) :
    6 ≤ (increments e.reqID labels).length := by
  obtain ⟨before, after, hsplit, hle, -⟩ :=
    hgood.exists_split_of_composes hcomposes
  rw [hsplit, List.length_append, List.length_cons]
  omega

def ComposerUnique (reqID : Int64) (state : State) : Prop :=
  ∀ e e', e.reqID = reqID → e'.reqID = reqID →
    (state.progress e).Composes → (state.progress e').Composes → e = e'

private theorem eq_of_splits {e e' : Execution}
    {before before' after after' : List Execution}
    (h : before ++ e :: after = before' ++ e' :: after')
    (hlen : before.length = before'.length) : e = e' :=
  (List.cons.inj (List.append_inj_right h hlen)).1

theorem Accounting.composerUnique_of_countsExact
    (hgood : Accounting labels state) (hexact : CountsExact reqID labels) :
    ComposerUnique reqID state := by
  rintro e e' rfl hreq hcomposes hcomposes'
  obtain ⟨before, after, hsplit, -, hfive⟩ :=
    hgood.exists_split_of_composes hcomposes
  obtain ⟨before', after', hsplit', -, hfive'⟩ :=
    hgood.exists_split_of_composes hcomposes'
  rw [hreq] at hsplit' hfive'
  apply eq_of_splits (hsplit.symm.trans hsplit')
  rw [hfive hexact, hfive' hexact]

theorem Accounting.methods_nodup (hgood : Accounting labels state)
    (honce : AtMostOnce labels) (reqID : Int64) :
    ((increments reqID labels).map Execution.method).Nodup := by
  apply List.Nodup.map_on _ (hgood.nodup reqID)
  intro e hmem e' hmem' hmethod
  obtain ⟨hreq, hincr⟩ := (hgood.mem_increments reqID e).mp hmem
  obtain ⟨hreq', hincr'⟩ := (hgood.mem_increments reqID e').mp hmem'
  exact honce e e' (hgood.hset_of_hasIncremented hincr)
    (hgood.hset_of_hasIncremented hincr') (hreq.trans hreq'.symm) hmethod

theorem Accounting.increments_length_le (hgood : Accounting labels state)
    (honce : AtMostOnce labels) (reqID : Int64) :
    (increments reqID labels).length ≤ 6 := by
  have hcard := (hgood.methods_nodup honce reqID).length_le_card
  rwa [List.length_map, Method.card] at hcard

theorem Accounting.composerUnique_of_atMostOnce
    (hgood : Accounting labels state) (honce : AtMostOnce labels) :
    ComposerUnique reqID state := by
  rintro e e' rfl hreq hcomposes hcomposes'
  obtain ⟨before, after, hsplit, hfive, -⟩ :=
    hgood.exists_split_of_composes hcomposes
  obtain ⟨before', after', hsplit', hfive', -⟩ :=
    hgood.exists_split_of_composes hcomposes'
  rw [hreq] at hsplit'
  have hle := hgood.increments_length_le honce e.reqID
  have hlen := congrArg List.length hsplit
  have hlen' := congrArg List.length hsplit'
  simp only [List.length_append, List.length_cons] at hlen hlen'
  apply eq_of_splits (hsplit.symm.trans hsplit')
  omega

theorem Accounting.exists_increment_of_composes
    (hgood : Accounting labels state) (honce : AtMostOnce labels)
    {e : Execution} (hcomposes : (state.progress e).Composes)
    (method : Method) :
    ∃ e' ∈ increments e.reqID labels, e'.method = method := by
  have hnodup := hgood.methods_nodup honce e.reqID
  have hfull : ((increments e.reqID labels).map Execution.method).toFinset =
      Finset.univ := by
    apply Finset.eq_univ_of_card
    apply le_antisymm (Finset.card_le_univ _)
    rw [List.toFinset_card_of_nodup hnodup, List.length_map, Method.card]
    exact hgood.six_le_of_composes hcomposes
  have hmem : method ∈
      ((increments e.reqID labels).map Execution.method).toFinset := by
    rw [hfull]
    exact Finset.mem_univ method
  simpa using hmem

/-! ## The stored posts -/

theorem mem_storedFor {post : Post} :
    post ∈ state.storedFor reqID ↔
      ∃ e, e.reqID = reqID ∧ (e, post) ∈ state.storePostCalls := by
  simp only [State.storedFor, List.mem_map, List.mem_filter,
    decide_eq_true_eq, Prod.exists]
  constructor
  · rintro ⟨e, post', ⟨hcall, hreq⟩, rfl⟩
    exact ⟨e, hreq, hcall⟩
  · rintro ⟨e, hreq, hcall⟩
    exact ⟨e, post, ⟨hcall, hreq⟩, rfl⟩

theorem Contents.storedFor_length_le (hgood : Contents requests labels state)
    (hunique : ComposerUnique reqID state) :
    (state.storedFor reqID).length ≤ 1 := by
  let callers := (state.storePostCalls.filter fun call =>
    call.1.reqID = reqID).map Prod.fst
  have hnodup : callers.Nodup :=
    hgood.callers.sublist (List.filter_sublist.map _)
  have hcomposer : ∀ e ∈ callers,
      e.reqID = reqID ∧ (state.progress e).Composes := by
    intro e hmem
    obtain ⟨⟨e, post⟩, hcall, rfl⟩ := List.mem_map.mp hmem
    rw [List.mem_filter, decide_eq_true_eq] at hcall
    refine ⟨hcall.2, ?_⟩
    rw [(hgood.calls e post).mp hcall.1]
    trivial
  have hlength : (state.storedFor reqID).length = callers.length := by
    simp [State.storedFor, callers]
  rw [hlength, ← List.toFinset_card_of_nodup hnodup, Finset.card_le_one]
  intro e hmem e' hmem'
  rw [List.mem_toFinset] at hmem hmem'
  obtain ⟨hreq, hcomposes⟩ := hcomposer e hmem
  obtain ⟨hreq', hcomposes'⟩ := hcomposer e' hmem'
  exact hunique e e' hreq hreq' hcomposes hcomposes'

theorem Contents.exists_eq_post (hgood : Contents requests labels state)
    {post : Post} (hmem : post ∈ state.storedFor reqID) :
    ∃ timestamp, post = (requests reqID).post reqID timestamp := by
  obtain ⟨e, rfl, hcall⟩ := mem_storedFor.mp hmem
  exact (hgood.execution e).post post (.inr ((hgood.calls e post).mp hcall))

/-- Six increments, a sixth execution that has finished and no early `HGET`:
then the post has been stored, once. -/
theorem storedFor_eq_singleton (haccounting : Accounting labels state)
    (hcontents : Contents requests labels state)
    (hexact : CountsExact reqID labels)
    (hsix : 6 ≤ (increments reqID labels).length)
    (hfinished : ∀ e ∈ increments reqID labels,
      (state.progress e).Finished)
    (hmissed : ∀ e, e.reqID = reqID → ¬ Missed e labels) :
    ∃ timestamp,
      state.storedFor reqID = [(requests reqID).post reqID timestamp] := by
  let e := (increments reqID labels).get ⟨5, by omega⟩
  have hmem : e ∈ increments reqID labels := List.get_mem _ _
  obtain ⟨hreq, hincr⟩ := (haccounting.mem_increments reqID e).mp hmem
  obtain ⟨before, after, n, hsplit, hreply, -, hn⟩ := haccounting.reply e hincr
  have hlength : before.length = 5 := by
    have hnodup := haccounting.nodup reqID
    rw [hreq] at hsplit
    have hget : (increments reqID labels)[before.length]? = some e := by
      rw [hsplit]
      simp
    have hfive : (increments reqID labels)[5]? = some e :=
      List.getElem?_eq_getElem (by omega)
    obtain ⟨hlt, hbefore⟩ := List.getElem?_eq_some_iff.mp hget
    obtain ⟨hlt', hfifth⟩ := List.getElem?_eq_some_iff.mp hfive
    exact (hnodup.getElem_inj_iff).mp (hbefore.trans hfifth.symm)
  have hsixth : (state.progress e).RepliedWith 6 := by
    have := hn (hreq ▸ hexact)
    rwa [this, hlength] at hreply
  have hstored : ∃ post, state.progress e = .stored post := by
    have hdone := hfinished e hmem
    have hmiss : ¬ (state.progress e).HasMiss := by
      rw [(hcontents.execution e).missed]
      exact hmissed e hreq
    cases hprogress : state.progress e with
    | stored post => exact ⟨post, rfl⟩
    | returned err =>
        rw [hprogress] at hsixth hmiss
        cases err <;> simp_all [Progress.RepliedWith, Progress.HasMiss]
    | _ => simp [hprogress, Progress.Finished] at hdone
  obtain ⟨post, hprogress⟩ := hstored
  have hmemStored : post ∈ state.storedFor reqID :=
    mem_storedFor.mpr ⟨e, hreq, (hcontents.calls e post).mpr hprogress⟩
  obtain ⟨timestamp, rfl⟩ := hcontents.exists_eq_post hmemStored
  have hle := hcontents.storedFor_length_le
    (haccounting.composerUnique_of_countsExact hexact)
  have hlengthOne : (state.storedFor reqID).length = 1 :=
    le_antisymm hle (List.length_pos_of_mem hmemStored)
  obtain ⟨post, hlist⟩ := List.length_eq_one_iff.mp hlengthOne
  rw [hlist, List.mem_singleton] at hmemStored
  exact ⟨timestamp, by rw [hlist, hmemStored]⟩

/-! ## Executions that run at most once -/

theorem AtMostOnce.of_prefix {before : List Label}
    (honce : AtMostOnce labels) (hpre : before <+: labels) :
    AtMostOnce before :=
  fun e e' hmem hmem' => honce e e' (hpre.subset hmem)
    (hpre.subset hmem')

theorem expired_of_mem {before : List Label}
    (hmem : .keyExpired (idText reqID) ∈ before) :
    ∃ earlier, earlier ++ [.keyExpired (idText reqID)] <+: before := by
  obtain ⟨earlier, after, rfl⟩ := List.append_of_mem hmem
  exact ⟨earlier, after, by simp⟩

/-- An increment after an expiry would be the seventh. -/
theorem countsExact_of_atMostOnce
    (hrun : run (step requests) State.initial labels = some state)
    (honce : AtMostOnce labels)
    (hexpiry : NoExpiryBeforeReads reqID labels) :
    CountsExact reqID labels := by
  rintro before e hpre rfl hmem
  obtain ⟨earlier, hearlier⟩ := expired_of_mem hmem
  have hbefore : before <+: labels :=
    (List.prefix_append _ _).trans hpre
  obtain ⟨composer, hreq, hasked⟩ :=
    hexpiry earlier (hearlier.trans hbefore) "text" (by decide)
  have hpre' : earlier <+: before :=
    (List.prefix_append _ _).trans hearlier
  obtain ⟨middle, hmiddle⟩ :=
    exists_run_of_prefix (hpre'.trans hbefore) hrun
  have hcomposes := (((run_contents hmiddle).execution composer).asked
    "text" hasked).1
  have hsix := (run_accounting hmiddle).six_le_of_composes hcomposes
  rw [hreq] at hsix
  have hmore := increments_length_le_of_prefix e.reqID hpre'
  have hlast := increments_length_le_of_prefix e.reqID hpre
  rw [increments_concat_hincrBy, if_pos rfl, List.length_append,
    List.length_singleton] at hlast
  have := (run_accounting hrun).increments_length_le honce e.reqID
  omega

/-- The composing execution finds every field, because all six methods have
written and it reads before the key expires. -/
theorem not_missed_of_atMostOnce
    (hrun : run (step requests) State.initial labels = some state)
    (honce : AtMostOnce labels)
    (hexpiry : NoExpiryBeforeReads reqID labels) {e : Execution}
    (hreq : e.reqID = reqID) : ¬ Missed e labels := by
  subst hreq
  rintro ⟨before, key, hpre, hwritten⟩
  have hbefore : before <+: labels :=
    (List.prefix_append _ _).trans hpre
  obtain ⟨after, rfl⟩ := hpre
  rw [List.append_assoc, List.singleton_append] at hrun
  obtain ⟨middle, next, hmiddle, hstep, -⟩ := exists_step_of_run hrun
  obtain ⟨replies, hphase, hkey, hnew, -⟩ := step_hget hstep
  have haccounting := run_accounting hmiddle
  have hcontents := run_contents hmiddle
  have honce' := honce.of_prefix hbefore
  have hcomposes : (middle.progress e).Composes := by
    rw [hphase]
    trivial
  by_cases hexpired : .keyExpired (idText e.reqID) ∈ before
  · -- The reader that came before the expiry composes, so it is `e` itself.
    obtain ⟨earlier, hearlier⟩ := expired_of_mem hexpired
    obtain ⟨reader, hreader, hasked⟩ :=
      hexpiry earlier (hearlier.trans hbefore) key hkey
    have hasked' : .hget reader key ∈ before :=
      hearlier.subset (List.mem_append_left _ hasked)
    have hsame := haccounting.composerUnique_of_atMostOnce honce' reader e
      hreader rfl ((hcontents.execution reader).asked key hasked').1 hcomposes
    subst hsame
    exact ((hcontents.execution reader).asked key hasked').2 replies hphase
      hnew
  · obtain ⟨method, hmethod⟩ := exists_method_of_mem_componentKeys hkey
    obtain ⟨writer, hmem, rfl⟩ :=
      haccounting.exists_increment_of_composes honce' hcomposes method
    obtain ⟨hwriter, hincr⟩ :=
      (haccounting.mem_increments e.reqID writer).mp hmem
    have hpresent := (written_iff_of_not_expired hexpired key).mpr
      ⟨writer, haccounting.hset_of_hasIncremented hincr, hwriter, hmethod⟩
    rw [hwritten] at hpresent
    cases hpresent

theorem storedFor_eq_nil
    (hrun : run (step requests) State.initial labels = some state)
    (honce : AtMostOnce labels) {method : Method}
    (hnever : ∀ e, e.reqID = reqID → e.method = method → .hset e ∉ labels) :
    state.storedFor reqID = [] := by
  have haccounting := run_accounting hrun
  have hcontents := run_contents hrun
  rw [List.eq_nil_iff_forall_not_mem]
  intro post hmem
  obtain ⟨e, rfl, hcall⟩ := mem_storedFor.mp hmem
  have hcomposes : (state.progress e).Composes := by
    rw [(hcontents.calls e post).mp hcall]
    trivial
  obtain ⟨e', hmem', hmethod⟩ :=
    haccounting.exists_increment_of_composes honce hcomposes method
  obtain ⟨hreq, hincr⟩ := (haccounting.mem_increments e.reqID e').mp hmem'
  exact hnever e' hreq hmethod (haccounting.hset_of_hasIncremented hincr)

def AllFinished (reqID : Int64) (state : State) : Prop :=
  ∀ method, ∃ e : Execution, e.reqID = reqID ∧ e.method = method ∧
    (state.progress e).Finished

theorem Accounting.six_le_of_allFinished (hgood : Accounting labels state)
    (hfinished : AllFinished reqID state) :
    6 ≤ (increments reqID labels).length := by
  have hall : ∀ method,
      method ∈ (increments reqID labels).map Execution.method := by
    intro method
    obtain ⟨e, hreq, hmethod, hdone⟩ := hfinished method
    exact List.mem_map.mpr ⟨e, (hgood.mem_increments reqID e).mpr
      ⟨hreq, hdone.hasIncremented⟩, hmethod⟩
  have hcard : Fintype.card Method ≤
      ((increments reqID labels).map Execution.method).toFinset.card :=
    Finset.card_le_card fun method _ => List.mem_toFinset.mpr (hall method)
  have hle := List.toFinset_card_le
    ((increments reqID labels).map Execution.method)
  rw [Method.card] at hcard
  rw [List.length_map] at hle
  omega

theorem finished_of_mem_increments (hgood : Accounting labels state)
    (honce : AtMostOnce labels) (hfinished : AllFinished reqID state)
    {e : Execution} (hmem : e ∈ increments reqID labels) :
    (state.progress e).Finished := by
  obtain ⟨hreq, hincr⟩ := (hgood.mem_increments reqID e).mp hmem
  obtain ⟨e', hreq', hmethod, hdone⟩ := hfinished e.method
  have hsame := honce e e' (hgood.hset_of_hasIncremented hincr)
    (hgood.hset_of_hasIncremented hdone.hasIncremented)
    (hreq.trans hreq'.symm) hmethod.symm
  rwa [hsame]

/-- Composition is an all-or-nothing, exactly-once join over every
interleaving of the Redis commands of any number of requests. -/
theorem composePost_exactlyOnce
    (requests : Int64 → Request) (labels : List Label) (state : State)
    (hrun : run (step requests) State.initial labels = some state)
    (honce : AtMostOnce labels) (reqID : Int64) :
    (state.storedFor reqID).length ≤ 1 ∧
      (∀ post ∈ state.storedFor reqID, ∃ timestamp,
        post = (requests reqID).post reqID timestamp) ∧
      (∀ method,
        (∀ e, e.reqID = reqID → e.method = method → .hset e ∉ labels) →
          state.storedFor reqID = []) ∧
      (AllFinished reqID state → NoExpiryBeforeReads reqID labels →
        ∃ timestamp,
          state.storedFor reqID =
            [(requests reqID).post reqID timestamp]) := by
  have haccounting := run_accounting hrun
  have hcontents := run_contents hrun
  refine ⟨?_, ?_, ?_, ?_⟩
  · exact hcontents.storedFor_length_le
      (haccounting.composerUnique_of_atMostOnce honce)
  · intro post hmem
    exact hcontents.exists_eq_post hmem
  · intro method hnever
    exact storedFor_eq_nil hrun honce hnever
  · intro hfinished hexpiry
    apply storedFor_eq_singleton haccounting hcontents
    · exact countsExact_of_atMostOnce hrun honce hexpiry
    · exact haccounting.six_le_of_allFinished hfinished
    · intro e hmem
      exact finished_of_mem_increments haccounting honce hfinished hmem
    · intro e hreq
      exact not_missed_of_atMostOnce hrun honce hexpiry hreq

def uploadCommands (e : Execution) : List Label :=
  [.hset e, .hincrBy e, .expire e]

/-- The rest of `composeAndUpload`, up to its call of `StorePost`. -/
def composeCommands (e : Execution) : List Label :=
  componentKeys.map (.hget e) ++ [.join e 0, .storePost e]

def sampleRequest : Request :=
  ⟨"hello", [], 7, 0, [], [], ⟨3, "ana"⟩⟩

def sampleLabels : List Label :=
  [Method.text, .media, .uniqueId, .urls, .userMentions, .creator].flatMap
      (fun method => uploadCommands ⟨1, method, 0⟩) ++
    composeCommands ⟨1, .creator, 0⟩

theorem composePost_exactlyOnce_sample :
    ∃ state,
      run (step fun _ => sampleRequest) State.initial sampleLabels =
        some state ∧
      ∃ timestamp,
        state.storedFor 1 = [sampleRequest.post 1 timestamp] := by
  have honce : AtMostOnce sampleLabels := by
    have hattempt : ∀ e, .hset e ∈ sampleLabels → e.attempt = 0 := by
      intro e hmem
      simp [sampleLabels, uploadCommands, composeCommands] at hmem
      rcases hmem with rfl | rfl | rfl | rfl | rfl | rfl <;> rfl
    intro e e' hmem hmem' hreq hmethod
    have h := hattempt e hmem
    have h' := hattempt e' hmem'
    cases e
    cases e'
    simp_all
  have hexpiry : NoExpiryBeforeReads 1 sampleLabels := by
    intro before hpre
    have hmem := hpre.subset
      (List.mem_append_right before (List.mem_singleton.mpr rfl))
    simp [sampleLabels, uploadCommands, composeCommands] at hmem
  have hdone : ∀ method, (run (step fun _ => sampleRequest) State.initial
      sampleLabels).any
        (fun state => (state.progress ⟨1, method, 0⟩).Finished) := by
    decide +kernel
  obtain ⟨state, hrun, -⟩ := (Option.any_eq_true _ _).mp (hdone .text)
  have hfinished : AllFinished 1 state := by
    intro method
    have hmethod := hdone method
    rw [hrun, Option.any_some, decide_eq_true_eq] at hmethod
    exact ⟨⟨1, method, 0⟩, rfl, rfl, hmethod⟩
  exact ⟨state, hrun, (composePost_exactlyOnce _ _ _ hrun honce 1).2.2.2
    hfinished hexpiry⟩

end SocialNetwork.ComposePost
