import SocialNetwork.ComposePostJoin

/-!
# Re-executed uploads

An upload that is sent again writes the fields it has already written, but
it increments `num_components` once more.  Nothing compares the counter with
the fields, so the post is stored exactly when every field that
`composeAndUpload` asks for has been written by then.
-/

namespace SocialNetwork.ComposePost

open Json Redis Machine

variable {requests : Int64 → Request} {state : State} {labels : List Label}
  {reqID : Int64}

/-- When a field is read, an upload of its method has run its `HSET`.  The
reads follow the sixth `HINCRBY`, so a repetition is harmless when every method
has written by then, or at least before its own fields are read. -/
def ReadsAfterWrites (reqID : Int64) (labels : List Label) : Prop :=
  ∀ before e key, before ++ [.hget e key] <+: labels → e.reqID = reqID →
    ∀ method : Method, key ∈ method.keys →
      ∃ e' : Execution, e'.reqID = reqID ∧ e'.method = method ∧
        .hset e' ∈ before

def AtLeastOnce (reqID : Int64) (labels : List Label) : Prop :=
  ∀ method, ∃ e : Execution, e.reqID = reqID ∧ e.method = method ∧
    .hset e ∈ labels

def AllReturned (reqID : Int64) (labels : List Label) (state : State) :
    Prop :=
  ∀ e : Execution, e.reqID = reqID → .hset e ∈ labels →
    (state.progress e).Finished

theorem allFinished_of_allReturned (hleast : AtLeastOnce reqID labels)
    (hreturned : AllReturned reqID labels state) :
    AllFinished reqID state := by
  intro method
  obtain ⟨e, hreq, hmethod, hmem⟩ := hleast method
  exact ⟨e, hreq, hmethod, hreturned e hreq hmem⟩

theorem countsExact_of_not_expired
    (hexpired : .keyExpired (idText reqID) ∉ labels) :
    CountsExact reqID labels := by
  intro before e hpre _ hmem
  exact hexpired (hpre.subset (List.mem_append_left _ hmem))

/-- Without an expiry an early `HGET` is the only way to miss a field. -/
theorem missed_iff_of_not_expired {e : Execution}
    (hexpired : .keyExpired (idText e.reqID) ∉ labels) :
    Missed e labels ↔
      ∃ before key, before ++ [.hget e key] <+: labels ∧
        ¬ ∃ e', .hset e' ∈ before ∧ e'.reqID = e.reqID ∧
          key ∈ e'.method.keys := by
  have hwritten : ∀ before key, before ++ [.hget e key] <+: labels →
      (written e.reqID key before = false ↔
        ¬ ∃ e', .hset e' ∈ before ∧ e'.reqID = e.reqID ∧
          key ∈ e'.method.keys) := by
    intro before key hpre
    have hbefore : .keyExpired (idText e.reqID) ∉ before := fun hmem =>
      hexpired (hpre.subset (List.mem_append_left _ hmem))
    rw [← written_iff_of_not_expired hbefore, Bool.not_eq_true]
  constructor
  · rintro ⟨before, key, hpre, hmiss⟩
    exact ⟨before, key, hpre, (hwritten before key hpre).mp hmiss⟩
  · rintro ⟨before, key, hpre, hmiss⟩
    exact ⟨before, key, hpre, (hwritten before key hpre).mpr hmiss⟩

theorem mem_componentKeys_of_hget {e : Execution} {key : String}
    (hrun : run (step requests) State.initial labels = some state)
    (hasked : .hget e key ∈ labels) : key ∈ componentKeys := by
  obtain ⟨before, after, rfl⟩ := List.append_of_mem hasked
  obtain ⟨middle, next, -, hstep, -⟩ := exists_step_of_run hrun
  obtain ⟨replies, -, hkey, -⟩ := step_hget hstep
  exact hkey

/-- An execution that reads has made the sixth `HINCRBY` before. -/
theorem exists_sixth_of_hget {before : List Label} {e : Execution}
    {key : String}
    (hrun : run (step requests) State.initial labels = some state)
    (hexpired : .keyExpired (idText e.reqID) ∉ labels)
    (hpre : before ++ [.hget e key] <+: labels) :
    ∃ earlier, earlier ++ [.hincrBy e] <+: before ∧
      (increments e.reqID earlier).length = 5 := by
  have hbefore : .keyExpired (idText e.reqID) ∉ before := fun hmem =>
    hexpired (hpre.subset (List.mem_append_left _ hmem))
  obtain ⟨after, rfl⟩ := hpre
  rw [List.append_assoc] at hrun
  obtain ⟨middle, next, hmiddle, hstep, -⟩ := exists_step_of_run hrun
  obtain ⟨replies, hprogress, -⟩ := step_hget hstep
  have hcomposes : (middle.progress e).Composes := by
    rw [hprogress]
    trivial
  obtain ⟨others, later, n, hsplit, hreply, -, hexact⟩ :=
    (run_accounting hmiddle).reply e hcomposes.hasIncremented
  have hsix := hreply.eq_six hcomposes
  have hlength := hexact (countsExact_of_not_expired hbefore)
  obtain ⟨earlier, rest, rfl, hothers, hrest⟩ :=
    List.filterMap_eq_append_iff.mp hsplit
  obtain ⟨skipped, label, rest, rfl, hskipped, hlabel, -⟩ :=
    List.filterMap_eq_cons_iff.mp hrest
  have hnone : increments e.reqID skipped = [] :=
    List.filterMap_eq_nil_iff.mpr hskipped
  have hhincrBy : label = .hincrBy e := by
    cases label with
    | hincrBy e' =>
        simp only [Option.ite_none_right_eq_some, Option.some.injEq] at hlabel
        rw [hlabel.2]
    | _ => cases hlabel
  subst hhincrBy
  refine ⟨earlier ++ skipped, ⟨rest, by simp⟩, ?_⟩
  rw [increments_append, hnone, List.append_nil]
  change (List.filterMap _ earlier).length = 5
  rw [hothers]
  omega

/-- Repetitions do no harm when every method has written by the sixth
`HINCRBY`. -/
theorem readsAfterWrites_of_sixth
    (hrun : run (step requests) State.initial labels = some state)
    (hexpired : .keyExpired (idText reqID) ∉ labels)
    (hwritten : ∀ earlier e, earlier ++ [.hincrBy e] <+: labels →
      e.reqID = reqID → (increments reqID earlier).length = 5 →
        ∀ method, ∃ e' : Execution, e'.reqID = reqID ∧ e'.method = method ∧
          .hset e' ∈ earlier) :
    ReadsAfterWrites reqID labels := by
  rintro before e key hpre rfl method -
  obtain ⟨earlier, hearlier, hfive⟩ :=
    exists_sixth_of_hget hrun hexpired hpre
  have hsixth : earlier ++ [.hincrBy e] <+: labels :=
    hearlier.trans ((List.prefix_append _ _).trans hpre)
  obtain ⟨e', hreq, hmethod, hmem⟩ :=
    hwritten earlier e hsixth rfl hfive method
  exact ⟨e', hreq, hmethod,
    hearlier.subset (List.mem_append_left _ hmem)⟩

theorem Contents.not_missed_of_stored (hgood : Contents requests labels state)
    {e : Execution} {post : Post} (hcall : (e, post) ∈ state.storePostCalls) :
    ¬ Missed e labels := by
  rw [← (hgood.execution e).missed, (hgood.calls e post).mp hcall]
  simp [Progress.HasMiss]

/-- With re-executed uploads the post is stored, exactly once and with all
its components, if and only if no field is read before it is written. -/
theorem composePost_retried
    (requests : Int64 → Request) (labels : List Label) (state : State)
    (hrun : run (step requests) State.initial labels = some state)
    (reqID : Int64) (hexpired : .keyExpired (idText reqID) ∉ labels)
    (hleast : AtLeastOnce reqID labels)
    (hreturned : AllReturned reqID labels state) :
    (∃ timestamp,
        state.storedFor reqID = [(requests reqID).post reqID timestamp]) ↔
      ReadsAfterWrites reqID labels := by
  have haccounting := run_accounting hrun
  have hcontents := run_contents hrun
  have hexact := countsExact_of_not_expired hexpired
  constructor
  · rintro ⟨timestamp, hstored⟩ before e key hpre rfl method hkey
    obtain ⟨composer, hreq, hcall⟩ := mem_storedFor.mp
      (hstored ▸ List.mem_singleton.mpr rfl)
    have hstoring : (state.progress composer).Composes := by
      rw [(hcontents.calls composer _).mp hcall]
      trivial
    have hasked : .hget e key ∈ labels :=
      hpre.subset (List.mem_append_right _ (List.mem_singleton.mpr rfl))
    have hsame := haccounting.composerUnique_of_countsExact hexact composer e
      hreq rfl hstoring ((hcontents.execution e).asked key hasked).1
    subst hsame
    by_contra hnot
    refine hcontents.not_missed_of_stored hcall
      ((missed_iff_of_not_expired hexpired).mpr ⟨before, key, hpre, ?_⟩)
    rintro ⟨e', hmem, hreq', hkey'⟩
    exact hnot ⟨e', hreq', Method.eq_of_mem_keys hkey' hkey, hmem⟩
  · intro hreads
    apply storedFor_eq_singleton haccounting hcontents hexact
    · exact haccounting.six_le_of_allFinished
        (allFinished_of_allReturned hleast hreturned)
    · intro e hmem
      obtain ⟨hreq, hincr⟩ := (haccounting.mem_increments reqID e).mp hmem
      exact hreturned e hreq (haccounting.hset_of_hasIncremented hincr)
    · rintro e rfl hmissed
      obtain ⟨before, key, hpre, hnot⟩ :=
        (missed_iff_of_not_expired hexpired).mp hmissed
      have hasked : .hget e key ∈ labels :=
        hpre.subset (List.mem_append_right _ (List.mem_singleton.mpr rfl))
      obtain ⟨method, hmethod⟩ := exists_method_of_mem_componentKeys
        (mem_componentKeys_of_hget hrun hasked)
      obtain ⟨e', hreq, rfl, hmem⟩ :=
        hreads before e key hpre rfl method hmethod
      exact hnot ⟨e', hmem, hreq, hmethod⟩

/-- Each method is executed once, and the text once more. -/
def TextTwice (labels : List Label) : Prop :=
  ∀ e, .hset e ∈ labels →
    e.reqID = 1 ∧ (e.attempt = 0 ∨ e = ⟨1, .text, 1⟩)

theorem TextTwice.allReturned {labels : List Label} {state : State}
    (htwice : TextTwice labels)
    (hfirst : ∀ method, (state.progress ⟨1, method, 0⟩).Finished)
    (hsecond : (state.progress ⟨1, .text, 1⟩).Finished) :
    AllReturned 1 labels state := by
  intro e _ hmem
  obtain ⟨hreq, hattempt | rfl⟩ := htwice e hmem
  · obtain ⟨reqID, method, attempt⟩ := e
    simp only at hreq hattempt
    subst hreq hattempt
    exact hfirst method
  · exact hsecond

def harmlessRetry : List Label := sampleLabels ++ uploadCommands ⟨1, .text, 1⟩

theorem harmlessRetry_textTwice : TextTwice harmlessRetry := by
  intro e hmem
  simp [harmlessRetry, sampleLabels, uploadCommands, composeCommands] at hmem
  rcases hmem with rfl | rfl | rfl | rfl | rfl | rfl | rfl <;> simp

/-- Every method has written by the sixth `HINCRBY`. -/
theorem harmlessRetry_written :
    ∀ earlier e, earlier ++ [.hincrBy e] <+: harmlessRetry →
      e.reqID = 1 → (increments 1 earlier).length = 5 →
        ∀ method, ∃ e' : Execution, e'.reqID = 1 ∧ e'.method = method ∧
          .hset e' ∈ earlier := by
  have hall : ∀ labels ∈ harmlessRetry.inits,
      (increments 1 labels).length = 6 →
        (increments 1 labels.dropLast).length = 5 →
          ∀ method, .hset ⟨1, method, 0⟩ ∈ labels.dropLast := by
    decide +kernel
  intro earlier e hpre hreq hfive method
  have hsix : (increments 1 (earlier ++ [.hincrBy e])).length = 6 := by
    rw [increments_concat_hincrBy, if_pos hreq, List.length_append, hfive]
    rfl
  have hmem := hall _ ((List.mem_inits _ _).mpr hpre) hsix
    (by rwa [List.dropLast_concat]) method
  rw [List.dropLast_concat] at hmem
  exact ⟨⟨1, method, 0⟩, rfl, rfl, hmem⟩

theorem composePost_retried_harmless :
    ∃ state,
      run (step fun _ => sampleRequest) State.initial harmlessRetry =
        some state ∧
      ∃ timestamp,
        state.storedFor 1 = [sampleRequest.post 1 timestamp] := by
  have hleast : AtLeastOnce 1 harmlessRetry := by
    intro method
    refine ⟨⟨1, method, 0⟩, rfl, rfl, ?_⟩
    cases method <;> decide
  have hdone : (run (step fun _ => sampleRequest) State.initial
      harmlessRetry).any fun state =>
        (∀ method, (state.progress ⟨1, method, 0⟩).Finished) ∧
          (state.progress ⟨1, .text, 1⟩).Finished := by
    decide +kernel
  obtain ⟨state, hrun, hdone⟩ := (Option.any_eq_true _ _).mp hdone
  rw [decide_eq_true_eq] at hdone
  have hreturned : AllReturned 1 harmlessRetry state :=
    harmlessRetry_textTwice.allReturned hdone.1 hdone.2
  exact ⟨state, hrun, (composePost_retried _ _ state hrun 1 (by decide)
    hleast hreturned).mpr
      (readsAfterWrites_of_sixth hrun (by decide) harmlessRetry_written)⟩

/-- The text is sent twice before the creator is written: the counter is six
when one field is missing, and seven after the creator has incremented. -/
def lossyRetry : List Label :=
  uploadCommands ⟨1, .text, 0⟩ ++ uploadCommands ⟨1, .text, 1⟩ ++
    [Method.media, .uniqueId, .urls, .userMentions].flatMap
      (fun method => uploadCommands ⟨1, method, 0⟩) ++
    componentKeys.map (.hget ⟨1, .userMentions, 0⟩) ++
    [.join ⟨1, .userMentions, 0⟩ 0] ++ uploadCommands ⟨1, .creator, 0⟩

theorem lossyRetry_textTwice : TextTwice lossyRetry := by
  intro e hmem
  simp [lossyRetry, uploadCommands] at hmem
  rcases hmem with rfl | rfl | rfl | rfl | rfl | rfl | rfl <;> simp

theorem not_composePost_tolerates_retry :
    ¬ ∀ (requests : Int64 → Request) (labels : List Label) (state : State)
      (reqID : Int64),
      run (step requests) State.initial labels = some state →
        .keyExpired (idText reqID) ∉ labels → AtLeastOnce reqID labels →
          AllReturned reqID labels state →
            ∃ timestamp, state.storedFor reqID =
              [(requests reqID).post reqID timestamp] := by
  intro hclaim
  have hleast : AtLeastOnce 1 lossyRetry := by
    intro method
    refine ⟨⟨1, method, 0⟩, rfl, rfl, ?_⟩
    cases method <;> decide
  have hdone : (run (step fun _ => sampleRequest) State.initial
      lossyRetry).any fun state =>
        (∀ method, (state.progress ⟨1, method, 0⟩).Finished) ∧
          (state.progress ⟨1, .text, 1⟩).Finished ∧
          state.storedFor 1 = [] := by
    decide +kernel
  obtain ⟨state, hrun, hdone⟩ := (Option.any_eq_true _ _).mp hdone
  rw [decide_eq_true_eq] at hdone
  have hreturned : AllReturned 1 lossyRetry state :=
    lossyRetry_textTwice.allReturned hdone.1 hdone.2.1
  obtain ⟨timestamp, hstored⟩ :=
    hclaim _ lossyRetry state 1 hrun (by decide) hleast hreturned
  rw [hdone.2.2] at hstored
  cases hstored

end SocialNetwork.ComposePost
