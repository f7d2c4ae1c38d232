import SocialNetwork.ComposePostInvariant

/-!
# Request ids

`genReqID` of `wrk2.go` seeds a new generator with the clock and takes its
first number.  A seed is reduced modulo `2^31 - 1`, and a request id names a
Redis hash that lives for `REDIS_EXPIRE_TIME` seconds after its last write.
The numbers themselves are those of `math/rand`, of which only the coincidences
among first numbers matter here.
-/

namespace SocialNetwork.RequestIds

open ComposePost

/-- What `rand.NewSource` keeps of a seed, which it does not let be zero. -/
def seedResidue (seed : Int64) : ℕ :=
  if seed.toInt % (2 ^ 31 - 1) = 0 then 89482311
  else (seed.toInt % (2 ^ 31 - 1)).toNat

theorem seedResidue_mem (seed : Int64) :
    seedResidue seed ∈ Finset.Icc 1 (2 ^ 31 - 2) := by
  unfold seedResidue
  rw [Finset.mem_Icc]
  split <;> omega

def REDIS_EXPIRE_TIME : Int := 12

/-- The later reading is within the lifetime of the hash of the earlier
one. -/
def Alive (earlier later : Int64) : Prop :=
  later.toInt - earlier.toInt ≤ REDIS_EXPIRE_TIME * 10 ^ 9

instance (earlier later : Int64) : Decidable (Alive earlier later) := by
  unfold Alive
  infer_instance

/-- The execution of an upload method that runs the command. -/
def execution : Label → Option Execution
  | .hset e => some e
  | .hincrBy e => some e
  | .expire e => some e
  | .hget e _ => some e
  | .join e _ => some e
  | .storePost e => some e
  | .keyExpired _ => none

/-- No command of an execution for one request id touches the hash of
another. -/
theorem step_hash_of_ne {requests : Int64 → Request} {state next : State}
    {label : Label} {e : Execution} {reqID : Int64}
    (hlabel : execution label = some e) (hne : reqID ≠ e.reqID)
    (hstep : step requests state label = some next) :
    next.hash reqID = state.hash reqID := by
  cases label with
  | hset e' =>
      cases hlabel
      obtain ⟨-, rfl⟩ := step_hset hstep
      rw [State.setProgress_hash, State.setHash_hash_of_ne hne]
  | hincrBy e' =>
      cases hlabel
      simp only [step] at hstep
      split at hstep
      next =>
        split at hstep
        next =>
          rw [Option.some.injEq] at hstep
          subst hstep
          rw [State.setProgress_hash]
        next =>
          rw [Option.some.injEq] at hstep
          subst hstep
          rw [State.setProgress_hash, State.setHash_hash_of_ne hne]
      next => cases hstep
  | expire e' =>
      obtain ⟨-, -, rfl⟩ := step_expire hstep
      rw [State.setProgress_hash]
  | hget e' key =>
      obtain ⟨-, -, -, -, rfl⟩ := step_hget hstep
      rw [State.setProgress_hash]
  | join e' timestamp =>
      obtain ⟨-, -, -, rfl⟩ := step_join hstep
      rw [State.setProgress_hash]
  | storePost e' =>
      obtain ⟨-, -, rfl⟩ := step_storePost hstep
      rfl
  | keyExpired key => cases hlabel

section Requests

-- The first number of the generator, by the residue of its seed.
variable (int63 : ℕ → Int64)

def genReqID (now : Int64) : Int64 := int63 (seedResidue now)

/-- Two requests have different ids, and no upload for the one touches the
hash of the other. -/
def Separate (earlier later : Int64) : Prop :=
  genReqID int63 earlier ≠ genReqID int63 later ∧
    ∀ (requests : Int64 → Request) (state next : State) (label : Label)
      (e : Execution), execution label = some e →
      step requests state label = some next →
      (e.reqID = genReqID int63 earlier →
        next.hash (genReqID int63 later) =
          state.hash (genReqID int63 later)) ∧
      (e.reqID = genReqID int63 later →
        next.hash (genReqID int63 earlier) =
          state.hash (genReqID int63 earlier))

theorem separate_iff (earlier later : Int64) :
    Separate int63 earlier later ↔
      genReqID int63 earlier ≠ genReqID int63 later := by
  constructor
  · intro hseparate
    exact hseparate.1
  · intro hne
    refine ⟨hne, ?_⟩
    intro requests state next label e hlabel hstep
    constructor
    · intro he
      exact step_hash_of_ne hlabel (he ▸ hne.symm) hstep
    · intro he
      exact step_hash_of_ne hlabel (he ▸ hne) hstep

/-- The readings reduce to the two residues, in one order or the other. -/
def Reduce (residue residue' : Int) (earlier later : Int64) : Prop :=
  (earlier.toInt % (2 ^ 31 - 1) = residue ∧
    later.toInt % (2 ^ 31 - 1) = residue') ∨
  (earlier.toInt % (2 ^ 31 - 1) = residue' ∧
    later.toInt % (2 ^ 31 - 1) = residue)

/-- Readings in one lifetime leave the same seed at five distances, and when
one of them is taken for the residue that stands for zero. -/
theorem seedResidue_eq_iff {earlier later : Int64} (hlt : earlier < later)
    (halive : Alive earlier later) :
    seedResidue earlier = seedResidue later ↔
      (∃ k ∈ Finset.Icc (1 : Int) 5,
        later.toInt - earlier.toInt = k * (2 ^ 31 - 1)) ∨
      Reduce 0 89482311 earlier later := by
  rw [Int64.lt_iff_toInt_lt] at hlt
  unfold Alive REDIS_EXPIRE_TIME at halive
  unfold seedResidue Reduce
  simp only [Finset.mem_Icc]
  constructor
  · intro hresidue
    by_cases hsame :
        earlier.toInt % (2 ^ 31 - 1) = later.toInt % (2 ^ 31 - 1)
    · refine Or.inl ⟨(later.toInt - earlier.toInt) / (2 ^ 31 - 1), ?_⟩
      omega
    · right
      split at hresidue <;> split at hresidue <;> omega
  · intro hclash
    rcases hclash with ⟨k, -, hdistance⟩ | hzero
    · have hsame :
          earlier.toInt % (2 ^ 31 - 1) = later.toInt % (2 ^ 31 - 1) := by
        omega
      rw [hsame]
    · split <;> split <;> omega

/-- The condition under which the ids of two readings differ: they are not a
multiple of `2^31 - 1` apart, and not of one of two pairs of residues. -/
def SeedsDiffer (earlier later : Int64) : Prop :=
  (∀ k ∈ Finset.Icc (1 : Int) 5,
    later.toInt - earlier.toInt ≠ k * (2 ^ 31 - 1)) ∧
  ¬ Reduce 0 89482311 earlier later ∧
  ¬ Reduce 799919473 1223266530 earlier later

/-- What `math/rand` does with the seeds it keeps: two of them start with the
same number, and no other two do. -/
def FirstNumbers (int63 : ℕ → Int64) : Prop :=
  ∀ seed ∈ Finset.Icc 1 (2 ^ 31 - 2), ∀ seed' ∈ Finset.Icc 1 (2 ^ 31 - 2),
    int63 seed = int63 seed' ↔
      seed = seed' ∨ (seed = 799919473 ∧ seed' = 1223266530) ∨
        (seed = 1223266530 ∧ seed' = 799919473)

/-- The residues of the two seeds with one first number are those of the
readings. -/
theorem reduce_iff (earlier later : Int64) :
    Reduce 799919473 1223266530 earlier later ↔
      (seedResidue earlier = 799919473 ∧ seedResidue later = 1223266530) ∨
        (seedResidue earlier = 1223266530 ∧
          seedResidue later = 799919473) := by
  have hresidue (seed : Int64) (n : ℕ) (hpos : 0 < n) (hne : n ≠ 89482311) :
      seedResidue seed = n ↔ seed.toInt % (2 ^ 31 - 1) = n := by
    unfold seedResidue
    split <;> omega
  rw [hresidue earlier _ (by decide) (by decide),
    hresidue later _ (by decide) (by decide),
    hresidue earlier _ (by decide) (by decide),
    hresidue later _ (by decide) (by decide)]
  rfl

theorem genReqID_ne_iff (hint63 : FirstNumbers int63)
    {earlier later : Int64} (hlt : earlier < later)
    (halive : Alive earlier later) :
    genReqID int63 earlier ≠ genReqID int63 later ↔
      SeedsDiffer earlier later := by
  have hfirst := hint63 _ (seedResidue_mem earlier) _ (seedResidue_mem later)
  rw [seedResidue_eq_iff hlt halive, ← reduce_iff] at hfirst
  unfold genReqID SeedsDiffer
  rw [Ne, hfirst]
  push Not
  tauto

/-- Ids that are alive together are distinct exactly when no two readings
leave the same seed or the two seeds that start with the same number. -/
theorem genReqID_separate_iff (hint63 : FirstNumbers int63)
    {readings : List Int64} (hsorted : readings.Pairwise (· < ·)) :
    (readings.Pairwise fun earlier later =>
        Alive earlier later → Separate int63 earlier later) ↔
      readings.Pairwise fun earlier later =>
        Alive earlier later → SeedsDiffer earlier later := by
  constructor
  · intro hseparate
    refine (hsorted.and hseparate).imp ?_
    intro earlier later hpair halive
    exact (genReqID_ne_iff int63 hint63 hpair.1 halive).mp
      ((separate_iff int63 earlier later).mp (hpair.2 halive))
  · intro hdiffer
    refine (hsorted.and hdiffer).imp ?_
    intro earlier later hpair halive
    exact (separate_iff int63 earlier later).mpr
      ((genReqID_ne_iff int63 hint63 hpair.1 halive).mpr (hpair.2 halive))

end Requests

/-- A generator with the first numbers of `math/rand` at the two seeds of the
readings below, and at the two seeds that share theirs. -/
def firstNumber (seed : ℕ) : Int64 :=
  if seed = 1700346364 then 6729596933076806044
  else if seed = 552862717 then 7919501433735655677
  else if seed = 799919473 ∨ seed = 1223266530 then 7647686402135374306
  else Int64.ofNat seed

theorem toInt_firstNumber {seed : ℕ} (hseed : seed < 2 ^ 31) :
    (firstNumber seed).toInt =
      if seed = 1700346364 then 6729596933076806044
      else if seed = 552862717 then 7919501433735655677
      else if seed = 799919473 ∨ seed = 1223266530 then 7647686402135374306
      else (seed : Int) := by
  unfold firstNumber
  split
  · decide
  split
  · decide
  split
  · decide
  exact Int64.toInt_ofNat_of_lt (by omega)

theorem firstNumbers_firstNumber : FirstNumbers firstNumber := by
  intro seed hseed seed' hseed'
  rw [Finset.mem_Icc] at hseed hseed'
  rw [← Int64.toInt_inj, toInt_firstNumber (by omega),
    toInt_firstNumber (by omega)]
  split_ifs <;> omega

theorem genReqID_separate_iff_second :
    [1700000000000000000, 1700000001000000000].Pairwise
      fun earlier later =>
        Alive earlier later → Separate firstNumber earlier later := by
  apply (genReqID_separate_iff firstNumber firstNumbers_firstNumber
    (by decide +kernel)).mpr
  simp only [List.pairwise_cons, List.mem_singleton, forall_eq]
  refine ⟨fun _ => ⟨by decide +kernel, ?_, ?_⟩, ?_⟩
  · unfold Reduce
    decide +kernel
  · unfold Reduce
    decide +kernel
  · simp

/-- Two requests within three seconds get the same id. -/
theorem not_genReqID_separate :
    ¬ ∀ (int63 : ℕ → Int64) (readings : List Int64),
      readings.Pairwise (· < ·) →
      readings.Pairwise fun earlier later =>
        Alive earlier later → Separate int63 earlier later := by
  intro hclaim
  have hpair := hclaim Int64.ofNat
    [1700000000000000000, 1700000002147483647] (by decide +kernel)
  have hseparate := List.rel_of_pairwise_cons hpair
    (List.mem_singleton_self _) (by decide +kernel)
  apply hseparate.1
  decide +kernel

end SocialNetwork.RequestIds
