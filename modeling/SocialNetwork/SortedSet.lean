import Mathlib.Data.List.Sort
import Mathlib.Data.Prod.Lex
import Mathlib.Tactic

/-!
# Sorted sets

A sorted set gives each of its members a score and keeps them in the order of
(score, member).  The order and the uniqueness of the members are part of the
type; `score?` is the finite map that a sorted set stands for.
-/

namespace SocialNetwork

universe u v

variable {σ : Type u} {μ : Type v} [LinearOrder σ] [LinearOrder μ]

structure SortedSet (σ : Type u) (μ : Type v) [LinearOrder σ]
    [LinearOrder μ] where
  entries : List (Lex (σ × μ))
  sorted : entries.Pairwise (· ≤ ·)
  nodup : (entries.map fun entry => (ofLex entry).2).Nodup

namespace SortedSet

def empty : SortedSet σ μ := ⟨[], List.Pairwise.nil, List.nodup_nil⟩

/-- The members in ascending order, as `ZRANGE 0 -1` replies. -/
def members (set : SortedSet σ μ) : List μ :=
  set.entries.map fun entry => (ofLex entry).2

/-- `ZCARD`. -/
def card (set : SortedSet σ μ) : ℕ := set.entries.length

def lookup (entries : List (Lex (σ × μ))) (member : μ) : Option σ :=
  (entries.find? fun entry => (ofLex entry).2 = member).map
    fun entry => (ofLex entry).1

/-- `ZSCORE`. -/
def score? (set : SortedSet σ μ) (member : μ) : Option σ :=
  lookup set.entries member

theorem map_snd_orderedInsert_perm (entries : List (Lex (σ × μ)))
    (entry : Lex (σ × μ)) :
    ((entries.orderedInsert (· ≤ ·) entry).map
      fun entry => (ofLex entry).2).Perm
        ((ofLex entry).2 :: entries.map fun entry => (ofLex entry).2) :=
  (List.perm_orderedInsert (· ≤ ·) entry entries).map _

/-- `ZADD NX`: a member that is present keeps its score. -/
def addNX (set : SortedSet σ μ) (member : μ) (score : σ) : SortedSet σ μ :=
  if h : member ∈ set.members then set
  else
    { entries := set.entries.orderedInsert (· ≤ ·) (toLex (score, member))
      sorted := set.sorted.orderedInsert _ _
      nodup := (map_snd_orderedInsert_perm _ _).nodup_iff.mpr
        (List.nodup_cons.mpr ⟨h, set.nodup⟩) }

/-- `ZREM`. -/
def remove (set : SortedSet σ μ) (member : μ) : SortedSet σ μ where
  entries := set.entries.filter fun entry => (ofLex entry).2 ≠ member
  sorted := set.sorted.sublist List.filter_sublist
  nodup := set.nodup.sublist (List.filter_sublist.map _)

/-- `ZREVRANGE`: a range of positions of the descending order.  Negative
positions count from the end. -/
def revRange (set : SortedSet σ μ) (start stop : ℤ) : List μ :=
  let first := max (if start < 0 then set.card + start else start) 0
  let last := if stop < 0 then set.card + stop else stop
  (set.members.reverse.drop first.toNat).take (last + 1 - first).toNat

theorem revRange_eq (set : SortedSet σ μ) {start stop : ℤ}
    (hstart : 0 ≤ start) (hstop : 0 ≤ stop) :
    set.revRange start stop =
      (set.members.reverse.drop start.toNat).take
        (stop + 1 - start).toNat := by
  unfold revRange
  rw [if_neg (Int.not_lt.mpr hstart), if_neg (Int.not_lt.mpr hstop),
    max_eq_left hstart]

/-! ## The map -/

variable {set : SortedSet σ μ} {member other : μ} {score : σ}

theorem mem_members_iff :
    member ∈ set.members ↔ ∃ score, toLex (score, member) ∈ set.entries := by
  constructor
  · intro h
    obtain ⟨entry, hentry, rfl⟩ := List.mem_map.mp h
    exact ⟨(ofLex entry).1, hentry⟩
  · rintro ⟨score, hentry⟩
    exact List.mem_map.mpr ⟨_, hentry, rfl⟩

theorem score?_eq_some_iff :
    set.score? member = some score ↔
      toLex (score, member) ∈ set.entries := by
  unfold score? lookup
  rw [Option.map_eq_some_iff]
  constructor
  · rintro ⟨entry, hfind, rfl⟩
    have hmember : (ofLex entry).2 = member := by
      simpa using List.find?_some hfind
    have hentry := List.mem_of_find?_eq_some hfind
    rw [← hmember]
    exact hentry
  · intro hentry
    cases hfind : set.entries.find?
        fun entry => (ofLex entry).2 = member with
    | none =>
        have hnot := List.find?_eq_none.mp hfind _ hentry
        simp at hnot
    | some entry =>
        have hmember : (ofLex entry).2 = member := by
          simpa using List.find?_some hfind
        have hmem := List.mem_of_find?_eq_some hfind
        have hsame := List.inj_on_of_nodup_map set.nodup hmem hentry hmember
        exact ⟨entry, rfl, by rw [hsame]; rfl⟩

theorem score?_eq_none_iff :
    set.score? member = none ↔ member ∉ set.members := by
  rw [Option.eq_none_iff_forall_ne_some, mem_members_iff, not_exists]
  exact forall_congr' fun score => score?_eq_some_iff.not

theorem isSome_score?_iff :
    (set.score? member).isSome ↔ member ∈ set.members := by
  rw [← not_iff_not, ← score?_eq_none_iff, Option.not_isSome_iff_eq_none]

theorem members_nodup (set : SortedSet σ μ) : set.members.Nodup := set.nodup

@[simp] theorem members_empty :
    (empty : SortedSet σ μ).members = [] := rfl

@[simp] theorem score?_empty :
    (empty : SortedSet σ μ).score? member = none := rfl

@[simp] theorem length_members : set.members.length = set.card :=
  List.length_map _

theorem mem_entries_addNX {entry : Lex (σ × μ)}
    (hnew : member ∉ set.members) :
    entry ∈ (set.addNX member score).entries ↔
      entry = toLex (score, member) ∨ entry ∈ set.entries := by
  unfold addNX
  rw [dif_neg hnew]
  exact List.mem_orderedInsert _

theorem addNX_of_mem (h : member ∈ set.members) :
    set.addNX member score = set := by
  unfold addNX
  rw [dif_pos h]

@[simp] theorem score?_addNX_self :
    (set.addNX member score).score? member =
      some ((set.score? member).getD score) := by
  by_cases h : member ∈ set.members
  · rw [addNX_of_mem h]
    obtain ⟨old, hold⟩ := Option.isSome_iff_exists.mp
      (isSome_score?_iff.mpr h)
    rw [hold, Option.getD_some]
  · rw [score?_eq_none_iff.mpr h, Option.getD_none, score?_eq_some_iff,
      mem_entries_addNX h]
    exact .inl rfl

theorem score?_addNX_of_ne (hne : other ≠ member) :
    (set.addNX member score).score? other = set.score? other := by
  by_cases h : member ∈ set.members
  · rw [addNX_of_mem h]
  · apply Option.ext
    intro s
    rw [score?_eq_some_iff, score?_eq_some_iff, mem_entries_addNX h]
    refine or_iff_right ?_
    intro heq
    exact hne (Prod.mk.inj (toLex.injective heq)).2

@[simp] theorem score?_remove_self :
    (set.remove member).score? member = none := by
  rw [Option.eq_none_iff_forall_ne_some]
  intro s hs
  have hentry := score?_eq_some_iff.mp hs
  rw [remove, List.mem_filter] at hentry
  simp at hentry

theorem score?_remove_of_ne (hne : other ≠ member) :
    (set.remove member).score? other = set.score? other := by
  apply Option.ext
  intro s
  rw [score?_eq_some_iff, score?_eq_some_iff, remove, List.mem_filter]
  simp [hne]

theorem mem_members_addNX :
    other ∈ (set.addNX member score).members ↔
      other = member ∨ other ∈ set.members := by
  rw [← isSome_score?_iff, ← isSome_score?_iff]
  by_cases h : other = member
  · subst h
    simp
  · rw [score?_addNX_of_ne h, or_iff_right h]

theorem mem_members_remove :
    other ∈ (set.remove member).members ↔
      other ≠ member ∧ other ∈ set.members := by
  rw [← isSome_score?_iff, ← isSome_score?_iff]
  by_cases h : other = member
  · subst h
    simp
  · rw [score?_remove_of_ne h, and_iff_right h]

/-- A sorted set is determined by the scores of its members. -/
theorem ext_score? {set other : SortedSet σ μ}
    (h : ∀ member score, set.score? member = some score ↔
      other.score? member = some score) : set = other := by
  have hperm : set.entries.Perm other.entries := by
    refine (List.perm_ext_iff_of_nodup (set.nodup.of_map _)
      (other.nodup.of_map _)).mpr ?_
    intro entry
    have hentry := h (ofLex entry).2 (ofLex entry).1
    rw [score?_eq_some_iff, score?_eq_some_iff] at hentry
    exact hentry
  have hentries : set.entries = other.entries :=
    hperm.eq_of_pairwise (fun _ _ _ _ => le_antisymm) set.sorted other.sorted
  cases set
  cases other
  simp only at hentries
  subst hentries
  rfl

/-! ## The order of the members -/

theorem members_pairwise (set : SortedSet σ μ) {key : μ → Lex (σ × μ)}
    (hkey : ∀ member ∈ set.members, ∃ score,
      set.score? member = some score ∧
        key member = toLex (score, member)) :
    set.members.Pairwise fun a b => key a < key b := by
  have hstrict : set.entries.Pairwise (· < ·) := by
    have hne : set.entries.Pairwise (· ≠ ·) := set.nodup.of_map _
    exact (set.sorted.and hne).imp fun h => lt_of_le_of_ne h.1 h.2
  unfold members
  rw [List.pairwise_map]
  apply hstrict.imp_of_mem
  intro a b ha hb hlt
  have hkey' : ∀ entry ∈ set.entries, key (ofLex entry).2 = entry := by
    intro entry hentry
    obtain ⟨score, hscore, heq⟩ := hkey _ (List.mem_map_of_mem hentry)
    have hself : set.score? (ofLex entry).2 = some (ofLex entry).1 :=
      score?_eq_some_iff.mpr hentry
    rw [hself, Option.some.injEq] at hscore
    rw [heq, ← hscore]
    rfl
  rw [hkey' a ha, hkey' b hb]
  exact hlt

theorem members_pairwise_score [Inhabited σ] (set : SortedSet σ μ) :
    set.members.Pairwise fun a b =>
      toLex ((set.score? a).getD default, a) <
        toLex ((set.score? b).getD default, b) := by
  apply set.members_pairwise
  intro member hmember
  obtain ⟨score, hscore⟩ := Option.isSome_iff_exists.mp
    (isSome_score?_iff.mpr hmember)
  exact ⟨score, hscore, by rw [hscore, Option.getD_some]⟩

end SortedSet

end SocialNetwork
