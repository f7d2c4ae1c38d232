import Mathlib.Tactic

/-!
# Integers as text

`formatInt` and `parseInt` follow Go's `strconv.FormatInt` and
`strconv.ParseInt` with bit size 64 and an explicit base.  A digit string is
read from the left, so its value is a left fold; all facts below are proved
for that fold with an arbitrary value to its left.
-/

namespace SocialNetwork.Strconv

inductive NumError where
  | errSyntax
  | errRange
  deriving DecidableEq, Repr

/-- The text of `n`; letters above nine are lower case. -/
def formatInt (n : Int) (base : ℕ) : String :=
  match n with
  | .ofNat m => String.ofList (Nat.toDigits base m)
  | .negSucc m => String.ofList ('-' :: Nat.toDigits base (m + 1))

def digitValue (c : Char) : Option ℕ :=
  if '0' ≤ c ∧ c ≤ '9' then some (c.toNat - '0'.toNat)
  else if 'a' ≤ c ∧ c ≤ 'z' then some (c.toNat - 'a'.toNat + 10)
  else if 'A' ≤ c ∧ c ≤ 'Z' then some (c.toNat - 'A'.toNat + 10)
  else none

/-- The loop of `ParseUint`, with the value read so far. -/
def parseDigits (base : ℕ) : List Char → ℕ → Except NumError ℕ
  | [], n => .ok n
  | c :: cs, n =>
      match digitValue c with
      | none => .error .errSyntax
      | some d =>
          if base ≤ d then .error .errSyntax
          else if 2 ^ 64 ≤ n * base + d then .error .errRange
          else parseDigits base cs (n * base + d)

def parseUint (base : ℕ) : List Char → Except NumError ℕ
  | [] => .error .errSyntax
  | c :: cs => parseDigits base (c :: cs) 0

def parseInt (text : String) (base : ℕ) : Except NumError Int :=
  match text.toList with
  | '-' :: digits =>
      match parseUint base digits with
      | .error err => .error err
      | .ok n => if 2 ^ 63 < n then .error .errRange else .ok (-(n : Int))
  | '+' :: digits =>
      match parseUint base digits with
      | .error err => .error err
      | .ok n => if 2 ^ 63 ≤ n then .error .errRange else .ok (n : Int)
  | digits =>
      match parseUint base digits with
      | .error err => .error err
      | .ok n => if 2 ^ 63 ≤ n then .error .errRange else .ok (n : Int)

/-! ## The value of a digit string -/

def numeral (base : ℕ) (cs : List Char) (n : ℕ) : ℕ :=
  cs.foldl (fun n c => n * base + (digitValue c).getD 0) n

def AllDigits (base : ℕ) (cs : List Char) : Prop :=
  ∀ c ∈ cs, ∃ d, digitValue c = some d ∧ d < base

@[simp] theorem numeral_nil (base n : ℕ) : numeral base [] n = n := rfl

@[simp] theorem numeral_cons (base : ℕ) (c : Char) (cs : List Char) (n : ℕ) :
    numeral base (c :: cs) n =
      numeral base cs (n * base + (digitValue c).getD 0) := rfl

@[simp] theorem numeral_append (base : ℕ) (cs ds : List Char) (n : ℕ) :
    numeral base (cs ++ ds) n = numeral base ds (numeral base cs n) := by
  simp [numeral, List.foldl_append]

theorem allDigits_append {base : ℕ} {cs ds : List Char} :
    AllDigits base (cs ++ ds) ↔ AllDigits base cs ∧ AllDigits base ds := by
  simp only [AllDigits, List.mem_append, or_imp, forall_and]

theorem AllDigits.tail {base : ℕ} {c : Char} {cs : List Char}
    (h : AllDigits base (c :: cs)) : AllDigits base cs :=
  fun d hd => h d (List.mem_cons_of_mem c hd)

theorem le_numeral {base : ℕ} (hbase : 0 < base) (cs : List Char) (n : ℕ) :
    n ≤ numeral base cs n := by
  induction cs generalizing n with
  | nil => exact le_rfl
  | cons c cs ih =>
      calc
        n ≤ n * base + (digitValue c).getD 0 := by nlinarith
        _ ≤ numeral base (c :: cs) n := ih _

theorem numeral_lt {base : ℕ} {cs : List Char} (hcs : AllDigits base cs)
    (n : ℕ) : numeral base cs n < (n + 1) * base ^ cs.length := by
  induction cs generalizing n with
  | nil => simp
  | cons c cs ih =>
      obtain ⟨d, hd, hlt⟩ := hcs c List.mem_cons_self
      have hhead : n * base + d + 1 ≤ (n + 1) * base := by nlinarith
      calc
        numeral base (c :: cs) n = numeral base cs (n * base + d) := by
          simp [hd]
        _ < (n * base + d + 1) * base ^ cs.length := ih hcs.tail _
        _ ≤ (n + 1) * base * base ^ cs.length :=
          Nat.mul_le_mul_right _ hhead
        _ = (n + 1) * base ^ (c :: cs).length := by
          rw [List.length_cons, pow_succ]
          ring

theorem numeral_ge (base : ℕ) (cs : List Char) (n : ℕ) :
    n * base ^ cs.length ≤ numeral base cs n := by
  induction cs generalizing n with
  | nil => simp
  | cons c cs ih =>
      calc
        n * base ^ (c :: cs).length = n * base * base ^ cs.length := by
          rw [List.length_cons, pow_succ]
          ring
        _ ≤ (n * base + (digitValue c).getD 0) * base ^ cs.length :=
          Nat.mul_le_mul_right _ (Nat.le_add_right _ _)
        _ ≤ numeral base (c :: cs) n := ih _

theorem numeral_eq_add (base : ℕ) (cs : List Char) (n : ℕ) :
    numeral base cs n = n * base ^ cs.length + numeral base cs 0 := by
  induction cs generalizing n with
  | nil => simp
  | cons c cs ih =>
      rw [numeral_cons, numeral_cons, ih (n * base + _),
        ih (0 * base + _), List.length_cons, pow_succ]
      ring

@[simp] theorem numeral_replicate_zero (base k : ℕ) :
    numeral base (List.replicate k '0') 0 = 0 := by
  induction k with
  | zero => rfl
  | succ k ih =>
      have hzero : (digitValue '0').getD 0 = 0 := by decide
      rw [List.replicate_succ, numeral_cons, hzero, Nat.zero_mul,
        Nat.add_zero, ih]

/-- Two digit strings of one length have equal values only when their digits
and the values to their left agree. -/
theorem numeral_inj {base : ℕ} {cs ds : List Char}
    (hcs : AllDigits base cs) (hds : AllDigits base ds)
    (hlen : cs.length = ds.length) {m n : ℕ}
    (h : numeral base cs m = numeral base ds n) :
    m = n ∧ cs.map digitValue = ds.map digitValue := by
  induction cs generalizing ds m n with
  | nil =>
      cases ds with
      | nil => exact ⟨h, rfl⟩
      | cons d ds => simp at hlen
  | cons c cs ih =>
      cases ds with
      | nil => simp at hlen
      | cons d ds =>
          obtain ⟨x, hx, hxb⟩ := hcs c List.mem_cons_self
          obtain ⟨y, hy, hyb⟩ := hds d List.mem_cons_self
          have hlen' : cs.length = ds.length := by simpa using hlen
          simp only [numeral_cons, hx, hy, Option.getD_some] at h
          obtain ⟨hhead, htail⟩ := ih hcs.tail hds.tail hlen' h
          have hx' : (m * base + x) % base = x := by
            rw [Nat.mul_comm, Nat.mul_add_mod, Nat.mod_eq_of_lt hxb]
          have hy' : (n * base + y) % base = y := by
            rw [Nat.mul_comm, Nat.mul_add_mod, Nat.mod_eq_of_lt hyb]
          have hxy : x = y := by rw [← hx', ← hy', hhead]
          subst y
          have hmn : m = n :=
            Nat.eq_of_mul_eq_mul_right (by omega) (Nat.add_right_cancel hhead)
          exact ⟨hmn, by simp [hx, hy, htail]⟩

theorem parseDigits_of_allDigits {base : ℕ} {cs : List Char}
    (hcs : AllDigits base cs) {n : ℕ} (hn : n < 2 ^ 64) :
    parseDigits base cs n =
      if numeral base cs n < 2 ^ 64 then .ok (numeral base cs n)
      else .error .errRange := by
  induction cs generalizing n with
  | nil => simp only [parseDigits, numeral_nil, hn, if_true]
  | cons c cs ih =>
      obtain ⟨d, hd, hlt⟩ := hcs c List.mem_cons_self
      simp only [parseDigits, hd, numeral_cons, Option.getD_some,
        if_neg (Nat.not_le.mpr hlt)]
      by_cases hover : 2 ^ 64 ≤ n * base + d
      · have hge := le_numeral (by omega : 0 < base) cs (n * base + d)
        rw [if_pos hover, if_neg (by omega)]
      · rw [if_neg hover]
        exact ih hcs.tail (Nat.not_le.mp hover)

/-! ## Digits written by `formatInt` -/

theorem digitValue_digitChar {d : ℕ} (hd : d < 16) :
    digitValue d.digitChar = some d := by
  interval_cases d <;> decide

theorem digitValue_minus : digitValue '-' = none := by decide

theorem digitValue_plus : digitValue '+' = none := by decide

/-- The lower-case hexadecimal digits, which `digitValue` tells apart. -/
theorem digitChar_inj_on {c d : Char}
    (hc : ∃ m < 16, c = Nat.digitChar m) (hd : ∃ m < 16, d = Nat.digitChar m)
    (h : digitValue c = digitValue d) : c = d := by
  obtain ⟨m, hm, rfl⟩ := hc
  obtain ⟨n, hn, rfl⟩ := hd
  rw [digitValue_digitChar hm, digitValue_digitChar hn,
    Option.some.injEq] at h
  rw [h]

theorem mem_toDigits {base n : ℕ} (hbase : 1 < base) {c : Char}
    (hc : c ∈ Nat.toDigits base n) : ∃ d < base, c = Nat.digitChar d := by
  induction n using Nat.strong_induction_on with
  | _ n ih =>
      rw [Nat.toDigits_eq_if hbase] at hc
      split at hc
      next hlt =>
        exact ⟨n, hlt, by simpa using hc⟩
      next hge =>
        rcases List.mem_append.mp hc with hc | hc
        · exact ih (n / base) (Nat.div_lt_self (by omega) hbase) hc
        · exact ⟨n % base, Nat.mod_lt _ (by omega), by simpa using hc⟩

theorem allDigits_toDigits {base : ℕ} (hbase : 1 < base) (hle : base ≤ 16)
    (n : ℕ) : AllDigits base (Nat.toDigits base n) := by
  intro c hc
  obtain ⟨d, hd, rfl⟩ := mem_toDigits hbase hc
  exact ⟨d, digitValue_digitChar (by omega), hd⟩

theorem numeral_toDigits {base : ℕ} (hbase : 1 < base) (hle : base ≤ 16)
    (n : ℕ) : numeral base (Nat.toDigits base n) 0 = n := by
  induction n using Nat.strong_induction_on with
  | _ n ih =>
      rw [Nat.toDigits_eq_if hbase]
      split
      next hlt =>
        simp [digitValue_digitChar (by omega : n < 16)]
      next hge =>
        have hmod : n % base < base := Nat.mod_lt _ (by omega)
        rw [numeral_append, ih _ (Nat.div_lt_self (by omega) hbase)]
        simp [digitValue_digitChar (by omega : n % base < 16),
          Nat.div_add_mod']

theorem toDigits_injective {base : ℕ} (hbase : 1 < base) (hle : base ≤ 16)
    {m n : ℕ} (h : Nat.toDigits base m = Nat.toDigits base n) : m = n := by
  rw [← numeral_toDigits hbase hle m, h, numeral_toDigits hbase hle n]

theorem minus_not_mem_toDigits {base : ℕ} (hbase : 1 < base) (hle : base ≤ 16)
    (n : ℕ) : '-' ∉ Nat.toDigits base n := by
  intro hmem
  obtain ⟨d, hd, -⟩ := allDigits_toDigits hbase hle n _ hmem
  rw [digitValue_minus] at hd
  contradiction

theorem formatInt_injective {base : ℕ} (hbase : 1 < base) (hle : base ≤ 16) :
    Function.Injective fun n => formatInt n base := by
  intro m n h
  have hlist := congrArg String.toList h
  cases m with
  | ofNat m =>
      cases n with
      | ofNat n =>
          simp only [formatInt, String.toList_ofList] at hlist
          rw [toDigits_injective hbase hle hlist]
      | negSucc n =>
          simp only [formatInt, String.toList_ofList] at hlist
          exact absurd (hlist ▸ List.mem_cons_self)
            (minus_not_mem_toDigits hbase hle m)
  | negSucc m =>
      cases n with
      | ofNat n =>
          simp only [formatInt, String.toList_ofList] at hlist
          exact absurd (hlist ▸ List.mem_cons_self)
            (minus_not_mem_toDigits hbase hle n)
      | negSucc n =>
          simp only [formatInt, String.toList_ofList, List.cons.injEq,
            true_and] at hlist
          have := toDigits_injective hbase hle hlist
          rw [Nat.succ.inj this]

/-! ## Reading back -/

theorem parseUint_toDigits {base : ℕ} (hbase : 1 < base) (hle : base ≤ 16)
    {n : ℕ} (hn : n < 2 ^ 64) :
    parseUint base (Nat.toDigits base n) = .ok n := by
  have hdigits := parseDigits_of_allDigits
    (allDigits_toDigits hbase hle n) (n := 0) (by norm_num)
  rw [numeral_toDigits hbase hle, if_pos hn] at hdigits
  cases htext : Nat.toDigits base n with
  | nil => exact absurd htext Nat.toDigits_ne_nil
  | cons c cs =>
      rw [htext] at hdigits
      exact hdigits

theorem parseInt_of_unsigned {base : ℕ} {text : String}
    (hminus : '-' ∉ text.toList) (hplus : '+' ∉ text.toList) :
    parseInt text base =
      match parseUint base text.toList with
      | .error err => .error err
      | .ok n => if 2 ^ 63 ≤ n then .error .errRange else .ok (n : Int) := by
  unfold parseInt
  split
  next digits heq => exact absurd (heq ▸ List.mem_cons_self) hminus
  next digits heq => exact absurd (heq ▸ List.mem_cons_self) hplus
  next => rfl

/-- What the loop of `ParseUint` accepts is a digit string. -/
theorem parseDigits_ok {base : ℕ} {cs : List Char} {n m : ℕ}
    (h : parseDigits base cs n = .ok m) :
    AllDigits base cs ∧ m = numeral base cs n := by
  induction cs generalizing n with
  | nil =>
      simp only [parseDigits, Except.ok.injEq] at h
      exact ⟨fun c hc => absurd hc List.not_mem_nil, h.symm⟩
  | cons c cs ih =>
      simp only [parseDigits] at h
      split at h
      next => cases h
      next d hd =>
        split at h
        next => cases h
        next hlt =>
          split at h
          next => cases h
          next =>
            obtain ⟨htail, hm⟩ := ih h
            refine ⟨?_, by simpa [hd] using hm⟩
            intro c' hc'
            rcases List.mem_cons.mp hc' with rfl | hc'
            · exact ⟨d, hd, Nat.not_le.mp hlt⟩
            · exact htail c' hc'

theorem parseUint_ok {base : ℕ} {cs : List Char} {m : ℕ}
    (h : parseUint base cs = .ok m) :
    AllDigits base cs ∧ m = numeral base cs 0 := by
  cases cs with
  | nil => cases h
  | cons c cs => exact parseDigits_ok h

/-- Text that starts with a digit is accepted only when all of it is
digits. -/
theorem parseInt_ok {base : ℕ} {text : String} {c : Char} {cs : List Char}
    (htext : text.toList = c :: cs) (hminus : c ≠ '-') (hplus : c ≠ '+')
    {n : Int} (h : parseInt text base = .ok n) :
    AllDigits base text.toList ∧
      numeral base text.toList 0 < 2 ^ 63 ∧
      n = numeral base text.toList 0 := by
  unfold parseInt at h
  split at h
  next digits heq =>
    rw [htext] at heq
    exact absurd (List.cons.inj heq).1 hminus
  next digits heq =>
    rw [htext] at heq
    exact absurd (List.cons.inj heq).1 hplus
  next =>
    cases hdigits : parseUint base text.toList with
    | error err =>
        rw [hdigits] at h
        cases h
    | ok m =>
        rw [hdigits] at h
        simp only at h
        split at h
        next => cases h
        next hlt =>
          obtain ⟨hall, rfl⟩ := parseUint_ok hdigits
          exact ⟨hall, Nat.not_le.mp hlt, (Except.ok.inj h).symm⟩

theorem parseInt_of_allDigits {base : ℕ} {text : String}
    (hne : text.toList ≠ []) (hall : AllDigits base text.toList)
    (hlt : numeral base text.toList 0 < 2 ^ 63) :
    parseInt text base = .ok (numeral base text.toList 0) := by
  have hsign : ∀ c, digitValue c = none → c ∉ text.toList := by
    intro c hc hmem
    obtain ⟨d, hd, -⟩ := hall c hmem
    rw [hc] at hd
    cases hd
  have hdigits : parseUint base text.toList =
      .ok (numeral base text.toList 0) := by
    have hparse := parseDigits_of_allDigits hall (n := 0) (by norm_num)
    rw [if_pos (by omega)] at hparse
    cases htext : text.toList with
    | nil => exact absurd htext hne
    | cons c cs =>
        rw [htext] at hparse
        exact hparse
  rw [parseInt_of_unsigned (hsign '-' digitValue_minus)
    (hsign '+' digitValue_plus), hdigits]
  simp only
  rw [if_neg (by omega)]

theorem mem_formatInt {base : ℕ} (hbase : 1 < base) {n : Int} {c : Char}
    (hc : c ∈ (formatInt n base).toList) :
    c = '-' ∨ ∃ d < base, c = Nat.digitChar d := by
  cases n with
  | ofNat m =>
      simp only [formatInt, String.toList_ofList] at hc
      exact .inr (mem_toDigits hbase hc)
  | negSucc m =>
      simp only [formatInt, String.toList_ofList, List.mem_cons] at hc
      rcases hc with hc | hc
      · exact .inl hc
      · exact .inr (mem_toDigits hbase hc)

theorem mem_formatInt_of_nonneg {base : ℕ} (hbase : 1 < base) {n : Int}
    (hn : 0 ≤ n) {c : Char} (hc : c ∈ (formatInt n base).toList) :
    ∃ d < base, c = Nat.digitChar d := by
  cases n with
  | ofNat m =>
      simp only [formatInt, String.toList_ofList] at hc
      exact mem_toDigits hbase hc
  | negSucc m => exact absurd hn (by omega)

theorem parseInt_formatInt {base : ℕ} (hbase : 1 < base) (hle : base ≤ 16)
    {n : Int} (hlow : -2 ^ 63 ≤ n) (hhigh : n < 2 ^ 63) :
    parseInt (formatInt n base) base = .ok n := by
  cases n with
  | ofNat m =>
      have hm : m < 2 ^ 63 := by
        have : (Int.ofNat m : Int) = (m : Int) := rfl
        omega
      have htext : (formatInt (Int.ofNat m) base).toList =
          Nat.toDigits base m := by simp [formatInt]
      have hvalue := numeral_toDigits hbase hle m
      rw [← htext] at hvalue
      rw [parseInt_of_allDigits, hvalue]
      · rfl
      · rw [htext]
        exact Nat.toDigits_ne_nil
      · rw [htext]
        exact allDigits_toDigits hbase hle m
      · rwa [hvalue]
  | negSucc m =>
      have hm : m + 1 ≤ 2 ^ 63 := by
        have : Int.negSucc m = -((m : Int) + 1) := by omega
        omega
      simp only [parseInt, formatInt, String.toList_ofList]
      rw [parseUint_toDigits hbase hle (by omega)]
      simp only
      rw [if_neg (by omega)]
      congr 1

end SocialNetwork.Strconv
