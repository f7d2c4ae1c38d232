import SocialNetwork.Ids
import Mathlib.Tactic

/-!
# Machine ids of the platforms the service runs on

`HashMacAddressPid` sums one byte for every character of the hardware address
and the process id.  A hardware address of six bytes has seventeen characters
and a process id at most nineteen, so the sum stays between 1000 and 8000.  Its
first three decimal digits then start with a digit below eight, which is what
the sixteen hexadecimal digits of an id have room for.
-/

namespace SocialNetwork.Ids

open Strconv

/-! ## The bytes of a text -/

theorem byteArray_toList_loop (bytes : ByteArray) (i : ℕ) (r : List UInt8) :
    ByteArray.toList.loop bytes i r =
      r.reverse ++ bytes.data.toList.drop i := by
  fun_induction ByteArray.toList.loop bytes i r with
  | case1 i r hlt ih =>
      have hdrop : bytes.data.toList.drop i =
          bytes.get! i :: bytes.data.toList.drop (i + 1) := by
        have hlt' : i < bytes.data.toList.length := hlt
        have hget : bytes.get! i = bytes.data.toList[i] := by
          have hvalue : bytes.get! i = bytes.data[i]! := by
            cases bytes
            rfl
          rw [hvalue, getElem!_pos bytes.data i hlt]
          exact (Array.getElem_toList hlt).symm
        rw [List.drop_eq_getElem_cons hlt', hget]
      rw [ih, hdrop]
      simp
  | case2 i r hge =>
      have hdrop : bytes.data.toList.drop i = [] :=
        List.drop_eq_nil_of_le (Nat.not_lt.mp hge)
      rw [hdrop, List.append_nil]

theorem byteArray_toList (bytes : ByteArray) :
    bytes.toList = bytes.data.toList := by
  have hloop := byteArray_toList_loop bytes 0 []
  rw [List.reverse_nil, List.nil_append, List.drop_zero] at hloop
  exact hloop

def asciiByte (c : Char) : UInt8 := c.val.toUInt8

theorem toUTF8_toList_of_ascii {cs : List Char}
    (hascii : ∀ c ∈ cs, c.utf8Size = 1) :
    (String.ofList cs).toUTF8.toList = cs.map asciiByte := by
  rw [byteArray_toList, String.toUTF8_eq_toByteArray,
    String.toByteArray_ofList, List.utf8Encode,
    List.toList_data_toByteArray]
  induction cs with
  | nil => rfl
  | cons c cs ih =>
      have hhead : String.utf8EncodeChar c = [asciiByte c] :=
        String.utf8EncodeChar_eq_singleton (hascii c List.mem_cons_self)
      have htail := ih fun d hd => hascii d (List.mem_cons_of_mem c hd)
      rw [List.flatMap_cons, hhead, htail]
      rfl

/-! ## The sum over the bytes -/

/-- What the byte at position `i` adds to the hash. -/
def weight (i : ℕ) (byte : UInt8) : ℕ :=
  ((byte <<< UInt8.ofNat (i % 2)) * 8).toNat

def weights : ℕ → List Char → ℕ
  | _, [] => 0
  | i, c :: cs => weight i (asciiByte c) + weights (i + 1) cs

@[simp] theorem weights_nil (i : ℕ) : weights i [] = 0 := rfl

@[simp] theorem weights_cons (i : ℕ) (c : Char) (cs : List Char) :
    weights i (c :: cs) = weight i (asciiByte c) + weights (i + 1) cs := rfl

theorem weights_append (i : ℕ) (cs ds : List Char) :
    weights i (cs ++ ds) = weights i cs + weights (i + cs.length) ds := by
  induction cs generalizing i with
  | nil => simp
  | cons c cs ih =>
      have hindex : i + 1 + cs.length = i + (c :: cs).length := by
        simp only [List.length_cons]
        omega
      rw [List.cons_append, weights_cons, weights_cons, ih, hindex,
        Nat.add_assoc]

theorem foldl_hash (cs : List Char) (i : ℕ) (hash : UInt16) :
    (((cs.map asciiByte).zipIdx i).foldl
      (fun hash entry =>
        hash + ((entry.1 <<< UInt8.ofNat (entry.2 % 2)) * 8).toUInt16)
      hash).toNat = (hash.toNat + weights i cs) % 2 ^ 16 := by
  induction cs generalizing i hash with
  | nil => simp [Nat.mod_eq_of_lt hash.toNat_lt]
  | cons c cs ih =>
      rw [List.map_cons, List.zipIdx_cons, List.foldl_cons, ih,
        UInt16.toNat_add, UInt8.toNat_toUInt16, weights_cons,
        Nat.mod_add_mod, Nat.add_assoc]
      rfl

/-- The characters of a hardware address and of a process id. -/
def IsHashed (c : Char) : Prop :=
  c = ':' ∨ ∃ d < 16, c = Nat.digitChar d

theorem IsHashed.utf8Size {c : Char} (hc : IsHashed c) :
    c.utf8Size = 1 := by
  rcases hc with rfl | ⟨d, hd, rfl⟩
  · decide
  · interval_cases d <;> decide

theorem weight_eq_mod (i : ℕ) (byte : UInt8) :
    weight i byte = weight (i % 2) byte := by
  simp only [weight, Nat.mod_mod]

theorem IsHashed.weight_le {c : Char} (hc : IsHashed c) (i : ℕ) :
    weight i (asciiByte c) ≤ 208 := by
  have hcases : i % 2 = 0 ∨ i % 2 = 1 := Nat.mod_two_eq_zero_or_one i
  rw [weight_eq_mod]
  rcases hc with rfl | ⟨d, hd, rfl⟩
  · rcases hcases with hi | hi <;> rw [hi] <;> decide
  · rcases hcases with hi | hi <;> rw [hi] <;> interval_cases d <;> decide

theorem weights_le {cs : List Char} (hcs : ∀ c ∈ cs, IsHashed c) (i : ℕ) :
    weights i cs ≤ 208 * cs.length := by
  induction cs generalizing i with
  | nil => simp
  | cons c cs ih =>
      have hhead := (hcs c List.mem_cons_self).weight_le i
      have htail := ih (fun d hd => hcs d (List.mem_cons_of_mem c hd)) (i + 1)
      rw [weights_cons, List.length_cons]
      omega

theorem le_weight_of_even {d i : ℕ} (hd : d < 16) (hi : i % 2 = 0) :
    8 ≤ weight i (asciiByte (Nat.digitChar d)) := by
  rw [weight_eq_mod, hi]
  interval_cases d <;> decide

theorem le_weight_of_even_of_lt_ten {d i : ℕ} (hd : d < 10)
    (hi : i % 2 = 0) : 128 ≤ weight i (asciiByte (Nat.digitChar d)) := by
  rw [weight_eq_mod, hi]
  interval_cases d <;> decide

theorem le_weight_of_odd {d i : ℕ} (hpos : 0 < d) (hd : d < 10)
    (hi : i % 2 = 1) : 16 ≤ weight i (asciiByte (Nat.digitChar d)) := by
  rw [weight_eq_mod, hi]
  interval_cases d <;> decide

theorem weight_colon (i : ℕ) :
    weight i (asciiByte ':') = if i % 2 = 0 then 208 else 160 := by
  rw [weight_eq_mod]
  rcases Nat.mod_two_eq_zero_or_one i with hi | hi <;> rw [hi] <;> decide

/-! ## Hardware addresses and process ids -/

def byteHex (byte : UInt8) : List Char :=
  (fixedWidth 2 (formatInt byte.toNat 16)).toList

@[simp] theorem length_byteHex (byte : UInt8) : (byteHex byte).length = 2 :=
  fixedWidth_length 2 _

theorem hexDigits_byteHex (byte : UInt8) : HexDigits (byteHex byte) :=
  hexDigits_fixedWidth (Int.natCast_nonneg _) (by norm_num) le_rfl

/-- One of the two digits of a byte stands at an even position. -/
theorem le_weights_byteHex (i : ℕ) (byte : UInt8) :
    8 ≤ weights i (byteHex byte) := by
  obtain ⟨c, d, hpair⟩ := List.length_eq_two.mp (length_byteHex byte)
  have hdigits := hexDigits_byteHex byte
  rw [hpair] at hdigits ⊢
  obtain ⟨m, hm, rfl⟩ := hdigits c List.mem_cons_self
  obtain ⟨n, hn, rfl⟩ := hdigits d (List.mem_cons_of_mem _
    List.mem_cons_self)
  simp only [weights_cons, weights_nil]
  rcases Nat.mod_two_eq_zero_or_one i with hi | hi
  · have hfirst := le_weight_of_even hm hi
    omega
  · have hsecond := le_weight_of_even hn (by omega : (i + 1) % 2 = 0)
    omega

/-- The text of an address after its first byte. -/
def colonHex (hardwareAddr : List UInt8) : List Char :=
  hardwareAddr.flatMap fun byte => ':' :: byteHex byte

theorem toList_macString (byte : UInt8) (hardwareAddr : List UInt8) :
    (macString (byte :: hardwareAddr)).toList =
      byteHex byte ++ colonHex hardwareAddr := by
  induction hardwareAddr generalizing byte with
  | nil =>
      simp [macString, colonHex, byteHex, String.intercalate_singleton]
  | cons next hardwareAddr ih =>
      have hrest := ih next
      simp only [macString, List.map_cons, String.intercalate_cons_cons,
        String.toList_append] at hrest ⊢
      rw [hrest]
      simp [colonHex, byteHex]

theorem isHashed_of_hexDigits {cs : List Char} (hcs : HexDigits cs) :
    ∀ c ∈ cs, IsHashed c :=
  fun c hc => .inr (hcs c hc)

theorem length_colonHex (hardwareAddr : List UInt8) :
    (colonHex hardwareAddr).length = 3 * hardwareAddr.length := by
  induction hardwareAddr with
  | nil => rfl
  | cons byte hardwareAddr ih =>
      simp only [colonHex, List.flatMap_cons, List.length_append,
        List.length_cons, length_byteHex] at ih ⊢
      omega

theorem isHashed_colonHex (hardwareAddr : List UInt8) :
    ∀ c ∈ colonHex hardwareAddr, IsHashed c := by
  intro c hc
  obtain ⟨byte, -, hmem⟩ := List.mem_flatMap.mp hc
  rcases List.mem_cons.mp hmem with rfl | hmem
  · exact .inl rfl
  · exact isHashed_of_hexDigits (hexDigits_byteHex byte) c hmem

/-- A colon at an even position adds 208 and one at an odd position 160. -/
theorem le_weights_colonHex (hardwareAddr : List UInt8) (i : ℕ) :
    168 * hardwareAddr.length +
        48 * ((hardwareAddr.length + (i + 1) % 2) / 2) ≤
      weights i (colonHex hardwareAddr) := by
  induction hardwareAddr generalizing i with
  | nil => simp
  | cons byte hardwareAddr ih =>
      have hhex := le_weights_byteHex (i + 1) byte
      have hrest := ih (i + 3)
      have hcolon := weight_colon i
      have hsplit : weights i (colonHex (byte :: hardwareAddr)) =
          weight i (asciiByte ':') + (weights (i + 1) (byteHex byte) +
            weights (i + 3) (colonHex hardwareAddr)) := by
        unfold colonHex
        rw [List.flatMap_cons, List.cons_append, weights_cons,
          weights_append, length_byteHex]
      rw [hsplit, List.length_cons]
      split at hcolon <;> omega

/-- Of two decimal digits that follow each other the one at the even position
adds at least 128. -/
theorem le_weights_of_two_digits {cs : List Char} {i : ℕ}
    (hcs : ∀ c ∈ cs, ∃ d < 10, c = Nat.digitChar d)
    (hlength : 2 ≤ cs.length) : 128 ≤ weights i cs := by
  match cs, hlength with
  | c :: d :: rest, _ =>
      obtain ⟨m, hm, rfl⟩ := hcs c List.mem_cons_self
      obtain ⟨n, hn, rfl⟩ := hcs d (List.mem_cons_of_mem _
        List.mem_cons_self)
      simp only [weights_cons]
      rcases Nat.mod_two_eq_zero_or_one i with hi | hi
      · have hfirst := le_weight_of_even_of_lt_ten hm hi
        omega
      · have hsecond := le_weight_of_even_of_lt_ten hn
          (by omega : (i + 1) % 2 = 0)
        omega

theorem le_weights_pid {pid i : ℕ} (hpid : 0 < pid) (hi : i % 2 = 1) :
    16 ≤ weights i (Nat.toDigits 10 pid) := by
  by_cases hlt : pid < 10
  · have hdigit := le_weight_of_odd hpid hlt hi
    rw [Nat.toDigits_eq_if (by norm_num), if_pos hlt]
    simpa using hdigit
  · have hlength : ¬(Nat.toDigits 10 pid).length ≤ 1 := by
      rw [Nat.length_toDigits_le_iff (by norm_num) (by norm_num)]
      simpa using hlt
    have hweights := le_weights_of_two_digits (i := i)
      (fun c hc => mem_toDigits (by norm_num) hc) (Nat.not_le.mp hlength)
    omega

/-! ## The machine id -/

/-- The characters hashed for a hardware address of six bytes. -/
structure HashedText (cs : List Char) : Prop where
  isHashed : ∀ c ∈ cs, IsHashed c
  lower : 1000 ≤ weights 0 cs
  upper : weights 0 cs < 8000

theorem hashedText {hardwareAddr : List UInt8} {pid : ℕ}
    (haddr : hardwareAddr.length = 6) (hpos : 0 < pid)
    (hpid : pid < 2 ^ 63) :
    HashedText ((macString hardwareAddr).toList ++
      Nat.toDigits 10 pid) := by
  match hardwareAddr, haddr with
  | byte :: rest, haddr =>
      have hrest : rest.length = 5 := by simpa using haddr
      have hmac : ((macString (byte :: rest)).toList).length = 17 := by
        simp [toList_macString, length_colonHex, hrest]
      have hmacHashed : ∀ c ∈ (macString (byte :: rest)).toList,
          IsHashed c := by
        intro c hc
        rw [toList_macString] at hc
        rcases List.mem_append.mp hc with hc | hc
        · exact isHashed_of_hexDigits (hexDigits_byteHex byte) c hc
        · exact isHashed_colonHex rest c hc
      have hpidHashed : ∀ c ∈ Nat.toDigits 10 pid, IsHashed c := by
        intro c hc
        obtain ⟨d, hd, hchar⟩ := mem_toDigits (by norm_num) hc
        exact .inr ⟨d, by omega, hchar⟩
      have hmacLower : 992 ≤ weights 0 (macString (byte :: rest)).toList := by
        have hfirst := le_weights_byteHex 0 byte
        have hothers := le_weights_colonHex rest 2
        rw [toList_macString, weights_append, length_byteHex, Nat.zero_add]
        rw [hrest] at hothers
        omega
      have hpidLower := le_weights_pid hpos (by decide : 17 % 2 = 1)
      have hpidLength : (Nat.toDigits 10 pid).length ≤ 19 := by
        rw [Nat.length_toDigits_le_iff (by norm_num) (by norm_num)]
        omega
      have hmacUpper := weights_le hmacHashed 0
      have hpidUpper := weights_le hpidHashed 17
      have hsum := weights_append 0 (macString (byte :: rest)).toList
        (Nat.toDigits 10 pid)
      rw [hmac, Nat.zero_add] at hsum
      rw [hmac] at hmacUpper
      refine ⟨?_, by omega, by omega⟩
      intro c hc
      rcases List.mem_append.mp hc with hc | hc
      · exact hmacHashed c hc
      · exact hpidHashed c hc

theorem hashMacAddressPid_eq {mac : String} {pid : ℕ}
    (h : HashedText (mac.toList ++ Nat.toDigits 10 pid)) :
    HashMacAddressPid mac pid = fixedWidth 3
      (formatInt (weights 0 (mac.toList ++ Nat.toDigits 10 pid) : ℕ) 10) := by
  have htext : mac ++ formatInt (pid : Int) 10 =
      String.ofList (mac.toList ++ Nat.toDigits 10 pid) := by
    rw [← String.toList_inj]
    simp [formatInt]
  have hbytes := toUTF8_toList_of_ascii
    fun c hc => (h.isHashed c hc).utf8Size
  have hsum := foldl_hash (mac.toList ++ Nat.toDigits 10 pid) 0 0
  have hmod : (UInt16.toNat 0 +
      weights 0 (mac.toList ++ Nat.toDigits 10 pid)) % 2 ^ 16 =
        weights 0 (mac.toList ++ Nat.toDigits 10 pid) := by
    have hupper := h.upper
    have hzero : UInt16.toNat 0 = 0 := rfl
    rw [hzero, Nat.zero_add, Nat.mod_eq_of_lt (by omega)]
  rw [hmod] at hsum
  unfold HashMacAddressPid
  simp only [htext, hbytes, hsum]

theorem toDigits_four {n : ℕ} (hlow : 1000 ≤ n) (hhigh : n < 8000) :
    Nat.toDigits 10 n =
      [Nat.digitChar (n / 1000), Nat.digitChar (n / 100 % 10),
        Nat.digitChar (n / 10 % 10), Nat.digitChar (n % 10)] := by
  rw [Nat.toDigits_eq_if (by norm_num), if_neg (by omega),
    Nat.toDigits_eq_if (by norm_num), if_neg (by omega),
    Nat.toDigits_eq_if (by norm_num), if_neg (by omega),
    Nat.toDigits_eq_if (by norm_num), if_pos (by omega)]
  simp only [Nat.div_div_eq_div_mul, List.cons_append, List.nil_append]

theorem fixedWidth_three {n : ℕ} (hlow : 1000 ≤ n) (hhigh : n < 8000) :
    (fixedWidth 3 (formatInt n 10)).toList =
      [Nat.digitChar (n / 1000), Nat.digitChar (n / 100 % 10),
        Nat.digitChar (n / 10 % 10)] := by
  have hdigits := toDigits_four hlow hhigh
  have htext : (formatInt (n : Int) 10).toList = Nat.toDigits 10 n := by
    simp [formatInt]
  unfold fixedWidth
  rw [htext, hdigits, if_pos (by simp)]
  simp

/-- The first digit is at most seven. -/
theorem usable_fixedWidth {n : ℕ} (hlow : 1000 ≤ n) (hhigh : n < 8000) :
    Usable (fixedWidth 3 (formatInt n 10)) := by
  have hthousands := digitValue_digitChar (by omega : n / 1000 < 16)
  have hhundreds := digitValue_digitChar (by omega : n / 100 % 10 < 16)
  have htens := digitValue_digitChar (by omega : n / 10 % 10 < 16)
  unfold Usable
  rw [fixedWidth_three hlow hhigh]
  simp only [numeral_cons, numeral_nil, hthousands, hhundreds, htens,
    Option.getD_some]
  omega

/-! ## Ids as numbers -/

theorem numeral_fixedWidth {width : ℕ} (hwidth : 0 < width) {n : Int}
    (hn : 0 ≤ n) (hlt : n < 16 ^ width) :
    (numeral 16 (fixedWidth width (formatInt n 16)).toList 0 : ℕ) =
      n.toNat := by
  obtain ⟨m, rfl⟩ := Int.eq_ofNat_of_zero_le hn
  have hm : m < 16 ^ width := by exact_mod_cast hlt
  have htext : (formatInt (m : Int) 16).toList = Nat.toDigits 16 m := by
    simp [formatInt]
  have hlength : (Nat.toDigits 16 m).length ≤ width :=
    (Nat.length_toDigits_le_iff (by norm_num) hwidth).mpr hm
  have hvalue := numeral_toDigits (by norm_num : 1 < 16) le_rfl m
  unfold fixedWidth
  rw [htext, if_neg (by omega)]
  split
  next =>
    rw [String.toList_ofList, numeral_append, numeral_replicate_zero,
      hvalue]
    rfl
  next =>
    rw [htext, hvalue]
    rfl

/-- The number behind an id. -/
def idValue (machineID : String) (timestamp counter : Int64) : ℕ :=
  (numeral 16 machineID.toList 0 * 16 ^ 10 + timestamp.toInt.toNat) *
    16 ^ 3 + counter.toInt.toNat

theorem numeral_idDigits (machineID : String) {timestamp counter : Int64}
    (htimestamp : 0 ≤ timestamp.toInt ∧ timestamp.toInt < 16 ^ 10)
    (hcounter : 0 ≤ counter.toInt ∧ counter.toInt < 16 ^ 3) :
    numeral 16 (idDigits machineID timestamp counter) 0 =
      idValue machineID timestamp counter := by
  have ht := numeral_fixedWidth (by norm_num : 0 < 10) htimestamp.1
    htimestamp.2
  have hc := numeral_fixedWidth (by norm_num : 0 < 3) hcounter.1 hcounter.2
  unfold idDigits idValue timestampHex counterHex
  rw [numeral_append, numeral_append, numeral_eq_add 16 _ (numeral 16 _ _),
    numeral_eq_add 16 _ (numeral 16 machineID.toList 0), ht, hc,
    fixedWidth_length, fixedWidth_length]

theorem genUniqueID_toInt {machineID : String}
    (hmachine : IsMachineID machineID) {timestamp counter id : Int64}
    (htimestamp : 0 ≤ timestamp.toInt ∧ timestamp.toInt < 16 ^ 10)
    (hcounter : 0 ≤ counter.toInt ∧ counter.toInt < 16 ^ 3)
    (h : GenUniqueID machineID timestamp counter = .ok id) :
    id.toInt = idValue machineID timestamp counter := by
  obtain ⟨-, hlt, hid⟩ := genUniqueID_ok hmachine h
  rw [numeral_idDigits machineID htimestamp hcounter] at hlt hid
  rw [hid, Int64.toInt_ofInt_of_le (by omega) (by omega)]

theorem idValue_lt_of_lex (machineID : String)
    {timestamp counter timestamp' counter' : Int64}
    (htimestamp : 0 ≤ timestamp.toInt)
    (hcounter : 0 ≤ counter.toInt ∧ counter.toInt < 16 ^ 3)
    (hlex : timestamp < timestamp' ∨
      timestamp = timestamp' ∧ counter < counter') :
    idValue machineID timestamp counter <
      idValue machineID timestamp' counter' := by
  unfold idValue
  rcases hlex with hlt | ⟨rfl, hlt⟩
  · rw [Int64.lt_iff_toInt_lt] at hlt
    omega
  · rw [Int64.lt_iff_toInt_lt] at hlt
    omega

theorem ne_of_machineID_ne {machineID machineID' : String}
    (hmachine : IsMachineID machineID) (hmachine' : IsMachineID machineID')
    (hlength : machineID.toList.length = machineID'.toList.length)
    (hne : machineID ≠ machineID')
    {timestamp counter timestamp' counter' id id' : Int64}
    (h : GenUniqueID machineID timestamp counter = .ok id)
    (h' : GenUniqueID machineID' timestamp' counter' = .ok id') :
    id ≠ id' := by
  intro heq
  subst heq
  obtain ⟨hall, hlt, hid⟩ := genUniqueID_ok hmachine h
  obtain ⟨hall', hlt', hid'⟩ := genUniqueID_ok hmachine' h'
  have hvalue := ofInt_natCast_inj hlt hlt' (hid.symm.trans hid')
  have hlen : (idDigits machineID timestamp counter).length =
      (idDigits machineID' timestamp' counter').length := by
    simp [idDigits, timestampHex, counterHex, hlength]
  have hdigits := hall.eq_of_map_digitValue hall'
    (numeral_inj hall.allDigits hall'.allDigits hlen hvalue).2
  unfold idDigits at hdigits
  rw [List.append_assoc, List.append_assoc] at hdigits
  exact hne (String.toList_inj.mp
    (List.append_inj_left hdigits hlength))

/-- The machine ids of hardware addresses with six bytes, and the one used
when there is no such address. -/
inductive PlatformMachineID : String → Prop
  | hash (hardwareAddr : List UInt8) (pid : ℕ)
      (haddr : hardwareAddr.length = 6) (hpos : 0 < pid)
      (hpid : pid < 2 ^ 63) :
      PlatformMachineID (HashMacAddressPid (macString hardwareAddr) pid)
  | fallback : PlatformMachineID "0"

theorem PlatformMachineID.isMachineID {machineID : String}
    (h : PlatformMachineID machineID) : IsMachineID machineID := by
  cases h with
  | hash hardwareAddr pid haddr hpos hpid =>
      constructor
      · apply List.ne_nil_of_length_pos
        simp [HashMacAddressPid]
      · exact hexDigits_fixedWidth (Int.natCast_nonneg _) (by norm_num)
          (by norm_num)
  | fallback =>
      exact ⟨by decide, fun c hc => ⟨0, by norm_num,
        List.mem_singleton.mp hc⟩⟩

theorem PlatformMachineID.usable {machineID : String}
    (h : PlatformMachineID machineID) : Usable machineID := by
  cases h with
  | hash hardwareAddr pid haddr hpos hpid =>
      have htext := hashedText haddr hpos hpid
      rw [hashMacAddressPid_eq htext]
      exact usable_fixedWidth htext.lower htext.upper
  | fallback => decide

/-- Every timestamp and counter that fits its field gives an id, in the order
of the two fields, and the ids of different three-digit machines differ. -/
theorem genUniqueID_platform {machineID : String}
    (hmachine : PlatformMachineID machineID) :
    (∀ timestamp counter : Int64,
      0 ≤ timestamp.toInt ∧ timestamp.toInt < 16 ^ 10 →
      0 ≤ counter.toInt ∧ counter.toInt < 16 ^ 3 →
      ∃ id, GenUniqueID machineID timestamp counter = .ok id ∧
        0 ≤ id.toInt ∧ id.toInt < 2 ^ 63) ∧
    (∀ timestamp counter timestamp' counter' id id' : Int64,
      0 ≤ timestamp.toInt ∧ timestamp.toInt < 16 ^ 10 →
      0 ≤ counter.toInt ∧ counter.toInt < 16 ^ 3 →
      0 ≤ timestamp'.toInt ∧ timestamp'.toInt < 16 ^ 10 →
      0 ≤ counter'.toInt ∧ counter'.toInt < 16 ^ 3 →
      timestamp < timestamp' ∨ timestamp = timestamp' ∧ counter < counter' →
      GenUniqueID machineID timestamp counter = .ok id →
      GenUniqueID machineID timestamp' counter' = .ok id' → id < id') ∧
    ∀ machineID', PlatformMachineID machineID' →
      machineID.toList.length = 3 → machineID'.toList.length = 3 →
      machineID ≠ machineID' →
      ∀ timestamp counter timestamp' counter' id id' : Int64,
        GenUniqueID machineID timestamp counter = .ok id →
        GenUniqueID machineID' timestamp' counter' = .ok id' →
        id ≠ id' := by
  have hid := hmachine.isMachineID
  refine ⟨?_, ?_, ?_⟩
  · intro timestamp counter htimestamp hcounter
    obtain ⟨id, hok⟩ := exists_genUniqueID hid hmachine.usable
      (Int64.le_iff_toInt_le.mpr htimestamp.1)
      (Int64.le_iff_toInt_le.mpr hcounter.1)
    have hvalue := genUniqueID_toInt hid htimestamp hcounter hok
    exact ⟨id, hok, by omega, Int64.toInt_lt id⟩
  · intro timestamp counter timestamp' counter' id id' htimestamp hcounter
      htimestamp' hcounter' hlex hok hok'
    have hvalue := genUniqueID_toInt hid htimestamp hcounter hok
    have hvalue' := genUniqueID_toInt hid htimestamp' hcounter' hok'
    have hlt := idValue_lt_of_lex machineID htimestamp.1 hcounter
      hlex
    rw [Int64.lt_iff_toInt_lt]
    omega
  · intro machineID' hmachine' hthree hthree' hne timestamp counter
      timestamp' counter' id id' hok hok'
    exact ne_of_machineID_ne hid hmachine'.isMachineID
      (hthree.trans hthree'.symm) hne hok hok'

theorem genUniqueID_platform_example :
    ∃ id id', GenUniqueID
        (HashMacAddressPid (macString [0x00, 0x16, 0x3e, 0x5e, 0x6c, 0x1d])
          (4711 : ℕ)) 1 4095 = .ok id ∧
      GenUniqueID
        (HashMacAddressPid (macString [0x00, 0x16, 0x3e, 0x5e, 0x6c, 0x1d])
          (4711 : ℕ)) 2 0 = .ok id' ∧ 0 ≤ id.toInt ∧ id < id' := by
  have hmachine := PlatformMachineID.hash
    [0x00, 0x16, 0x3e, 0x5e, 0x6c, 0x1d] 4711 rfl (by norm_num)
    (by norm_num)
  obtain ⟨hok, hlex, -⟩ := genUniqueID_platform hmachine
  obtain ⟨id, hid, hnonneg, -⟩ := hok 1 4095 (by decide) (by decide)
  obtain ⟨id', hid', -, -⟩ := hok 2 0 (by decide) (by decide)
  have hlt := hlex 1 4095 2 0 id id' (by decide) (by decide) (by decide)
    (by decide) (by decide) hid hid'
  exact ⟨id, id', hid, hid', hnonneg, hlt⟩

end SocialNetwork.Ids
