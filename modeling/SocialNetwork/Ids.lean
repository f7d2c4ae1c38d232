import SocialNetwork.Strconv
import Mathlib.Tactic

/-!
# Machine ids and generated ids

`GetMachineID` and `GenUniqueID` of `pkg/utils/ids.go`.  An id is the
hexadecimal reading of a machine id, ten digits of the timestamp and three
digits of the counter; both numbers are cut to their first digits when they
are longer.
-/

namespace SocialNetwork.Ids

open Strconv

/-- Cut to the first `width` characters, or filled with zeros on the left. -/
def fixedWidth (width : ℕ) (text : String) : String :=
  if width < text.toList.length then String.ofList (text.toList.take width)
  else if text.toList.length < width then
    String.ofList (List.replicate (width - text.toList.length) '0' ++
      text.toList)
  else text

structure Interface where
  up : Bool
  hardwareAddr : List UInt8
  deriving DecidableEq, Repr

/-- `HardwareAddr.String`: the bytes as two hexadecimal digits each. -/
def macString (hardwareAddr : List UInt8) : String :=
  ":".intercalate
    (hardwareAddr.map fun byte => fixedWidth 2 (formatInt byte.toNat 16))

def HashMacAddressPid (mac : String) (pid : Int) : String :=
  let macPid := (mac ++ formatInt pid 10).toUTF8.toList
  let hash : UInt16 := macPid.zipIdx.foldl
    (fun hash entry =>
      -- `<<` and `*` bind equally and act on the byte, before the conversion.
      hash + ((entry.1 <<< UInt8.ofNat (entry.2 % 2)) * 8).toUInt16)
    0
  fixedWidth 3 (formatInt hash.toNat 10)

/-- The interface is up, has an address, and is not locally administered. -/
def Interface.usable (i : Interface) : Bool :=
  match i.hardwareAddr with
  | [] => false
  | byte :: _ => i.up && byte &&& 2 ≠ 2

/-- The reply of `net.Interfaces` is `none` when it fails. -/
def GetMachineID (interfaces : Option (List Interface)) (pid : Int) :
    String :=
  match interfaces with
  | none => "0"
  | some interfaces =>
      match interfaces.find? Interface.usable with
      | some i => HashMacAddressPid (macString i.hardwareAddr) pid
      | none => "0"

def timestampHex (timestamp : Int64) : String :=
  fixedWidth 10 (formatInt timestamp.toInt 16)

def counterHex (counter : Int64) : String :=
  fixedWidth 3 (formatInt counter.toInt 16)

def GenUniqueID (machineID : String) (timestamp counter : Int64) :
    Except NumError Int64 :=
  let uniqueIDStr := machineID ++ timestampHex timestamp ++ counterHex counter
  match parseInt uniqueIDStr 16 with
  | .error err => .error err
  | .ok uniqueID => .ok (Int64.ofInt uniqueID &&& 0x7FFFFFFFFFFFFFFF)

/-! ## Texts of fixed width -/

@[simp] theorem fixedWidth_length (width : ℕ) (text : String) :
    (fixedWidth width text).toList.length = width := by
  unfold fixedWidth
  split
  next hlt => simp; omega
  next =>
    split
    next hlt => simp; omega
    next => omega

theorem mem_fixedWidth {width : ℕ} {text : String} {c : Char}
    (hc : c ∈ (fixedWidth width text).toList) :
    c = '0' ∨ c ∈ text.toList := by
  unfold fixedWidth at hc
  split at hc
  next =>
    rw [String.toList_ofList] at hc
    exact .inr (List.mem_of_mem_take hc)
  next =>
    split at hc
    next =>
      rw [String.toList_ofList, List.mem_append] at hc
      rcases hc with hc | hc
      · exact .inl (List.eq_of_mem_replicate hc)
      · exact .inr hc
    next => exact .inr hc

def HexDigits (cs : List Char) : Prop :=
  ∀ c ∈ cs, ∃ d < 16, c = Nat.digitChar d

theorem hexDigits_append {cs ds : List Char} :
    HexDigits (cs ++ ds) ↔ HexDigits cs ∧ HexDigits ds := by
  simp only [HexDigits, List.mem_append, or_imp, forall_and]

theorem HexDigits.allDigits {cs : List Char} (h : HexDigits cs) :
    AllDigits 16 cs := by
  intro c hc
  obtain ⟨d, hd, rfl⟩ := h c hc
  exact ⟨d, digitValue_digitChar hd, hd⟩

theorem HexDigits.eq_of_map_digitValue {cs ds : List Char}
    (hcs : HexDigits cs) (hds : HexDigits ds)
    (h : cs.map digitValue = ds.map digitValue) : cs = ds := by
  induction cs generalizing ds with
  | nil => exact (List.map_eq_nil_iff.mp h.symm).symm
  | cons c cs ih =>
      cases ds with
      | nil => cases h
      | cons d ds =>
          rw [List.map_cons, List.map_cons, List.cons.injEq] at h
          have hhead : c = d := digitChar_inj_on (hcs c List.mem_cons_self)
            (hds d List.mem_cons_self) h.1
          have htail : cs = ds :=
            ih (fun c' hc => hcs c' (List.mem_cons_of_mem c hc))
              (fun d' hd => hds d' (List.mem_cons_of_mem d hd)) h.2
          rw [hhead, htail]

theorem hexDigits_fixedWidth {width : ℕ} {n : Int} (hn : 0 ≤ n) {base : ℕ}
    (hbase : 1 < base) (hle : base ≤ 16) :
    HexDigits (fixedWidth width (formatInt n base)).toList := by
  intro c hc
  rcases mem_fixedWidth hc with rfl | hc
  · exact ⟨0, by norm_num, rfl⟩
  · obtain ⟨d, hd, rfl⟩ := mem_formatInt_of_nonneg hbase hn hc
    exact ⟨d, by omega, rfl⟩

theorem hexDigits_fixedWidth_of_allDigits {width : ℕ} {n : Int}
    (hall : AllDigits 16 (fixedWidth width (formatInt n 16)).toList) :
    HexDigits (fixedWidth width (formatInt n 16)).toList := by
  intro c hc
  rcases mem_fixedWidth hc with rfl | hmem
  · exact ⟨0, by norm_num, rfl⟩
  · rcases mem_formatInt (by norm_num) hmem with rfl | hdigit
    · obtain ⟨d, hd, -⟩ := hall '-' hc
      rw [digitValue_minus] at hd
      cases hd
    · exact hdigit

/-! ## Machine ids -/

/-- What `GetMachineID` returns is not empty and consists of digits. -/
structure IsMachineID (machineID : String) : Prop where
  ne_nil : machineID.toList ≠ []
  digits : HexDigits machineID.toList

theorem isMachineID (interfaces : Option (List Interface)) (pid : Int) :
    IsMachineID (GetMachineID interfaces pid) := by
  have hzero : IsMachineID "0" :=
    ⟨by decide, fun c hc => ⟨0, by norm_num, List.mem_singleton.mp hc⟩⟩
  have hhash : ∀ mac, IsMachineID (HashMacAddressPid mac pid) := by
    intro mac
    constructor
    · apply List.ne_nil_of_length_pos
      simp [HashMacAddressPid]
    · exact hexDigits_fixedWidth (Int.natCast_nonneg _) (by norm_num)
        (by norm_num)
  unfold GetMachineID
  split
  next => exact hzero
  next =>
    split
    next => exact hhash _
    next => exact hzero

/-- Thirteen digits fit behind the machine id: its three digits start with
a digit below eight, or it is `"0"`. -/
def Usable (machineID : String) : Prop :=
  numeral 16 machineID.toList 0 < 0x800

instance (machineID : String) : Decidable (Usable machineID) := by
  unfold Usable
  infer_instance

/-! ## Generated ids -/

/-- The mask changes nothing, because `ParseInt` accepts no more than 63
bits without a sign. -/
theorem mask_eq_self {n : ℕ} (hn : n < 2 ^ 63) :
    Int64.ofInt n &&& 0x7FFFFFFFFFFFFFFF = Int64.ofInt n := by
  have hmask : (0x7FFFFFFFFFFFFFFF : Int64).toBitVec.toNat = 2 ^ 63 - 1 := rfl
  apply Int64.toBitVec_inj.mp
  apply BitVec.eq_of_toNat_eq
  rw [Int64.toBitVec_and, BitVec.toNat_and, hmask,
    Nat.and_two_pow_sub_one_eq_mod]
  apply Nat.mod_eq_of_lt
  rw [Int64.toBitVec_ofInt]
  simp
  omega

theorem ofInt_natCast_inj {m n : ℕ} (hm : m < 2 ^ 63) (hn : n < 2 ^ 63)
    (h : Int64.ofInt m = Int64.ofInt n) : m = n := by
  have hint := congrArg Int64.toInt h
  rw [Int64.toInt_ofInt_of_le (by omega) (by omega),
    Int64.toInt_ofInt_of_le (by omega) (by omega)] at hint
  omega

def idDigits (machineID : String) (timestamp counter : Int64) : List Char :=
  machineID.toList ++ (timestampHex timestamp).toList ++
    (counterHex counter).toList

theorem toList_uniqueIDStr (machineID : String)
    (timestamp counter : Int64) :
    (machineID ++ timestampHex timestamp ++ counterHex counter).toList =
      idDigits machineID timestamp counter := by
  simp [idDigits]

@[simp] theorem length_digits (timestamp counter : Int64) :
    ((timestampHex timestamp).toList ++
      (counterHex counter).toList).length = 13 := by
  simp [timestampHex, counterHex]

theorem genUniqueID_of_hexDigits {machineID : String}
    (hmachine : IsMachineID machineID) {timestamp counter : Int64}
    (htimestamp : HexDigits (timestampHex timestamp).toList)
    (hcounter : HexDigits (counterHex counter).toList)
    (husable : Usable machineID) :
    ∃ id, GenUniqueID machineID timestamp counter = .ok id := by
  have hall : HexDigits (idDigits machineID timestamp counter) :=
    hexDigits_append.mpr
      ⟨hexDigits_append.mpr ⟨hmachine.digits, htimestamp⟩, hcounter⟩
  have hlt : numeral 16 (idDigits machineID timestamp counter) 0 <
      2 ^ 63 := by
    have hbound := numeral_lt (hexDigits_append.mpr
      ⟨htimestamp, hcounter⟩).allDigits (numeral 16 machineID.toList 0)
    rw [length_digits] at hbound
    unfold idDigits
    rw [List.append_assoc, numeral_append]
    unfold Usable at husable
    omega
  have hparse : parseInt (machineID ++ timestampHex timestamp ++
      counterHex counter) 16 =
        .ok (numeral 16 (idDigits machineID timestamp counter) 0) := by
    rw [← toList_uniqueIDStr] at hall hlt ⊢
    refine parseInt_of_allDigits ?_ hall.allDigits hlt
    simp [hmachine.ne_nil]
  simp only [GenUniqueID, hparse]
  exact ⟨_, rfl⟩

/-- The digits behind an id, and the room they left for the machine id. -/
theorem genUniqueID_ok {machineID : String}
    (hmachine : IsMachineID machineID) {timestamp counter id : Int64}
    (h : GenUniqueID machineID timestamp counter = .ok id) :
    HexDigits (idDigits machineID timestamp counter) ∧
      numeral 16 (idDigits machineID timestamp counter) 0 < 2 ^ 63 ∧
      id = Int64.ofInt
        (numeral 16 (idDigits machineID timestamp counter) 0) := by
  unfold GenUniqueID at h
  cases hparse : parseInt (machineID ++ timestampHex timestamp ++
      counterHex counter) 16 with
  | error err => simp only [hparse, reduceCtorEq] at h
  | ok n =>
      simp only [hparse, Except.ok.injEq] at h
      cases hcons : machineID.toList with
      | nil => exact absurd hcons hmachine.ne_nil
      | cons c cs =>
          have hhead : (machineID ++ timestampHex timestamp ++
              counterHex counter).toList =
                c :: (cs ++ (timestampHex timestamp).toList ++
                  (counterHex counter).toList) := by
            simp [hcons]
          obtain ⟨d, hd, hc⟩ :=
            hmachine.digits c (hcons ▸ List.mem_cons_self)
          have hminus : c ≠ '-' := by
            subst hc
            interval_cases d <;> decide
          have hplus : c ≠ '+' := by
            subst hc
            interval_cases d <;> decide
          obtain ⟨hall, hlt, rfl⟩ := parseInt_ok hhead hminus hplus hparse
          rw [toList_uniqueIDStr] at hall hlt h
          have hparts := allDigits_append.mp hall
          refine ⟨?_, hlt, ?_⟩
          · refine hexDigits_append.mpr
              ⟨hexDigits_append.mpr ⟨hmachine.digits, ?_⟩, ?_⟩
            · exact hexDigits_fixedWidth_of_allDigits
                (allDigits_append.mp hparts.1).2
            · exact hexDigits_fixedWidth_of_allDigits hparts.2
          · rw [← h, mask_eq_self hlt]

theorem usable_of_genUniqueID_ok {machineID : String}
    (hmachine : IsMachineID machineID) {timestamp counter id : Int64}
    (h : GenUniqueID machineID timestamp counter = .ok id) :
    Usable machineID := by
  obtain ⟨-, hlt, -⟩ := genUniqueID_ok hmachine h
  unfold idDigits at hlt
  rw [List.append_assoc, numeral_append] at hlt
  have hge := numeral_ge 16 ((timestampHex timestamp).toList ++
    (counterHex counter).toList) (numeral 16 machineID.toList 0)
  rw [length_digits] at hge
  unfold Usable
  omega

theorem minus_mem_fixedWidth (width : ℕ) (hwidth : 0 < width) {n : Int}
    (hn : n < 0) : '-' ∈ (fixedWidth width (formatInt n 16)).toList := by
  cases n with
  | ofNat m => exact absurd hn (Int.not_lt.mpr (Int.natCast_nonneg m))
  | negSucc m =>
      unfold fixedWidth
      simp only [formatInt, String.toList_ofList]
      split
      next =>
        obtain ⟨k, rfl⟩ := Nat.exists_eq_succ_of_ne_zero hwidth.ne'
        simp
      next => split <;> simp

theorem nonneg_of_genUniqueID_ok {machineID : String}
    (hmachine : IsMachineID machineID) {timestamp counter id : Int64}
    (h : GenUniqueID machineID timestamp counter = .ok id) :
    0 ≤ timestamp := by
  obtain ⟨hall, -, -⟩ := genUniqueID_ok hmachine h
  rw [Int64.le_iff_toInt_le]
  by_contra hneg
  have hminus := minus_mem_fixedWidth 10 (by norm_num)
    (Int.not_le.mp hneg)
  obtain ⟨d, hd, -⟩ := hall.allDigits '-' (List.mem_append_left _
    (List.mem_append_right _ hminus))
  rw [digitValue_minus] at hd
  cases hd

theorem timestampHex_eq_of_genUniqueID_eq {machineID : String}
    (hmachine : IsMachineID machineID)
    {timestamp counter timestamp' counter' id : Int64}
    (h : GenUniqueID machineID timestamp counter = .ok id)
    (h' : GenUniqueID machineID timestamp' counter' = .ok id) :
    timestampHex timestamp = timestampHex timestamp' := by
  obtain ⟨hall, hlt, hid⟩ := genUniqueID_ok hmachine h
  obtain ⟨hall', hlt', hid'⟩ := genUniqueID_ok hmachine h'
  have hvalue := ofInt_natCast_inj hlt hlt' (hid.symm.trans hid')
  have hlength : (idDigits machineID timestamp counter).length =
      (idDigits machineID timestamp' counter').length := by
    simp [idDigits, timestampHex, counterHex]
  have hdigits := hall.eq_of_map_digitValue hall'
    (numeral_inj hall.allDigits hall'.allDigits hlength hvalue).2
  unfold idDigits at hdigits
  have hpre := List.append_inj_left' hdigits (by simp [counterHex])
  exact String.toList_inj.mp (List.append_cancel_left hpre)

/-- Only the ten digits kept of a timestamp matter. -/
theorem genUniqueID_congr {machineID : String}
    {timestamp timestamp' counter : Int64}
    (h : timestampHex timestamp = timestampHex timestamp') :
    GenUniqueID machineID timestamp counter =
      GenUniqueID machineID timestamp' counter := by
  unfold GenUniqueID
  rw [h]

theorem exists_genUniqueID {machineID : String}
    (hmachine : IsMachineID machineID) (husable : Usable machineID)
    {timestamp counter : Int64} (htimestamp : 0 ≤ timestamp)
    (hcounter : 0 ≤ counter) :
    ∃ id, GenUniqueID machineID timestamp counter = .ok id := by
  rw [Int64.le_iff_toInt_le] at htimestamp hcounter
  exact genUniqueID_of_hexDigits hmachine
    (hexDigits_fixedWidth htimestamp (by norm_num) le_rfl)
    (hexDigits_fixedWidth hcounter (by norm_num) le_rfl) husable

end SocialNetwork.Ids
