import SocialNetwork.Json
import SocialNetwork.Strconv

/-!
# The text of JSON values

`render` is the compact text that Go's `encoding/json` writes, with the
escapes of its default `Marshal`; `parse` reads any spacing and any escapes.
Numbers with a fraction or an exponent are refused: they are no `Json` values
here, and nothing that is written has them.
-/

namespace SocialNetwork.Json

open Strconv

/-! ## Strings -/

def escapeUnit (n : ℕ) : List Char :=
  ['\\', 'u', Nat.digitChar (n / 4096 % 16), Nat.digitChar (n / 256 % 16),
    Nat.digitChar (n / 16 % 16), Nat.digitChar (n % 16)]

/-- Control characters, those of HTML, and the two line separators of
JavaScript. -/
def needsUnit (c : Char) : Bool :=
  c.toNat < 0x20 || c == '<' || c == '>' || c == '&' ||
    c.toNat == 0x2028 || c.toNat == 0x2029

def escapeChar (c : Char) : List Char :=
  if c = '"' then ['\\', '"']
  else if c = '\\' then ['\\', '\\']
  else if c = '\n' then ['\\', 'n']
  else if c = '\r' then ['\\', 'r']
  else if c = '\t' then ['\\', 't']
  else if needsUnit c then escapeUnit c.toNat
  else [c]

/-- The text of a string after its opening quote. -/
def quoteTail (cs : List Char) : List Char := cs.flatMap escapeChar ++ ['"']

/-- The escapes of one letter. -/
def unescape (c : Char) : Option Char :=
  if c = '"' then some '"'
  else if c = '\\' then some '\\'
  else if c = '/' then some '/'
  else if c = 'b' then some '\x08'
  else if c = 'f' then some '\x0c'
  else if c = 'n' then some '\n'
  else if c = 'r' then some '\r'
  else if c = 't' then some '\t'
  else none

def hexUnit (a b c d : Char) : Option ℕ := do
  let digits ← [a, b, c, d].mapM digitValue
  if digits.all (· < 16) then
    return digits.foldl (fun n digit => n * 16 + digit) 0
  else none

def isSurrogate (n : ℕ) : Bool := 0xd800 ≤ n && n < 0xe000

/-- The character of a surrogate pair. -/
def surrogatePair (n m : ℕ) : Option Char :=
  if 0xd800 ≤ n ∧ n < 0xdc00 ∧ 0xdc00 ≤ m ∧ m < 0xe000 then
    some (Char.ofNat ((n - 0xd800) * 0x400 + (m - 0xdc00) + 0x10000))
  else none

/-- Read a string after its opening quote, with what follows its closing
quote.  A surrogate that is not paired becomes U+FFFD. -/
def parseChars : List Char → Option (List Char × List Char)
  | [] => none
  | c :: cs =>
      let next (d : Char) (rest : Option (List Char × List Char)) :=
        rest.map fun (ds, rest) => (d :: ds, rest)
      if c = '"' then some ([], cs)
      else if c = '\\' then
        match cs with
        | [] => none
        | e :: cs =>
            if e = 'u' then
              match cs with
              | h₁ :: h₂ :: h₃ :: h₄ :: cs =>
                  match hexUnit h₁ h₂ h₃ h₄ with
                  | none => none
                  | some n =>
                      if isSurrogate n then
                        match cs with
                        | s :: u :: l₁ :: l₂ :: l₃ :: l₄ :: cs' =>
                            match if s = '\\' ∧ u = 'u' then
                                (hexUnit l₁ l₂ l₃ l₄).bind (surrogatePair n)
                              else none with
                            | some d => next d (parseChars cs')
                            | none => next '\ufffd'
                                (parseChars
                                  (s :: u :: l₁ :: l₂ :: l₃ :: l₄ :: cs'))
                        | cs => next '\ufffd' (parseChars cs)
                      else next (Char.ofNat n) (parseChars cs)
              | _ => none
            else
              match unescape e with
              | none => none
              | some d => next d (parseChars cs)
      else if c.toNat < 0x20 then none
      else next c (parseChars cs)

theorem hexUnit_escapeUnit {n : ℕ} (hn : n < 65536) :
    hexUnit (Nat.digitChar (n / 4096 % 16)) (Nat.digitChar (n / 256 % 16))
      (Nat.digitChar (n / 16 % 16)) (Nat.digitChar (n % 16)) = some n := by
  have hdigit : ∀ d, digitValue (Nat.digitChar (d % 16)) = some (d % 16) :=
    fun d => digitValue_digitChar (Nat.mod_lt _ (by norm_num))
  have hlt : ∀ d, d % 16 < 16 := fun d => Nat.mod_lt _ (by norm_num)
  have hsum : ((n / 4096 % 16 * 16 + n / 256 % 16) * 16 +
      n / 16 % 16) * 16 + n % 16 = n := by omega
  simp [hexUnit, hdigit, hlt, hsum]

theorem parseChars_quote (cs : List Char) :
    parseChars ('"' :: cs) = some ([], cs) := by
  unfold parseChars
  simp

theorem parseChars_escape {e c : Char} (he : e ≠ 'u')
    (hc : unescape e = some c) (cs : List Char) :
    parseChars ('\\' :: e :: cs) =
      (parseChars cs).map fun (ds, rest) => (c :: ds, rest) := by
  rw [parseChars.eq_def]
  simp [he, hc]

theorem parseChars_unit {n : ℕ} (hn : n < 0xd800) (cs : List Char) :
    parseChars (escapeUnit n ++ cs) =
      (parseChars cs).map fun (ds, rest) => (Char.ofNat n :: ds, rest) := by
  have hsurrogate : isSurrogate n = false := by
    simp [isSurrogate]
    omega
  have hunit := hexUnit_escapeUnit (n := n) (by omega)
  simp only [escapeUnit, List.cons_append, List.nil_append]
  rw [parseChars.eq_def]
  simp [hunit, hsurrogate]

theorem parseChars_plain {c : Char} (hquote : c ≠ '"') (hslash : c ≠ '\\')
    (hcontrol : 0x20 ≤ c.toNat) (cs : List Char) :
    parseChars (c :: cs) =
      (parseChars cs).map fun (ds, rest) => (c :: ds, rest) := by
  rw [parseChars.eq_def]
  simp [hquote, hslash, Nat.not_lt.mpr hcontrol]

/-- Reading a character undoes its escape. -/
theorem parseChars_escapeChar (c : Char) (cs : List Char) :
    parseChars (escapeChar c ++ cs) =
      (parseChars cs).map fun (ds, rest) => (c :: ds, rest) := by
  unfold escapeChar
  split
  next h => subst h; exact parseChars_escape (by decide) rfl cs
  next hquote =>
    split
    next h => subst h; exact parseChars_escape (by decide) rfl cs
    next hslash =>
      split
      next h => subst h; exact parseChars_escape (by decide) rfl cs
      next =>
        split
        next h => subst h; exact parseChars_escape (by decide) rfl cs
        next =>
          split
          next h => subst h; exact parseChars_escape (by decide) rfl cs
          next =>
            split
            next hunit =>
              have hn : c.toNat < 0xd800 := by
                simp only [needsUnit, Bool.or_eq_true, decide_eq_true_eq,
                  beq_iff_eq] at hunit
                rcases hunit with ((((h | rfl) | rfl) | rfl) | h) | h
                · omega
                · decide
                · decide
                · decide
                · omega
                · omega
              rw [parseChars_unit hn, Char.ofNat_toNat]
            next hplain =>
              have hcontrol : 0x20 ≤ c.toNat := by
                by_contra hlt
                apply hplain
                simp only [needsUnit, Bool.or_eq_true, decide_eq_true_eq]
                simp only [Nat.not_le] at hlt
                tauto
              exact parseChars_plain hquote hslash hcontrol cs

theorem parseChars_quoteTail (cs rest : List Char) :
    parseChars (quoteTail cs ++ rest) = some (cs, rest) := by
  induction cs with
  | nil => exact parseChars_quote rest
  | cons c cs ih =>
      rw [quoteTail, List.flatMap_cons, List.append_assoc,
        List.append_assoc, parseChars_escapeChar, ← List.append_assoc,
        ← quoteTail, ih]
      rfl

/-! ## Numbers -/

def isDigit (c : Char) : Bool := '0' ≤ c && c ≤ '9'

/-- The characters that continue a number after its integer part. -/
def continues (c : Char) : Bool := isDigit c || c == '.' || c == 'e' || c == 'E'

/-- The integer part, after its sign.  It starts with zero only when it is
zero. -/
def parseInteger (negative : Bool) (cs : List Char) :
    Option (Json × List Char) :=
  let digits := cs.takeWhile isDigit
  let rest := cs.dropWhile isDigit
  if digits = [] ∨ (digits.head? = some '0' ∧ 1 < digits.length) ∨
      rest.head?.any continues then none
  else
    let n : Int := numeral 10 digits 0
    some (.num (if negative then -n else n), rest)

def parseNumber : List Char → Option (Json × List Char)
  | '-' :: cs => parseInteger true cs
  | cs => parseInteger false cs

theorem isDigit_digitChar {d : ℕ} (hd : d < 10) :
    isDigit (Nat.digitChar d) = true := by
  have hall : ∀ d < 10, isDigit (Nat.digitChar d) = true := by decide
  exact hall d hd

theorem isDigit_of_mem_toDigits {n : ℕ} {c : Char}
    (hc : c ∈ Nat.toDigits 10 n) : isDigit c = true := by
  obtain ⟨d, hd, rfl⟩ := mem_toDigits (by norm_num) hc
  exact isDigit_digitChar hd

theorem head?_toDigits_ne_zero {n : ℕ} (hn : 0 < n) :
    (Nat.toDigits 10 n).head? ≠ some '0' := by
  induction n using Nat.strong_induction_on with
  | _ n ih =>
      rw [Nat.toDigits_eq_if (by norm_num)]
      split
      next hlt =>
        have hall : ∀ n < 10, 0 < n →
            [Nat.digitChar n].head? ≠ some '0' := by decide
        exact hall n hlt hn
      next hge =>
        have hdiv : 0 < n / 10 := by omega
        have hne : Nat.toDigits 10 (n / 10) ≠ [] :=
          List.ne_nil_of_length_pos Nat.length_toDigits_pos
        rw [List.head?_append_of_ne_nil _ hne]
        exact ih (n / 10) (by omega) hdiv

/-- The text after a number ends it. -/
def Ends (rest : List Char) : Prop := rest.head?.any continues = false

theorem takeWhile_isDigit {digits rest : List Char}
    (hdigits : ∀ c ∈ digits, isDigit c = true) (hends : Ends rest) :
    (digits ++ rest).takeWhile isDigit = digits ∧
      (digits ++ rest).dropWhile isDigit = rest := by
  have hrest : rest.takeWhile isDigit = [] ∧ rest.dropWhile isDigit = rest := by
    cases rest with
    | nil => exact ⟨rfl, rfl⟩
    | cons c rest =>
        have hc : isDigit c = false := by
          simp only [Ends, List.head?_cons, Option.any_some, continues,
            Bool.or_eq_false_iff] at hends
          exact hends.1.1.1
        simp [hc]
  rw [List.takeWhile_append_of_pos hdigits, List.dropWhile_append_of_pos
    hdigits, hrest.1, hrest.2, List.append_nil]
  exact ⟨rfl, rfl⟩

theorem parseInteger_toDigits (negative : Bool) (n : ℕ) {rest : List Char}
    (hends : Ends rest) :
    parseInteger negative (Nat.toDigits 10 n ++ rest) =
      some (.num (if negative then -(n : Int) else n), rest) := by
  have hdigits : ∀ c ∈ Nat.toDigits 10 n, isDigit c = true :=
    fun _ => isDigit_of_mem_toDigits
  obtain ⟨htake, hdrop⟩ := takeWhile_isDigit hdigits hends
  unfold parseInteger
  simp only [htake, hdrop]
  rw [numeral_toDigits (by norm_num) (by norm_num), if_neg]
  rintro (hnil | ⟨hzero, hlong⟩ | hcontinues)
  · exact List.ne_nil_of_length_pos Nat.length_toDigits_pos hnil
  · rcases Nat.eq_zero_or_pos n with rfl | hpos
    · exact absurd hlong (by decide)
    · exact head?_toDigits_ne_zero hpos hzero
  · rw [hends] at hcontinues
    cases hcontinues

theorem parseNumber_formatInt (n : Int) {rest : List Char}
    (hends : Ends rest) :
    parseNumber ((formatInt n 10).toList ++ rest) = some (.num n, rest) := by
  cases n with
  | ofNat m =>
      have htext : (formatInt (Int.ofNat m) 10).toList =
          Nat.toDigits 10 m := by simp [formatInt]
      have hminus : ∀ cs, Nat.toDigits 10 m ++ rest ≠ '-' :: cs := by
        intro cs heq
        cases hdigits : Nat.toDigits 10 m with
        | nil =>
            exact List.ne_nil_of_length_pos Nat.length_toDigits_pos hdigits
        | cons c digits =>
            rw [hdigits, List.cons_append, List.cons.injEq] at heq
            have hc := isDigit_of_mem_toDigits
              (hdigits ▸ List.mem_cons_self : c ∈ Nat.toDigits 10 m)
            rw [heq.1] at hc
            exact absurd hc (by decide)
      rw [htext, parseNumber.eq_2 _ hminus]
      exact parseInteger_toDigits false m hends
  | negSucc m =>
      have htext : (formatInt (Int.negSucc m) 10).toList =
          '-' :: Nat.toDigits 10 (m + 1) := by simp [formatInt]
      rw [htext]
      exact parseInteger_toDigits true (m + 1) hends

/-! ## Values -/

def isSpace (c : Char) : Bool :=
  c == ' ' || c == '\t' || c == '\n' || c == '\r'

def skipSpace (cs : List Char) : List Char := cs.dropWhile isSpace

mutual

def render : Json → List Char
  | .null => ['n', 'u', 'l', 'l']
  | .bool true => ['t', 'r', 'u', 'e']
  | .bool false => ['f', 'a', 'l', 's', 'e']
  | .num n => (formatInt n 10).toList
  | .str s => '"' :: quoteTail s.toList
  | .arr [] => ['[', ']']
  | .arr (elem :: elems) => '[' :: render elem ++ renderElems elems
  | .obj [] => ['{', '}']
  | .obj ((name, value) :: fields) =>
      '{' :: '"' :: quoteTail name.toList ++ ':' :: render value ++
        renderFields fields

/-- The elements after the first one. -/
def renderElems : List Json → List Char
  | [] => [']']
  | elem :: elems => ',' :: render elem ++ renderElems elems

def renderFields : List (String × Json) → List Char
  | [] => ['}']
  | (name, value) :: fields =>
      ',' :: '"' :: quoteTail name.toList ++ ':' :: render value ++
        renderFields fields

end

mutual

/-- The fuel bounds the number of nested calls; the length of the text is
enough. -/
def parseValue : ℕ → List Char → Option (Json × List Char)
  | 0, _ => none
  | fuel + 1, cs =>
      match skipSpace cs with
      | [] => none
      | c :: cs =>
          if c = '"' then
            (parseChars cs).map fun (s, cs) => (.str (String.ofList s), cs)
          else if c = '[' then
            match skipSpace cs with
            | ']' :: cs => some (.arr [], cs)
            | cs => do
                let (elem, cs) ← parseValue fuel cs
                let (elems, cs) ← parseElems fuel cs
                return (.arr (elem :: elems), cs)
          else if c = '{' then
            match skipSpace cs with
            | '}' :: cs => some (.obj [], cs)
            | cs => do
                let (field, cs) ← parseField fuel cs
                let (fields, cs) ← parseFields fuel cs
                return (.obj (field :: fields), cs)
          else if c = 'n' then
            if ['u', 'l', 'l'].isPrefixOf cs then some (.null, cs.drop 3)
            else none
          else if c = 't' then
            if ['r', 'u', 'e'].isPrefixOf cs then
              some (.bool true, cs.drop 3)
            else none
          else if c = 'f' then
            if ['a', 'l', 's', 'e'].isPrefixOf cs then
              some (.bool false, cs.drop 4)
            else none
          else parseNumber (c :: cs)

/-- The elements after the first one, with the closing bracket. -/
def parseElems : ℕ → List Char → Option (List Json × List Char)
  | 0, _ => none
  | fuel + 1, cs =>
      match skipSpace cs with
      | ']' :: cs => some ([], cs)
      | ',' :: cs => do
          let (elem, cs) ← parseValue fuel cs
          let (elems, cs) ← parseElems fuel cs
          return (elem :: elems, cs)
      | _ => none

def parseField : ℕ → List Char → Option ((String × Json) × List Char)
  | 0, _ => none
  | fuel + 1, cs =>
      match skipSpace cs with
      | '"' :: cs => do
          let (name, cs) ← parseChars cs
          match skipSpace cs with
          | ':' :: cs => do
              let (value, cs) ← parseValue fuel cs
              return ((String.ofList name, value), cs)
          | _ => none
      | _ => none

def parseFields : ℕ → List Char → Option (List (String × Json) × List Char)
  | 0, _ => none
  | fuel + 1, cs =>
      match skipSpace cs with
      | '}' :: cs => some ([], cs)
      | ',' :: cs => do
          let (field, cs) ← parseField fuel cs
          let (fields, cs) ← parseFields fuel cs
          return (field :: fields, cs)
      | _ => none

end

/-- Only spaces may follow the value. -/
def parse (text : String) : Option Json :=
  match parseValue (text.toList.length + 1) text.toList with
  | some (json, rest) => if skipSpace rest = [] then some json else none
  | none => none

/-! ## Reading what was written -/

theorem skipSpace_cons {c : Char} (hc : isSpace c = false) (cs : List Char) :
    skipSpace (c :: cs) = c :: cs := by
  rw [skipSpace, List.dropWhile_cons_of_neg (by simp [hc])]

/-- A number starts with a character that starts nothing else. -/
theorem exists_cons_formatInt (n : Int) :
    ∃ c cs, (formatInt n 10).toList = c :: cs ∧
      (c = '-' ∨ isDigit c = true) := by
  cases n with
  | ofNat m =>
      cases hdigits : Nat.toDigits 10 m with
      | nil =>
          exact absurd hdigits
            (List.ne_nil_of_length_pos Nat.length_toDigits_pos)
      | cons c cs =>
          refine ⟨c, cs, by simp [formatInt, hdigits], .inr ?_⟩
          exact isDigit_of_mem_toDigits (hdigits ▸ List.mem_cons_self)
  | negSucc m =>
      exact ⟨'-', Nat.toDigits 10 (m + 1), by simp [formatInt], .inl rfl⟩

theorem parseValue_formatInt (n : Int) {rest : List Char}
    (hends : Ends rest) (fuel : ℕ) :
    parseValue (fuel + 1) ((formatInt n 10).toList ++ rest) =
      some (.num n, rest) := by
  obtain ⟨c, cs, htext, hc⟩ := exists_cons_formatInt n
  have hne : ∀ d, d ≠ '-' → isDigit d = false → c ≠ d := by
    rintro d hminus hdigit rfl
    rcases hc with h | h
    · exact hminus h
    · rw [hdigit] at h
      cases h
  have hspace : isSpace c = false := by
    simp [isSpace, hne ' ' (by decide) (by decide),
      hne '\t' (by decide) (by decide), hne '\n' (by decide) (by decide),
      hne '\r' (by decide) (by decide)]
  have hnumber := parseNumber_formatInt n hends
  rw [htext, List.cons_append] at hnumber ⊢
  unfold parseValue
  rw [skipSpace_cons hspace]
  simp only [if_neg (hne '"' (by decide) (by decide)),
    if_neg (hne '[' (by decide) (by decide)),
    if_neg (hne '{' (by decide) (by decide)),
    if_neg (hne 'n' (by decide) (by decide)),
    if_neg (hne 't' (by decide) (by decide)),
    if_neg (hne 'f' (by decide) (by decide))]
  exact hnumber

theorem ends_renderElems (elems : List Json) (rest : List Char) :
    Ends (renderElems elems ++ rest) := by
  cases elems <;> simp [renderElems, Ends, continues, isDigit]

theorem ends_renderFields (fields : List (String × Json))
    (rest : List Char) : Ends (renderFields fields ++ rest) := by
  cases fields <;> simp [renderFields, Ends, continues, isDigit]

/-- A value starts with neither a space nor a closing bracket. -/
theorem exists_cons_render (json : Json) :
    ∃ c cs, render json = c :: cs ∧ isSpace c = false ∧ c ≠ ']' := by
  cases json with
  | num n =>
      obtain ⟨c, cs, htext, hc⟩ := exists_cons_formatInt n
      refine ⟨c, cs, by rw [render, htext], ?_⟩
      rcases hc with rfl | hc
      · decide
      · constructor
        · by_contra hspace
          rw [Bool.not_eq_false] at hspace
          simp only [isSpace, Bool.or_eq_true, beq_iff_eq] at hspace
          rcases hspace with ((rfl | rfl) | rfl) | rfl <;>
            exact absurd hc (by decide)
        · rintro rfl
          exact absurd hc (by decide)
  | null => exact ⟨_, _, render.eq_def _, by decide, by decide⟩
  | bool value =>
      cases value <;> exact ⟨_, _, render.eq_def _, by decide, by decide⟩
  | str s => exact ⟨_, _, render.eq_def _, by decide, by decide⟩
  | arr elems =>
      cases elems <;> exact ⟨_, _, render.eq_def _, by decide, by decide⟩
  | obj fields =>
      cases fields <;> exact ⟨_, _, render.eq_def _, by decide, by decide⟩

theorem length_render_pos (json : Json) : 0 < (render json).length := by
  obtain ⟨c, cs, htext, -⟩ := exists_cons_render json
  rw [htext]
  exact Nat.succ_pos _

theorem parseField_render {fuel : ℕ} {name : String} {value : Json}
    {rest : List Char}
    (hvalue : parseValue fuel (render value ++ rest) = some (value, rest)) :
    parseField (fuel + 1) ('"' :: (quoteTail name.toList ++
        ':' :: (render value ++ rest))) = some ((name, value), rest) := by
  unfold parseField
  rw [skipSpace_cons (by decide)]
  simp only [parseChars_quoteTail, Option.bind_eq_bind, Option.bind_some]
  rw [skipSpace_cons (by decide)]
  simp only [hvalue, Option.bind_some, String.ofList_toList]
  rfl

theorem renderFields_cons (name : String) (value : Json)
    (fields : List (String × Json)) (rest : List Char) :
    renderFields ((name, value) :: fields) ++ rest =
      ',' :: '"' :: (quoteTail name.toList ++
        ':' :: (render value ++ (renderFields fields ++ rest))) := by
  simp [renderFields]

theorem render_obj_cons (name : String) (value : Json)
    (fields : List (String × Json)) (rest : List Char) :
    render (.obj ((name, value) :: fields)) ++ rest =
      '{' :: '"' :: (quoteTail name.toList ++
        ':' :: (render value ++ (renderFields fields ++ rest))) := by
  simp [render]

mutual

theorem parseValue_render : ∀ (json : Json) (fuel : ℕ) (rest : List Char),
    Ends rest → (render json).length ≤ fuel →
      parseValue fuel (render json ++ rest) = some (json, rest)
  | json, 0, rest, _, hfuel => by
      have hpos := length_render_pos json
      omega
  | .null, fuel + 1, rest, _, _ => by
      simp [render, parseValue, skipSpace, isSpace]
  | .bool true, fuel + 1, rest, _, _ => by
      simp [render, parseValue, skipSpace, isSpace]
  | .bool false, fuel + 1, rest, _, _ => by
      simp [render, parseValue, skipSpace, isSpace]
  | .num n, fuel + 1, rest, hends, _ => by
      rw [render]
      exact parseValue_formatInt n hends fuel
  | .str s, fuel + 1, rest, _, _ => by
      simp [render, parseValue, skipSpace, isSpace, parseChars_quoteTail]
  | .arr [], fuel + 1, rest, _, _ => by
      simp [render, parseValue, skipSpace, isSpace]
  | .arr (elem :: elems), fuel + 1, rest, _, hfuel => by
      rw [render, List.cons_append, List.length_cons,
        List.length_append] at hfuel
      have helem := parseValue_render elem fuel (renderElems elems ++ rest)
        (ends_renderElems elems rest) (by omega)
      have helems := parseElems_render elems fuel rest (by omega)
      obtain ⟨c, cs, htext, hspace, hbracket⟩ := exists_cons_render elem
      rw [render, List.cons_append, List.cons_append, List.append_assoc]
      rw [htext, List.cons_append] at helem ⊢
      unfold parseValue
      rw [skipSpace_cons (by decide)]
      simp [skipSpace_cons hspace, helem, helems, hbracket]
  | .obj [], fuel + 1, rest, _, _ => by
      simp [render, parseValue, skipSpace, isSpace]
  | .obj ((name, value) :: fields), fuel + 1, rest, _, hfuel => by
      simp only [render, List.length_cons, List.length_append] at hfuel
      obtain ⟨fuel, rfl⟩ : ∃ k, fuel = k + 1 := ⟨fuel - 1, by omega⟩
      have hvalue := parseValue_render value fuel
        (renderFields fields ++ rest) (ends_renderFields fields rest)
        (by omega)
      have hfields := parseFields_render fields (fuel + 1) rest (by omega)
      rw [render_obj_cons]
      unfold parseValue
      rw [skipSpace_cons (by decide)]
      simp [skipSpace_cons, isSpace, parseField_render hvalue, hfields]

theorem parseElems_render : ∀ (elems : List Json) (fuel : ℕ)
    (rest : List Char), (renderElems elems).length ≤ fuel →
      parseElems fuel (renderElems elems ++ rest) = some (elems, rest)
  | [], 0, rest, hfuel => by simp [renderElems] at hfuel
  | elem :: elems, 0, rest, hfuel => by simp [renderElems] at hfuel
  | [], fuel + 1, rest, _ => by
      simp [renderElems, parseElems, skipSpace, isSpace]
  | elem :: elems, fuel + 1, rest, hfuel => by
      rw [renderElems, List.cons_append, List.length_cons,
        List.length_append] at hfuel
      have helem := parseValue_render elem fuel (renderElems elems ++ rest)
        (ends_renderElems elems rest) (by omega)
      have helems := parseElems_render elems fuel rest (by omega)
      rw [renderElems, List.cons_append, List.cons_append,
        List.append_assoc]
      unfold parseElems
      rw [skipSpace_cons (by decide)]
      simp [helem, helems]

theorem parseFields_render : ∀ (fields : List (String × Json)) (fuel : ℕ)
    (rest : List Char), (renderFields fields).length ≤ fuel →
      parseFields fuel (renderFields fields ++ rest) = some (fields, rest)
  | [], 0, rest, hfuel => by simp [renderFields] at hfuel
  | (name, value) :: fields, 0, rest, hfuel => by
      simp [renderFields] at hfuel
  | [], fuel + 1, rest, _ => by
      simp [renderFields, parseFields, skipSpace, isSpace]
  | (name, value) :: fields, fuel + 1, rest, hfuel => by
      simp only [renderFields, List.length_cons, List.length_append] at hfuel
      obtain ⟨fuel, rfl⟩ : ∃ k, fuel = k + 1 := ⟨fuel - 1, by omega⟩
      have hvalue := parseValue_render value fuel
        (renderFields fields ++ rest) (ends_renderFields fields rest)
        (by omega)
      have hfields := parseFields_render fields (fuel + 1) rest (by omega)
      rw [renderFields_cons]
      unfold parseFields
      rw [skipSpace_cons (by decide)]
      simp [parseField_render hvalue, hfields]

end

/-- Reading a text gives back the value that was written. -/
theorem parse_render (json : Json) :
    parse (String.ofList (render json)) = some json := by
  have hread := parseValue_render json ((render json).length + 1) [] rfl
    (Nat.le_succ _)
  rw [List.append_nil] at hread
  rw [parse, String.toList_ofList, hread]
  rfl

/-! ## Lines -/

theorem needsUnit_of_control {c : Char} (hc : c.toNat < 0x20) :
    needsUnit c = true := by
  simp [needsUnit, hc]

/-- No control character is left in a text. -/
def Printable (cs : List Char) : Prop := ∀ c ∈ cs, 0x20 ≤ c.toNat

theorem printable_of_all {cs : List Char}
    (hcs : (cs.all fun c => decide (0x20 ≤ c.toNat)) = true) :
    Printable cs := by
  intro c hc
  exact of_decide_eq_true (List.all_eq_true.mp hcs c hc)

theorem escapeChar_printable {c d : Char} (hd : d ∈ escapeChar c) :
    0x20 ≤ d.toNat := by
  have hdigit : ∀ d < 16, 0x20 ≤ (Nat.digitChar d).toNat := by decide
  have hmod : ∀ n, 0x20 ≤ (Nat.digitChar (n % 16)).toNat :=
    fun n => hdigit _ (Nat.mod_lt _ (by norm_num))
  unfold escapeChar at hd
  split at hd
  next => exact printable_of_all (by decide) d hd
  next =>
    split at hd
    next => exact printable_of_all (by decide) d hd
    next =>
      split at hd
      next => exact printable_of_all (by decide) d hd
      next =>
        split at hd
        next => exact printable_of_all (by decide) d hd
        next =>
          split at hd
          next => exact printable_of_all (by decide) d hd
          next =>
            split at hd
            next =>
              simp only [escapeUnit, List.mem_cons, List.not_mem_nil,
                or_false] at hd
              rcases hd with rfl | rfl | rfl | rfl | rfl | rfl
              · decide
              · decide
              · exact hmod _
              · exact hmod _
              · exact hmod _
              · exact hmod _
            next hunit =>
              rw [List.mem_singleton] at hd
              subst hd
              by_contra hlt
              exact hunit (needsUnit_of_control (by omega))

theorem printable_append {cs ds : List Char} :
    Printable (cs ++ ds) ↔ Printable cs ∧ Printable ds := by
  simp only [Printable, List.mem_append, or_imp, forall_and]

theorem printable_cons {c : Char} {cs : List Char} :
    Printable (c :: cs) ↔ 0x20 ≤ c.toNat ∧ Printable cs :=
  List.forall_mem_cons

theorem printable_quoteTail (cs : List Char) : Printable (quoteTail cs) := by
  unfold quoteTail
  refine printable_append.mpr ⟨?_, ?_⟩
  · intro d hd
    obtain ⟨c, -, hmem⟩ := List.mem_flatMap.mp hd
    exact escapeChar_printable hmem
  · intro d hd
    rw [List.mem_singleton.mp hd]
    decide

theorem printable_formatInt (n : Int) :
    Printable (formatInt n 10).toList := by
  intro c hc
  rcases mem_formatInt (by norm_num) hc with rfl | ⟨d, hd, rfl⟩
  · decide
  · have hall : ∀ d < 10, 0x20 ≤ (Nat.digitChar d).toNat := by decide
    exact hall d hd

mutual

theorem printable_render : ∀ json : Json, Printable (render json)
  | .null => by rw [render]; exact printable_of_all (by decide)
  | .bool true => by rw [render]; exact printable_of_all (by decide)
  | .bool false => by rw [render]; exact printable_of_all (by decide)
  | .num n => by rw [render]; exact printable_formatInt n
  | .str s => by
      rw [render]
      exact printable_cons.mpr ⟨by decide, printable_quoteTail _⟩
  | .arr [] => by rw [render]; exact printable_of_all (by decide)
  | .arr (elem :: elems) => by
      rw [render]
      exact printable_cons.mpr ⟨by decide, printable_append.mpr
        ⟨printable_render elem, printable_renderElems elems⟩⟩
  | .obj [] => by rw [render]; exact printable_of_all (by decide)
  | .obj ((name, value) :: fields) => by
      rw [render]
      simp only [printable_append, printable_cons]
      exact ⟨⟨⟨by decide, by decide, printable_quoteTail _⟩, by decide,
        printable_render value⟩, printable_renderFields fields⟩

theorem printable_renderElems : ∀ elems : List Json,
    Printable (renderElems elems)
  | [] => by rw [renderElems]; exact printable_of_all (by decide)
  | elem :: elems => by
      rw [renderElems]
      exact printable_cons.mpr ⟨by decide, printable_append.mpr
        ⟨printable_render elem, printable_renderElems elems⟩⟩

theorem printable_renderFields : ∀ fields : List (String × Json),
    Printable (renderFields fields)
  | [] => by rw [renderFields]; exact printable_of_all (by decide)
  | (name, value) :: fields => by
      rw [renderFields]
      simp only [printable_append, printable_cons]
      exact ⟨⟨⟨by decide, by decide, printable_quoteTail _⟩, by decide,
        printable_render value⟩, printable_renderFields fields⟩

end

/-! ## Typed values -/

section Typed

variable {α : Type} [JsonCodec α]

/-- `json.Marshal`. -/
def marshalText (a : α) : String := String.ofList (render (marshal a))

/-- `json.Unmarshal` into a zero variable. -/
def unmarshalText (text : String) : Option α := (parse text).bind unmarshal

@[simp] theorem unmarshalText_marshalText (a : α) :
    unmarshalText (marshalText a) = some a := by
  rw [unmarshalText, marshalText, parse_render, Option.bind_some,
    unmarshal_marshal]

theorem newline_not_mem_marshalText (a : α) :
    '\n' ∉ (marshalText a).toList := by
  intro hmem
  rw [marshalText, String.toList_ofList] at hmem
  exact absurd (printable_render (marshal a) '\n' hmem) (by decide)

theorem marshalText_ne_nil (a : α) : (marshalText a).toList ≠ [] := by
  rw [marshalText, String.toList_ofList]
  exact List.ne_nil_of_length_pos (length_render_pos _)

end Typed

end SocialNetwork.Json
