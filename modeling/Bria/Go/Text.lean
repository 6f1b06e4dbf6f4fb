import Mathlib.Data.List.Basic
import Mathlib.Tactic.SplitIfs

/-!
# Go strings

A Go string is a sequence of bytes, UTF-8 by convention only. This file has the two library
functions whose treatment of bytes decides what survives a write: `strings.TrimSpace`, and the
replacement of bytes that are not UTF-8 by `encoding/json`. `runeWidth` is the decoder's view of a
position: the length of the well-formed sequence there, by the lead byte's row of the table of
`unicode/utf8`. `jsonText_eq_self_iff` says that the JSON text of a string is the string exactly
when every position decodes.
-/

namespace Bria.Go

open List

export Option (some.inj mem_unique map_eq_some_iff bind_eq_some_iff getD_some any_some some.injEq
  map_some ite_some_none_eq_some bind_some filter_eq_some_iff isNone_iff_eq_none
  isSome_eq_false_iff all_some any_map)
export Except (ok.inj error.inj ok.injEq error.injEq)
export List (mem_cons mem_cons_self mem_cons_of_mem mem_append mem_append_left mem_append_right
  mem_map mem_map_of_mem mem_singleton mem_singleton_self mem_of_getElem? mem_of_find?_eq_some
  mem_iff_getElem? pairwise_cons forall_mem_append getElem?_eq_getElem not_mem_nil length_cons
  foldl_cons all_eq_true forall_mem_cons mem_filter append_assoc map_map foldl_nil append_nil
  map_cons getD_eq_getElem?_getD forall_mem_singleton find?_some pairwise_map nodup_cons
  nil_append map_append getElem?_set getElem?_map ext_getElem? map_eq_nil_iff length_set
  any_eq_true any_eq_false cons.inj length_map contains_eq_mem mem_flatMap length_singleton
  length_append filter_cons_of_pos filter_cons_of_neg filter_append replicate)
export Bool (and_eq_true or_eq_false_iff not_eq_false' false_eq_true or_eq_true and_eq_false_iff
  eq_false_iff)
export Nat (le_succ_of_le le_succ)

/-- A Go `string` or `[]byte`: its bytes. -/
abbrev GoString := List UInt8

/-- A string constant of ASCII characters. -/
def ofText (text : String) : GoString := text.toList.map fun c => UInt8.ofNat c.toNat

/-- `strconv.FormatInt` with base ten. -/
def formatInt (n : Int) : GoString :=
  (if n < 0 then ofText "-" else []) ++ (Nat.toDigits 10 n.natAbs).map fun c => UInt8.ofNat c.toNat

variable {n w k : Nat} {lo hi : UInt8}

/-- A decimal digit as a byte. -/
theorem toNat_digit {c : Char} (h : c ∈ Nat.toDigits 10 n) :
    (UInt8.ofNat c.toNat).toNat = c.toNat ∧ 0x30 ≤ c.toNat ∧ c.toNat ≤ 0x39 := by
  have hdigit := Nat.isDigit_of_mem_toDigits (by decide) (by decide) h
  simp only [Char.isDigit, Bool.and_eq_true, decide_eq_true_eq, ge_iff_le,
    UInt32.le_iff_toNat_le] at hdigit
  have hlow : 0x30 ≤ c.toNat := hdigit.1
  have hhigh : c.toNat ≤ 0x39 := hdigit.2
  refine ⟨?_, hlow, hhigh⟩
  rw [UInt8.toNat_ofNat']
  omega

variable {b : UInt8}

theorem ascii_formatInt_natCast (h : b ∈ formatInt n) : b < 0x80 := by
  simp only [formatInt, if_neg (Int.not_lt.mpr (Int.natCast_nonneg n)), nil_append,
    mem_map, Int.natAbs_natCast] at h
  obtain ⟨c, hc, rfl⟩ := h
  obtain ⟨hbyte, -, hhigh⟩ := toNat_digit hc
  rw [UInt8.lt_iff_toNat_lt, hbyte]
  simp
  omega

theorem formatInt_natCast_injective {m : Nat} (h : formatInt m = formatInt n) : m = n := by
  have hback : ∀ k : Nat, (formatInt k).map (Char.ofNat ·.toNat) = Nat.toDigits 10 k := by
    intro k
    simp only [formatInt, if_neg (Int.not_lt.mpr (Int.natCast_nonneg _)), nil_append,
      Int.natAbs_natCast, map_map]
    conv_rhs => rw [← map_id (Nat.toDigits 10 k)]
    refine map_congr_left fun c hc => ?_
    rw [Function.comp_apply, (toNat_digit hc).1, Char.ofNat_toNat, id]
  have hvalue : ∀ k : Nat, Nat.ofDigitChars 10 (Nat.toDigits 10 k) 0 = k := fun k =>
    Nat.ofDigitChars_toDigits (by decide) (by decide)
  rw [← hvalue m, ← hback m, h, hback n, hvalue n]

/-- The `%q` verb on a string of printable ASCII characters without quotes and backslashes. -/
def quoted (s : GoString) : String :=
  "\"" ++ String.ofList (s.map fun b => Char.ofNat b.toNat) ++ "\""

/-- The `%s` verb on a string of ASCII characters. -/
def shown (s : GoString) : String := String.ofList (s.map fun b => Char.ofNat b.toNat)

/-- `hex.EncodeToString`. -/
def hexText (s : GoString) : GoString := s.flatMap fun b => [hexDigit (b / 16), hexDigit (b % 16)]
where
  /-- A digit from 0 to 15. -/
  hexDigit (d : UInt8) : UInt8 := if d < 10 then 0x30 + d else 0x57 + d

variable {s : GoString}

/-- The digits are decimal ones and the letters from a to f. -/
theorem mem_hexText (h : b ∈ hexText s) : 0x30 ≤ b ∧ b ≤ 0x39 ∨ 0x61 ≤ b ∧ b ≤ 0x66 := by
  have hdigit : ∀ d : UInt8, d < 16 → 0x30 ≤ hexText.hexDigit d ∧ hexText.hexDigit d ≤ 0x39 ∨
      0x61 ≤ hexText.hexDigit d ∧ hexText.hexDigit d ≤ 0x66 := by
    intro d hd
    unfold hexText.hexDigit
    simp only [UInt8.le_iff_toNat_le, UInt8.lt_iff_toNat_lt] at hd ⊢
    split <;> simp only [UInt8.toNat_add] <;> simp at * <;> omega
  obtain ⟨c, -, hc⟩ := mem_flatMap.mp h
  simp only [mem_cons, not_mem_nil, or_false] at hc
  rcases hc with rfl | rfl
  · refine hdigit _ ?_
    simp only [UInt8.lt_iff_toNat_lt, UInt8.toNat_div]
    have := c.toNat_lt
    simp
    omega
  refine hdigit _ ?_
  exact Nat.mod_lt _ (by decide)

/-- Two digits for each byte. -/
theorem length_hexText (s : GoString) : (hexText s).length = 2 * s.length := by
  induction s with
  | nil => rfl
  | cons b s ih =>
    have hcons : hexText (b :: s) =
        hexText.hexDigit (b / 16) :: hexText.hexDigit (b % 16) :: hexText s := rfl
    rw [hcons, length_cons, length_cons, length_cons, ih]
    omega

/-- A digit that `hex.DecodeString` reads. -/
def hexByte (b : UInt8) : Bool :=
  (0x30 ≤ b && b ≤ 0x39) || (0x61 ≤ b && b ≤ 0x66) || (0x41 ≤ b && b ≤ 0x46)

/-- Whether `hex.DecodeString` reads `n` bytes. -/
def hexDecodes (n : Nat) (s : GoString) : Bool := s.length = 2 * n && s.all hexByte

/-- What was encoded is decoded. -/
theorem hexDecodes_hexText (s : GoString) : hexDecodes s.length (hexText s) := by
  simp only [hexDecodes, length_hexText, decide_true, Bool.true_and, all_eq_true]
  intro b hb
  simp only [hexByte, Bool.or_eq_true, Bool.and_eq_true, decide_eq_true_eq]
  exact .inl (mem_hexText hb)

theorem ascii_of_hexDecodes (h : hexDecodes n s) : ∀ b ∈ s, b < 0x80 := by
  intro b hb
  have hdigit : hexByte b := by
    simp only [hexDecodes, Bool.and_eq_true, all_eq_true] at h
    exact h.2 b hb
  simp only [hexByte, Bool.or_eq_true, Bool.and_eq_true, decide_eq_true_eq,
    UInt8.le_iff_toNat_le] at hdigit
  simp only [UInt8.lt_iff_toNat_lt]
  simp at hdigit ⊢
  omega

/-- The row of a lead byte: how many continuation bytes follow, and the range of the first. -/
def lead (b : UInt8) : Option (Nat × UInt8 × UInt8) :=
  if b < 0x80 then some (0, 0x80, 0xBF)
  else if b < 0xC2 then none
  else if b < 0xE0 then some (1, 0x80, 0xBF)
  else if b = 0xE0 then some (2, 0xA0, 0xBF)
  else if b = 0xED then some (2, 0x80, 0x9F)
  else if b < 0xF0 then some (2, 0x80, 0xBF)
  else if b = 0xF0 then some (3, 0x90, 0xBF)
  else if b < 0xF4 then some (3, 0x80, 0xBF)
  else if b = 0xF4 then some (3, 0x80, 0x8F)
  else none

/-- Whether `n` continuation bytes follow, the first of them from `lo` to `hi`. -/
def continues : Nat → UInt8 → UInt8 → GoString → Bool
  | 0, _, _, _ => true
  | _ + 1, _, _, [] => false
  | n + 1, lo, hi, b :: rest => lo ≤ b && b ≤ hi && continues n 0x80 0xBF rest

/-- The length of the well-formed UTF-8 sequence at the start of a string, zero when there is
none. -/
def runeWidth : GoString → Nat
  | [] => 0
  | b :: rest =>
    match lead b with
    | none => 0
    | some (n, lo, hi) => if continues n lo hi rest then n + 1 else 0

/-- The encoding of U+FFFD. -/
def replacement : GoString := [0xEF, 0xBF, 0xBD]

/-- `jsonText` from inside a sequence of which `skip` bytes are left. -/
def jsonTextFrom : Nat → GoString → GoString
  | _, [] => []
  | skip + 1, b :: rest => b :: jsonTextFrom skip rest
  | 0, b :: rest =>
    match runeWidth (b :: rest) with
    | 0 => replacement ++ jsonTextFrom 0 rest
    | w + 1 => b :: jsonTextFrom w rest

/-- A string as read from `json.Marshal` and a decoder: every byte that is not part of a
well-formed sequence is replaced by U+FFFD. -/
def jsonText (s : GoString) : GoString := jsonTextFrom 0 s

/-- `validString` from inside a sequence of which `skip` bytes are left. -/
def validFrom : Nat → GoString → Bool
  | _, [] => true
  | skip + 1, _ :: rest => validFrom skip rest
  | 0, b :: rest =>
    match runeWidth (b :: rest) with
    | 0 => false
    | w + 1 => validFrom w rest

/-- `utf8.ValidString`. -/
def validString (s : GoString) : Bool := validFrom 0 s

/-- The continuation bytes of a sequence do not depend on what stands after them. -/
theorem continues_append (t : GoString) (h : continues n lo hi s) :
    continues n lo hi (s.take n ++ t) := by
  induction n generalizing lo hi s with
  | zero => rfl
  | succ n ih =>
    cases s with
    | nil => simp [continues] at h
    | cons b rest =>
      simp only [continues, Bool.and_eq_true] at h
      simp only [take_succ_cons, cons_append, continues, Bool.and_eq_true]
      exact ⟨h.1, ih h.2⟩

/-- A sequence's continuation bytes are there. -/
theorem le_length_of_continues (h : continues n lo hi s) : n ≤ s.length := by
  induction n generalizing lo hi s with
  | zero => exact Nat.zero_le _
  | succ n ih =>
    cases s with
    | nil => simp [continues] at h
    | cons b rest =>
      simp only [continues, Bool.and_eq_true] at h
      exact Nat.succ_le_succ (ih h.2)

variable {rest : GoString}

/-- A well-formed sequence of `w + 1` bytes is one whatever stands after it. -/
theorem runeWidth_append (t : GoString) (h : runeWidth (b :: rest) = w + 1) :
    runeWidth (b :: (rest.take w ++ t)) = w + 1 ∧ w ≤ rest.length := by
  simp only [runeWidth] at h ⊢
  split at h
  · cases h
  rename_i n lo hi hlead
  split at h
  · rename_i hc
    obtain rfl : n = w := by omega
    simp only [continues_append t hc, le_length_of_continues hc, and_true, if_true]
  · cases h

/-- Inside a sequence the bytes are copied. -/
theorem jsonTextFrom_skip (h : k ≤ s.length) :
    jsonTextFrom k s = s.take k ++ jsonTextFrom 0 (s.drop k) := by
  induction k generalizing s with
  | zero => rfl
  | succ k ih =>
    cases s with
    | nil => simp at h
    | cons b rest =>
      simp only [length_cons, Nat.add_le_add_iff_right] at h
      simp only [jsonTextFrom, ih h, take_succ_cons, drop_succ_cons, cons_append]

/-- The replacement character is itself a well-formed sequence. -/
theorem jsonTextFrom_replacement (t : GoString) :
    jsonTextFrom 0 (replacement ++ t) = replacement ++ jsonTextFrom 0 t := by
  have hw : runeWidth (0xEF :: 0xBF :: 0xBD :: t) = 3 := by
    simp [runeWidth, lead, continues]
  simp only [replacement, cons_append, nil_append, jsonTextFrom, hw]

/-- A second trip through JSON changes nothing. -/
theorem jsonText_jsonText (s : GoString) : jsonText (jsonText s) = jsonText s := by
  unfold jsonText
  -- Strong induction: a sequence is consumed whole.
  induction hn : s.length using Nat.strongRecOn generalizing s with
  | ind n ih =>
    cases s with
    | nil => rfl
    | cons b rest =>
      simp only [length_cons] at hn
      rcases hw : runeWidth (b :: rest) with _ | w
      · have hstep : jsonTextFrom 0 (b :: rest) = replacement ++ jsonTextFrom 0 rest := by
          simp only [jsonTextFrom, hw]
        rw [hstep, jsonTextFrom_replacement, ih rest.length (by omega) rest rfl]
      obtain ⟨-, hle⟩ := runeWidth_append [] hw
      have hstep : jsonTextFrom 0 (b :: rest) =
          b :: (rest.take w ++ jsonTextFrom 0 (rest.drop w)) := by
        simp only [jsonTextFrom, hw, jsonTextFrom_skip hle]
      have hw' := (runeWidth_append (jsonTextFrom 0 (rest.drop w)) hw).1
      have hlen : (rest.take w).length = w := by rw [length_take]; omega
      have hdrop : (rest.drop w).length < n := by rw [length_drop]; omega
      rw [hstep]
      simp only [jsonTextFrom, hw']
      rw [jsonTextFrom_skip (by rw [length_append]; omega), take_left' hlen,
        drop_left' hlen, ih _ hdrop (rest.drop w) rfl]

/-- The text of a string is the string exactly when its positions decode. -/
theorem jsonTextFrom_eq_self_iff (k : Nat) (s : GoString) :
    jsonTextFrom k s = s ↔ validFrom k s := by
  induction s generalizing k with
  | nil => simp [jsonTextFrom, validFrom]
  | cons b rest ih =>
    cases k with
    | succ k => simp only [jsonTextFrom, validFrom, List.cons.injEq, true_and, ih]
    | zero =>
      rcases hw : runeWidth (b :: rest) with _ | w
      · -- An ill-formed byte that equals its replacement would be the lead byte of U+FFFD.
        simp only [jsonTextFrom, validFrom, hw, Bool.false_eq_true, iff_false]
        intro h
        rw [← h] at hw
        simp [replacement, runeWidth, lead, continues] at hw
      · simp only [jsonTextFrom, validFrom, hw, List.cons.injEq, true_and, ih]

/-- A trip that keeps a list keeps its elements. -/
theorem map_eq_self_iff {α : Type} {f : α → α} {l : List α} : l.map f = l ↔ ∀ a ∈ l, f a = a := by
  have h := map_inj_left (f := f) (g := id) (l := l)
  rwa [map_id] at h

/-- Marshalling keeps a string exactly when it is valid UTF-8. -/
theorem jsonText_eq_self_iff (s : GoString) : jsonText s = s ↔ validString s :=
  jsonTextFrom_eq_self_iff 0 s

/-- Inside a sequence nothing is decoded. -/
theorem validFrom_skip (h : k ≤ s.length) : validFrom k s = validFrom 0 (s.drop k) := by
  induction k generalizing s with
  | zero => rfl
  | succ k ih =>
    cases s with
    | nil => simp at h
    | cons b rest =>
      simp only [length_cons, Nat.add_le_add_iff_right] at h
      simp only [validFrom, ih h, drop_succ_cons]

/-- A valid string starts with a valid sequence of at most four bytes. -/
theorem validString_cons (h : validString (b :: rest)) :
    ∃ w, runeWidth (b :: rest) = w + 1 ∧ w ≤ 3 ∧ w ≤ rest.length ∧ validString (rest.drop w) := by
  unfold validString at h ⊢
  rcases hw : runeWidth (b :: rest) with _ | w
  · simp [validFrom, hw] at h
  obtain ⟨-, hle⟩ := runeWidth_append [] hw
  refine ⟨w, rfl, ?_, hle, ?_⟩
  · simp only [runeWidth] at hw
    split at hw
    · cases hw
    rename_i n lo hi hlead
    have hrows : ∀ row ∈ lead b, row.1 ≤ 3 := by
      iterate 9
        refine iteInduction (motive := fun o : Option _ => ∀ row ∈ o, Prod.fst row ≤ 3) ?_ fun _ => ?_
        · simp
      simp
    have hn : n ≤ 3 := hrows _ hlead
    split at hw <;> omega
  · simp only [validFrom, hw] at h
    rwa [validFrom_skip hle] at h

/-- After a valid string, what stands there decides. -/
theorem validString_append_iff {t : GoString} (hs : validString s) :
    validString (s ++ t) ↔ validString t := by
  -- Strong induction: a sequence is consumed whole.
  induction hn : s.length using Nat.strongRecOn generalizing s with
  | ind n ih =>
    cases s with
    | nil => rfl
    | cons b rest =>
      obtain ⟨w, hw, -, hle, hrest⟩ := validString_cons hs
      have hw' : runeWidth (b :: (rest ++ t)) = w + 1 := by
        have hsplit : rest ++ t = rest.take w ++ (rest.drop w ++ t) := by
          rw [← append_assoc, take_append_drop]
        rw [hsplit]
        exact (runeWidth_append _ hw).1
      simp only [length_cons] at hn
      have htail := ih (rest.drop w).length (by rw [length_drop]; omega) hrest rfl
      simp only [validString, cons_append, validFrom, hw']
      rwa [validFrom_skip (by rw [length_append]; omega), drop_append_of_le_length hle]

/-- The first sequence of a valid string is a valid string. -/
theorem validString_take (hw : runeWidth (b :: rest) = w + 1) :
    validString ((b :: rest).take (w + 1)) := by
  obtain ⟨hwidth, hle⟩ := runeWidth_append [] hw
  rw [append_nil] at hwidth
  have hlength : (rest.take w).length = w := by rw [length_take]; omega
  simp only [validString, take_succ_cons, validFrom, hwidth]
  rw [validFrom_skip (by omega), drop_of_length_le (by omega)]
  rfl

/-- A string that is checked to be ASCII. -/
theorem ascii_of_all (h : s.all (fun b => decide (b < 0x80))) (hb : b ∈ s) : b < 0x80 :=
  of_decide_eq_true (all_eq_true.mp h b hb)

theorem validString_of_ascii (h : ∀ b ∈ s, b < 0x80) : validString s := by
  unfold validString
  induction s with
  | nil => rfl
  | cons b rest ih =>
    have hlead : lead b = some (0, 0x80, 0xBF) := if_pos (h b mem_cons_self)
    simp only [validFrom, runeWidth, hlead, continues, ↓reduceIte]
    exact ih fun c hc => h c (mem_cons_of_mem b hc)

/-! ## `strings.TrimSpace` -/

/-- The encodings of the characters for which `unicode.IsSpace` holds. -/
def spaces : List GoString :=
  [[0x09], [0x0A], [0x0B], [0x0C], [0x0D], [0x20], [0xC2, 0x85], [0xC2, 0xA0],
   [0xE1, 0x9A, 0x80], [0xE2, 0x80, 0x80], [0xE2, 0x80, 0x81], [0xE2, 0x80, 0x82],
   [0xE2, 0x80, 0x83], [0xE2, 0x80, 0x84], [0xE2, 0x80, 0x85], [0xE2, 0x80, 0x86],
   [0xE2, 0x80, 0x87], [0xE2, 0x80, 0x88], [0xE2, 0x80, 0x89], [0xE2, 0x80, 0x8A],
   [0xE2, 0x80, 0xA8], [0xE2, 0x80, 0xA9], [0xE2, 0x80, 0xAF], [0xE2, 0x81, 0x9F],
   [0xE3, 0x80, 0x80]]

/-- Drops encodings of `codes` from the front of a string, at most `fuel` of them. -/
def trimLeft (codes : List GoString) : Nat → GoString → GoString
  | 0, s => s
  | fuel + 1, s =>
    match codes.find? (·.isPrefixOf s) with
    | some code => trimLeft codes fuel (s.drop code.length)
    | none => s

/-- `strings.TrimSpace`. The back is trimmed as the front of the reversed string. -/
def trimSpace (s : GoString) : GoString :=
  let front := trimLeft spaces s.length s
  (trimLeft (spaces.map List.reverse) front.length front.reverse).reverse

/-- Nothing is dropped from a string that starts with none of the encodings. -/
theorem trimLeft_eq_self {codes : List GoString}
    (h : ∀ code ∈ codes, code.head? ≠ some b ∧ code ≠ []) (fuel : Nat) :
    trimLeft codes fuel (b :: s) = b :: s := by
  cases fuel with
  | zero => rfl
  | succ fuel =>
    have hnone : codes.find? (fun code => code.isPrefixOf (b :: s)) = none := by
      refine find?_eq_none.mpr fun code hcode => ?_
      obtain ⟨hhead, hne⟩ := h code hcode
      cases code with
      | nil => exact absurd rfl hne
      | cons c rest => simpa [List.isPrefixOf] using fun hc _ => hhead (by simp [hc])
    simp only [trimLeft, hnone]

/-- A string of printing ASCII characters has no spaces to trim. -/
theorem trimSpace_eq_self (h : ∀ b ∈ s, 0x20 < b ∧ b < 0x80) : trimSpace s = s := by
  have hcodes : ∀ codes ∈ [spaces, spaces.map List.reverse], ∀ t : GoString,
      (∀ b ∈ t, 0x20 < b ∧ b < 0x80) → ∀ fuel, trimLeft codes fuel t = t := by
    intro codes hcodes t ht fuel
    cases t with
    | nil => cases fuel <;> simp only [mem_cons, not_mem_nil, or_false] at hcodes <;>
        rcases hcodes with rfl | rfl <;> rfl
    | cons b rest =>
      refine trimLeft_eq_self (fun code hcode => ?_) fuel
      obtain ⟨hlo, hhi⟩ := ht b mem_cons_self
      -- The encodings start and end with bytes up to 0x20 or from 0x80 on.
      have hends : ∀ code ∈ spaces, (∀ c ∈ code.head?, c ≤ 0x20 ∨ 0x80 ≤ c) ∧
          (∀ c ∈ code.reverse.head?, c ≤ 0x20 ∨ 0x80 ≤ c) ∧ code ≠ [] := by
        decide +kernel
      have hnot : ¬(b ≤ 0x20 ∨ 0x80 ≤ b) := by
        simp only [not_or, UInt8.not_le]
        exact ⟨hlo, hhi⟩
      simp only [mem_cons, not_mem_nil, or_false] at hcodes
      rcases hcodes with rfl | rfl
      · exact ⟨fun hb => hnot ((hends code hcode).1 b hb), (hends code hcode).2.2⟩
      obtain ⟨code', hcode', rfl⟩ := mem_map.mp hcode
      exact ⟨fun hb => hnot ((hends code' hcode').2.1 b hb), by simpa using (hends code' hcode').2.2⟩
  have hfront : ∀ fuel, trimLeft spaces fuel s = s := hcodes _ mem_cons_self s h
  have hback : ∀ fuel, trimLeft (spaces.map List.reverse) fuel s.reverse = s.reverse :=
    hcodes _ (mem_cons_of_mem _ mem_cons_self) s.reverse (by simpa using h)
  simp only [trimSpace, hfront, hback, reverse_reverse]

/-- `strings.TrimSpace(s) == ""`. -/
def blank (s : GoString) : Bool := trimSpace s == []

/-! ## The length of JSON text -/

/-- How many bytes `json.Marshal` writes for an ASCII byte of a string. -/
def escapedLength (b : UInt8) : Nat :=
  if b = 0x22 ∨ b = 0x5C ∨ b = 0x08 ∨ b = 0x09 ∨ b = 0x0A ∨ b = 0x0C ∨ b = 0x0D then 2
  else if b < 0x20 ∨ b = 0x3C ∨ b = 0x3E ∨ b = 0x26 then 6
  else 1

/-- `quotedLength` without the quotes, from inside a sequence of which `skip` bytes are left. An
ill-formed byte, U+2028 and U+2029 are written as six-byte escapes. -/
def quotedLengthFrom : Nat → GoString → Nat
  | _, [] => 0
  | skip + 1, _ :: rest => 1 + quotedLengthFrom skip rest
  | 0, b :: rest =>
    if b < 0x80 then escapedLength b + quotedLengthFrom 0 rest
    else
      match runeWidth (b :: rest) with
      | 0 => 6 + quotedLengthFrom 0 rest
      | w + 1 =>
        (if b = 0xE2 ∧ (rest.take 2 = [0x80, 0xA8] ∨ rest.take 2 = [0x80, 0xA9]) then 4 else 1) +
          quotedLengthFrom w rest

/-- The length of a string as a JSON literal. -/
def quotedLength (s : GoString) : Nat := quotedLengthFrom 0 s + 2

/-- The length of a byte slice as JSON: base64 in quotes, and `null` for an empty slice, as a copy
appended to a nil slice is. -/
def base64Length (s : GoString) : Nat :=
  if s = [] then 4 else 4 * ((s.length + 2) / 3) + 2

/-- The length of a JSON number. -/
def numberLength (z : Int) : Nat := (Nat.toDigits 10 z.natAbs).length + if z < 0 then 1 else 0

/-- The length of a JSON array whose elements have the given lengths. -/
def arrayLength (elements : List Nat) : Nat := elements.foldl (· + ·) 0 + (elements.length - 1) + 2

/-- The length of a JSON object whose keys and values have the given lengths. -/
def objectLength (fields : List (Nat × Nat)) : Nat :=
  arrayLength (fields.map fun (key, value) => key + 3 + value)

/-! ## `strings.Cut` and `strconv.Atoi` -/

/-- `strings.Cut`, none if the separator is not found. -/
def cut (separator : GoString) : GoString → Option (GoString × GoString)
  | [] => if separator = [] then some ([], []) else none
  | b :: s =>
    if separator.isPrefixOf (b :: s) then some ([], (b :: s).drop separator.length)
    else (cut separator s).map fun parts => (b :: parts.1, parts.2)

/-- What is cut are the parts around the separator. -/
theorem cut_eq_some {separator : GoString} {parts : GoString × GoString}
    (h : cut separator s = some parts) : s = parts.1 ++ separator ++ parts.2 := by
  induction s generalizing parts with
  | nil =>
    unfold cut at h
    split at h
    · rename_i hempty
      cases h
      simp [hempty]
    · cases h
  | cons b s ih =>
    unfold cut at h
    split at h
    · rename_i hfound
      cases h
      obtain ⟨rest, hrest⟩ := isPrefixOf_iff_prefix.mp hfound
      rw [← hrest, drop_left, nil_append]
    obtain ⟨inner, hinner, rfl⟩ := Option.map_eq_some_iff.mp h
    rw [cons_append, cons_append, ← ih hinner]

/-- A decimal digit. -/
def isDigit (b : UInt8) : Bool := 0x30 ≤ b && b ≤ 0x39

/-- The digits of a number, without its sign. -/
def unsigned : GoString → GoString
  | 0x2B :: s => s
  | 0x2D :: s => s
  | s => s

/-- `strconv.Atoi`, none if it fails. -/
def atoi (s : GoString) : Option Int :=
  let digits := unsigned s
  let value : Nat := digits.foldl (fun n b => 10 * n + (b - 0x30).toNat) 0
  let n : Int := if s.head? = some 0x2D then -value else value
  if digits ≠ [] && digits.all isDigit && -0x8000000000000000 ≤ n && n ≤ 0x7FFFFFFFFFFFFFFF then
    some n
  else none

/-- A number is ASCII. -/
theorem ascii_of_atoi {n : Int} (h : atoi s = some n) : ∀ b ∈ s, b < 0x80 := by
  have hdigits : ∀ b ∈ unsigned s, b < 0x80 := by
    obtain ⟨hcase, -⟩ := Option.ite_none_right_eq_some.mp h
    simp only [Bool.and_eq_true, all_eq_true] at hcase
    intro b hb
    have hdigit := hcase.1.1.2 b hb
    simp only [isDigit, Bool.and_eq_true, decide_eq_true_eq] at hdigit
    exact UInt8.lt_of_le_of_lt hdigit.2 (by decide)
  intro b hb
  unfold unsigned at hdigits
  split at hdigits
  iterate 2
    rcases mem_cons.mp hb with rfl | hb
    · decide
    · exact hdigits b hb
  exact hdigits b hb

end Bria.Go
