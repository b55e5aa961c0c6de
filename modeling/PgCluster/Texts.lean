import Mathlib.Data.List.Basic

/-!
# Texts and their bytes

A text is its characters, and goes over a wire as UTF-8. The operations are
those of Rust's `str`: the rest after a given beginning, the two sides of the
first separator or of the last occurrence of a pattern, and a decimal number.
Each comes with what it gives on a text that was put together that way.
-/

namespace PgCluster

open List

abbrev Text := List Char

namespace Text

/-! ## UTF-8 -/

def utf8 (t : Text) : List UInt8 := t.flatMap String.utf8EncodeChar

/-- `str::from_utf8`. -/
def fromUtf8 (bs : List UInt8) : Option Text := bs.toByteArray.utf8Decode?.map Array.toList

@[simp] theorem fromUtf8_utf8 (t : Text) : fromUtf8 t.utf8 = some t := by
  have hdecode : t.utf8Encode.utf8Decode? = some t.toArray := utf8Decode?_utf8Encode
  have hencode : t.utf8.toByteArray = t.utf8Encode := rfl
  rw [fromUtf8, hencode, hdecode]
  rfl

/-! ## Beginnings -/

/-- `str::strip_prefix`. -/
def strip : Text → Text → Option Text
  | [], t => some t
  | _ :: _, [] => none
  | p :: ps, c :: cs => if p = c then strip ps cs else none

@[simp] theorem strip_append (p t : Text) : strip p (p ++ t) = some t := by
  induction p with
  | nil => rfl
  | cons _ _ ih => rw [cons_append, strip, if_pos rfl, ih]

theorem eq_append_of_strip {p t rest : Text} (h : strip p t = some rest) : t = p ++ rest := by
  induction p generalizing t with
  | nil => exact Option.some.inj h
  | cons _ _ ih =>
    cases t with
    | nil => cases h
    | cons =>
      obtain ⟨rfl, htail⟩ := Option.ite_none_right_eq_some.mp h
      rw [ih htail, cons_append]

/-! ## Two sides -/

/-- `str::split_once` at a character. -/
def splitOnce (sep : Char) : Text → Option (Text × Text)
  | [] => none
  | c :: cs =>
    if c = sep then some ([], cs) else (splitOnce sep cs).map fun (a, b) => (c :: a, b)

theorem splitOnce_append {sep : Char} {a : Text} (h : sep ∉ a) (b : Text) :
    splitOnce sep (a ++ sep :: b) = some (a, b) := by
  induction a with
  | nil => exact if_pos rfl
  | cons _ _ ih =>
    obtain ⟨hc, hcs⟩ := ne_and_not_mem_of_not_mem_cons h
    rw [cons_append, splitOnce, if_neg (Ne.symm hc), ih hcs]
    rfl

theorem of_splitOnce {sep : Char} {t : Text} {parts : Text × Text}
    (h : splitOnce sep t = some parts) : t = parts.1 ++ sep :: parts.2 ∧ sep ∉ parts.1 := by
  induction t generalizing parts with
  | nil => cases h
  | cons c cs ih =>
    rw [splitOnce] at h
    split at h
    · next hc =>
      cases h
      exact ⟨by rw [hc, nil_append], not_mem_nil⟩
    · next hc =>
      obtain ⟨_, hparts, rfl⟩ := Option.map_eq_some_iff.mp h
      obtain ⟨hcs, hnot⟩ := ih hparts
      exact ⟨by rw [hcs, cons_append], not_mem_cons_of_ne_of_not_mem (Ne.symm hc) hnot⟩

def rsplitOnce (pattern : Text) : Text → Option (Text × Text)
  | [] => (strip pattern []).map fun b => ([], b)
  | c :: cs =>
    match rsplitOnce pattern cs with
    | some (a, b) => some (c :: a, b)
    | none => (strip pattern (c :: cs)).map fun b => ([], b)

theorem rsplitOnce_of_not_mem {p : Char} {ps t : Text} (h : p ∉ t) :
    rsplitOnce (p :: ps) t = none := by
  induction t with
  | nil => rfl
  | cons _ _ ih =>
    obtain ⟨hc, hcs⟩ := ne_and_not_mem_of_not_mem_cons h
    rw [rsplitOnce, ih hcs]
    simp only [strip, if_neg hc]
    rfl

/-- The last occurrence is where the pattern's first character stands last. -/
theorem rsplitOnce_append {p : Char} {ps : Text} (hp : p ∉ ps) (a : Text) {b : Text} (hb : p ∉ b) :
    rsplitOnce (p :: ps) (a ++ p :: (ps ++ b)) = some (a, b) := by
  induction a with
  | nil =>
    have hnone : rsplitOnce (p :: ps) (ps ++ b) = none := rsplitOnce_of_not_mem (by simp [hp, hb])
    have hstrip : strip (p :: ps) (p :: (ps ++ b)) = some b := strip_append (p :: ps) b
    rw [nil_append, rsplitOnce, hnone, hstrip]
    rfl
  | cons _ _ ih => rw [cons_append, rsplitOnce, ih]

theorem eq_append_of_rsplitOnce {pattern t a b : Text} (h : rsplitOnce pattern t = some (a, b)) :
    t = a ++ (pattern ++ b) := by
  induction t generalizing a with
  | nil =>
    obtain ⟨rest, hrest, heq⟩ := Option.map_eq_some_iff.mp h
    cases heq
    rw [nil_append, ← eq_append_of_strip hrest]
  | cons _ cs ih =>
    rw [rsplitOnce] at h
    cases hsplit : rsplitOnce pattern cs with
    | none =>
      rw [hsplit] at h
      obtain ⟨_, hrest, heq⟩ := Option.map_eq_some_iff.mp h
      cases heq
      rw [nil_append, eq_append_of_strip hrest]
    | some parts =>
      obtain ⟨_, _⟩ := parts
      rw [hsplit] at h
      cases h
      rw [ih hsplit, cons_append]

/-! ## Decimal numbers -/

def decimal (n : Nat) : Text := Nat.toDigits 10 n

/-- `str::parse` to an unsigned number below `bound`. A plus sign may stand
first. -/
def parseBelow (bound : Nat) (t : Text) : Option Nat :=
  let digits := (strip ['+'] t).getD t
  let n := Nat.ofDigitChars 10 digits 0
  if digits ≠ [] ∧ digits.all Char.isDigit = true ∧ n < bound then some n else none

theorem isDigit_of_mem_decimal {n : Nat} {c : Char} (h : c ∈ decimal n) : c.isDigit :=
  Nat.isDigit_of_mem_toDigits (by decide) (by decide) h

theorem not_mem_decimal {c : Char} (h : c.isDigit = false) (n : Nat) : c ∉ decimal n := by
  intro hc
  rw [isDigit_of_mem_decimal hc] at h
  cases h

theorem strip_decimal {c : Char} (h : c.isDigit = false) (n : Nat) :
    strip [c] (decimal n) = none := by
  cases hdigits : decimal n with
  | nil => rfl
  | cons =>
    refine if_neg fun hc => not_mem_decimal h n ?_
    rw [hdigits, hc]
    exact mem_cons_self

theorem parseBelow_decimal {bound n : Nat} (h : n < bound) :
    parseBelow bound (decimal n) = some n := by
  have hne : decimal n ≠ [] := Nat.toDigits_ne_nil
  have hvalue : Nat.ofDigitChars 10 (decimal n) 0 = n := Nat.ofDigitChars_ten_toDigits
  have hall : (decimal n).all Char.isDigit :=
    all_eq_true.mpr fun c hc => isDigit_of_mem_decimal hc
  rw [parseBelow, strip_decimal rfl, Option.getD_none, hvalue]
  exact if_pos ⟨hne, hall, h⟩

end Text

end PgCluster
