import Mathlib.Data.List.Basic

/-!
# Base64

The standard alphabet with padding, of RFC 4648. Three bytes are four characters
of six bits; one or two bytes at the end are padded with `=`. The decoder
requires the padding and refuses bits that stand for no byte, so that it accepts
one text for each list of bytes. That is how it is stated here: what the
characters stand for is read, and counts if the text is its encoding.
-/

namespace PgCluster.Base64

def digit (n : Nat) : Char :=
  if n < 26 then Char.ofNat ('A'.toNat + n)
  else if n < 52 then Char.ofNat ('a'.toNat + (n - 26))
  else if n < 62 then Char.ofNat ('0'.toNat + (n - 52))
  else if n = 62 then '+'
  else '/'

/-- The six bits of a character of the alphabet. -/
def value (c : Char) : Nat :=
  if 'A' ≤ c ∧ c ≤ 'Z' then c.toNat - 'A'.toNat
  else if 'a' ≤ c ∧ c ≤ 'z' then c.toNat - 'a'.toNat + 26
  else if '0' ≤ c ∧ c ≤ '9' then c.toNat - '0'.toNat + 52
  else if c = '+' then 62
  else if c = '/' then 63
  else 0

/-- The four groups of six bits of three bytes. -/
def sixes (a b c : UInt8) : List Nat :=
  [a.toNat / 4, a.toNat % 4 * 16 + b.toNat / 16, b.toNat % 16 * 4 + c.toNat / 64, c.toNat % 64]

def encode : List UInt8 → List Char
  | [] => []
  | [a] => ((sixes a 0 0).take 2).map digit ++ ['=', '=']
  | [a, b] => ((sixes a b 0).take 3).map digit ++ ['=']
  | a :: b :: c :: rest => (sixes a b c).map digit ++ encode rest

/-- The three bytes of four groups of six bits. -/
def bytes (w x y z : Nat) : List UInt8 :=
  [.ofNat (w * 4 + x / 16), .ofNat (x % 16 * 16 + y / 4), .ofNat (y % 4 * 64 + z)]

/-- The bytes that four characters at a time stand for. -/
def reading : List Char → List UInt8
  | w :: x :: y :: z :: rest =>
    (bytes (value w) (value x) (value y) (value z)).take
      (if y = '=' then 1 else if z = '=' then 2 else 3) ++ reading rest
  | _ => []

def decode (t : List Char) : Option (List UInt8) :=
  if encode (reading t) = t then some (reading t) else none

/-! ## What the alphabet is -/

theorem value_digit : ∀ n < 64, value (digit n) = n := by decide

theorem digit_ne_pad : ∀ n < 64, digit n ≠ '=' := by decide

def isBase64 (c : Char) : Bool := c = '=' || digit (value c) = c

theorem sixes_lt (a b c : UInt8) : ∀ n ∈ sixes a b c, n < 64 := by
  have ha : a.toNat < 256 := a.toNat_lt
  have hb : b.toNat < 256 := b.toNat_lt
  have hc : c.toNat < 256 := c.toNat_lt
  simp only [sixes, List.forall_mem_cons, List.not_mem_nil, false_imp_iff, implies_true, and_true]
  omega

theorem isBase64_of_mem_encode (bs : List UInt8) : ∀ c ∈ encode bs, isBase64 c := by
  have hdigit (a b c : UInt8) : ∀ x ∈ (sixes a b c).map digit, isBase64 x := by
    intro x hx
    obtain ⟨n, hn, rfl⟩ := List.mem_map.mp hx
    simp [isBase64, value_digit n (sixes_lt a b c n hn)]
  have htake (k : Nat) (a b c : UInt8) : ∀ x ∈ ((sixes a b c).take k).map digit, isBase64 x := by
    rw [List.map_take]
    exact fun x hx => hdigit a b c x (List.mem_of_mem_take hx)
  induction bs using encode.induct with
  | case1 => exact nofun
  | case2 a => exact List.forall_mem_append.mpr ⟨htake 2 a 0 0, by simp [isBase64]⟩
  | case3 a b => exact List.forall_mem_append.mpr ⟨htake 3 a b 0, by simp [isBase64]⟩
  | case4 a b c _ ih => exact List.forall_mem_append.mpr ⟨hdigit a b c, ih⟩

theorem not_mem_encode {c : Char} (h : isBase64 c = false) (bs : List UInt8) : c ∉ encode bs :=
  fun hc => absurd (isBase64_of_mem_encode bs c hc) (by rw [h]; exact nofun)

/-! ## The round trip -/

theorem bytes_sixes (a b c : UInt8) :
    bytes (a.toNat / 4) (a.toNat % 4 * 16 + b.toNat / 16) (b.toNat % 16 * 4 + c.toNat / 64)
      (c.toNat % 64) = [a, b, c] := by
  have ha : a.toNat < 256 := a.toNat_lt
  have hb : b.toNat < 256 := b.toNat_lt
  have hc : c.toNat < 256 := c.toNat_lt
  have h1 : a.toNat / 4 * 4 + (a.toNat % 4 * 16 + b.toNat / 16) / 16 = a.toNat := by omega
  have h2 : (a.toNat % 4 * 16 + b.toNat / 16) % 16 * 16
      + (b.toNat % 16 * 4 + c.toNat / 64) / 4 = b.toNat := by omega
  have h3 : (b.toNat % 16 * 4 + c.toNat / 64) % 4 * 64 + c.toNat % 64 = c.toNat := by omega
  rw [bytes, h1, h2, h3, UInt8.ofNat_toNat, UInt8.ofNat_toNat, UInt8.ofNat_toNat]

theorem reading_encode (bs : List UInt8) : reading (encode bs) = bs := by
  have hlt (a b c : UInt8) := sixes_lt a b c
  simp only [sixes, List.forall_mem_cons] at hlt
  induction bs using encode.induct with
  | case1 => rfl
  | case2 a =>
    obtain ⟨hw, hx, -⟩ := hlt a 0 0
    show (bytes (value (digit _)) (value (digit _)) (value '=') (value '=')).take 1 ++ [] = [a]
    rw [value_digit _ hw, value_digit _ hx]
    exact congrArg (List.take 1) (bytes_sixes a 0 0)
  | case3 a b =>
    obtain ⟨hw, hx, hy, -⟩ := hlt a b 0
    show (bytes (value (digit _)) (value (digit _)) (value (digit _)) (value '=')).take
      (if digit _ = '=' then _ else 2) ++ [] = [a, b]
    rw [value_digit _ hw, value_digit _ hx, value_digit _ hy, if_neg (digit_ne_pad _ hy)]
    exact congrArg (List.take 2) (bytes_sixes a b 0)
  | case4 a b c rest ih =>
    obtain ⟨hw, hx, hy, hz, -⟩ := hlt a b c
    show (bytes (value (digit _)) (value (digit _)) (value (digit _)) (value (digit _))).take
      (if digit _ = '=' then _ else if digit _ = '=' then _ else 3) ++ reading (encode rest) = _
    rw [value_digit _ hw, value_digit _ hx, value_digit _ hy, value_digit _ hz,
      if_neg (digit_ne_pad _ hy), if_neg (digit_ne_pad _ hz), bytes_sixes, ih]
    rfl

/-- A text decodes exactly if it is an encoding. -/
theorem decode_eq_some_iff {t : List Char} {bs : List UInt8} :
    decode t = some bs ↔ t = encode bs := by
  rw [decode, Option.ite_none_right_eq_some]
  constructor
  · rintro ⟨hcanonical, ⟨⟩⟩
    exact hcanonical.symm
  · rintro rfl
    rw [reading_encode]
    exact ⟨rfl, rfl⟩

theorem decode_encode (bs : List UInt8) : decode (encode bs) = some bs :=
  decode_eq_some_iff.mpr rfl

end PgCluster.Base64
