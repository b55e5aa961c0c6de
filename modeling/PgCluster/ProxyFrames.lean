import Mathlib.Algebra.Group.Nat.Defs
import PgCluster.Scram

/-!
# The frames of a client

`read_frontend_frame` takes one message at a time off a stream whose reads give what
they like, and keeps its bytes; `parse_frontend_message` makes the message of them. Every
index, slice and sum of the parser that could be out of range is checked here, and is a
`panic` when it is. Only one can be: the slice of a Bind parameter ends where the
parameter's own length says, also where that is past the payload.
-/

namespace PgCluster.Frontend

open Text List
open Scram (be32 bind_eq_ok bind_of_ok findIdx?_append_zero)

abbrev Bytes := List UInt8

variable {α β : Type} {P : α → Prop} {payload : Bytes}

/-! ## Parsing -/

/-- `FrontendMessage`, of those a session reads after its startup. -/
inductive Message where
  | query (sql : Text)
  | parse (name query : Text) (paramTypes : List Nat)
  | bind (portal statement : Text) (params : List Bytes)
  | execute (portal : Text) (maxRows : Int)
  | describe (kind : UInt8) (name : Text)
  | sync
  | flush
  | close (kind : UInt8) (name : Text)
  | terminate
  | copyData (data : Bytes)
  | copyDone
  | copyFail (message : Text)
  | passwordMessage (data : Bytes)
deriving DecidableEq

/-- An error with its contexts, the outermost first, or a panic. -/
inductive Failure where
  | error (contexts : List String)
  | panic
deriving DecidableEq

abbrev Parse := Except Failure

def context (text : String) : Parse α → Parse α
  | .error (.error contexts) => .error (.error (text :: contexts))
  | r => r

def orError (text : String) : Option α → Parse α
  | some a => .ok a
  | none => .error (.error [text])

/-- A sum or product of `usize`. -/
def usize (n : Nat) : Parse Nat := if n < 2 ^ 64 then .ok n else .error .panic

def slice (buf : Bytes) (lo hi : Nat) : Parse Bytes :=
  if lo ≤ hi ∧ hi ≤ buf.length then .ok ((buf.take hi).drop lo) else .error .panic

/-- A number from its bytes, the largest first. -/
def fromBe (bs : Bytes) : Nat := bs.foldl (fun n b => n * 256 + b.toNat) 0

/-- `i32::from_be_bytes`. -/
def fromBeSigned (bs : Bytes) : Int := (fromBe bs : Int).bmod (2 ^ 32)

def readCstringWithPos (buf : Bytes) (offset : Nat) : Parse (Text × Nat) := do
  let rest ← slice buf offset buf.length
  let stop ← orError s!"missing null terminator at offset {offset}" (rest.findIdx? (· == 0))
  let s ← orError "string is not valid UTF-8" (fromUtf8 (← slice rest 0 stop))
  return (s, ← usize (offset + stop + 1))

def readCstring (buf : Bytes) (offset : Nat) : Parse Text := do
  return (← readCstringWithPos buf offset).1

def readBytes (text : String) (width : Nat) (buf : Bytes) (offset : Nat) : Parse Bytes := do
  let stop ← usize (offset + width)
  orError text (if stop ≤ buf.length then some ((buf.drop offset).take width) else none)

def readU16Be (buf : Bytes) (offset : Nat) : Parse Nat := do
  return fromBe (← readBytes "read u16" 2 buf offset)

def readU32Be (buf : Bytes) (offset : Nat) : Parse Nat := do
  return fromBe (← readBytes "read u32" 4 buf offset)

def readI32Be (buf : Bytes) (offset : Nat) : Parse Int := do
  return fromBeSigned (← readBytes "read i32" 4 buf offset)

/-- The loop of Parse over the types of its parameters. -/
def readParamTypes (payload : Bytes) : Nat → Nat → Parse (List Nat)
  | 0, _ => return []
  | count + 1, p => do
    let type ← readU32Be payload p
    return type :: (← readParamTypes payload count (← usize (p + 4)))

/-- The loop of Bind over its parameters; one of negative length is `NULL`. -/
def readParams (payload : Bytes) : Nat → Nat → Parse (List Bytes)
  | 0, _ => return []
  | count + 1, p => do
    let len ← readI32Be payload p
    let p ← usize (p + 4)
    if len < 0 then
      return [] :: (← readParams payload count p)
    else
      let stop ← usize (p + len.toNat)
      let param ← slice payload p stop
      return param :: (← readParams payload count stop)

/-- What Describe and Close name. -/
def readTarget (what : String) : Bytes → Parse (UInt8 × Text)
  | [] => .error (.error [what ++ ": empty payload"])
  | kind :: rest => do
    return (kind, ← context (what ++ " name") (readCstring (kind :: rest) 1))

def hexDigit (n : Nat) : Char := (Nat.digitChar n).toUpper

def parseFrontendMessage (msgType : UInt8) (payload : Bytes) : Parse Message := do
  match Char.ofUInt8 msgType with
  | 'Q' => return .query (← context "Query string" (readCstring payload 0))
  | 'P' => do
    let (name, pos) ← readCstringWithPos payload 0
    let (query, pos) ← readCstringWithPos payload pos
    let count ← readU16Be payload pos
    return .parse name query (← readParamTypes payload count (← usize (pos + 2)))
  | 'B' => do
    let (portal, pos) ← readCstringWithPos payload 0
    let (statement, pos) ← readCstringWithPos payload pos
    let fmtCount ← readU16Be payload pos
    let p ← usize (pos + 2 + fmtCount * 2)
    let paramCount ← readU16Be payload p
    return .bind portal statement (← readParams payload paramCount (← usize (p + 2)))
  | 'E' => do
    let (portal, pos) ← readCstringWithPos payload 0
    return .execute portal (← readI32Be payload pos)
  | 'D' => do
    let (kind, name) ← readTarget "Describe" payload
    return .describe kind name
  | 'S' => return .sync
  | 'H' => return .flush
  | 'C' => do
    let (kind, name) ← readTarget "Close" payload
    return .close kind name
  | 'X' => return .terminate
  | 'd' => return .copyData payload
  | 'c' => return .copyDone
  | 'f' => return .copyFail (← context "CopyFail message" (readCstring payload 0))
  | 'p' => return .passwordMessage payload
  | _ => .error (.error ["unknown frontend message type: 0x"
      ++ String.ofList [hexDigit (msgType.toNat / 16), hexDigit (msgType.toNat % 16)]])

/-! ## Reading -/

/-- What the reads of a stream give, one after the other; it ends with the list, or
with a read that gives nothing. -/
abbrev Reads := List Bytes

/-- `read_exact`: what a read gives beyond the bytes asked for is there for the next. -/
def readExact : Nat → Reads → Option (Bytes × Reads)
  | 0, reads => some ([], reads)
  | n + 1, (b :: bs) :: reads =>
      (readExact n (if bs = [] then reads else bs :: reads)).map fun (out, rest) => (b :: out, rest)
  | _ + 1, _ => none

abbrev Frame := Message × Bytes

def readFrontendFrame (reads : Reads) : Parse (Frame × Reads) := do
  let (first, reads) ← orError "read message type" (readExact 1 reads)
  let msgType := first.headD 0
  let (field, reads) ← orError "read message length" (readExact 4 reads)
  let length := fromBe field
  if length < 4 then
    .error (.error [s!"message length {length} too small"])
  else do
    let (payload, reads) ← orError "read message payload" (readExact (length - 4) reads)
    let msg ← parseFrontendMessage msgType payload
    return ((msg, msgType :: (be32 length ++ payload)), reads)

/-- Successful calls, one after the other. -/
inductive Calls : Reads → List Frame → Reads → Prop
  | nil (reads : Reads) : Calls reads [] reads
  | cons {reads reads' rest : Reads} {f : Frame} {fs : List Frame}
      (hcall : readFrontendFrame reads = .ok (f, reads')) (hcalls : Calls reads' fs rest) :
      Calls reads (f :: fs) rest

/-- The bytes are one frame, whose length field counts all of it but the type, and the
message is the parse of its payload. -/
def Frame.Exact (f : Frame) : Prop :=
  ∃ msgType field payload, f.2 = msgType :: (field ++ payload) ∧ field.length = 4
    ∧ fromBe field + 1 = f.2.length ∧ parseFrontendMessage msgType payload = .ok f.1

variable {n : Nat} {reads rest : Reads} {out field : Bytes} {text : String} {o : Option α} {a : α}
  {x : Parse α}

theorem readExact_spec (h : readExact n reads = some (out, rest)) :
    out.length = n ∧ reads.flatten = out ++ rest.flatten := by
  induction n generalizing reads out with
  | zero =>
    cases h
    exact ⟨rfl, rfl⟩
  | succ _ ih =>
    match reads, h with
    | (b :: bs) :: reads, h =>
      obtain ⟨⟨_, _⟩, hread, heq⟩ := Option.map_eq_some_iff.mp h
      cases heq
      obtain ⟨hlength, hflat⟩ := ih hread
      refine ⟨congrArg (· + 1) hlength, ?_⟩
      rw [flatten_cons, cons_append, cons_append, ← hflat]
      split_ifs with hbs <;> simp [hbs]

theorem be32_fromBe (h : field.length = 4) : be32 (fromBe field) = field := by
  obtain ⟨a, b, c, d, rfl⟩ := length_eq_four.mp h
  have ha := a.toNat_lt
  have hb := b.toNat_lt
  have hc := c.toNat_lt
  have hd := d.toNat_lt
  simp only [be32, fromBe, foldl_cons, foldl_nil, List.cons.injEq, and_true]
  refine ⟨?_, ?_, ?_, ?_⟩ <;> apply UInt8.toNat_inj.mp <;> simp <;> omega

theorem orError_eq_ok : orError text o = .ok a ↔ o = some a := by
  cases o <;> simp [orError]

/-- What a call takes off the stream is one frame. -/
theorem isFrame_of_call {f : Frame} (h : readFrontendFrame reads = .ok (f, rest)) :
    reads.flatten = f.2 ++ rest.flatten ∧ f.Exact := by
  obtain ⟨⟨_, _⟩, hfirst, h⟩ := bind_eq_ok.mp h
  obtain ⟨⟨field, _⟩, hfield, h⟩ := bind_eq_ok.mp h
  obtain ⟨hone, hflat⟩ := readExact_spec (orError_eq_ok.mp hfirst)
  obtain ⟨hfour, hflat₁⟩ := readExact_spec (orError_eq_ok.mp hfield)
  obtain ⟨msgType, rfl⟩ := length_eq_one_iff.mp hone
  dsimp only at h
  split_ifs at h with hlength
  obtain ⟨⟨payload, _⟩, hpayload, h⟩ := bind_eq_ok.mp h
  obtain ⟨_, hflat₂⟩ := readExact_spec (orError_eq_ok.mp hpayload)
  obtain ⟨_, hmsg, h⟩ := bind_eq_ok.mp h
  cases h
  rw [be32_fromBe hfour]
  refine ⟨?_, msgType, field, payload, rfl, hfour, ?_, hmsg⟩
  · rw [hflat, hflat₁, hflat₂]
    simp
  · simp only [length_cons, length_append]
    omega

/-- For every chunking of a stream, calls take it apart into frames, each whole and with
the message of its payload. -/
theorem frames_exact {frames : List Frame} (h : Calls reads frames rest) :
    reads.flatten = (frames.map Prod.snd).flatten ++ rest.flatten ∧ ∀ f ∈ frames, f.Exact := by
  induction h with
  | nil => exact ⟨rfl, nofun⟩
  | cons hcall _ ih =>
    obtain ⟨hflat, hframe⟩ := isFrame_of_call hcall
    refine ⟨?_, forall_mem_cons.mpr ⟨hframe, ih.2⟩⟩
    rw [hflat, ih.1, map_cons, flatten_cons, append_assoc]

/-- A Query and a CopyData, which begins in the read that ends the Query, and the type of a
third message. -/
theorem frames_exact_twoReads :
    ([[81, 0], [0, 0, 6, 65, 0, 100, 0], [0, 0, 5, 66, 83]] : Reads).flatten
        = [81, 0, 0, 0, 6, 65, 0] ++ [100, 0, 0, 0, 5, 66] ++ [83]
      ∧ Frame.Exact (.query ['A'], [81, 0, 0, 0, 6, 65, 0])
      ∧ Frame.Exact (.copyData [66], [100, 0, 0, 0, 5, 66]) := by
  have hquery : readFrontendFrame [[81, 0], [0, 0, 6, 65, 0, 100, 0], [0, 0, 5, 66, 83]]
      = .ok ((.query ['A'], [81, 0, 0, 0, 6, 65, 0]), [[100, 0], [0, 0, 5, 66, 83]]) := by
    decide +kernel
  have hdata : readFrontendFrame [[100, 0], [0, 0, 5, 66, 83]]
      = .ok ((.copyData [66], [100, 0, 0, 0, 5, 66]), [[83]]) := by decide +kernel
  obtain ⟨hflat, hexact⟩ := frames_exact (.cons hquery (.cons hdata (.nil _)))
  exact ⟨hflat, hexact _ mem_cons_self, hexact _ (mem_cons_of_mem _ mem_cons_self)⟩

/-! ## Panics -/

/-- No panic, and a result with the property. -/
def Safe (x : Parse α) (P : α → Prop) : Prop := x ≠ .error .panic ∧ ∀ a, x = .ok a → P a

theorem Safe.ok (h : P a) : Safe (pure a) P := ⟨nofun, fun _ ha => Except.ok.inj ha ▸ h⟩

theorem Safe.bind {f : α → Parse β} {R : β → Prop} (hx : Safe x P)
    (hf : ∀ a, P a → Safe (f a) R) : Safe (x >>= f) R := by
  cases x with
  | error => exact ⟨fun h => hx.1 (congrArg Except.error (Except.error.inj h)), nofun⟩
  | ok a => exact hf a (hx.2 a rfl)

theorem Safe.context (hx : Safe x P) : Safe (context text x) P := by
  match x with
  | .error (.error contexts) => exact ⟨nofun, nofun⟩
  | .error .panic => exact absurd rfl hx.1
  | .ok a => exact hx

theorem safe_orError : Safe (orError text o) (o = some ·) :=
  ⟨by cases o <;> nofun, fun _ => orError_eq_ok.mp⟩

theorem usize_eq (h : n < 2 ^ 64) : usize n = .ok n := if_pos h

theorem slice_eq {lo hi : Nat} (h : lo ≤ hi ∧ hi ≤ payload.length) :
    slice payload lo hi = .ok ((payload.take hi).drop lo) := if_pos h

theorem safe_usize (h : n < 2 ^ 64) : Safe (usize n) (· = n) := by
  rw [usize_eq h]
  exact .ok rfl

theorem safe_slice {lo hi : Nat} (h : lo ≤ hi ∧ hi ≤ payload.length) :
    Safe (slice payload lo hi) (· = (payload.take hi).drop lo) := by
  rw [slice_eq h]
  exact .ok rfl

/-- A parameter has a length that goes past the end. -/
def overruns : Nat → Bytes → Bool
  | 0, _ => false
  | count + 1, rest =>
    let len := fromBeSigned (rest.take 4)
    4 ≤ rest.length && if len < 0 then overruns count (rest.drop 4)
      else rest.length < 4 + len.toNat || overruns count (rest.drop (4 + len.toNat))

def IsName (bs : Bytes) : Prop := 0 ∉ bs ∧ (fromUtf8 bs).isSome

/-- A Bind up to its parameters: the portal and the statement, the format codes, and how
many parameters there are in the rest. -/
def BindHead (payload : Bytes) (count : Nat) (rest : Bytes) : Prop :=
  ∃ portal statement formats codes number, IsName portal ∧ IsName statement
    ∧ payload = portal ++ 0 :: (statement ++ 0 :: (formats ++ (codes ++ (number ++ rest))))
    ∧ formats.length = 2 ∧ codes.length = fromBe formats * 2
    ∧ number.length = 2 ∧ fromBe number = count

/-- A slice of Rust is at most `isize::MAX` long. -/
abbrev Slice := { bs : Bytes // bs.length < 2 ^ 63 }

section Safety

variable {offset count p width : Nat}

theorem safe_readBytes (h : offset + width < 2 ^ 64) :
    Safe (readBytes text width payload offset) fun bs => offset + width ≤ payload.length
      ∧ bs = (payload.drop offset).take width := by
  refine (safe_usize h).bind ?_
  rintro _ rfl
  refine ⟨safe_orError.1, fun bs hbs => ?_⟩
  obtain ⟨hle, hsome⟩ := Option.ite_none_right_eq_some.mp (orError_eq_ok.mp hbs)
  exact ⟨hle, (Option.some.inj hsome).symm⟩

theorem safe_readU16Be (h : offset + 2 < 2 ^ 64) :
    Safe (readU16Be payload offset) fun value => offset + 2 ≤ payload.length ∧ value < 65536
      ∧ value = fromBe ((payload.drop offset).take 2) := by
  refine (safe_readBytes h).bind ?_
  rintro _ ⟨hle, rfl⟩
  have htwo : ((payload.drop offset).take 2).length = 2 := by
    rw [length_take, length_drop]
    omega
  obtain ⟨a, b, hab⟩ := length_eq_two.mp htwo
  have ha := a.toNat_lt
  have hb := b.toNat_lt
  refine .ok ⟨hle, ?_, rfl⟩
  simp only [hab, fromBe, foldl_cons, foldl_nil]
  omega

theorem safe_readI32Be (h : offset + 4 < 2 ^ 64) :
    Safe (readI32Be payload offset) fun value => offset + 4 ≤ payload.length ∧ value < 2147483648
      ∧ value = fromBeSigned ((payload.drop offset).take 4) := by
  refine (safe_readBytes h).bind ?_
  rintro _ ⟨hle, rfl⟩
  exact .ok ⟨hle, Int.bmod_lt (by decide), rfl⟩

variable (hlen : payload.length < 2 ^ 63)

include hlen

theorem safe_readCstringWithPos (h : offset ≤ payload.length) :
    Safe (readCstringWithPos payload offset) fun r => r.2 ≤ payload.length
      ∧ ∃ s, IsName s ∧ payload.drop offset = s ++ 0 :: payload.drop r.2 := by
  refine (safe_slice ⟨h, Nat.le_refl _⟩).bind ?_
  rintro _ rfl
  rw [take_length]
  refine safe_orError.bind fun stop hstop => ?_
  obtain ⟨hlt, hzero, hbefore⟩ := findIdx?_eq_some_iff_getElem.mp hstop
  have hend : offset + stop + 1 ≤ payload.length := by
    rw [length_drop] at hlt
    omega
  refine (safe_slice ⟨Nat.zero_le _, Nat.le_of_lt hlt⟩).bind ?_
  rintro _ rfl
  refine safe_orError.bind fun s hs => (safe_usize (by omega)).bind ?_
  rintro _ rfl
  have hname : (fromUtf8 ((payload.drop offset).take stop)).isSome := Option.isSome_of_eq_some hs
  refine .ok ⟨hend, (payload.drop offset).take stop, ⟨fun hmem => ?_, hname⟩, ?_⟩
  · obtain ⟨j, _, heq⟩ := mem_take_iff_getElem.mp hmem
    exact hbefore j (by omega) (by simp [heq])
  · have hsplit := take_append_drop stop (payload.drop offset)
    rw [drop_eq_getElem_cons hlt, eq_of_beq hzero, drop_drop] at hsplit
    exact hsplit.symm

theorem safe_readParamTypes (hp : p ≤ payload.length) :
    Safe (readParamTypes payload count p) fun _ => True := by
  induction count generalizing p with
  | zero => exact .ok trivial
  | succ _ ih =>
    have hread : Safe (readU32Be payload p) fun _ => p + 4 ≤ payload.length :=
      (safe_readBytes (by omega)).bind fun bs hbs => .ok hbs.1
    refine hread.bind fun type hle => (safe_usize (by omega)).bind ?_
    rintro _ rfl
    exact (ih hle).bind fun types _ => .ok trivial

/-- The loop stays within the payload as long as the parameters do. -/
theorem safe_readParams (hp : p ≤ payload.length)
    (hfits : overruns count (payload.drop p) = false) :
    Safe (readParams payload count p) fun params => params.length = count
      ∧ ∀ param ∈ params, param <:+: payload := by
  induction count generalizing p with
  | zero => exact .ok ⟨rfl, nofun⟩
  | succ _ ih =>
    refine (safe_readI32Be (by omega)).bind ?_
    rintro _ ⟨hle, _, hvalue⟩
    have hfour : 4 ≤ (payload.drop p).length := by
      rw [length_drop]
      omega
    rw [overruns, ← hvalue, decide_eq_true hfour, Bool.true_and] at hfits
    refine (safe_usize (by omega)).bind ?_
    rintro _ rfl
    split_ifs with hneg
    · rw [if_pos hneg, drop_drop] at hfits
      refine (ih hle hfits).bind ?_
      rintro params ⟨hlength, hparams⟩
      refine .ok ⟨congrArg (· + 1) hlength, ?_⟩
      exact forall_mem_cons.mpr ⟨List.nil_infix, hparams⟩
    · rw [if_neg hneg, Bool.or_eq_false_iff, decide_eq_false_iff_not, length_drop,
        drop_drop, ← Nat.add_assoc] at hfits
      obtain ⟨_, hfits⟩ := hfits
      refine (safe_usize (by omega)).bind ?_
      rintro _ rfl
      refine (safe_slice ⟨Nat.le_add_right _ _, by omega⟩).bind ?_
      rintro _ rfl
      refine (ih (by omega) hfits).bind ?_
      rintro _ ⟨hlength, hparams⟩
      refine .ok ⟨congrArg (· + 1) hlength, forall_mem_cons.mpr ⟨?_, hparams⟩⟩
      exact ((drop_suffix _ _).isInfix).trans (List.take_prefix _ _).isInfix

/-- What is kept of a Bind are its parameters, all of them. -/
def Message.Params (payload : Bytes) (m : Message) : Prop :=
  ∀ portal statement params, m = .bind portal statement params →
    ∃ count rest, BindHead payload count rest ∧ params.length = count
      ∧ ∀ param ∈ params, param <:+: payload

theorem safe_bind {msgType : UInt8} (htype : Char.ofUInt8 msgType = 'B')
    (hfits : ∀ count rest, BindHead payload count rest → overruns count rest = false) :
    Safe (parseFrontendMessage msgType payload) (Message.Params payload) := by
  have hsplit (i k : Nat) : payload.drop i = (payload.drop i).take k ++ payload.drop (i + k) := by
    rw [← drop_drop, take_append_drop]
  rw [parseFrontendMessage, htype]
  refine (safe_readCstringWithPos hlen (Nat.zero_le _)).bind ?_
  rintro ⟨_, _⟩ ⟨hpos, s, hs, hportal⟩
  refine (safe_readCstringWithPos hlen hpos).bind ?_
  rintro ⟨_, pos₁⟩ ⟨_, s₁, hs₁, hstatement⟩
  refine (safe_readU16Be (by omega)).bind ?_
  rintro fmtCount ⟨_, _, hcount⟩
  refine (safe_usize (by omega)).bind ?_
  rintro p rfl
  refine (safe_readU16Be (by omega)).bind ?_
  rintro paramCount ⟨hle₁, -, hparamCount⟩
  refine (safe_usize (by omega)).bind ?_
  rintro p rfl
  have hhead : BindHead payload paramCount (payload.drop (pos₁ + 2 + fmtCount * 2 + 2)) := by
    refine ⟨s, s₁, (payload.drop pos₁).take 2, (payload.drop (pos₁ + 2)).take (fmtCount * 2),
      (payload.drop (pos₁ + 2 + fmtCount * 2)).take 2, hs, hs₁, ?_, ?_, ?_, ?_, hparamCount.symm⟩
    · rw [← hsplit, ← hsplit, ← hsplit, ← hstatement, ← hportal, drop_zero]
    · rw [length_take, length_drop]
      omega
    · rw [length_take, length_drop, ← hcount]
      omega
    · rw [length_take, length_drop]
      omega
  refine (safe_readParams hlen hle₁ (hfits _ _ hhead)).bind fun params hparams => .ok ?_
  intro _ _ _ heq
  cases heq
  exact ⟨_, _, hhead, hparams⟩

theorem safe_readTarget (what : String) : Safe (readTarget what payload) fun _ => True := by
  cases payload with
  | nil => exact ⟨nofun, nofun⟩
  | cons kind rest =>
    have hread : Safe (readCstring (kind :: rest) 1) fun _ => True :=
      (safe_readCstringWithPos hlen (Nat.le_add_left 1 _)).bind fun _ _ => .ok trivial
    exact hread.context.bind fun _ _ => .ok trivial

end Safety

/-- Whatever the type and the payload, parsing does not panic and keeps all parameters
of a Bind, unless one of these has a length that goes past the payload. -/
theorem safe_parse {msgType : UInt8} (hlen : payload.length < 2 ^ 63)
    (hfits : Char.ofUInt8 msgType = 'B' →
      ∀ count rest, BindHead payload count rest → overruns count rest = false) :
    Safe (parseFrontendMessage msgType payload) (Message.Params payload) := by
  have hread : Safe (readCstring payload 0) fun _ => True :=
    (safe_readCstringWithPos hlen (Nat.zero_le _)).bind fun _ _ => .ok trivial
  by_cases htype : Char.ofUInt8 msgType = 'B'
  · exact safe_bind hlen htype (hfits htype)
  · have hother {m : Message} (hm : ∀ portal statement params, m ≠ .bind portal statement params) :
        Safe (pure m) (Message.Params payload) := .ok fun _ _ _ h => absurd h (hm _ _ _)
    unfold parseFrontendMessage
    split
    case h_1 | h_12 => exact hread.context.bind fun _ _ => hother nofun
    case h_2 =>
      refine (safe_readCstringWithPos hlen (Nat.zero_le _)).bind ?_
      rintro ⟨_, pos⟩ ⟨hpos, -⟩
      refine (safe_readCstringWithPos hlen hpos).bind ?_
      rintro ⟨_, _⟩ ⟨_, -⟩
      refine (safe_readU16Be (by omega)).bind fun count hcount => (safe_usize (by omega)).bind ?_
      rintro p rfl
      exact (safe_readParamTypes hlen hcount.1).bind fun _ _ => hother nofun
    case h_3 => contradiction
    case h_4 =>
      refine (safe_readCstringWithPos hlen (Nat.zero_le _)).bind ?_
      rintro ⟨_, _⟩ ⟨_, -⟩
      exact (safe_readI32Be (by omega)).bind fun _ _ => hother nofun
    case h_5 | h_8 => exact (safe_readTarget hlen _).bind fun _ _ => hother nofun
    case h_14 => exact ⟨nofun, nofun⟩
    all_goals exact hother nofun

/-! ## The panic -/

section Panic

variable {offset p count : Nat} {s rest' : Bytes} {t : Text}

theorem drop_add_of_drop (h : payload.drop offset = s ++ rest') :
    payload.drop (offset + s.length) = rest' := by
  rw [← drop_drop, h, drop_left]

theorem drop_succ_of_drop (h : payload.drop offset = s ++ 0 :: rest') :
    payload.drop (offset + s.length + 1) = rest' := by
  rw [← drop_drop, drop_add_of_drop h, drop_one, tail_cons]

variable (hlen : payload.length < 2 ^ 63)

include hlen

theorem readBytes_of_drop {width : Nat} (h : payload.drop offset = s ++ rest')
    (hs : s.length = width) (hwidth : 0 < width) :
    readBytes text width payload offset = .ok s := by
  have hle := congrArg length h
  simp only [length_drop, length_append, hs] at hle
  rw [readBytes, bind_of_ok (usize_eq (by omega)), if_pos (by omega), h, ← hs, take_left]
  rfl

theorem readU16Be_of_drop (h : payload.drop offset = s ++ rest') (hs : s.length = 2) :
    readU16Be payload offset = .ok (fromBe s) := by
  rw [readU16Be, bind_of_ok (readBytes_of_drop hlen h hs (by decide))]
  rfl

theorem readCstringWithPos_of_drop (h : payload.drop offset = s ++ 0 :: rest') (hs : 0 ∉ s)
    (ht : fromUtf8 s = some t) :
    readCstringWithPos payload offset = .ok (t, offset + s.length + 1) := by
  have hle := congrArg length h
  simp only [length_drop, length_append, length_cons] at hle
  have hrest : slice payload offset payload.length = .ok (s ++ 0 :: rest') := by
    rw [slice_eq (by omega), take_length, h]
  have hstop : (s ++ 0 :: rest').findIdx? (· == 0) = some s.length :=
    findIdx?_append_zero (fun x hx hzero => hs (hzero ▸ hx)) _
  have hname : slice (s ++ 0 :: rest') 0 s.length = .ok s := by
    rw [slice_eq (by simp), take_left, drop_zero]
  rw [readCstringWithPos, bind_of_ok hrest, bind_of_ok (orError_eq_ok.mpr hstop),
    bind_of_ok hname, bind_of_ok (orError_eq_ok.mpr ht), bind_of_ok (usize_eq (by omega))]
  rfl

theorem readParams_panics (hp : p ≤ payload.length) (h : overruns count (payload.drop p)) :
    readParams payload count p = .error .panic := by
  induction count generalizing p with
  | zero => cases h
  | succ _ ih =>
    rw [overruns, Bool.and_eq_true, decide_eq_true_eq, length_drop] at h
    obtain ⟨hfour, h⟩ := h
    have hread : readI32Be payload p = .ok (fromBeSigned ((payload.drop p).take 4)) := by
      rw [readI32Be, bind_of_ok (readBytes_of_drop hlen (take_append_drop 4 _).symm ?_ ?_)]
      · rfl
      · rw [length_take, length_drop]
        omega
      · decide
    have hlt : fromBeSigned ((payload.drop p).take 4) < 2147483648 := Int.bmod_lt (by decide)
    rw [readParams, bind_of_ok hread, bind_of_ok (usize_eq (by omega))]
    generalize fromBeSigned ((payload.drop p).take 4) = len at h hlt
    split_ifs at h ⊢ with hneg
    · rw [drop_drop] at h
      rw [ih (by omega) h]
      rfl
    · rw [bind_of_ok (usize_eq (by omega))]
      by_cases hstop : p + 4 + len.toNat ≤ payload.length
      · rw [decide_eq_false (by omega), Bool.false_or, drop_drop, ← Nat.add_assoc] at h
        rw [bind_of_ok (slice_eq (by omega)), ih hstop h]
        rfl
      · rw [slice, if_neg (by omega)]
        rfl

theorem parse_panics {msgType : UInt8} {rest : Bytes} (htype : Char.ofUInt8 msgType = 'B')
    (hhead : BindHead payload count rest) (h : overruns count rest) :
    parseFrontendMessage msgType payload = .error .panic := by
  obtain ⟨portal, statement, formats, codes, number, ⟨hportal, hutf8⟩, ⟨hstatement, hutf8'⟩, heq,
    hformats, hcodes, hnumber, rfl⟩ := hhead
  obtain ⟨portalText, hportalText⟩ := Option.isSome_iff_exists.mp hutf8
  obtain ⟨statementText, hstatementText⟩ := Option.isSome_iff_exists.mp hutf8'
  have hle := congrArg length heq
  simp only [length_append, length_cons] at hle
  have hfirst : payload.drop 0 = _ := heq
  have hsecond := drop_succ_of_drop hfirst
  have hthird := drop_succ_of_drop hsecond
  have hfourth := drop_add_of_drop hthird
  have hfifth := drop_add_of_drop hfourth
  have hsixth := drop_add_of_drop hfifth
  rw [hformats, hcodes] at hfifth
  rw [hformats, hcodes, hnumber] at hsixth
  rw [parseFrontendMessage, htype]
  refine (bind_of_ok (readCstringWithPos_of_drop hlen hfirst hportal hportalText)).trans ?_
  refine (bind_of_ok (readCstringWithPos_of_drop hlen hsecond hstatement hstatementText)).trans ?_
  refine (bind_of_ok (readU16Be_of_drop hlen hthird hformats)).trans ?_
  refine (bind_of_ok (usize_eq (by omega))).trans ?_
  refine (bind_of_ok (readU16Be_of_drop hlen hfifth hnumber)).trans ?_
  rw [bind_of_ok (usize_eq (by omega)), readParams_panics hlen (by omega) (hsixth ▸ h)]
  rfl

end Panic

/-- Whatever the type and the payload, parsing panics exactly at a Bind with a parameter
whose length goes past the payload, and keeps all parameters of every other Bind. -/
theorem parse_panics_iff (msgType : UInt8) (payload : Slice) :
    (parseFrontendMessage msgType payload.1 = .error .panic ↔ Char.ofUInt8 msgType = 'B'
        ∧ ∃ count rest, BindHead payload.1 count rest ∧ overruns count rest = true)
      ∧ ∀ m, parseFrontendMessage msgType payload.1 = .ok m → m.Params payload.1 := by
  obtain ⟨payload, hlen⟩ := payload
  by_cases hover : Char.ofUInt8 msgType = 'B'
      ∧ ∃ count rest, BindHead payload count rest ∧ overruns count rest = true
  · obtain ⟨htype, count, rest, hhead, h⟩ := hover
    have hpanic := parse_panics hlen htype hhead h
    exact ⟨iff_of_true hpanic ⟨htype, count, rest, hhead, h⟩,
      fun m hm => absurd (hm.symm.trans hpanic) nofun⟩
  · have hfits : Char.ofUInt8 msgType = 'B' → ∀ count rest, BindHead payload count rest →
        overruns count rest = false := fun htype count rest hhead =>
      eq_false_of_ne_true fun h => hover ⟨htype, count, rest, hhead, h⟩
    have hsafe := safe_parse hlen hfits
    exact ⟨iff_of_false hsafe.1 hover, hsafe.2⟩

/-- A Bind with one parameter that is said to be a byte longer than the payload. -/
theorem bind_panics : parseFrontendMessage 66 [0, 0, 0, 0, 0, 1, 0, 0, 0, 1] = .error .panic := by
  decide

end PgCluster.Frontend
