import Mathlib.Logic.Function.Iterate
import PgCluster.Base64
import PgCluster.Texts

/-!
# SCRAM on both sides of the proxy

`proxy/scram.rs`. The proxy is the SCRAM server to its client, with the
verifier Postgres stores for the role, and from the client's proof it gets the
key that lets it be the SCRAM client to a backend. HMAC and SHA-256 are any
two functions.

A peer is what it sends next, given how many messages it has sent and what it
has been sent. It may be anything; nothing here assumes that it follows the
protocol.
-/

namespace PgCluster.Scram

open Text Option

/-! ## Keys -/

abbrev Key := Vector UInt8 32

structure Crypto where
  hmac : List UInt8 → List UInt8 → Key
  sha256 : List UInt8 → Key

def xor (a b : Key) : Key := Vector.zipWith (· ^^^ ·) a b

/-- Constant time: every byte is looked at. -/
def keysEqual (a b : Key) : Bool :=
  (a.toList.zip b.toList).foldl (fun d (x, y) => d ||| (x ^^^ y)) 0 == 0

/-! Two keys are equal when no byte differs, and taking a key off again leaves
the other. -/

variable {α ε β : Type} {message : String}

theorem foldl_or_eq_zero (f : α → UInt8) (l : List α) (d : UInt8) :
    l.foldl (fun d a => d ||| f a) d = 0 ↔ d = 0 ∧ ∀ a ∈ l, f a = 0 := by
  induction l generalizing d with
  | nil => simp
  | cons _ _ ih => rw [List.foldl_cons, ih, UInt8.or_eq_zero_iff, List.forall_mem_cons, and_assoc]

theorem eq_of_forall_mem_zip {a b : List α} (hlength : a.length = b.length)
    (h : ∀ p ∈ a.zip b, p.1 = p.2) : a = b := by
  induction a generalizing b with
  | nil => exact (List.length_eq_zero_iff.mp hlength.symm).symm
  | cons x _ ih =>
    cases b with
    | nil => cases hlength
    | cons y =>
      rw [List.zip_cons_cons, List.forall_mem_cons] at h
      obtain ⟨hhead, htail⟩ := h
      rw [show x = y from hhead, ih (Nat.succ.inj hlength) htail]

theorem keysEqual_iff (a b : Key) : keysEqual a b ↔ a = b := by
  rw [keysEqual, beq_iff_eq, foldl_or_eq_zero fun p : UInt8 × UInt8 => p.1 ^^^ p.2]
  constructor
  · rintro ⟨-, h⟩
    have hlists : a.toList = b.toList := by
      refine eq_of_forall_mem_zip (by simp) fun p hp => ?_
      exact UInt8.xor_eq_zero_iff.mp (h p hp)
    exact Vector.toList_inj.mp hlists
  · rintro rfl
    refine ⟨rfl, fun p hp => ?_⟩
    rw [UInt8.xor_eq_zero_iff]
    obtain ⟨i, _, rfl⟩ := List.mem_iff_getElem.mp hp
    simp

theorem xor_xor_cancel (a b : Key) : xor (xor a b) b = a := by
  ext i hi
  simp only [xor, Vector.getElem_zipWith, UInt8.xor_assoc, UInt8.xor_self, UInt8.xor_zero]

def orFail {α : Type} (message : String) : Option α → Except String α
  | some a => .ok a
  | none => .error message

def ensure (p : Prop) [Decidable p] (message : String) : Except String Unit :=
  if p then .ok () else .error message

theorem ensure_eq_ok {p : Prop} [Decidable p] {u : Unit} : ensure p message = .ok u ↔ p := by
  unfold ensure
  split <;> simp [*]

theorem orFail_eq_ok {o : Option α} {a : α} : orFail message o = .ok a ↔ o = some a := by
  cases o <;> simp [orFail]

theorem bind_eq_ok {x : Except ε α} {f : α → Except ε β} {b : β} :
    (x >>= f) = .ok b ↔ ∃ a, x = .ok a ∧ f a = .ok b := by
  cases x with
  | error => exact ⟨nofun, nofun⟩
  | ok a => exact ⟨fun h => ⟨a, rfl, h⟩, fun ⟨_, ha, h⟩ => Except.ok.inj ha ▸ h⟩

theorem bind_of_some {o : Option α} {f : α → Option β} {a : α} (h : o = some a) :
    (o >>= f) = f a := by
  rw [h]
  rfl

theorem bind_of_ok {x : Except ε α} {f : α → Except ε β} {a : α} (h : x = .ok a) :
    (x >>= f) = f a := by
  rw [h]
  rfl

def keyFromBase64 (t : Text) : Except String Key := do
  let bytes ← orFail "decode key" (Base64.decode t)
  if h : bytes.length = 32 then return ⟨bytes.toArray, h⟩
  else throw "a SCRAM key must be 32 bytes"

/-! ## Verifiers -/

structure Verifier where
  iterations : Nat
  salt : List UInt8
  storedKey : Key
  serverKey : Key
deriving DecidableEq

/-- One more than the largest `u32`. -/
def u32Bound : Nat := 4294967296

section

variable (crypto : Crypto)

/-- One turn of the loop: the next `u`, and `out` with it. -/
def saltedTurn (password : Text) (acc : Key × Key) : Key × Key :=
  let u := crypto.hmac (utf8 password) acc.1.toList
  (u, xor acc.2 u)

def saltedPassword (password : Text) (salt : List UInt8) (iterations : Nat) : Key :=
  let u := crypto.hmac (utf8 password) (salt ++ [0, 0, 0, 1])
  (Nat.iterate (saltedTurn crypto password) (iterations - 1) (u, u)).2

def makeVerifier (password : Text) (salt : List UInt8) (iterations : Nat) : Text :=
  let salted := saltedPassword crypto password salt iterations
  let storedKey := crypto.sha256 (crypto.hmac salted.toList (utf8 "Client Key".toList)).toList
  let serverKey := crypto.hmac salted.toList (utf8 "Server Key".toList)
  "SCRAM-SHA-256$".toList ++ (decimal iterations ++ ':' :: (Base64.encode salt
    ++ '$' :: (Base64.encode storedKey.toList ++ ':' :: Base64.encode serverKey.toList)))

end

def Verifier.parse (stored : Text) : Option Verifier := do
  let rest ← strip "SCRAM-SHA-256$".toList stored
  let (params, keys) ← splitOnce '$' rest
  let (iterations, salt) ← splitOnce ':' params
  let (storedKey, serverKey) ← splitOnce ':' keys
  return {
    iterations := ← parseBelow u32Bound iterations
    salt := ← Base64.decode salt
    storedKey := ← (keyFromBase64 storedKey).toOption
    serverKey := ← (keyFromBase64 serverKey).toOption }

structure Credentials where
  clientKey : Key
  verifier : Verifier
deriving DecidableEq

/-! ## Frames -/

structure Frame where
  kind : UInt8
  body : List UInt8
deriving DecidableEq

abbrev Peer := Nat → List Frame → Option Frame

def maxFrame : Nat := 1024 * 1024

/-- The message fits what `read_frame` takes. -/
def Frame.fits (frame : Frame) : Bool := decide (frame.body.length + 4 ≤ maxFrame)

/-- `read_frame`: the peer's next message, or why there is none. -/
def readFrame (peer : Peer) (count : Nat) (sent : List Frame) : Except String Frame :=
  match peer count sent with
  | none => .error "read message type"
  | some frame =>
    if frame.fits then .ok frame
    else .error s!"bad message length {frame.body.length + 4}"

theorem readFrame_eq_ok {peer : Peer} {count : Nat} {sent : List Frame} {frame : Frame} :
    readFrame peer count sent = .ok frame ↔ peer count sent = some frame ∧ frame.fits := by
  unfold readFrame
  cases peer count sent with
  | none => simp
  | some f =>
    by_cases hfits : f.fits
    · simp only [hfits, if_true, Except.ok.injEq, Option.some.injEq]
      exact ⟨fun h => ⟨h, h ▸ hfits⟩, fun h => h.1⟩
    · simp only [hfits, Option.some.injEq]
      exact ⟨nofun, fun h => absurd (h.1 ▸ h.2) hfits⟩

/-- The four bytes of a number, largest first. -/
def be32 (n : Nat) : List UInt8 :=
  [.ofNat (n / 16777216), .ofNat (n / 65536), .ofNat (n / 256), .ofNat n]

def encodeFrame (frame : Frame) : List UInt8 :=
  frame.kind :: (be32 (frame.body.length + 4) ++ frame.body)

def authOk : List UInt8 := be32 0
def authSasl : List UInt8 := be32 10
def authSaslContinue : List UInt8 := be32 11
def authSaslFinal : List UInt8 := be32 12

def authMessage (code data : List UInt8) : Frame := ⟨'R'.toUInt8, code ++ data⟩

def mechanism : Text := "SCRAM-SHA-256".toList

theorem findIdx?_append_zero {a : List UInt8} (h : ∀ x ∈ a, x ≠ 0) (b : List UInt8) :
    (a ++ 0 :: b).findIdx? (· == 0) = some a.length := by
  induction a with
  | nil => rfl
  | cons _ _ ih =>
    obtain ⟨hx, hxs⟩ := List.forall_mem_cons.mp h
    rw [List.cons_append, List.findIdx?_cons, ih hxs, if_neg (by simpa using hx)]
    rfl

/-- The value of `key=` among the comma-separated attributes of a message. -/
def attributeOf (message : Text) (key : Char) : Option Text :=
  (message.splitOn ',').findSome? (strip [key, '='])

/-! ## The server side -/

inductive ClientAuthError where
  | rejected
  | protocol (message : String)
deriving DecidableEq

/-- An error of the exchange itself. -/
def orProtocol {α : Type} : Except String α → Except ClientAuthError α
  | .ok a => .ok a
  | .error message => .error (.protocol message)

theorem orProtocol_eq_ok {x : Except String α} {a : α} : orProtocol x = .ok a ↔ x = .ok a := by
  cases x <;> simp [orProtocol]

def hexByte (b : UInt8) : String := "0x" ++ String.ofList (Nat.toDigits 16 b.toNat)

/-- `parse_initial_response`: the client-first-message and its GS2 header. -/
def parseInitialResponse (body : List UInt8) : Except String (Text × Text) := do
  let stop ← orFail "SASLInitialResponse has no mechanism" (body.findIdx? (· == 0))
  let named ← orFail "mechanism is not UTF-8" (fromUtf8 (body.take stop))
  ensure (named = mechanism) s!"unsupported mechanism {String.ofList named}"
  ensure (stop + 5 ≤ body.length) "SASLInitialResponse is truncated"
  let clientFirst ← orFail "client-first-message is not UTF-8" (fromUtf8 (body.drop (stop + 5)))
  -- `splitn(3, ',')`: a flag, an authorisation identity, and the rest.
  let (flag, authzid) ← orFail "unsupported GS2 header" ((splitOnce ',' clientFirst).bind
    fun (flag, rest) => (splitOnce ',' rest).map fun (authzid, _) => (flag, authzid))
  ensure (flag = ['n'] ∨ flag = ['y']) "unsupported GS2 header"
  return (clientFirst, flag ++ ',' :: (authzid ++ [',']))

/-- What `authenticate_client` takes from the client's first message. -/
structure ClientFirst where
  bare : Text
  gs2Header : Text
  nonce : Text

def clientFirst (frame : Frame) : Except String ClientFirst := do
  ensure (frame.kind = 'p'.toUInt8)
    s!"expected SASLInitialResponse, got {hexByte frame.kind}"
  let (message, gs2Header) ← parseInitialResponse frame.body
  let bare ← orFail "malformed client-first-message" (strip gs2Header message)
  let nonce ← orFail "client-first-message has no nonce" (attributeOf bare 'r')
  return { bare := bare, gs2Header := gs2Header, nonce := nonce }

def serverFirst (verifier : Verifier) (combined : Text) : Text :=
  "r=".toList ++ (combined ++ ",s=".toList ++ (Base64.encode verifier.salt
    ++ (",i=".toList ++ decimal verifier.iterations)))

/-- The text both sides sign. -/
def authText (bare serverFirst withoutProof : Text) : Text :=
  bare ++ ',' :: (serverFirst ++ ',' :: withoutProof)

/-- The client's last message, once its nonce and binding are checked. -/
structure ClientFinal where
  withoutProof : Text
  proof : Key

def clientFinal (first : ClientFirst) (combined : Text) (frame : Frame) :
    Except String ClientFinal := do
  ensure (frame.kind = 'p'.toUInt8) s!"expected SASLResponse, got {hexByte frame.kind}"
  let message ← orFail "client-final-message is not UTF-8" (fromUtf8 frame.body)
  let (withoutProof, proof) ← orFail "client-final-message has no proof"
    (rsplitOnce ",p=".toList message)
  ensure (attributeOf withoutProof 'r' = some combined) "client-final-message has the wrong nonce"
  ensure (attributeOf withoutProof 'c' = some (Base64.encode (utf8 first.gs2Header)))
    "channel binding does not match the GS2 header"
  let proof ← keyFromBase64 proof
  return { withoutProof := withoutProof, proof := proof }

section

variable (crypto : Crypto)

/-- What a proof leaves when the signature of the text is taken off. -/
def keyOfProof (verifier : Verifier) (proof : Key) (auth : Text) : Key :=
  xor proof (crypto.hmac verifier.storedKey.toList (utf8 auth))

def serverFinal (verifier : Verifier) (auth : Text) : Text :=
  "v=".toList ++ Base64.encode (crypto.hmac verifier.serverKey.toList (utf8 auth)).toList

/-- `authenticate_client`, with the nonce it makes. The result is the
credentials and everything it sent. -/
def authenticateClient (client : Peer) (verifier : Verifier) (nonce : Text) :
    Except ClientAuthError (Credentials × List Frame) := do
  let offer := authMessage authSasl (utf8 (mechanism ++ ['\x00', '\x00']))
  let frame ← orProtocol (readFrame client 0 [offer])
  let first ← orProtocol (clientFirst frame)
  let combined := first.nonce ++ nonce
  let challenge := serverFirst verifier combined
  let sent := [offer, authMessage authSaslContinue (utf8 challenge)]
  let frame ← orProtocol (readFrame client 1 sent)
  let final ← orProtocol (clientFinal first combined frame)
  let auth := authText first.bare challenge final.withoutProof
  let clientKey := keyOfProof crypto verifier final.proof auth
  if keysEqual (crypto.sha256 clientKey.toList) verifier.storedKey then
    return ({ clientKey := clientKey, verifier := verifier },
      sent ++ [authMessage authSaslFinal (utf8 (serverFinal crypto verifier auth)),
        authMessage authOk []])
  else throw .rejected

end

/-! ## The client side -/

inductive BackendLoginError where
  | refused (frame : List UInt8)
  | failed (message : String)
deriving DecidableEq

def orFailed {α : Type} : Except String α → Except BackendLoginError α
  | .ok a => .ok a
  | .error message => .error (.failed message)

theorem orFailed_eq_ok {x : Except String α} {a : α} : orFailed x = .ok a ↔ x = .ok a := by
  cases x <;> simp [orFailed]

/-- The keys only work against the verifier they came from. -/
def checkSameVerifier (serverFirst : Text) (verifier : Verifier) : Except String Unit := do
  let salt ← orFail "server-first has no salt" (attributeOf serverFirst 's')
  let iterations ← orFail "server-first has no iterations" (attributeOf serverFirst 'i')
  ensure (Base64.decode salt = some verifier.salt
    ∧ parseBelow u32Bound iterations = some verifier.iterations) "the role's password changed"

/-- Where a login to a backend is: what was sent after the startup message,
what was read, and the text to sign, which is empty at first. -/
structure LoginState where
  sent : List Frame := []
  read : List Frame := []
  auth : Text := []
deriving DecidableEq

def response (data : List UInt8) : Frame := ⟨'p'.toUInt8, data⟩

/-- The username comes from the startup message. -/
def clientFirstBare (nonce : Text) : Text := "n=,r=".toList ++ nonce

def initialResponse (nonce : Text) : Frame :=
  let clientFirst := "n,,".toList ++ clientFirstBare nonce
  response (utf8 mechanism ++ 0 :: (be32 (utf8 clientFirst).length ++ utf8 clientFirst))

/-- The nonce a backend answered with, which has to begin with the client's. -/
def serverNonce (nonce serverFirst : Text) : Except String Text :=
  orFail "backend sent the wrong nonce"
    ((attributeOf serverFirst 'r').filter fun n => (strip nonce n).isSome)

def withoutProof (serverNonce : Text) : Text := "c=biws,r=".toList ++ serverNonce

/-- `i32::from_be_bytes`. -/
def authCode (code : List UInt8) : Int :=
  let n : Nat := code.foldl (fun acc b => acc * 256 + b.toNat) 0
  if n < 2147483648 then n else (n : Int) - 4294967296

section

variable (crypto : Crypto) (credentials : Credentials) (nonce : Text)

/-- The proxy's last message and the text that was signed in it. -/
def answerChallenge (challenge : Text) : Except String (Frame × Text) := do
  let serverNonce ← serverNonce nonce challenge
  checkSameVerifier challenge credentials.verifier
  let withoutProof := withoutProof serverNonce
  let auth := authText (clientFirstBare nonce) challenge withoutProof
  let signature := crypto.hmac credentials.verifier.storedKey.toList (utf8 auth)
  let proof := Base64.encode (xor credentials.clientKey signature).toList
  return (response (utf8 (withoutProof ++ (",p=".toList ++ proof))), auth)

def checkSignature (auth final : Text) : Except String Unit := do
  let signature ← (orFail "backend sent no server signature" (attributeOf final 'v')).bind
    keyFromBase64
  let expected := crypto.hmac credentials.verifier.serverKey.toList (utf8 auth)
  ensure (keysEqual signature expected = true) "backend failed to prove it knows the role"

/-- One turn of the login loop on a frame. `none` is `AuthenticationOk`, which
leaves it. -/
def loginStep (s : LoginState) (frame : Frame) :
    Except BackendLoginError (Option LoginState) :=
  if frame.kind = 'E'.toUInt8 then .error (.refused (encodeFrame frame))
  else if frame.kind ≠ 'R'.toUInt8 then
    .error (.failed s!"unexpected message {hexByte frame.kind} in login")
  else if frame.body.length < 4 then .error (.failed "authentication message is too short")
  else
    let code := frame.body.take 4
    let data := frame.body.drop 4
    let s := { s with read := s.read ++ [frame] }
    if code = authOk then .ok none
    else if code = authSasl then
      -- The parts of a lossy decoding are the mechanism where the bytes are.
      if utf8 mechanism ∈ data.splitOn 0 then
        .ok (some { s with sent := s.sent ++ [initialResponse nonce] })
      else .error (.failed s!"backend does not offer {String.ofList mechanism}")
    else if code = authSaslContinue then orFailed do
      let challenge ← orFail "server-first not UTF-8" (fromUtf8 data)
      let (answer, auth) ← answerChallenge crypto credentials nonce challenge
      return some { s with sent := s.sent ++ [answer], auth := auth }
    else if code = authSaslFinal then orFailed do
      let final ← orFail "server-final not UTF-8" (fromUtf8 data)
      checkSignature crypto credentials s.auth final
      return some s
    else .error (.failed
      s!"backend asked for auth method {authCode code}, and the proxy needs SCRAM")

/-- The login loop, for as many turns as there is fuel: the state in which
`AuthenticationOk` came, or the error. -/
def loginLoop (backend : Peer) : Nat → LoginState → Option (Except BackendLoginError LoginState)
  | 0, _ => none
  | fuel + 1, s =>
    match orFailed (readFrame backend s.read.length s.sent) with
    | .error e => some (.error e)
    | .ok frame =>
      match loginStep crypto credentials nonce s frame with
      | .error e => some (.error e)
      | .ok none => some (.ok s)
      | .ok (some s') => loginLoop backend fuel s'

/-- What follows `AuthenticationOk`, through `ReadyForQuery`. -/
def restLoop (backend : Peer) (sent : List Frame) :
    Nat → Nat → List UInt8 → Option (Except BackendLoginError (List UInt8))
  | 0, _, _ => none
  | fuel + 1, count, rest =>
    match orFailed (readFrame backend count sent) with
    | .error e => some (.error e)
    | .ok frame =>
      if frame.kind = 'E'.toUInt8 then some (.error (.refused (encodeFrame frame)))
      else
        let rest := rest ++ encodeFrame frame
        if frame.kind = 'Z'.toUInt8 then some (.ok rest)
        else restLoop backend sent fuel (count + 1) rest

/-- `login_to_backend`, after its startup message. -/
def loginToBackend (backend : Peer) (fuel : Nat) :
    Option (Except BackendLoginError (List UInt8)) :=
  match loginLoop crypto credentials nonce backend fuel {} with
  | none => none
  | some (.error e) => some (.error e)
  | some (.ok s) => restLoop backend s.sent fuel (s.read.length + 1) []

end

/-! ## Verifiers on their way to the proxy

`check_verifier` of pgcluster-admin and of the host agent, and `Verifier::parse` of the proxy,
against the form in which Postgres knows a SCRAM secret. The first two look at the shape
only, so a verifier whose salt or keys are not Base64 gets past them. -/

def scramPrefix : Text := "SCRAM-SHA-256$".toList

def isVerifierChar (c : Char) : Bool := c.isAlphanum || "-$:+/=".toList.contains c

/-- `check_verifier` of pgcluster-admin. -/
def checkVerifier (verifier : Text) : Except String Unit :=
  let shapeOk := ((strip scramPrefix verifier).bind (splitOnce '$')).any fun (params, keys) =>
    ((splitOnce ':' params).any fun (n, salt) => (parseBelow u32Bound n).isSome && salt ≠ [])
      && (splitOnce ':' keys).any fun (a, b) => a ≠ [] && b ≠ []
  if shapeOk && verifier.all isVerifierChar then .ok ()
  else .error "scram_verifier must be a SCRAM-SHA-256 verifier, not a password"

/-- `check_verifier` of the host agent. -/
def hostCheckVerifier (verifier : Text) : Except String Unit :=
  if (strip scramPrefix verifier).isSome && verifier.all isVerifierChar then .ok ()
  else .error "owner.scram_verifier is not a SCRAM verifier"

structure Parts (verifier iterations salt storedKey serverKey : Text) : Prop where
  text : verifier
    = scramPrefix ++ (iterations ++ ':' :: salt ++ '$' :: (storedKey ++ ':' :: serverKey))
  colon : ':' ∉ iterations ∧ ':' ∉ storedKey
  dollar : '$' ∉ iterations ++ ':' :: salt

def Decodes (salt storedKey serverKey : Text) : Prop :=
  (Base64.decode salt).isSome ∧ (keyFromBase64 storedKey).toOption.isSome
    ∧ (keyFromBase64 serverKey).toOption.isSome

/-- The form in which Postgres knows a SCRAM secret from a password. -/
def IsSecret (verifier : Text) : Prop :=
  ∃ iterations salt storedKey serverKey, Parts verifier iterations salt storedKey serverKey
    ∧ (parseBelow u32Bound iterations).isSome ∧ Decodes salt storedKey serverKey

def IsWritten (verifier : Text) : Prop :=
  ∃ (iterations : Text) (salt : List UInt8) (storedKey serverKey : Key),
    Parts verifier iterations (Base64.encode salt) (Base64.encode storedKey.toList)
      (Base64.encode serverKey.toList)

theorem keyFromBase64_eq_ok {t : Text} {key : Key} :
    keyFromBase64 t = .ok key ↔ t = Base64.encode key.toList := by
  simp only [keyFromBase64, bind_eq_ok, orFail_eq_ok, Base64.decode_eq_some_iff]
  constructor
  · rintro ⟨bytes, rfl, h⟩
    split at h
    · cases h
      rfl
    · cases h
  · rintro rfl
    exact ⟨key.toList, rfl, dif_pos (by simp)⟩

theorem decodes_iff {salt storedKey serverKey : Text} : Decodes salt storedKey serverKey
    ↔ (∃ bytes, salt = Base64.encode bytes) ∧ (∃ key : Key, storedKey = Base64.encode key.toList)
      ∧ ∃ key : Key, serverKey = Base64.encode key.toList := by
  have hkey (t : Text) :
      (keyFromBase64 t).toOption.isSome ↔ ∃ key : Key, t = Base64.encode key.toList := by
    simp only [← keyFromBase64_eq_ok]
    cases keyFromBase64 t <;> simp [Except.toOption]
  simp only [Decodes, hkey, isSome_iff_exists, Base64.decode_eq_some_iff]

namespace Parts

variable {verifier n salt a b n' salt' a' b' : Text}

theorem splits (h : Parts verifier n salt a b) :
    strip scramPrefix verifier = some (n ++ ':' :: salt ++ '$' :: (a ++ ':' :: b))
      ∧ splitOnce '$' (n ++ ':' :: salt ++ '$' :: (a ++ ':' :: b))
        = some (n ++ ':' :: salt, a ++ ':' :: b)
      ∧ splitOnce ':' (n ++ ':' :: salt) = some (n, salt)
      ∧ splitOnce ':' (a ++ ':' :: b) = some (a, b) := by
  refine ⟨?_, splitOnce_append h.dollar _, splitOnce_append h.colon.1 _,
    splitOnce_append h.colon.2 _⟩
  rw [h.text, strip_append]

theorem unique (h : Parts verifier n salt a b) (h' : Parts verifier n' salt' a' b') :
    n = n' ∧ salt = salt' ∧ a = a' ∧ b = b' := by
  have ⟨hstrip, hdollar, hparams, hkeys⟩ := h.splits
  have ⟨hstrip', hdollar', hparams', hkeys'⟩ := h'.splits
  rw [Option.some.inj (hstrip.symm.trans hstrip'), hdollar'] at hdollar
  obtain ⟨heq, heq'⟩ := Prod.mk.inj (Option.some.inj hdollar)
  rw [← heq, hparams'] at hparams
  rw [← heq', hkeys'] at hkeys
  cases hparams
  cases hkeys
  exact ⟨rfl, rfl, rfl, rfl⟩

theorem parse_eq (h : Parts verifier n salt a b) {count : Nat}
    (hn : parseBelow u32Bound n = some count) :
    Verifier.parse verifier = (do return ⟨count, ← Base64.decode salt,
      ← (keyFromBase64 a).toOption, ← (keyFromBase64 b).toOption⟩) := by
  have ⟨hstrip, hdollar, hparams, hkeys⟩ := h.splits
  refine (bind_of_some hstrip).trans ((bind_of_some hdollar).trans ?_)
  exact (bind_of_some hparams).trans ((bind_of_some hkeys).trans (bind_of_some hn))

theorem parse_isSome_iff (h : Parts verifier n salt a b) (hn : (parseBelow u32Bound n).isSome) :
    (Verifier.parse verifier).isSome ↔ Decodes salt a b := by
  obtain ⟨count, hn⟩ := isSome_iff_exists.mp hn
  rw [h.parse_eq hn, Decodes]
  cases Base64.decode salt <;> cases (keyFromBase64 a).toOption <;>
    cases (keyFromBase64 b).toOption <;> simp

end Parts

/-- What pgcluster-admin accepts has all parts. -/
theorem parts_of_checkVerifier {verifier : Text} (h : checkVerifier verifier = .ok ()) :
    ∃ n salt a b, Parts verifier n salt a b ∧ (parseBelow u32Bound n).isSome
      ∧ verifier.all isVerifierChar := by
  obtain ⟨hok, -⟩ | ⟨-, ⟨⟩⟩ := ite_eq_iff.mp h
  simp only [Bool.and_eq_true, any_eq_true, bind_eq_some_iff] at hok
  obtain ⟨⟨⟨params, keys⟩, ⟨rest, hstrip, hsplit⟩, ⟨⟨n, salt⟩, hparams, hn, -⟩,
    ⟨⟨a, b⟩, hkeys, -⟩⟩, hchars⟩ := hok
  obtain ⟨hrest, hdollar⟩ := of_splitOnce hsplit
  obtain ⟨rfl, hcolon⟩ := of_splitOnce hparams
  obtain ⟨rfl, hcolon'⟩ := of_splitOnce hkeys
  exact ⟨n, salt, a, b, ⟨hrest ▸ eq_append_of_strip hstrip, ⟨hcolon, hcolon'⟩, hdollar⟩, hn, hchars⟩

def zeros : Text := .replicate 43 'A' ++ ['=']

def zeroVerifier : Text := scramPrefix ++ ("4096:AAAA$".toList ++ (zeros ++ ':' :: zeros))

end PgCluster.Scram
