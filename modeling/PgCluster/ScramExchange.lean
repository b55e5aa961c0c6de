import PgCluster.Scram

/-!
# The proxy between a client and a backend

Both peers follow RFC 5802: the client knows a password, the backend the
verifier made of it. The proxy logs the client in with the verifier alone, and
the key it takes from the client's proof logs it in to the backend.

The RFC normalises a password (SASLprep) before it derives keys. The proxy
takes the bytes as they are, so the two agree on passwords that normalisation
leaves alone.
-/

namespace PgCluster.Scram

open List
open Text Base64

/-! ## Messages made of attributes -/

def attributes (parts : List Text) : Text := [','].intercalate parts

theorem splitOn_attributes {parts : List Text} (hne : parts ≠ []) (h : ∀ part ∈ parts, ',' ∉ part) :
    (attributes parts).splitOn ',' = parts :=
  splitOn_intercalate ',' h hne

/-- An attribute is found where it stands, and past others. -/
theorem attributeOf_head {key : Char} {value : Text} {rest : List Text}
    (h : ∀ part ∈ (key :: '=' :: value) :: rest, ',' ∉ part) :
    attributeOf (attributes ((key :: '=' :: value) :: rest)) key = some value := by
  rw [attributeOf, splitOn_attributes (cons_ne_nil _ _) h, findSome?_cons, strip, if_pos rfl, strip,
    if_pos rfl]
  rfl

theorem attributeOf_tail {key key' : Char} {value next : Text} {rest : List Text}
    (h : ∀ part ∈ (key' :: '=' :: value) :: next :: rest, ',' ∉ part) (hne : key ≠ key') :
    attributeOf (attributes ((key' :: '=' :: value) :: next :: rest)) key
      = attributeOf (attributes (next :: rest)) key := by
  rw [attributeOf, attributeOf, splitOn_attributes (cons_ne_nil _ _) h,
    splitOn_attributes (cons_ne_nil _ _) (forall_mem_cons.mp h).2, findSome?_cons, strip,
    if_neg hne]

theorem attributes_cons (part next : Text) (rest : List Text) :
    attributes (part :: next :: rest) = part ++ ',' :: attributes (next :: rest) := rfl

theorem attributes_singleton (part : Text) : attributes [part] = part := by
  simp [attributes]

theorem not_mem_append {c : Char} {a b : Text} (ha : c ∉ a) (hb : c ∉ b) : c ∉ a ++ b := by
  simp [ha, hb]

theorem comma_not_mem_base64 (bytes : List UInt8) : ',' ∉ encode bytes :=
  not_mem_encode (by decide) bytes

/-! ## A verifier can be read back -/

def Verifier.text (verifier : Verifier) : Text :=
  "SCRAM-SHA-256$".toList ++ (decimal verifier.iterations ++ ':' :: (Base64.encode verifier.salt
    ++ '$' :: (Base64.encode verifier.storedKey.toList
      ++ ':' :: Base64.encode verifier.serverKey.toList)))

theorem Verifier.parse_text (verifier : Verifier) (h : verifier.iterations < u32Bound) :
    Verifier.parse verifier.text = some verifier := by
  have hgroup : ∀ tag digits salt keys : Text, tag ++ (digits ++ ':' :: (salt ++ '$' :: keys))
      = tag ++ (digits ++ ':' :: salt ++ '$' :: keys) := by simp
  have hparts : Parts verifier.text (decimal verifier.iterations) (encode verifier.salt)
      (encode verifier.storedKey.toList) (encode verifier.serverKey.toList) := by
    refine ⟨hgroup _ _ _ _, ⟨not_mem_decimal (by decide) _, not_mem_encode (by decide) _⟩, ?_⟩
    refine not_mem_append (not_mem_decimal (by decide) _) ?_
    exact not_mem_cons_of_ne_of_not_mem (by decide) (not_mem_encode (by decide) _)
  rw [hparts.parse_eq (parseBelow_decimal h), decode_encode, keyFromBase64_eq_ok.mpr rfl,
    keyFromBase64_eq_ok.mpr rfl]
  rfl

/-! ## RFC 5802 -/

section

variable (crypto : Crypto)

/-- `U1`, `U2` and so on, of `Hi`. -/
def hiU (str salt : List UInt8) : Nat → Key
  | 0 => crypto.hmac str (salt ++ [0, 0, 0, 1])
  | n + 1 => crypto.hmac str (hiU str salt n).toList

/-- `U1 XOR ... XOR U(n+1)`. -/
def hiXor (str salt : List UInt8) : Nat → Key
  | 0 => hiU crypto str salt 0
  | n + 1 => xor (hiXor str salt n) (hiU crypto str salt (n + 1))

def hi (str salt : List UInt8) (iterations : Nat) : Key := hiXor crypto str salt (iterations - 1)

theorem iterate_saltedTurn (password : Text) (salt : List UInt8) (n : Nat) :
    Nat.iterate (saltedTurn crypto password) n
        (hiU crypto (utf8 password) salt 0, hiU crypto (utf8 password) salt 0)
      = (hiU crypto (utf8 password) salt n, hiXor crypto (utf8 password) salt n) := by
  induction n with
  | zero => rfl
  | succ _ ih =>
    rw [Function.iterate_succ_apply', ih]
    rfl

/-- The proxy's loop computes `Hi` of the password's bytes. -/
theorem saltedPassword_eq_hi (password : Text) (salt : List UInt8) (iterations : Nat) :
    saltedPassword crypto password salt iterations = hi crypto (utf8 password) salt iterations :=
  congrArg Prod.snd (iterate_saltedTurn crypto password salt (iterations - 1))

def verifierOf (salted : Key) (salt : List UInt8) (iterations : Nat) : Verifier where
  iterations := iterations
  salt := salt
  storedKey := crypto.sha256 (crypto.hmac salted.toList (utf8 "Client Key".toList)).toList
  serverKey := crypto.hmac salted.toList (utf8 "Server Key".toList)

theorem parse_makeVerifier (password : Text) (salt : List UInt8) {iterations : Nat}
    (h : iterations < u32Bound) : Verifier.parse (makeVerifier crypto password salt iterations)
      = some (verifierOf crypto (hi crypto (utf8 password) salt iterations) salt iterations) := by
  rw [← saltedPassword_eq_hi]
  exact Verifier.parse_text
    (verifierOf crypto (saltedPassword crypto password salt iterations) salt iterations) h

def rfcClientKey (salted : Key) : Key := crypto.hmac salted.toList (utf8 "Client Key".toList)

/-- `ClientProof`, which is `ClientKey XOR HMAC(H(ClientKey), AuthMessage)`. -/
def rfcProof (salted : Key) (auth : Text) : Key :=
  xor (rfcClientKey crypto salted)
    (crypto.hmac (crypto.sha256 (rfcClientKey crypto salted).toList).toList (utf8 auth))

/-- The server's check of a proof. -/
def rfcAccepts (verifier : Verifier) (auth : Text) (proof : Key) : Bool :=
  crypto.sha256 (xor proof (crypto.hmac verifier.storedKey.toList (utf8 auth))).toList
    = verifier.storedKey

end

/-- A client that asks for no channel binding. The texts it chooses have no
comma, as the grammar of the RFC has it. -/
structure RfcClient where
  password : Text
  /-- The client supports channel binding and saw that the server does not. -/
  supportsBinding : Bool
  authzid : Option Text
  username : Text
  nonce : Text
  extensions : List Text
  finalExtensions : List Text
  authzid_comma : ∀ z ∈ authzid, ',' ∉ z
  username_comma : ',' ∉ username
  nonce_comma : ',' ∉ nonce
  extensions_comma : ∀ e ∈ extensions, ',' ∉ e
  finalExtensions_comma : ∀ e ∈ finalExtensions, ',' ∉ e

namespace RfcClient

def flag (c : RfcClient) : Text := if c.supportsBinding then ['y'] else ['n']

def identity (c : RfcClient) : Text := (c.authzid.map ("a=".toList ++ ·)).getD []

def gs2Header (c : RfcClient) : Text := c.flag ++ ',' :: (c.identity ++ [','])

def bare (c : RfcClient) : Text :=
  attributes (("n=".toList ++ c.username) :: ("r=".toList ++ c.nonce) :: c.extensions)

/-- `SASLInitialResponse`. -/
def initial (c : RfcClient) : Frame :=
  let message := c.gs2Header ++ c.bare
  response (utf8 mechanism ++ 0 :: (be32 (utf8 message).length ++ utf8 message))

/-- `client-final-message-without-proof`. -/
def withoutProof (c : RfcClient) (combined : Text) : Text :=
  attributes (("c=".toList ++ Base64.encode (utf8 c.gs2Header)) :: ("r=".toList ++ combined)
    :: c.finalExtensions)

/-- The answer to a server-first-message, with the key of the normalised
password. An iteration count is positive. -/
def final (crypto : Crypto) (normalize : Text → Text) (c : RfcClient) (challenge : Text) :
    Option Frame :=
  match challenge.splitOn ',' with
  | r :: s :: i :: _ => do
      let combined ← strip "r=".toList r
      let _ ← strip c.nonce combined
      let salt ← (strip "s=".toList s).bind Base64.decode
      let iterations ← ((strip "i=".toList i).bind (parseBelow u32Bound)).filter (0 < ·)
      let salted := hi crypto (utf8 (normalize c.password)) salt iterations
      let proof := rfcProof crypto salted (authText c.bare challenge (c.withoutProof combined))
      return response
        (utf8 (c.withoutProof combined ++ (",p=".toList ++ Base64.encode proof.toList)))
  | _ => none

def peer (crypto : Crypto) (normalize : Text → Text) (c : RfcClient) : Peer
  | 0, [offer] =>
    if offer.body.take 4 = authSasl ∧ ((offer.body.drop 4).splitOn 0).contains (utf8 mechanism) then
      some c.initial
    else none
  | 1, [_, challenge] => (fromUtf8 (challenge.body.drop 4)).bind (c.final crypto normalize)
  | _, _ => none

end RfcClient

/-- A server that holds a verifier, with what it says before and after. -/
structure RfcServer where
  verifier : Verifier
  nonce : Text
  mechanisms : List (List UInt8)
  extensions : List Text
  finalExtensions : List Text
  /-- `ParameterStatus` and the like, up to and without `ReadyForQuery`. -/
  parameters : List Frame
  status : UInt8
  nonce_comma : ',' ∉ nonce
  extensions_comma : ∀ e ∈ extensions, ',' ∉ e
  finalExtensions_comma : ∀ e ∈ finalExtensions, ',' ∉ e
  offers : utf8 mechanism ∈ mechanisms
  mechanisms_zero : ∀ m ∈ mechanisms, 0 ∉ m
  parameters_kind : ∀ f ∈ parameters, f.kind ≠ 'E'.toUInt8 ∧ f.kind ≠ 'Z'.toUInt8

namespace RfcServer

def offer (server : RfcServer) : Frame :=
  authMessage authSasl ([0].intercalate (server.mechanisms ++ [[], []]))

def first (server : RfcServer) (clientNonce : Text) : Text :=
  attributes (("r=".toList ++ (clientNonce ++ server.nonce))
    :: ("s=".toList ++ Base64.encode server.verifier.salt)
    :: ("i=".toList ++ decimal server.verifier.iterations) :: server.extensions)

def challenge (server : RfcServer) (clientNonce : Text) : Frame :=
  authMessage authSaslContinue (utf8 (server.first clientNonce))

def final (crypto : Crypto) (server : RfcServer) (auth : Text) : Frame :=
  authMessage authSaslFinal (utf8 (attributes (("v=".toList
        ++ Base64.encode (crypto.hmac server.verifier.serverKey.toList (utf8 auth)).toList)
      :: server.finalExtensions)))

def ready (server : RfcServer) : Frame := ⟨'Z'.toUInt8, [server.status]⟩

/-- A client-first-message: the GS2 header, the rest and its nonce. -/
def readFirst (message : Text) : Option (Text × Text × Text) := do
  let (flag, rest) ← splitOnce ',' message
  let (identity, bare) ← splitOnce ',' rest
  match bare.splitOn ',' with
  | n :: r :: _ =>
    let _ ← strip "n=".toList n
    let nonce ← strip "r=".toList r
    if flag = ['n'] ∨ flag = ['y'] then
      return (flag ++ ',' :: (identity ++ [',']), bare, nonce)
    else none
  | _ => none

/-- The client-first-message of a `SASLInitialResponse` for the mechanism. -/
def readInitial (frame : Frame) : Option (Text × Text × Text) := do
  let data ← (frame.body.dropWhile (· ≠ 0)).tail?
  if frame.body.takeWhile (· ≠ 0) = utf8 mechanism then
    (fromUtf8 (data.drop 4)).bind readFirst
  else none

/-- The text both signed, when the client's last message checks out. -/
def accept (crypto : Crypto) (server : RfcServer) (initial final : Frame) : Option Text := do
  let (gs2Header, bare, nonce) ← readInitial initial
  let (withoutProof, proof) ← (fromUtf8 final.body).bind (rsplitOnce ",p=".toList)
  let key ← (keyFromBase64 proof).toOption
  let auth := authText bare (server.first nonce) withoutProof
  match withoutProof.splitOn ',' with
  | c :: r :: _ =>
    if c = "c=".toList ++ Base64.encode (utf8 gs2Header)
        ∧ r = "r=".toList ++ (nonce ++ server.nonce)
        ∧ rfcAccepts crypto server.verifier auth key = true then
      return auth
    else none
  | _ => none

def peer (crypto : Crypto) (server : RfcServer) : Peer
  | 0, _ => some server.offer
  | 1, [initial] => (readInitial initial).map fun (_, _, nonce) => server.challenge nonce
  | 2, [initial, final] => (server.accept crypto initial final).map (server.final crypto)
  | 3, [initial, final] => (server.accept crypto initial final).map fun _ => authMessage authOk []
  | count + 4, _ => (server.parameters ++ [server.ready])[count]?
  | _, _ => none

end RfcServer

/-! ## The messages of the two sides agree -/

variable {crypto : Crypto} {verifier : Verifier} {credentials : Credentials} {nonce : Text}

theorem serverFirst_eq (verifier : Verifier) (combined : Text) :
    serverFirst verifier combined = attributes ["r=".toList ++ combined,
      "s=".toList ++ Base64.encode verifier.salt,
      "i=".toList ++ decimal verifier.iterations] := by
  have hgroup : ∀ r s i a b c : Text, r ++ (a ++ ',' :: s ++ (b ++ (',' :: i ++ c)))
      = (r ++ a) ++ ',' :: ((s ++ b) ++ ',' :: (i ++ c)) := by simp
  have hs : ",s=".toList = ',' :: "s=".toList := rfl
  have hi : ",i=".toList = ',' :: "i=".toList := rfl
  rw [attributes_cons, attributes_cons, attributes_singleton]
  unfold serverFirst
  rw [hs, hi, hgroup]

theorem serverFirst_comma (verifier : Verifier) {combined : Text} (h : ',' ∉ combined) :
    ∀ part ∈ ["r=".toList ++ combined, "s=".toList ++ Base64.encode verifier.salt,
      "i=".toList ++ decimal verifier.iterations], ',' ∉ part := by
  simp only [mem_cons, not_mem_nil, or_false, forall_eq_or_imp, forall_eq]
  exact ⟨not_mem_append (by decide) h, not_mem_append (by decide) (comma_not_mem_base64 _),
    not_mem_append (by decide) (not_mem_decimal (by decide) _)⟩

theorem utf8_mechanism_ne_zero : ∀ x ∈ utf8 mechanism, x ≠ 0 := by
  have hall : (utf8 mechanism).all (fun x => !(x == 0)) := by decide +kernel
  intro x hx
  simpa using all_eq_true.mp hall x hx

theorem parseInitialResponse_of_message {flag identity bare message : Text} (length : Nat)
    (hflag : flag = ['n'] ∨ flag = ['y']) (hidentity : ',' ∉ identity)
    (hmessage : message = (flag ++ ',' :: (identity ++ [','])) ++ bare) :
    parseInitialResponse (utf8 mechanism ++ 0 :: (be32 length ++ utf8 message))
      = .ok (message, flag ++ ',' :: (identity ++ [','])) := by
  have hcomma : ',' ∉ flag := by rcases hflag with rfl | rfl <;> decide
  have hgroup : message = flag ++ ',' :: (identity ++ ',' :: bare) := by simp [hmessage]
  have htake : (utf8 mechanism ++ 0 :: (be32 length ++ utf8 message)).take (utf8 mechanism).length
      = utf8 mechanism := take_left
  have hdrop : (utf8 mechanism ++ 0 :: (be32 length ++ utf8 message)).drop
      ((utf8 mechanism).length + 5) = utf8 message := by
    rw [drop_append, drop_of_length_le (Nat.le_add_right _ _), nil_append, Nat.add_sub_cancel_left]
    rfl
  have hlong : (utf8 mechanism).length + 5
      ≤ (utf8 mechanism ++ 0 :: (be32 length ++ utf8 message)).length := by
    simp only [length_append, length_cons, be32]
    omega
  have hsplit : (splitOnce ',' message).bind
      (fun (flag, rest) => (splitOnce ',' rest).map fun (authzid, _) => (flag, authzid))
      = some (flag, identity) := by
    rw [hgroup, splitOnce_append hcomma, Option.bind_some]
    simp only [splitOnce_append hidentity, Option.map_some]
  refine bind_eq_ok.mpr ⟨(utf8 mechanism).length,
    orFail_eq_ok.mpr (findIdx?_append_zero utf8_mechanism_ne_zero _), ?_⟩
  refine bind_eq_ok.mpr ⟨mechanism, orFail_eq_ok.mpr (by rw [htake, fromUtf8_utf8]), ?_⟩
  refine bind_eq_ok.mpr ⟨(), ensure_eq_ok.mpr rfl, bind_eq_ok.mpr ⟨(), ensure_eq_ok.mpr hlong, ?_⟩⟩
  refine bind_eq_ok.mpr ⟨_, orFail_eq_ok.mpr (by rw [hdrop, fromUtf8_utf8]), ?_⟩
  refine bind_eq_ok.mpr ⟨_, orFail_eq_ok.mpr hsplit, ?_⟩
  exact bind_eq_ok.mpr ⟨(), ensure_eq_ok.mpr hflag, rfl⟩

/-! ## What acceptance stands for -/

/-- What the proxy sends first. -/
def saslOffer : Frame := authMessage authSasl (utf8 (mechanism ++ ['\x00', '\x00']))

def saslChallenge (verifier : Verifier) (combined : Text) : Frame :=
  authMessage authSaslContinue (utf8 (serverFirst verifier combined))

/-- The client's two messages were read, and the second had a proof that, with
the signature of the text of this exchange taken off, hashes to the stored key. -/
def ProofChecked (crypto : Crypto) (client : Peer) (verifier : Verifier) (nonce : Text)
    (credentials : Credentials) : Prop :=
  ∃ initial first final withoutProof proofText proof,
    (client 0 [saslOffer] = some initial ∧ initial.fits ∧ clientFirst initial = .ok first)
      ∧ (client 1 [saslOffer, saslChallenge verifier (first.nonce ++ nonce)] = some final
        ∧ final.fits ∧ fromUtf8 final.body = some (withoutProof ++ (",p=".toList ++ proofText))
        ∧ keyFromBase64 proofText = .ok proof)
      ∧ ∃ auth,
        auth = authText first.bare (serverFirst verifier (first.nonce ++ nonce)) withoutProof
        ∧ nonce <:+: auth ∧ credentials = ⟨keyOfProof crypto verifier proof auth, verifier⟩
        ∧ crypto.sha256 (xor proof
            (crypto.hmac verifier.storedKey.toList (utf8 auth))).toList = verifier.storedKey

theorem nonce_infix_authText (verifier : Verifier) (bare clientNonce nonce withoutProof : Text) :
    nonce <:+: authText bare (serverFirst verifier (clientNonce ++ nonce)) withoutProof := by
  refine ⟨bare ++ ',' :: ("r=".toList ++ clientNonce), ",s=".toList
    ++ (Base64.encode verifier.salt ++ (",i=".toList ++ decimal verifier.iterations))
    ++ ',' :: withoutProof, ?_⟩
  unfold authText serverFirst
  simp only [append_assoc, cons_append]

theorem proofChecked_of_authenticateClient {client : Peer} {nonce : Text}
    {credentials : Credentials} {sent : List Frame}
    (h : authenticateClient crypto client verifier nonce = .ok (credentials, sent)) :
    ProofChecked crypto client verifier nonce credentials := by
  obtain ⟨initial, hinitial, h⟩ := bind_eq_ok.mp h
  obtain ⟨first, hfirst, h⟩ := bind_eq_ok.mp h
  obtain ⟨final, hframe, h⟩ := bind_eq_ok.mp h
  obtain ⟨_, hfinal, h⟩ := bind_eq_ok.mp h
  obtain ⟨hpeer, hfits⟩ := readFrame_eq_ok.mp (orProtocol_eq_ok.mp hinitial)
  obtain ⟨hpeer', hfits'⟩ := readFrame_eq_ok.mp (orProtocol_eq_ok.mp hframe)
  obtain ⟨-, -, hfinal⟩ := bind_eq_ok.mp (orProtocol_eq_ok.mp hfinal)
  obtain ⟨message, hmessage, hfinal⟩ := bind_eq_ok.mp hfinal
  obtain ⟨⟨withoutProof, proofText⟩, hsplit, hfinal⟩ := bind_eq_ok.mp hfinal
  obtain ⟨-, -, hfinal⟩ := bind_eq_ok.mp hfinal
  obtain ⟨-, -, hfinal⟩ := bind_eq_ok.mp hfinal
  obtain ⟨proof, hproof, hfinal⟩ := bind_eq_ok.mp hfinal
  obtain rfl := Except.ok.inj hfinal
  have htext : message = withoutProof ++ (",p=".toList ++ proofText) :=
    eq_append_of_rsplitOnce (orFail_eq_ok.mp hsplit)
  obtain ⟨hequal, h⟩ | ⟨-, ⟨⟩⟩ := ite_eq_iff.mp h
  obtain ⟨rfl, -⟩ := Prod.mk.inj (Except.ok.inj h)
  exact ⟨initial, first, final, withoutProof, proofText, proof,
    ⟨hpeer, hfits, orProtocol_eq_ok.mp hfirst⟩,
    ⟨hpeer', hfits', htext ▸ orFail_eq_ok.mp hmessage, hproof⟩,
    _, rfl, nonce_infix_authText _ _ _ _ _, rfl, (keysEqual_iff _ _).mp hequal⟩

/-! ## The proxy accepts a client -/

namespace RfcClient

variable {c : RfcClient} {normalize : Text → Text} {combined : Text}

theorem flag_eq (c : RfcClient) : c.flag = ['n'] ∨ c.flag = ['y'] := by
  cases h : c.supportsBinding <;> simp [flag, h]

theorem identity_comma (c : RfcClient) : ',' ∉ c.identity := by
  unfold identity
  cases h : c.authzid with
  | none => exact not_mem_nil
  | some z => exact not_mem_append (by decide) (c.authzid_comma z h)

theorem bare_parts_comma (c : RfcClient) :
    ∀ part ∈ ("n=".toList ++ c.username) :: ("r=".toList ++ c.nonce) :: c.extensions,
      ',' ∉ part := by
  simp only [forall_mem_cons]
  exact ⟨not_mem_append (by decide) c.username_comma, not_mem_append (by decide) c.nonce_comma,
    c.extensions_comma⟩

theorem attributeOf_bare (c : RfcClient) : attributeOf c.bare 'r' = some c.nonce :=
  (attributeOf_tail c.bare_parts_comma (by decide)).trans
    (attributeOf_head (forall_mem_cons.mp c.bare_parts_comma).2)

theorem clientFirst_initial (c : RfcClient) :
    clientFirst c.initial = .ok ⟨c.bare, c.gs2Header, c.nonce⟩ := by
  refine bind_eq_ok.mpr ⟨(), ensure_eq_ok.mpr rfl, ?_⟩
  refine bind_eq_ok.mpr ⟨(c.gs2Header ++ c.bare, c.gs2Header),
    parseInitialResponse_of_message _ c.flag_eq c.identity_comma rfl, ?_⟩
  refine bind_eq_ok.mpr ⟨c.bare, orFail_eq_ok.mpr (strip_append _ _), ?_⟩
  exact bind_eq_ok.mpr ⟨c.nonce, orFail_eq_ok.mpr c.attributeOf_bare, rfl⟩

theorem withoutProof_parts_comma (c : RfcClient) (h : ',' ∉ combined) :
    ∀ part ∈ ("c=".toList ++ Base64.encode (utf8 c.gs2Header)) :: ("r=".toList ++ combined)
      :: c.finalExtensions, ',' ∉ part := by
  simp only [forall_mem_cons]
  exact ⟨not_mem_append (by decide) (comma_not_mem_base64 _), not_mem_append (by decide) h,
    c.finalExtensions_comma⟩

/-- The last message reads back as the text before the proof, and the proof. -/
theorem clientFinal_response (c : RfcClient) (h : ',' ∉ combined) (proof : Key) :
    clientFinal ⟨c.bare, c.gs2Header, c.nonce⟩ combined (response
        (utf8 (c.withoutProof combined ++ (",p=".toList ++ Base64.encode proof.toList))))
      = .ok ⟨c.withoutProof combined, proof⟩ := by
  have hparts := c.withoutProof_parts_comma h
  have hnonce : attributeOf (c.withoutProof combined) 'r' = some combined :=
    (attributeOf_tail hparts (by decide)).trans (attributeOf_head (forall_mem_cons.mp hparts).2)
  have hbinding : attributeOf (c.withoutProof combined) 'c' = some (encode (utf8 c.gs2Header)) :=
    attributeOf_head hparts
  have hsplit : rsplitOnce ",p=".toList
      (c.withoutProof combined ++ (",p=".toList ++ Base64.encode proof.toList))
      = some (c.withoutProof combined, encode proof.toList) :=
    @rsplitOnce_append ',' ['p', '='] (by decide) _ _ (comma_not_mem_base64 _)
  refine bind_eq_ok.mpr ⟨(), ensure_eq_ok.mpr rfl, ?_⟩
  refine bind_eq_ok.mpr ⟨_, orFail_eq_ok.mpr (fromUtf8_utf8 _), ?_⟩
  refine bind_eq_ok.mpr ⟨_, orFail_eq_ok.mpr hsplit, ?_⟩
  refine bind_eq_ok.mpr ⟨(), ensure_eq_ok.mpr hnonce, ?_⟩
  refine bind_eq_ok.mpr ⟨(), ensure_eq_ok.mpr hbinding, ?_⟩
  exact bind_eq_ok.mpr ⟨proof, keyFromBase64_eq_ok.mpr rfl, rfl⟩

section

variable (crypto : Crypto) (normalize : Text → Text) (c : RfcClient) (verifier : Verifier)
  (combined : Text)

/-- The salted password the client derives from what a challenge says. -/
def salted : Key := hi crypto (utf8 (normalize c.password)) verifier.salt verifier.iterations

/-- The text the client and the proxy sign. -/
def authFor : Text := authText c.bare (serverFirst verifier combined) (c.withoutProof combined)

/-- The client's proof in an exchange with the proxy. -/
def proofFor : Key :=
  rfcProof crypto (c.salted crypto normalize verifier) (c.authFor verifier combined)

def finalFor : Frame :=
  response (utf8 (c.withoutProof combined
    ++ (",p=".toList ++ Base64.encode (c.proofFor crypto normalize verifier combined).toList)))

/-- What the proxy checks of an RFC client: the key its proof leaves. -/
def keyFor : Key :=
  keyOfProof crypto verifier (c.proofFor crypto normalize verifier combined)
    (c.authFor verifier combined)

/-- Everything the proxy sends to a client it lets in. -/
def conversation : List Frame :=
  [saslOffer, saslChallenge verifier combined,
    authMessage authSaslFinal (utf8 (serverFinal crypto verifier (c.authFor verifier combined))),
    authMessage authOk []]

end

/-- The key of the password the verifier was made of, where normalisation
leaves it alone. -/
theorem sha256_keyFor (hstored : verifier.storedKey
      = crypto.sha256 (rfcClientKey crypto (c.salted crypto normalize verifier)).toList) :
    crypto.sha256 (c.keyFor crypto normalize verifier combined).toList = verifier.storedKey := by
  -- Taking the signature off the proof leaves the client's key.
  rw [keyFor, keyOfProof, proofFor, rfcProof, ← hstored, xor_xor_cancel, hstored]

theorem peer_offer (c : RfcClient) : c.peer crypto normalize 0 [saslOffer] = some c.initial := by
  simp only [peer]
  exact if_pos (by decide)

section

variable (hnonce : ',' ∉ nonce) (hpos : 0 < verifier.iterations)
  (hu32 : verifier.iterations < u32Bound)
include hnonce hpos hu32

theorem peer_challenge : c.peer crypto normalize 1
      [saslOffer, saslChallenge verifier (c.nonce ++ nonce)]
    = some (c.finalFor crypto normalize verifier (c.nonce ++ nonce)) := by
  have htext : fromUtf8 ((saslChallenge verifier (c.nonce ++ nonce)).body.drop 4)
      = some (serverFirst verifier (c.nonce ++ nonce)) := fromUtf8_utf8 _
  have hparts : (serverFirst verifier (c.nonce ++ nonce)).splitOn ','
      = ["r=".toList ++ (c.nonce ++ nonce), "s=".toList ++ Base64.encode verifier.salt,
        "i=".toList ++ decimal verifier.iterations] := by
    rw [serverFirst_eq, splitOn_attributes (cons_ne_nil _ _)
      (serverFirst_comma verifier (not_mem_append c.nonce_comma hnonce))]
  simp only [peer]
  rw [htext, Option.bind_some, final, hparts]
  simp only [strip_append, Option.bind_eq_bind, Option.bind_some, decode_encode,
    parseBelow_decimal hu32, Option.filter_some, hpos, decide_true, if_true]
  rfl

/-- The exchange with an RFC client comes down to the key its proof leaves. -/
theorem authenticateClient_peer_eq (hinitial : c.initial.fits)
    (hfinal : (c.finalFor crypto normalize verifier (c.nonce ++ nonce)).fits) :
    authenticateClient crypto (c.peer crypto normalize) verifier nonce = if keysEqual (crypto.sha256
          (c.keyFor crypto normalize verifier (c.nonce ++ nonce)).toList) verifier.storedKey then
          .ok (⟨c.keyFor crypto normalize verifier (c.nonce ++ nonce), verifier⟩,
            c.conversation crypto verifier (c.nonce ++ nonce)) else .error .rejected := by
  have hcombined : ',' ∉ c.nonce ++ nonce := not_mem_append c.nonce_comma hnonce
  refine (bind_of_ok (orProtocol_eq_ok.mpr (readFrame_eq_ok.mpr ⟨c.peer_offer, hinitial⟩))).trans ?_
  refine (bind_of_ok (orProtocol_eq_ok.mpr c.clientFirst_initial)).trans ?_
  refine (bind_of_ok (orProtocol_eq_ok.mpr
    (readFrame_eq_ok.mpr ⟨peer_challenge hnonce hpos hu32, hfinal⟩))).trans ?_
  exact bind_of_ok (orProtocol_eq_ok.mpr (c.clientFinal_response hcombined _))

theorem authenticateClient_peer_iff :
    (∃ credentials sent, authenticateClient crypto (c.peer crypto normalize) verifier nonce
        = .ok (credentials, sent))
      ↔ c.initial.fits ∧ (c.finalFor crypto normalize verifier (c.nonce ++ nonce)).fits
        ∧ crypto.sha256 (c.keyFor crypto normalize verifier (c.nonce ++ nonce)).toList
          = verifier.storedKey := by
  constructor
  · rintro ⟨_, _, h⟩
    obtain ⟨_, _, _, _, _, _, ⟨hoffered, hinitial, hfirst⟩, ⟨hanswered, hfinal, -⟩, -⟩ :=
      proofChecked_of_authenticateClient h
    obtain rfl := Option.some.inj (c.peer_offer.symm.trans hoffered)
    obtain rfl := Except.ok.inj (c.clientFirst_initial.symm.trans hfirst)
    obtain rfl := Option.some.inj ((peer_challenge hnonce hpos hu32).symm.trans hanswered)
    rw [authenticateClient_peer_eq hnonce hpos hu32 hinitial hfinal] at h
    obtain ⟨hequal, -⟩ | ⟨-, ⟨⟩⟩ := ite_eq_iff.mp h
    exact ⟨hinitial, hfinal, (keysEqual_iff _ _).mp hequal⟩
  · rintro ⟨hinitial, hfinal, hkey⟩
    rw [authenticateClient_peer_eq hnonce hpos hu32 hinitial hfinal,
      if_pos ((keysEqual_iff _ _).mpr hkey)]
    exact ⟨_, _, rfl⟩

end

end RfcClient

/-! ## The login loop, message by message -/

section

variable {final : Text} {s s' : LoginState} {frame answer : Frame} {backend : Peer}
  {fuel count : Nat} {data : List UInt8}

/-- A turn is made of a message that fits. -/
theorem loginLoop_next_iff {t : LoginState} (hpeer : backend s.read.length s.sent = some frame)
    (hstep : loginStep crypto credentials nonce s frame = .ok (some s')) :
    loginLoop crypto credentials nonce backend fuel s = some (.ok t)
      ↔ ∃ n, fuel = n + 1 ∧ frame.fits
        ∧ loginLoop crypto credentials nonce backend n s' = some (.ok t) := by
  cases fuel with
  | zero => exact ⟨nofun, fun ⟨_, h, _⟩ => nomatch h⟩
  | succ fuel =>
    rw [loginLoop, readFrame, hpeer]
    by_cases hfits : frame.fits
    · simp [hfits, orFailed, hstep]
    · simp [hfits, orFailed]

theorem loginLoop_ok_iff {t : LoginState}
    (hpeer : backend s.read.length s.sent = some (authMessage authOk [])) :
    loginLoop crypto credentials nonce backend fuel s = some (.ok t) ↔ 0 < fuel ∧ t = s := by
  have hstep : loginStep crypto credentials nonce s (authMessage authOk []) = .ok none := rfl
  have hread : orFailed (readFrame backend s.read.length s.sent) = .ok (authMessage authOk []) :=
    orFailed_eq_ok.mpr (readFrame_eq_ok.mpr ⟨hpeer, by decide⟩)
  cases fuel with
  | zero => exact ⟨nofun, fun h => absurd h.1 (Nat.lt_irrefl 0)⟩
  | succ => simp [loginLoop, hread, hstep, eq_comm]

/-- Messages of other kinds are collected up to `ReadyForQuery`, as long as they
fit. -/
theorem restLoop_ready_iff {frames : List Frame} {last : Frame} {sent : List Frame}
    (rest : List UInt8) (hpeer : ∀ i, backend (count + i) sent = (frames ++ [last])[i]?)
    (hkinds : ∀ f ∈ frames, f.kind ≠ 'E'.toUInt8 ∧ f.kind ≠ 'Z'.toUInt8)
    (hlast : last.kind = 'Z'.toUInt8) :
    (∃ bytes, restLoop backend sent fuel count rest = some (.ok bytes))
      ↔ frames.length < fuel ∧ ∀ f ∈ frames ++ [last], f.fits := by
  induction frames generalizing count rest fuel with
  | nil =>
    have hread : backend count sent = some last := hpeer 0
    have herror : last.kind ≠ 'E'.toUInt8 := hlast ▸ by decide
    cases fuel with
    | zero => simp [restLoop]
    | succ =>
      rw [restLoop, readFrame, hread]
      by_cases hfits : last.fits <;> simp [hfits, orFailed, herror, eq_true hlast]
  | cons f _ ih =>
    have hread : backend count sent = some f := hpeer 0
    obtain ⟨⟨herror, hready⟩, hkinds⟩ := forall_mem_cons.mp hkinds
    cases fuel with
    | zero => simp [restLoop]
    | succ =>
      rw [restLoop, readFrame, hread]
      by_cases hfits : f.fits
      · have hpeer' : ∀ i, backend (count + 1 + i) sent = _ := fun i => by
          rw [Nat.add_assoc, Nat.add_comm 1 i, hpeer (i + 1), cons_append, getElem?_cons_succ]
        simp [hfits, orFailed, herror, hready, ih _ hpeer' hkinds]
      · simp [hfits, orFailed]

end

/-! ## A backend accepts the proxy -/

namespace RfcServer

variable {server : RfcServer}

theorem mechanism_mem_offer (server : RfcServer) :
    utf8 mechanism ∈ (server.offer.body.drop 4).splitOn 0 := by
  have hparts : ∀ part ∈ server.mechanisms ++ [[], []], (0 : UInt8) ∉ part := by
    intro part hpart
    rcases mem_append.mp hpart with hmechanism | hempty
    · exact server.mechanisms_zero part hmechanism
    · simp only [mem_cons, not_mem_nil, or_false, or_self] at hempty
      rw [hempty]
      exact not_mem_nil
  have hsplit : (server.offer.body.drop 4).splitOn 0 = server.mechanisms ++ [[], []] :=
    splitOn_intercalate 0 hparts (by simp)
  rw [hsplit]
  exact mem_append_left _ server.offers

theorem first_parts_comma (server : RfcServer) (hnonce : ',' ∉ nonce) :
    ∀ part ∈ ("r=".toList ++ (nonce ++ server.nonce))
      :: ("s=".toList ++ Base64.encode server.verifier.salt)
      :: ("i=".toList ++ decimal server.verifier.iterations) :: server.extensions,
      ',' ∉ part := by
  simp only [forall_mem_cons]
  exact ⟨not_mem_append (by decide) (not_mem_append hnonce server.nonce_comma),
    not_mem_append (by decide) (comma_not_mem_base64 _),
    not_mem_append (by decide) (not_mem_decimal (by decide) _), server.extensions_comma⟩

theorem serverNonce_first (server : RfcServer) (hnonce : ',' ∉ nonce) :
    serverNonce nonce (server.first nonce) = .ok (nonce ++ server.nonce) := by
  have hattribute : attributeOf (server.first nonce) 'r' = some (nonce ++ server.nonce) :=
    attributeOf_head (server.first_parts_comma hnonce)
  refine orFail_eq_ok.mpr (Option.filter_eq_some_iff.mpr ⟨hattribute, ?_⟩)
  rw [strip_append]
  rfl

theorem checkSameVerifier_first (hnonce : ',' ∉ nonce)
    (hiterations : server.verifier.iterations < u32Bound) :
    checkSameVerifier (server.first nonce) server.verifier = .ok () := by
  have hparts := server.first_parts_comma hnonce
  have htail := (forall_mem_cons.mp hparts).2
  have hsalt : attributeOf (server.first nonce) 's' = some (encode server.verifier.salt) :=
    (attributeOf_tail hparts (by decide)).trans (attributeOf_head htail)
  have hcount : attributeOf (server.first nonce) 'i' = some (decimal server.verifier.iterations) :=
    (attributeOf_tail hparts (by decide)).trans ((attributeOf_tail htail (by decide)).trans
      (attributeOf_head (forall_mem_cons.mp htail).2))
  refine bind_eq_ok.mpr ⟨_, orFail_eq_ok.mpr hsalt, ?_⟩
  refine bind_eq_ok.mpr ⟨_, orFail_eq_ok.mpr hcount, ?_⟩
  exact ensure_eq_ok.mpr ⟨decode_encode _, parseBelow_decimal hiterations⟩

/-- The text the proxy and the backend sign. -/
def authFor (server : RfcServer) (nonce : Text) : Text :=
  authText (clientFirstBare nonce) (server.first nonce) (withoutProof (nonce ++ server.nonce))

/-- The proxy's answer to the challenge. -/
def answerFor (crypto : Crypto) (credentials : Credentials) (server : RfcServer) (nonce : Text) :
    Frame :=
  response (utf8 (withoutProof (nonce ++ server.nonce) ++ (",p=".toList
    ++ Base64.encode (xor credentials.clientKey (crypto.hmac server.verifier.storedKey.toList
      (utf8 (server.authFor nonce)))).toList)))

theorem answerChallenge_first (hverifier : credentials.verifier = server.verifier)
    (hnonce : ',' ∉ nonce) (hiterations : server.verifier.iterations < u32Bound) :
    answerChallenge crypto credentials nonce (server.first nonce)
      = .ok (server.answerFor crypto credentials nonce, server.authFor nonce) := by
  refine bind_eq_ok.mpr ⟨_, server.serverNonce_first hnonce, ?_⟩
  refine bind_eq_ok.mpr ⟨(), hverifier ▸ checkSameVerifier_first hnonce hiterations, ?_⟩
  rw [hverifier]
  rfl

theorem readInitial_initialResponse (hnonce : ',' ∉ nonce) :
    readInitial (initialResponse nonce) = some ("n,,".toList, clientFirstBare nonce, nonce) := by
  have hmessage : "n,,".toList ++ clientFirstBare nonce
      = ['n'] ++ ',' :: ([] ++ ',' :: clientFirstBare nonce) := rfl
  have hparts : (clientFirstBare nonce).splitOn ',' = ["n=".toList, "r=".toList ++ nonce] := by
    have hbare : clientFirstBare nonce = "n=".toList ++ ',' :: ("r=".toList ++ nonce) := rfl
    rw [hbare, splitOn_append_cons_self_of_not_mem (by decide),
      splitOn_eq_singleton (not_mem_append (by decide) hnonce)]
  have hfirst : readFirst ("n,,".toList ++ clientFirstBare nonce)
      = some ("n,,".toList, clientFirstBare nonce, nonce) := by
    have hn : strip "n=".toList "n=".toList = some [] := by decide
    unfold readFirst
    rw [hmessage, splitOnce_append (by decide), Option.bind_eq_bind, Option.bind_some]
    simp only [splitOnce_append not_mem_nil, Option.bind_eq_bind, Option.bind_some,
      hparts, hn, strip_append]
    rfl
  -- The mechanism, the zero and the length are before the message.
  exact Option.bind_eq_some_iff.mpr ⟨_, fromUtf8_utf8 _, hfirst⟩

/-- The backend finds the same key in the proof, and lets the proxy in. -/
theorem accept_answerFor (hstored : crypto.sha256 credentials.clientKey.toList
      = server.verifier.storedKey) (hnonce : ',' ∉ nonce) :
    server.accept crypto (initialResponse nonce) (server.answerFor crypto credentials nonce)
      = some (server.authFor nonce) := by
  have hparts : (withoutProof (nonce ++ server.nonce)).splitOn ','
      = ["c=biws".toList, "r=".toList ++ (nonce ++ server.nonce)] := by
    have htext : withoutProof (nonce ++ server.nonce)
        = "c=biws".toList ++ ',' :: ("r=".toList ++ (nonce ++ server.nonce)) := rfl
    rw [htext, splitOn_append_cons_self_of_not_mem (by decide), splitOn_eq_singleton
      (not_mem_append (by decide) (not_mem_append hnonce server.nonce_comma))]
  have hsplit : ∀ proof : Key, rsplitOnce ",p=".toList
      (withoutProof (nonce ++ server.nonce) ++ (",p=".toList ++ Base64.encode proof.toList))
      = some (withoutProof (nonce ++ server.nonce), encode proof.toList) := fun proof =>
    @rsplitOnce_append ',' ['p', '='] (by decide) _ _ (comma_not_mem_base64 _)
  have hproof (proof : Key) : keyFromBase64 (encode proof.toList) = .ok proof :=
    keyFromBase64_eq_ok.mpr rfl
  have hbinding : "c=biws".toList = "c=".toList ++ Base64.encode (utf8 "n,,".toList) := by
    decide +kernel
  have haccepts : rfcAccepts crypto server.verifier (server.authFor nonce)
      (xor credentials.clientKey (crypto.hmac server.verifier.storedKey.toList
        (utf8 (server.authFor nonce)))) := by
    rw [rfcAccepts, xor_xor_cancel, hstored]
    exact decide_eq_true rfl
  unfold accept
  rw [readInitial_initialResponse hnonce, answerFor, response, fromUtf8_utf8]
  simp only [Option.bind_eq_bind, Option.bind_some, hsplit, hproof, hparts]
  exact if_pos ⟨hbinding, trivial, haccepts⟩

theorem checkSignature_final (hverifier : credentials.verifier = server.verifier) (auth : Text) :
    ∃ text, fromUtf8 ((server.final crypto auth).body.drop 4) = some text
      ∧ checkSignature crypto credentials auth text = .ok () := by
  have hparts : ∀ part ∈ ("v=".toList ++ Base64.encode
      (crypto.hmac server.verifier.serverKey.toList (utf8 auth)).toList)
      :: server.finalExtensions, ',' ∉ part := by
    simp only [forall_mem_cons]
    exact ⟨not_mem_append (by decide) (comma_not_mem_base64 _), server.finalExtensions_comma⟩
  refine ⟨_, fromUtf8_utf8 _, bind_eq_ok.mpr
    ⟨crypto.hmac server.verifier.serverKey.toList (utf8 auth), bind_eq_ok.mpr
      ⟨_, orFail_eq_ok.mpr (attributeOf_head hparts), keyFromBase64_eq_ok.mpr rfl⟩,
      ensure_eq_ok.mpr ?_⟩⟩
  rw [keysEqual_iff, hverifier]

structure Fits (crypto : Crypto) (server : RfcServer) (nonce : Text) : Prop where
  offer : server.offer.fits = true
  challenge : (server.challenge nonce).fits = true
  final : (server.final crypto (server.authFor nonce)).fits = true
  parameters : ∀ f ∈ server.parameters, f.fits = true

/-! The states of a login to the server, after each of its messages. -/

section

variable (crypto : Crypto) (credentials : Credentials) (server : RfcServer) (nonce : Text)

def offered : LoginState where
  sent := [initialResponse nonce]
  read := [server.offer]

def challenged : LoginState where
  sent := [initialResponse nonce, server.answerFor crypto credentials nonce]
  read := [server.offer, server.challenge nonce]
  auth := server.authFor nonce

def signed : LoginState :=
  { server.challenged crypto credentials nonce with
    read := [server.offer, server.challenge nonce, server.final crypto (server.authFor nonce)] }

end

theorem loginStep_offered (server : RfcServer) :
    loginStep crypto credentials nonce {} server.offer = .ok (some (server.offered nonce)) :=
  if_pos server.mechanism_mem_offer

section

variable (hverifier : credentials.verifier = server.verifier) (hnonce : ',' ∉ nonce)
  (hu32 : server.verifier.iterations < u32Bound)
  (hstored : crypto.sha256 credentials.clientKey.toList = server.verifier.storedKey)
include hverifier

theorem loginStep_signed :
    loginStep crypto credentials nonce (server.challenged crypto credentials nonce)
        (server.final crypto (server.authFor nonce))
      = .ok (some (server.signed crypto credentials nonce)) := by
  obtain ⟨text, htext, hsignature⟩ := checkSignature_final hverifier (server.authFor nonce)
  exact orFailed_eq_ok.mpr (bind_eq_ok.mpr ⟨text, orFail_eq_ok.mpr htext,
    bind_eq_ok.mpr ⟨(), hsignature, rfl⟩⟩)

include hnonce hu32

theorem loginStep_challenged :
    loginStep crypto credentials nonce (server.offered nonce) (server.challenge nonce)
      = .ok (some (server.challenged crypto credentials nonce)) :=
  orFailed_eq_ok.mpr (bind_eq_ok.mpr ⟨_, orFail_eq_ok.mpr (fromUtf8_utf8 _),
    bind_eq_ok.mpr ⟨_, answerChallenge_first hverifier hnonce hu32, rfl⟩⟩)

include hstored

theorem loginLoop_peer_iff (fuel : Nat) {t : LoginState} :
    loginLoop crypto credentials nonce (server.peer crypto) fuel {} = some (.ok t)
      ↔ 4 ≤ fuel ∧ server.offer.fits ∧ (server.challenge nonce).fits
        ∧ (server.final crypto (server.authFor nonce)).fits
        ∧ t = server.signed crypto credentials nonce := by
  have haccept := accept_answerFor hstored hnonce
  have hchallenge : server.peer crypto 1 [initialResponse nonce]
      = some (server.challenge nonce) := by
    simp only [peer, readInitial_initialResponse hnonce, Option.map_some]
  have hfinal : server.peer crypto 2
      [initialResponse nonce, server.answerFor crypto credentials nonce]
      = some (server.final crypto (server.authFor nonce)) := by
    simp only [peer, haccept, Option.map_some]
  have hok : server.peer crypto 3 [initialResponse nonce, server.answerFor crypto credentials nonce]
      = some (authMessage authOk []) := by
    simp only [peer, haccept, Option.map_some]
  have hoffer : server.peer crypto 0 [] = some server.offer := rfl
  simp only [loginLoop_next_iff (s := {}) hoffer server.loginStep_offered,
    loginLoop_next_iff (s := server.offered nonce) hchallenge
      (loginStep_challenged hverifier hnonce hu32),
    loginLoop_next_iff (s := server.challenged crypto credentials nonce) hfinal
      (loginStep_signed hverifier),
    loginLoop_ok_iff (s := server.signed crypto credentials nonce) hok]
  constructor
  · rintro ⟨_, rfl, hoffer, _, rfl, hchallenge, _, rfl, hfinal, hfuel, rfl⟩
    exact ⟨by omega, hoffer, hchallenge, hfinal, rfl⟩
  · rintro ⟨hfuel, hoffer, hchallenge, hfinal, rfl⟩
    exact ⟨fuel - 1, by omega, hoffer, fuel - 2, by omega, hchallenge, fuel - 3, by omega, hfinal,
      by omega, rfl⟩

/-- The key the proxy has from a client logs it in to a backend with the same
verifier, as long as the backend's messages fit. -/
theorem loginToBackend_peer_iff :
    (∃ fuel bytes, loginToBackend crypto credentials nonce (server.peer crypto) fuel
      = some (.ok bytes)) ↔ server.Fits crypto nonce := by
  have hrest (fuel : Nat) : (∃ bytes, restLoop (server.peer crypto) [initialResponse nonce,
      server.answerFor crypto credentials nonce] fuel 4 [] = some (.ok bytes))
      ↔ server.parameters.length < fuel ∧ ∀ f ∈ server.parameters ++ [server.ready], f.fits :=
    restLoop_ready_iff [] (fun i => congrArg (server.peer crypto · _) (Nat.add_comm 4 i))
      server.parameters_kind rfl
  constructor
  · rintro ⟨fuel, bytes, h⟩
    unfold loginToBackend at h
    split at h
    · cases h
    · cases h
    · rename_i hloop
      obtain ⟨-, hoffer, hchallenge, hfinal, rfl⟩ :=
        (loginLoop_peer_iff hverifier hnonce hu32 hstored fuel).mp hloop
      have hframes := ((hrest fuel).mp ⟨bytes, h⟩).2
      exact ⟨hoffer, hchallenge, hfinal, fun f hf => hframes f (mem_append_left _ hf)⟩
  · rintro ⟨hoffer, hchallenge, hfinal, hparameters⟩
    have hframes : ∀ f ∈ server.parameters ++ [server.ready], f.fits := by
      simp only [mem_append, mem_singleton]
      rintro f (hf | rfl)
      · exact hparameters f hf
      · rfl
    have hloop := (loginLoop_peer_iff hverifier hnonce hu32 hstored
      (server.parameters.length + 4)).mpr ⟨by omega, hoffer, hchallenge, hfinal, rfl⟩
    refine ⟨server.parameters.length + 4, ?_⟩
    rw [loginToBackend, hloop]
    exact (hrest _).mpr ⟨by omega, hframes⟩

end

end RfcServer

/-! ## From the password to the backend -/

/-- A verifier made of a password reads back, and lets in a client with the
password exactly if its messages fit a frame and its proof leaves a key of the
verifier, as it does when normalisation leaves the password alone. Whatever a
client does, it is let in for a proof only, and the key that leaves logs in to
a server with the verifier exactly if the server's messages fit. -/
theorem scram_end_to_end (crypto : Crypto) (normalize : Text → Text) (password : Text)
    (salt : List UInt8) (iterations : Nat) (hpos : 1 ≤ iterations) (hu32 : iterations < u32Bound) :
    ∃ verifier, Verifier.parse (makeVerifier crypto password salt iterations) = some verifier
      ∧ verifier.salt = salt ∧ verifier.iterations = iterations
      ∧ (∀ (c : RfcClient) (nonce : Text), c.password = password → ',' ∉ nonce →
        ((∃ credentials sent, authenticateClient crypto (c.peer crypto normalize) verifier nonce
            = .ok (credentials, sent))
          ↔ c.initial.fits ∧ (c.finalFor crypto normalize verifier (c.nonce ++ nonce)).fits
            ∧ crypto.sha256 (c.keyFor crypto normalize verifier (c.nonce ++ nonce)).toList
              = verifier.storedKey)
        ∧ (normalize password = password →
          crypto.sha256 (c.keyFor crypto normalize verifier (c.nonce ++ nonce)).toList
            = verifier.storedKey))
      ∧ (∀ (client : Peer) (nonce : Text) (credentials : Credentials) (sent : List Frame),
        authenticateClient crypto client verifier nonce = .ok (credentials, sent) →
        ∀ (server : RfcServer) (loginNonce : Text), server.verifier = verifier →
          ',' ∉ loginNonce →
          ((∃ fuel bytes, loginToBackend crypto credentials loginNonce (server.peer crypto) fuel
            = some (.ok bytes)) ↔ server.Fits crypto loginNonce))
      ∧ ∀ (any : Verifier) (client : Peer) (nonce : Text) (credentials : Credentials)
          (sent : List Frame),
          authenticateClient crypto client any nonce = .ok (credentials, sent) →
          ProofChecked crypto client any nonce credentials := by
  refine ⟨_, parse_makeVerifier crypto password salt hu32, rfl, rfl, ?_, ?_, ?_⟩
  · rintro c nonce rfl hnonce
    refine ⟨RfcClient.authenticateClient_peer_iff hnonce hpos hu32, fun hnormal => ?_⟩
    apply RfcClient.sha256_keyFor
    rw [RfcClient.salted, hnormal]
    rfl
  · rintro _ _ credentials _ h server _ hverifier hloginNonce
    obtain ⟨_, _, _, _, _, _, -, -, _, -, -, rfl, hstored⟩ := proofChecked_of_authenticateClient h
    exact RfcServer.loginToBackend_peer_iff hverifier.symm hloginNonce (hverifier ▸ hu32)
      (hverifier ▸ hstored)
  · intro _ _ _ _ _ h
    exact proofChecked_of_authenticateClient h

/-! A client and a server of one password, with a sum of bytes for a hash. -/

def sumKey (bytes : List UInt8) : Key := Vector.replicate 32 (bytes.foldl (· + ·) 0)

def sumCrypto : Crypto where
  hmac key message := sumKey (key ++ message)
  sha256 data := sumKey (1 :: data)

def secretVerifier : Verifier :=
  verifierOf sumCrypto (hi sumCrypto (utf8 "secret".toList) [1, 2, 3] 4) [1, 2, 3] 4

def secretClient : RfcClient where
  password := "secret".toList
  supportsBinding := true
  authzid := some "me".toList
  username := "alice".toList
  nonce := "abc".toList
  extensions := []
  finalExtensions := []
  authzid_comma := by decide
  username_comma := by decide
  nonce_comma := by decide
  extensions_comma := nofun
  finalExtensions_comma := nofun

def secretServer : RfcServer where
  verifier := secretVerifier
  nonce := "xyz".toList
  mechanisms := [utf8 "SCRAM-SHA-256-PLUS".toList, utf8 mechanism]
  extensions := []
  finalExtensions := []
  parameters := [⟨'S'.toUInt8, [1]⟩]
  status := 'I'.toUInt8
  nonce_comma := by decide
  extensions_comma := nofun
  finalExtensions_comma := nofun
  offers := by decide
  mechanisms_zero := by decide
  parameters_kind := by decide

theorem scram_end_to_end_secret : ∃ credentials sent,
      authenticateClient sumCrypto (secretClient.peer sumCrypto id) secretVerifier "srv".toList
        = .ok (credentials, sent)
      ∧ ∃ fuel bytes, loginToBackend sumCrypto credentials "own".toList
          (secretServer.peer sumCrypto) fuel = some (.ok bytes) := by
  obtain ⟨verifier, hparse, -, -, hclients, hservers, -⟩ := scram_end_to_end sumCrypto id
    "secret".toList [1, 2, 3] 4 (by decide) (by decide)
  obtain rfl : secretVerifier = verifier :=
    Option.some.inj ((parse_makeVerifier sumCrypto "secret".toList [1, 2, 3]
      (by decide)).symm.trans hparse)
  obtain ⟨haccepts, hkey⟩ := hclients secretClient "srv".toList rfl (by decide)
  obtain ⟨credentials, sent, haccepted⟩ :=
    haccepts.mpr ⟨by decide +kernel, by decide +kernel, hkey rfl⟩
  refine ⟨credentials, sent, haccepted, ?_⟩
  refine (hservers _ _ _ _ haccepted secretServer "own".toList rfl (by decide)).mpr ?_
  exact ⟨by decide +kernel, by decide +kernel, by decide +kernel, by decide⟩

/-- What SASLprep does to a no-break space. -/
def plainSpaces (text : Text) : Text := text.map fun c => if c = '\u00a0' then ' ' else c

def spacedClient : RfcClient := { secretClient with password := "se\u00a0cret".toList }

/-- A hash that tells passwords apart. -/
def firstBytes (bytes : List UInt8) : Key := Vector.ofFn fun i => bytes.getD i 0

def firstCrypto : Crypto where
  hmac key message := firstBytes (key ++ message)
  sha256 data := firstBytes (1 :: data)

def spacedVerifier : Verifier :=
  verifierOf firstCrypto (hi firstCrypto (utf8 spacedClient.password) [1, 2, 3] 3) [1, 2, 3] 3

def longClient : RfcClient :=
  { secretClient with
    username := replicate maxFrame 'a'
    username_comma := by simp [mem_replicate] }

theorem length_le_utf8 (t : Text) : t.length ≤ (utf8 t).length := by
  induction t with
  | nil => exact Nat.le_refl 0
  | cons a _ ih =>
    have hpos := Char.utf8Size_pos a
    simp only [utf8, flatMap_cons, length_append, String.length_utf8EncodeChar, length_cons] at ih ⊢
    omega

theorem RfcClient.username_le_initial (c : RfcClient) :
    c.username.length ≤ c.initial.body.length := by
  have hutf8 := length_le_utf8 (c.gs2Header ++ c.bare)
  rw [bare, attributes_cons] at hutf8
  simp only [initial, response, bare, attributes_cons, length_append, length_cons] at hutf8 ⊢
  omega

/-- The verifier of a password with a no-break space, and a client that normalises
the password as the RFC says; and the verifier of an ordinary one, and a client with
a long name. -/
theorem scram_rejects_normalised :
    Verifier.parse (makeVerifier firstCrypto spacedClient.password [1, 2, 3] 3)
        = some spacedVerifier
      ∧ authenticateClient firstCrypto (spacedClient.peer firstCrypto plainSpaces)
          spacedVerifier "srv".toList = .error .rejected
      ∧ ∃ message, authenticateClient sumCrypto (longClient.peer sumCrypto id) secretVerifier
          "srv".toList = .error (.protocol message) := by
  refine ⟨parse_makeVerifier firstCrypto spacedClient.password [1, 2, 3] (by decide), ?_, ?_⟩
  · have hrejected : keysEqual (firstCrypto.sha256 (spacedClient.keyFor firstCrypto plainSpaces
        spacedVerifier (spacedClient.nonce ++ "srv".toList)).toList) spacedVerifier.storedKey
        = false := by
      decide +kernel
    rw [RfcClient.authenticateClient_peer_eq (by decide) (by decide) (by decide)
      (by decide +kernel) (by decide +kernel), hrejected]
    rfl
  · have hlong : maxFrame ≤ longClient.initial.body.length :=
      length_replicate (n := maxFrame) (a := 'a') ▸ longClient.username_le_initial
    have hread : readFrame (longClient.peer sumCrypto id) 0 [saslOffer]
        = .error s!"bad message length {longClient.initial.body.length + 4}" := by
      rw [readFrame, longClient.peer_offer]
      refine if_neg ?_
      rw [Frame.fits, decide_eq_true_eq]
      omega
    exact ⟨_, congrArg (· >>= _) (congrArg orProtocol hread)⟩

end PgCluster.Scram
