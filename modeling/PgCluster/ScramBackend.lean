import PgCluster.Scram

/-!
# Who a backend login trusts

`login_to_backend` answers the messages of a backend as they come, in any
order and number, until `AuthenticationOk`. A server signature is checked
where one is sent, against the text that was signed last.
-/

namespace PgCluster.Scram

open Text PgCluster.Scram.Frame List

/-! ## What a backend sent -/

/-- An authentication message with this code. -/
def Frame.hasCode (frame : Frame) (code : List UInt8) : Bool :=
  frame.kind = 'R'.toUInt8 && frame.body.take 4 = code

/-- `AuthenticationSASLContinue`, with the server-first-message. -/
def Frame.isChallenge (frame : Frame) : Bool := frame.hasCode authSaslContinue

/-- `AuthenticationSASLFinal`, with the server signature. -/
def Frame.isFinal (frame : Frame) : Bool := frame.hasCode authSaslFinal

def Frame.text (frame : Frame) : Option Text := fromUtf8 (frame.body.drop 4)

/-- The text signed in answer to a challenge, with the nonce of this login. -/
structure Signs (nonce : Text) (challenge : Frame) (auth : Text) : Prop where
  isChallenge : challenge.isChallenge = true
  fresh : ∃ serverFirst serverNonce, challenge.text = some serverFirst
    ∧ attributeOf serverFirst 'r' = some serverNonce ∧ (strip nonce serverNonce).isSome = true
    ∧ auth = authText (clientFirstBare nonce) serverFirst (withoutProof serverNonce)

section

variable (crypto : Crypto) (verifier : Verifier) (nonce : Text)

/-- The message has the server signature of this text. -/
structure Signature (auth : Text) (final : Frame) : Prop where
  isFinal : final.isFinal = true
  signed : ∃ serverFinal v, final.text = some serverFinal ∧ attributeOf serverFinal 'v' = some v
    ∧ keyFromBase64 v = .ok (crypto.hmac verifier.serverKey.toList (utf8 auth))

/-- Among these messages the backend sent a challenge and, after it, the
server signature of the text signed in answer. -/
def Proved (frames : List Frame) : Prop :=
  ∃ before challenge between final after auth,
    frames = before ++ challenge :: (between ++ final :: after)
      ∧ Signs nonce challenge auth ∧ Signature crypto verifier auth final

end

/-- A server signature came, and not before every challenge. -/
def answersChallenge : List Frame → Bool
  | [] => false
  | frame :: rest => (frame.isChallenge && rest.any Frame.isFinal) || answersChallenge rest

theorem answersChallenge_append (before : List Frame) (frame : Frame) :
    answersChallenge (before ++ [frame])
      = (answersChallenge before || (before.any isChallenge && frame.isFinal)) := by
  induction before with
  | nil => simp [answersChallenge]
  | cons f rest ih =>
    simp only [cons_append, answersChallenge, ih, any_append, any_cons, any_nil, Bool.or_false]
    generalize rest.any isFinal = final
    generalize rest.any isChallenge = challenge
    cases f.isChallenge <;> cases frame.isFinal <;> cases final <;> cases challenge <;> simp

variable {crypto : Crypto} {credentials : Credentials} {verifier : Verifier} {nonce : Text}
  {s s' t : LoginState} {frame answer : Frame} {frames : List Frame} {backend : Peer}

/-- No login is mutual without the two messages in this order. -/
theorem Proved.answersChallenge (h : Proved crypto verifier nonce frames) :
    Scram.answersChallenge frames := by
  obtain ⟨before, _, _, _, _, _, rfl, hsigns, hsignature⟩ := h
  induction before with
  | nil => simp [Scram.answersChallenge, hsigns.isChallenge, hsignature.isFinal]
  | cons _ _ ih => rw [cons_append, Scram.answersChallenge, ih, Bool.or_true]

theorem Proved.append (h : Proved crypto verifier nonce frames) (frame : Frame) :
    Proved crypto verifier nonce (frames ++ [frame]) := by
  obtain ⟨before, challenge, between, final, after, auth, rfl, h⟩ := h
  exact ⟨before, challenge, between, final, after ++ [frame], auth, by simp, h⟩

/-! ## One message -/

theorem signature_of_checkSignature {auth final : Text} (hfinal : frame.isFinal)
    (htext : frame.text = some final) (h : checkSignature crypto credentials auth final = .ok ()) :
    Signature crypto credentials.verifier auth frame := by
  obtain ⟨_, hsignature, h⟩ := bind_eq_ok.mp h
  obtain ⟨v, hv, hkey⟩ := bind_eq_ok.mp hsignature
  have hequal := (keysEqual_iff _ _).mp (ensure_eq_ok.mp h)
  exact ⟨hfinal, final, v, htext, orFail_eq_ok.mp hv, hequal ▸ hkey⟩

theorem signs_of_answerChallenge {challenge auth : Text}
    (hchallenge : frame.isChallenge) (htext : frame.text = some challenge)
    (h : answerChallenge crypto credentials nonce challenge = .ok (answer, auth)) :
    Signs nonce frame auth := by
  obtain ⟨serverNonce, hnonce, h⟩ := bind_eq_ok.mp h
  obtain ⟨-, -, h⟩ := bind_eq_ok.mp h
  obtain ⟨hattribute, hfresh⟩ := Option.filter_eq_some_iff.mp (orFail_eq_ok.mp hnonce)
  have hauth := (Prod.mk.inj (Except.ok.inj h)).2
  exact ⟨hchallenge, challenge, serverNonce, htext, hattribute, hfresh, hauth.symm⟩

/-- What a message that keeps the login going did. -/
inductive Took (crypto : Crypto) (credentials : Credentials) (nonce : Text) (s s' : LoginState)
    (frame : Frame) : Prop where
  | offer (hchallenge : frame.isChallenge = false) (hfinal : frame.isFinal = false)
      (hauth : s'.auth = s.auth)
  | challenge (hfinal : frame.isFinal = false) (hsigns : Signs nonce frame s'.auth)
  | final (hchallenge : frame.isChallenge = false)
      (hsignature : Signature crypto credentials.verifier s.auth frame) (hauth : s'.auth = s.auth)

theorem took_of_loginStep (h : loginStep crypto credentials nonce s frame = .ok (some s')) :
    s'.read = s.read ++ [frame] ∧ Took crypto credentials nonce s s' frame := by
  unfold loginStep at h
  by_cases herror : frame.kind = 'E'.toUInt8
  · rw [if_pos herror] at h
    cases h
  by_cases hkind : frame.kind ≠ 'R'.toUInt8
  · rw [if_neg herror, if_pos hkind] at h
    cases h
  by_cases hshort : frame.body.length < 4
  · rw [if_neg herror, if_neg hkind, if_pos hshort] at h
    cases h
  rw [if_neg herror, if_neg hkind, if_neg hshort] at h
  have hR : frame.kind = 'R'.toUInt8 := not_not.mp hkind
  have hcode : ∀ code, frame.hasCode code = decide (frame.body.take 4 = code) := by
    intro _
    simp [hasCode, hR]
  by_cases hok : frame.body.take 4 = authOk
  · rw [if_pos hok] at h
    cases h
  by_cases hsasl : frame.body.take 4 = authSasl
  · rw [if_neg hok, if_pos hsasl] at h
    by_cases hoffer : utf8 mechanism ∈ (frame.body.drop 4).splitOn 0
    · rw [if_pos hoffer] at h
      cases Except.ok.inj h
      refine ⟨rfl, .offer ?_ ?_ rfl⟩
      · rw [isChallenge, hcode, hsasl]
        decide
      · rw [isFinal, hcode, hsasl]
        decide
    · rw [if_neg hoffer] at h
      cases h
  by_cases hcontinue : frame.body.take 4 = authSaslContinue
  · rw [if_neg hok, if_neg hsasl, if_pos hcontinue, orFailed_eq_ok] at h
    obtain ⟨_, htext, h⟩ := bind_eq_ok.mp h
    obtain ⟨⟨_, _⟩, hanswer, h⟩ := bind_eq_ok.mp h
    cases Except.ok.inj h
    refine ⟨rfl, .challenge ?_ (signs_of_answerChallenge ?_ (orFail_eq_ok.mp htext) hanswer)⟩
    · rw [isFinal, hcode, hcontinue]
      decide
    · rw [isChallenge, hcode, hcontinue]
      decide
  by_cases hfinal : frame.body.take 4 = authSaslFinal
  · rw [if_neg hok, if_neg hsasl, if_neg hcontinue, if_pos hfinal, orFailed_eq_ok] at h
    obtain ⟨_, htext, h⟩ := bind_eq_ok.mp h
    obtain ⟨⟨⟩, hcheck, h⟩ := bind_eq_ok.mp h
    cases Except.ok.inj h
    refine ⟨rfl, .final ?_ (signature_of_checkSignature ?_ (orFail_eq_ok.mp htext) hcheck) rfl⟩
    · rw [isChallenge, hcode, hfinal]
      decide
    · rw [isFinal, hcode, hfinal]
      decide
  · rw [if_neg hok, if_neg hsasl, if_neg hcontinue, if_neg hfinal] at h
    cases h

/-! ## The login loop -/

/-- The text that was signed is that of the last challenge, and a server
signature that came after a challenge was the right one. -/
structure Follows (crypto : Crypto) (credentials : Credentials) (nonce : Text) (s : LoginState) :
    Prop where
  signs : s.read.any Frame.isChallenge = true →
    ∃ before challenge between, s.read = before ++ challenge :: between
      ∧ Signs nonce challenge s.auth
  proved : answersChallenge s.read = true → Proved crypto credentials.verifier nonce s.read

theorem Follows.step (hs : Follows crypto credentials nonce s)
    (h : loginStep crypto credentials nonce s frame = .ok (some s')) :
    Follows crypto credentials nonce s' := by
  obtain ⟨hread, htook⟩ := took_of_loginStep h
  -- A challenge that was there stays the last one when no other comes.
  have hkept : frame.isChallenge = false → s'.auth = s.auth → s'.read.any isChallenge →
      ∃ before challenge between, s'.read = before ++ challenge :: between
        ∧ Signs nonce challenge s'.auth := by
    intro hchallenge hauth hany
    rw [hread, any_append, any_cons, hchallenge, any_nil, Bool.or_false, Bool.or_false] at hany
    obtain ⟨before, challenge, between, hsplit, hsigns⟩ := hs.signs hany
    exact ⟨before, challenge, between ++ [frame], by simp [hread, hsplit], hauth ▸ hsigns⟩
  -- Only a server signature makes a login mutual.
  have hquiet : frame.isFinal = false → answersChallenge s'.read →
      Proved crypto credentials.verifier nonce s'.read := by
    intro hfinal hanswers
    rw [hread, answersChallenge_append, hfinal, Bool.and_false, Bool.or_false] at hanswers
    exact hread ▸ (hs.proved hanswers).append frame
  cases htook with
  | offer hchallenge hfinal hauth => exact ⟨hkept hchallenge hauth, hquiet hfinal⟩
  | challenge hfinal hsigns => exact ⟨fun _ => ⟨s.read, frame, [], hread, hsigns⟩, hquiet hfinal⟩
  | final hchallenge hsignature hauth =>
    refine ⟨hkept hchallenge hauth, fun hanswers => ?_⟩
    rw [hread, answersChallenge_append, Bool.or_eq_true, Bool.and_eq_true] at hanswers
    rcases hanswers with hbefore | ⟨hany, -⟩
    · exact hread ▸ (hs.proved hbefore).append frame
    · obtain ⟨before, challenge, between, hsplit, hsigns⟩ := hs.signs hany
      exact ⟨before, challenge, between, frame, [], s.auth, by simp [hread, hsplit], hsigns,
        hsignature⟩

/-- A loop that ends well ends in a state reached by such messages. -/
theorem Follows.loginLoop {fuel : Nat} (hs : Follows crypto credentials nonce s)
    (h : loginLoop crypto credentials nonce backend fuel s = some (.ok t)) :
    Follows crypto credentials nonce t := by
  induction fuel generalizing s with
  | zero => cases h
  | succ _ ih =>
    rw [Scram.loginLoop] at h
    cases hframe : orFailed (readFrame backend s.read.length s.sent) with
    | error =>
      rw [hframe] at h
      cases h
    | ok frame =>
      rw [hframe] at h
      cases hstep : loginStep crypto credentials nonce s frame with
      | error => simp only [hstep] at h; cases h
      | ok next =>
        cases next with
        | none =>
          simp only [hstep] at h
          obtain rfl := Except.ok.inj (Option.some.inj h)
          exact hs
        | some =>
          simp only [hstep] at h
          exact ih (hs.step hstep) h

/-- What the backend sent before its `AuthenticationOk`. -/
def loginFrames (crypto : Crypto) (credentials : Credentials) (nonce : Text) (backend : Peer)
    (fuel : Nat) : Option (List Frame) :=
  match loginLoop crypto credentials nonce backend fuel {} with
  | some (.ok s) => some s.read
  | _ => none

theorem exists_loginLoop {fuel : Nat} {rest : List UInt8}
    (h : loginToBackend crypto credentials nonce backend fuel = some (.ok rest)) :
    ∃ s, loginLoop crypto credentials nonce backend fuel {} = some (.ok s) := by
  unfold loginToBackend at h
  cases hloop : loginLoop crypto credentials nonce backend fuel {} with
  | none => rw [hloop] at h; cases h
  | some result =>
    cases result with
    | error => rw [hloop] at h; cases h
    | ok s => exact ⟨s, rfl⟩

/-- A login that returns is mutual exactly if the backend did not leave out the
server signature of its challenge: before `AuthenticationOk` it then signed the
text made of the nonce of this login and its own challenge. -/
theorem backend_login_mutual {fuel : Nat} {rest : List UInt8}
    (hok : loginToBackend crypto credentials nonce backend fuel = some (.ok rest)) :
    ∃ frames, loginFrames crypto credentials nonce backend fuel = some frames
      ∧ (answersChallenge frames = true ↔ Proved crypto credentials.verifier nonce frames) := by
  obtain ⟨s, hloop⟩ := exists_loginLoop hok
  have hframes : loginFrames crypto credentials nonce backend fuel = some s.read := by
    rw [loginFrames, hloop]
  have hfollows : Follows crypto credentials nonce s :=
    Follows.loginLoop (s := {}) ⟨nofun, nofun⟩ hloop
  exact ⟨s.read, hframes, hfollows.proved, fun hproved => hproved.answersChallenge⟩

/-! A backend that sends fixed messages, and functions that hash everything to
the same key. -/

def sends (frames : List Frame) : Peer := fun count _ => frames[count]?

def zeroKey : Key := Vector.replicate 32 0

def zeroCrypto : Crypto where
  hmac _ _ := zeroKey
  sha256 _ := zeroKey

def zeroCredentials : Credentials where
  clientKey := zeroKey
  verifier := { iterations := 1, salt := [], storedKey := zeroKey, serverKey := zeroKey }

def offered : Frame := authMessage authSasl (utf8 "SCRAM-SHA-256\x00\x00".toList)

def challenged : Frame := authMessage authSaslContinue (utf8 "r=abcd,s=,i=1".toList)

def signed : Frame :=
  authMessage authSaslFinal (utf8 ("v=".toList ++ Base64.encode zeroKey.toList))

def accepted : Frame := authMessage authOk []

def ready : Frame := ⟨'Z'.toUInt8, ['I'.toUInt8]⟩

theorem backend_login_mutual_signed :
    ∃ frames, loginFrames zeroCrypto zeroCredentials "abc".toList
        (sends [offered, challenged, signed, accepted, ready]) 5 = some frames
      ∧ Proved zeroCrypto zeroCredentials.verifier "abc".toList frames := by
  have hok : (loginToBackend zeroCrypto zeroCredentials "abc".toList
      (sends [offered, challenged, signed, accepted, ready]) 5).any Except.isOk = true := by
    decide +kernel
  have hframes : loginFrames zeroCrypto zeroCredentials "abc".toList
      (sends [offered, challenged, signed, accepted, ready]) 5
      = some [offered, challenged, signed] := by decide +kernel
  obtain ⟨result, hresult, hok⟩ := (Option.any_eq_true _ _).mp hok
  cases result with
  | error => cases hok
  | ok =>
    obtain ⟨frames, hread, hmutual⟩ := backend_login_mutual hresult
    obtain rfl := Option.some.inj (hframes.symm.trans hread)
    exact ⟨_, hread, hmutual.mp (by decide +kernel)⟩

/-- The login returns and the backend has proved nothing. -/
def Unproved (backend : Peer) (fuel : Nat) : Prop :=
  ∃ frames, loginFrames zeroCrypto zeroCredentials "abc".toList backend fuel = some frames
    ∧ (loginToBackend zeroCrypto zeroCredentials "abc".toList backend fuel).any Except.isOk = true
    ∧ ¬ Proved zeroCrypto zeroCredentials.verifier "abc".toList frames

theorem unproved_of_frames {fuel : Nat}
    (hframes : loginFrames zeroCrypto zeroCredentials "abc".toList backend fuel = some frames)
    (hok : (loginToBackend zeroCrypto zeroCredentials "abc".toList backend fuel).any Except.isOk
     ) (hanswers : answersChallenge frames = false) : Unproved backend fuel := by
  refine ⟨frames, hframes, hok, fun hproved => ?_⟩
  rw [hproved.answersChallenge] at hanswers
  cases hanswers

/-- `AuthenticationOk` at once, after the challenge, and after the signature
of no text at all. -/
theorem backend_login_unproved : Unproved (sends [accepted, ready]) 2
      ∧ Unproved (sends [offered, challenged, accepted, ready]) 4
      ∧ Unproved (sends [signed, accepted, ready]) 3 := by
  have h0 : loginFrames zeroCrypto zeroCredentials "abc".toList (sends [accepted, ready]) 2
      = some [] := by decide +kernel
  have h1 : loginFrames zeroCrypto zeroCredentials "abc".toList
      (sends [offered, challenged, accepted, ready]) 4 = some [offered, challenged] := by
    decide +kernel
  have h2 : loginFrames zeroCrypto zeroCredentials "abc".toList
      (sends [signed, accepted, ready]) 3 = some [signed] := by decide +kernel
  exact ⟨unproved_of_frames h0 (by decide +kernel) (by decide +kernel),
    unproved_of_frames h1 (by decide +kernel) (by decide +kernel),
    unproved_of_frames h2 (by decide +kernel) (by decide +kernel)⟩

end PgCluster.Scram
