/-
SASL messages in chunks of 400 letters: `SendSASLChallenge`, and the buffer of `OnAuthenticateMessage`.

A message is sent in base64, in lines of 400 letters and a shorter one; where nothing is left for the shorter one, it is "+". The
receiver takes 10240 letters. The sender counts letters in an `int`.

Results:
- `feed_frames`: the lines of a message of at most 10240 letters deliver it, once; `feed_long` refuses a longer one;
- `saslChallenge_iff`: the lines of a challenge are put together again if it has at most 1610613000 bytes;
- `sasl_chunks`: both, with `sasl_chunks_cut` for a longer challenge.
-/
import ZNC.Lib.Frames
import ZNC.ClientLogin

namespace ZNC.Login

open Frames CString List

/-- what `OnClientSASLAuthenticate` is called with -/
def Entry.delivery : Entry → Option (CString × CString)
  | .authenticate _ sMechanism sMessage => some (sMechanism, sMessage)
  | _ => none

def Entry.isDelivery (e : Entry) : Bool := e.delivery.isSome

namespace CClient

/-! ## Statement -/

/-- an exchange that waits for a message -/
structure Waiting (s : CClient) : Prop where
  cap : s.bSASLCap = true
  user : s.sSASLUser = []
  attached : s.isAttached = false
  during : s.sSASLMechanism ≠ []

/-- AUTHENTICATE lines, one after another -/
def feed (s : CClient) (h : Hooks) (lines : List CString) : CClient :=
  lines.foldl (fun s sMessage => s.onAuthenticateMessage h sMessage) s

/-- newest first -/
def deliveries (s : CClient) : List (CString × CString) := s.log.filterMap Entry.delivery

def lines (sMessage : CString) : List CString := frames uMaxSASLMsgLength (lit "+") sMessage.base64Encode

/-- the message of some lines, by the rule of `OnAuthenticateMessage` -/
def unlines (l : List CString) : Option CString := (reassemble uMaxSASLMsgLength (lit "+") [] l).map base64Decode

/-! ## One delivery for a message -/

theorem Adds.deliveries {s t : CClient} (h : Adds Entry.isDelivery s t) : t.deliveries = s.deliveries := by
  obtain ⟨new, hlog, hnew⟩ := h
  have hnil : new.filterMap Entry.delivery = [] := by
    rw [filterMap_eq_nil_iff]
    exact fun e he => Option.not_isSome_iff_eq_none.1 (by simpa [Entry.isDelivery] using hnew e he)
  rw [CClient.deliveries, hlog, filterMap_append, hnil, nil_append]
  rfl

theorem answer_adds (s : CClient) (a : CAuth) (b : Bool) : Adds Entry.isDelivery s (s.answer a b) := by
  unfold answer
  split
  · exact Adds.of_entry (e := .answered a.uExchange a.sMechanism b) rfl rfl
  · exact Adds.of_eq rfl

theorem acceptSASLLogin_adds (s : CClient) (e : ℕ) (User : CUser) :
    Adds Entry.isDelivery s (s.acceptSASLLogin e User) :=
  ((Puts.put s _).adds fun _ => rfl).trans
    (Adds.of_entry (t := s.acceptSASLLogin e User) (e := .verdict e true _) rfl rfl)

theorem refuseSASLLogin_adds (s : CClient) (e : ℕ) (sReason : CString) :
    Adds Entry.isDelivery s (s.refuseSASLLogin e sReason) :=
  Adds.of_entry (e := .verdict e false _) rfl rfl

theorem authAccept_adds (s : CClient) (a : CAuth) (User : CUser) : Adds Entry.isDelivery s (s.authAccept a User) := by
  unfold authAccept
  refine Adds.trans ?_ (answer_adds _ a true)
  split
  · exact acceptSASLLogin_adds { s with auths := s.auths.erase a } a.uExchange User
  · obtain ⟨_, _, heq⟩ := acceptLogin_eq { s with auths := s.auths.erase a } User
    rw [heq]
    exact Adds.of_entry (e := .login User.sUsername) rfl rfl

theorem authRefuse_adds (s : CClient) (a : CAuth) (sReason : CString) :
    Adds Entry.isDelivery s (s.authRefuse a sReason) := by
  unfold authRefuse
  refine Adds.trans ?_ (answer_adds _ a false)
  split
  · exact refuseSASLLogin_adds { s with auths := s.auths.erase a } a.uExchange sReason
  · exact (Puts.put { s with auths := s.auths.erase a } _).adds fun _ => rfl

theorem zncAuthUser_adds (s : CClient) (a : CAuth) (r : Answer) : Adds Entry.isDelivery s (s.zncAuthUser a r) := by
  rcases zncAuthUser_cases s a r with ⟨-, heq⟩ | ⟨User, heq⟩ | ⟨sReason, heq⟩
  · rw [heq]
    exact Adds.of_eq rfl
  · rw [heq]
    exact authAccept_adds s a User
  · rw [heq]
    exact authRefuse_adds s a sReason

theorem Typed.adds {s t : CClient} (h : Typed s t) : Adds Entry.isDelivery s t := by
  obtain ⟨_, _, _, _, _, _, _, _, _, _, rfl⟩ := h
  exact Adds.of_eq rfl

theorem startSASLPasswordCheck_adds (s : CClient) (sUser sPassword sAuthorizationId : CString) (r : Answer) :
    Adds Entry.isDelivery s (s.startSASLPasswordCheck sUser sPassword sAuthorizationId r) := by
  have hparse := (parseUser_typed s sAuthorizationId).adds
  unfold startSASLPasswordCheck
  dsimp only
  split
  · exact (hparse.trans (Adds.of_entry (e := .check _ _ _) rfl rfl)).trans (zncAuthUser_adds _ _ r)
  · have hrefused := hparse.trans (refuseSASLLogin_adds _ (s.parseUser sAuthorizationId).uExchange
      (lit "No support for custom AuthzId"))
    exact (hrefused.trans (Adds.of_entry (e := .check _ _ _) rfl rfl)).trans (zncAuthUser_adds _ _ r)

theorem call_adds (s : CClient) (a : Answer) (r : Reaction) : Adds Entry.isDelivery s (s.call a r) := by
  cases r with
  | nothing => exact Adds.of_eq rfl
  | challenge sMessage => exact (sendSASLChallenge_puts s sMessage).adds fun _ => rfl
  | refuse sReason => exact refuseSASLLogin_adds s _ sReason
  | accept User => exact acceptSASLLogin_adds s _ User
  | startPasswordCheck sUser sPassword sAuthorizationId =>
      exact startSASLPasswordCheck_adds s sUser sPassword sAuthorizationId a

/-- **What ends a message delivers it.** -/
theorem receiveMessage_deliveries (s : CClient) (h : Hooks) (sMessage : CString) :
    (s.receiveMessage h sMessage).deliveries = (s.sSASLMechanism, s.decoded sMessage) :: s.deliveries ∧
      (s.receiveMessage h sMessage).sSASLBuffer = [] := by
  refine ⟨?_, rfl⟩
  unfold receiveMessage
  dsimp only
  generalize h.onAuthenticate s.sSASLMechanism (s.decoded sMessage) = r
  generalize ht : { s with
    sSASLBuffer := s.decoded sMessage
    log := .authenticate s.uExchange s.sSASLMechanism (s.decoded sMessage) :: s.log } = t
  have hfirst : t.deliveries = (s.sSASLMechanism, s.decoded sMessage) :: s.deliveries := by
    rw [← ht]
    rfl
  have hparse := (parseGiven_typed t r.1).adds
  have hcall := hparse.trans (call_adds (t.parseGiven r.1) h.onLoginAttempt r.2)
  rw [← hfirst]
  exact (hcall.trans (Adds.of_eq rfl)).deliveries

/-! ## The buffer -/

theorem equals_star {p : CString} (hp : ∀ c ∈ p, IsBase64 c) : p.equals (lit "*") = false := by
  have h0 : (0 : UInt8) ∉ p := fun hmem => (hp 0 hmem).ne.1 rfl
  have hstar : (lit "*").cStr.asLower = [ch '*'] := by decide
  rw [equals, decide_eq_false_iff_not, cStr_eq_self h0, hstar]
  intro heq
  obtain ⟨c, rfl, hc⟩ : ∃ c, p = [c] ∧ tolower c = ch '*' := by simpa [asLower, map_eq_singleton_iff] using heq
  exact (hp c (mem_singleton.2 rfl)).ne.2.2.2.1 ((tolower_eq_iff (by decide)).1 hc)

section Buffer

variable {s : CClient} {p : CString}

theorem onAuthenticateMessage_waiting (hs : s.Waiting) (hp : ∀ c ∈ p, IsBase64 c)
    (hlen : p.length ≤ uMaxSASLMsgLength) (h : Hooks) :
    s.onAuthenticateMessage h p =
      if s.sSASLBuffer.length + p.length > 10 * 1024 then
        s.abortSASL (.verdict s.uExchange false (s.numeric (lit "904") (lit " :SASL response too long")))
      else if p.length = uMaxSASLMsgLength then { s with sSASLBuffer := s.sSASLBuffer ++ p }
      else s.receiveMessage h p := by
  have hduring : s.isDuringSASL = true := by simpa [isDuringSASL] using hs.during
  rw [onAuthenticateMessage, if_neg (by simp [hs.cap]), if_neg (by simp [hs.user, hs.attached]),
    if_neg (by simp [equals_star hp]), if_neg (not_lt.2 hlen), if_neg (by simp [hduring])]

theorem feed_full (hs : s.Waiting) (h : Hooks) (ps : List CString)
    (hps : ∀ p ∈ ps, p.length = uMaxSASLMsgLength ∧ ∀ c ∈ p, IsBase64 c)
    (hmax : s.sSASLBuffer.length + ps.flatten.length ≤ 10 * 1024) :
    s.feed h ps = { s with sSASLBuffer := s.sSASLBuffer ++ ps.flatten } := by
  induction ps generalizing s with
  | nil => simp [feed]
  | cons p ps ih =>
    obtain ⟨hlen, hp⟩ := hps p mem_cons_self
    rw [flatten_cons, length_append] at hmax
    have hstep : s.onAuthenticateMessage h p = { s with sSASLBuffer := s.sSASLBuffer ++ p } := by
      rw [onAuthenticateMessage_waiting hs hp hlen.le, if_neg (by omega), if_pos hlen]
    have hnext : { s with sSASLBuffer := s.sSASLBuffer ++ p }.Waiting := ⟨hs.cap, hs.user, hs.attached, hs.during⟩
    have hrest := ih hnext (fun q hq => hps q (mem_cons_of_mem _ hq)) (by
      rw [length_append]
      omega)
    calc s.feed h (p :: ps) = { s with sSASLBuffer := s.sSASLBuffer ++ p }.feed h ps := by rw [← hstep]; rfl
      _ = _ := by rw [hrest, flatten_cons, append_assoc]

end Buffer

theorem mem_frames {l p : CString} (hp : p ∈ frames uMaxSASLMsgLength (lit "+") l) (hl : ∀ c ∈ l, IsBase64 c) :
    ∀ c ∈ p, IsBase64 c := by
  have hplus : ∀ c ∈ lit "+", IsBase64 c := by
    intro c hc
    rw [show lit "+" = [ch '+'] from rfl, mem_singleton] at hc
    exact .inl (hc ▸ by decide)
  intro c hc
  rw [frames_eq] at hp
  rcases mem_append.1 hp with hp | hp
  · have hmem : c ∈ (full uMaxSASLMsgLength (l.length / uMaxSASLMsgLength) l).flatten := mem_flatten.2 ⟨p, hp, hc⟩
    rw [flatten_full] at hmem
    exact hl c (mem_of_mem_take hmem)
  · rw [mem_singleton.1 hp] at hc
    split at hc
    · exact hplus c hc
    · exact hl c (mem_of_mem_drop hc)

theorem lines_split (sMessage : CString) :
    ∃ ps last, lines sMessage = ps ++ [last] ∧ (∀ p ∈ ps, p.length = uMaxSASLMsgLength) ∧
      last.length < uMaxSASLMsgLength ∧
      (if last ≠ lit "+" then ps.flatten ++ last else ps.flatten) = sMessage.base64Encode ∧
      (sMessage.base64Encode.length ≤ 10 * 1024 → ps.flatten.length + last.length ≤ 10 * 1024) := by
  have hlen := length_base64Encode sMessage
  unfold lines uMaxSASLMsgLength
  generalize sMessage.base64Encode = l at hlen ⊢
  have hdiv := Nat.div_add_mod' l.length 400
  have hmod := Nat.mod_lt l.length (show 0 < 400 by decide)
  have hle := Nat.div_mul_le_self l.length 400
  have happ := take_append_drop (l.length / 400 * 400) l
  have hplus : (lit "+").length = 1 := rfl
  have hrest : (l.drop (l.length / 400 * 400)).length = l.length % 400 := by
    rw [length_drop]
    omega
  refine ⟨_, _, frames_eq 400 (lit "+") l, fun p hp => length_of_mem_full hle hp, ?_, ?_, fun hmax => ?_⟩
  · split <;> omega
  · rw [flatten_full]
    by_cases hnil : l.drop (l.length / 400 * 400) = []
    · rw [if_pos hnil, if_neg (by simp)]
      rwa [hnil, append_nil] at happ
    · -- the rest of a message is no single letter
      have hne : l.drop (l.length / 400 * 400) ≠ lit "+" := by
        intro heq
        rw [heq, hplus] at hrest
        omega
      rw [if_neg hnil, if_pos hne, happ]
  · rw [flatten_full, length_take]
    split
    · rename_i hnil
      rw [hnil, length_nil] at hrest
      omega
    · omega

variable {sMessage : CString}

theorem feed_frames {s : CClient} (hs : s.Waiting) (hbuf : s.sSASLBuffer = []) (h : Hooks)
    (hmax : sMessage.base64Encode.length ≤ 10 * 1024) :
    (s.feed h (lines sMessage)).deliveries = (s.sSASLMechanism, sMessage) :: s.deliveries ∧
      (s.feed h (lines sMessage)).sSASLBuffer = [] := by
  obtain ⟨ps, last, hlines, hps, hlast, htext, hfits⟩ := lines_split sMessage
  have hb64 : ∀ p ∈ ps ++ [last], ∀ c ∈ p, IsBase64 c := fun p hp =>
    mem_frames (by rw [← lines, hlines]; exact hp) (mem_base64Encode sMessage)
  have hfits := hfits hmax
  -- the full lines are collected, and the last one ends the message
  have hfull := feed_full hs h ps (fun p hp => ⟨hps p hp, hb64 p (mem_append_left _ hp)⟩) (by
    rw [hbuf, length_nil]
    omega)
  rw [hbuf, nil_append] at hfull
  have hready : { s with sSASLBuffer := ps.flatten }.Waiting := ⟨hs.cap, hs.user, hs.attached, hs.during⟩
  have hend : s.feed h (lines sMessage) = { s with sSASLBuffer := ps.flatten }.receiveMessage h last := by
    have happ : s.feed h (ps ++ [last]) = (s.feed h ps).onAuthenticateMessage h last := by
      simp [feed, foldl_append]
    rw [hlines, happ, hfull, onAuthenticateMessage_waiting hready (hb64 last (by simp)) hlast.le,
      if_neg (not_lt.2 hfits), if_neg hlast.ne]
  have hdecoded : { s with sSASLBuffer := ps.flatten }.decoded last = sMessage := by
    rw [decoded, htext, base64Decode_encode]
  obtain ⟨hdel, hempty⟩ := receiveMessage_deliveries { s with sSASLBuffer := ps.flatten } h last
  rw [hend, hdel, hdecoded]
  exact ⟨rfl, hempty⟩

theorem feed_long {s : CClient} (hs : s.Waiting) (hbuf : s.sSASLBuffer = []) (h : Hooks)
    (hmax : 10 * 1024 < sMessage.base64Encode.length) :
    (s.feed h ((lines sMessage).take 26)).deliveries = s.deliveries ∧
      (s.feed h ((lines sMessage).take 26)).sSASLBuffer = [] ∧
      (s.feed h ((lines sMessage).take 26)).sSASLMechanism = [] := by
  have hb64 := mem_base64Encode sMessage
  have hmem := fun p (hp : p ∈ lines sMessage) => mem_frames hp hb64
  unfold lines uMaxSASLMsgLength at hmem ⊢
  generalize sMessage.base64Encode = l at hmax hb64 hmem ⊢
  have hfits : 25 * 400 ≤ l.length := by omega
  -- 25 full lines, and another one
  have hsplit : frames 400 (lit "+") l = full 400 25 l ++
      frames 400 (lit "+") (l.drop (25 * 400)) := by
    have hcount : l.length / 400 = 25 + (l.drop (25 * 400)).length / 400 := by
      rw [length_drop]
      omega
    rw [frames, hcount, cut_add, frames]
  have hlen25 : (full 400 25 l).length = 25 := rfl
  obtain ⟨p, rest, hrest, hp⟩ : ∃ p rest, frames 400 (lit "+") (l.drop (25 * 400)) = p :: rest ∧
      p.length ≤ 400 ∧ 10 * 1024 < 25 * 400 + p.length := by
    have hdrop : (l.drop (25 * 400)).length = l.length - 10000 := length_drop
    rw [frames]
    cases hk : (l.drop (25 * 400)).length / 400 with
    | zero =>
      have hne : l.drop (25 * 400) ≠ [] := by
        intro hnil
        rw [hnil, length_nil] at hdrop
        omega
      exact ⟨_, [], rfl, by rw [if_neg hne]; omega, by rw [if_neg hne]; omega⟩
    | succ k =>
      refine ⟨_, _, rfl, length_take_le _ _, ?_⟩
      rw [length_take]
      omega
  have htake : (frames 400 (lit "+") l).take 26 = full 400 25 l ++ [p] := by
    rw [hsplit, hrest, take_append, hlen25, take_of_length_le (by rw [hlen25]; decide)]
    rfl
  have hp64 : ∀ c ∈ p, IsBase64 c := hmem p (by rw [hsplit, hrest]; simp)
  have hfull := feed_full hs h (full 400 25 l)
    (fun q hq => ⟨length_of_mem_full hfits hq, hmem q (by rw [hsplit]; exact mem_append_left _ hq)⟩) (by
      rw [flatten_full, hbuf, length_take, length_nil]
      omega)
  rw [hbuf, nil_append, flatten_full] at hfull
  have hready : { s with sSASLBuffer := l.take (25 * 400) }.Waiting := ⟨hs.cap, hs.user, hs.attached, hs.during⟩
  have hlong : { s with sSASLBuffer := l.take (25 * 400) }.sSASLBuffer.length + p.length > 10 * 1024 := by
    rw [length_take_of_le hfits]
    exact hp.2
  have happ : s.feed h (full 400 25 l ++ [p]) = (s.feed h (full 400 25 l)).onAuthenticateMessage h p := by
    simp [feed, foldl_append]
  rw [htake, happ, hfull, onAuthenticateMessage_waiting hready hp64 hp.1, if_pos hlong]
  exact ⟨rfl, rfl, rfl⟩

theorem receive_overlong {s : CClient} (hs : s.Waiting) (h : Hooks) {sLine : CString}
    (hlen : uMaxSASLMsgLength < sLine.length) :
    (s.onAuthenticateMessage h sLine).deliveries = s.deliveries ∧ (s.onAuthenticateMessage h sLine).sSASLBuffer = [] ∧
      (s.onAuthenticateMessage h sLine).sSASLMechanism = [] := by
  rw [onAuthenticateMessage, if_neg (by simp [hs.cap]), if_neg (by simp [hs.user, hs.attached])]
  split_ifs
  · exact ⟨rfl, rfl, rfl⟩
  · exact ⟨rfl, rfl, rfl⟩

/-! ## Challenges -/

/-- the letters that the loop of `SendSASLChallenge` comes to, up to the first multiple of 400 that is no `int` -/
def uCounted : ℕ := 5368710 * 400

theorem counter_toNat {w : ℕ} (hw : w < 2 ^ 32) :
    (((w : ℤ).bmod (2 ^ 32)) % 2 ^ 64).toNat = if w < 2 ^ 31 then w else 2 ^ 64 - 2 ^ 32 + w := by
  rw [Int.bmod_def]
  split_ifs <;> omega

theorem challengeLoop_stop (l : CString) {w : ℕ} (hw : w < 2 ^ 32) (hl : l.length < 2 ^ 63)
    (hend : l.length ≤ w ∨ 2 ^ 31 ≤ w)
    (fuel : ℕ) : challengeLoop l fuel ((w : ℤ).bmod (2 ^ 32)) = [] := by
  cases fuel with
  | zero => rfl
  | succ fuel =>
    rw [challengeLoop, if_neg]
    rw [counter_toNat hw]
    split_ifs <;> omega

theorem challengeLoop_step (l : CString) {w : ℕ} (hw : w < 2 ^ 31) (hl : w < l.length) (fuel : ℕ) :
    challengeLoop l (fuel + 1) ((w : ℤ).bmod (2 ^ 32)) =
      (l.drop w).take 400 :: challengeLoop l fuel (((w + 400 : ℕ) : ℤ).bmod (2 ^ 32)) := by
  have hcounter : (((w : ℤ).bmod (2 ^ 32)) % 2 ^ 64).toNat = w := by rw [counter_toNat (by omega), if_pos hw]
  have hnext : (((w : ℤ).bmod (2 ^ 32)) + (uMaxSASLMsgLength : ℕ)).bmod (2 ^ 32) =
    ((w + 400 : ℕ) : ℤ).bmod (2 ^ 32) := by
    rw [Int.bmod_add_bmod]
    rfl
  rw [challengeLoop, hcounter, if_pos hl, hnext]
  rfl

theorem challengeLoop_full (l : CString) (j k fuel : ℕ) (hlen : k * 400 + j * 400 ≤ l.length)
    (hint : k * 400 + j * 400 ≤ uCounted) :
    challengeLoop l (fuel + j) (((k * 400 : ℕ) : ℤ).bmod (2 ^ 32)) =
      full 400 j (l.drop (k * 400)) ++ challengeLoop l fuel ((((k + j) * 400 : ℕ) : ℤ).bmod (2 ^ 32)) := by
  have hcounted : uCounted = 2147484000 := rfl
  induction j generalizing k with
  | zero => rfl
  | succ j ih =>
    have hk : (k + 1) * 400 = k * 400 + 400 := by ring
    have hj : (k + 1 + j) * 400 = (k + (j + 1)) * 400 := by ring
    have hint31 : k * 400 < 2 ^ 31 := by linarith [Nat.zero_le j]
    have hmore : k * 400 < l.length := by linarith [Nat.zero_le j]
    have hnext := ih (k + 1) (by linarith) (by linarith)
    rw [← Nat.add_assoc, challengeLoop_step l hint31 hmore, ← hk, hnext, full, drop_drop, ← hk, hj, cons_append]

theorem saslChallenge_def (sMessage : CString) :
    saslChallenge sMessage = challengeLoop sMessage.base64Encode sMessage.base64Encode.length 0 ++
      if sMessage.base64Encode.length % 400 = 0 then [lit "+"] else [] := rfl

theorem saslChallenge_eq (h : sMessage.base64Encode.length ≤ uCounted) :
    saslChallenge sMessage = lines sMessage := by
  rw [saslChallenge_def]
  unfold lines uMaxSASLMsgLength
  generalize sMessage.base64Encode = l at h ⊢
  have hcounted : uCounted = 2147484000 := rfl
  have hloop := challengeLoop_full l (l.length / 400) 0 (l.length - l.length / 400) (by omega) (by omega)
  have hfuel : l.length - l.length / 400 + l.length / 400 = l.length := by omega
  rw [hfuel, Nat.zero_mul, Nat.zero_add, drop_zero] at hloop
  have hzero : (((0 : ℕ) : ℤ).bmod (2 ^ 32)) = 0 := by decide
  rw [hzero] at hloop
  rw [hloop, frames_eq, append_assoc]
  congr 1
  by_cases hnil : l.length % 400 = 0
  · have hend : l.drop (l.length / 400 * 400) = [] := drop_eq_nil_iff.2 (by omega)
    rw [challengeLoop_stop (w := l.length / 400 * 400) l (by omega) (by omega) (.inl (by omega)),
      if_pos hnil, if_pos hend]
    rfl
  · have hrest : l.drop (l.length / 400 * 400) ≠ [] := fun hend => by
      have := drop_eq_nil_iff.1 hend
      omega
    obtain ⟨fuel, hfuel⟩ := Nat.exists_eq_succ_of_ne_zero (show l.length - l.length / 400 ≠ 0 by omega)
    rw [hfuel, challengeLoop_step (w := l.length / 400 * 400) l (by omega) (by omega),
      challengeLoop_stop (w := l.length / 400 * 400 + 400) l (by omega) (by omega) (.inl (by omega)),
      if_neg hnil, if_neg hrest, append_nil, take_of_length_le (by rw [length_drop]; omega)]

theorem saslChallenge_cut (h : uCounted < sMessage.base64Encode.length) (hmax : sMessage.base64Encode.length < 2 ^ 63) :
    saslChallenge sMessage = full 400 5368710 sMessage.base64Encode ++
      if sMessage.base64Encode.length % 400 = 0 then [lit "+"] else [] := by
  rw [saslChallenge_def]
  generalize sMessage.base64Encode = l at h hmax ⊢
  have hcounted : uCounted = 2147484000 := rfl
  have hloop := challengeLoop_full l 5368710 0 (l.length - 5368710) (by omega) (by omega)
  have hfuel : l.length - 5368710 + 5368710 = l.length := by omega
  rw [hfuel, Nat.zero_mul, Nat.zero_add, drop_zero,
    challengeLoop_stop (w := 5368710 * 400) l (by omega) hmax (.inr (by omega)), append_nil] at hloop
  have hzero : (((0 : ℕ) : ℤ).bmod (2 ^ 32)) = 0 := by decide
  rw [hzero] at hloop
  rw [hloop]

theorem unlines_lines (sMessage : CString) : unlines (lines sMessage) = some sMessage := by
  have hframes : reassemble uMaxSASLMsgLength (lit "+") [] (lines sMessage) = some sMessage.base64Encode := by
    refine reassemble_frames (by decide) (by decide) fun hmod heq => ?_
    have hlen := length_base64Encode sMessage
    have hone := congrArg List.length heq
    rw [length_drop] at hone
    have hplus : (lit "+").length = 1 := rfl
    unfold uMaxSASLMsgLength at hmod hone
    omega
  rw [unlines, hframes, Option.map_some, base64Decode_encode]

theorem saslChallenge_iff (hmax : sMessage.base64Encode.length < 2 ^ 63) :
    unlines (saslChallenge sMessage) = some sMessage ↔ sMessage.length ≤ 1610613000 := by
  have hlen := length_base64Encode sMessage
  have hcounted : uCounted = 2147484000 := rfl
  constructor
  · intro h
    by_contra hlong
    have hcut := @saslChallenge_cut sMessage (by omega) hmax
    generalize sMessage.base64Encode = l at hcut hlen hmax
    have hfull : ∀ p ∈ full 400 5368710 l, p.length = uMaxSASLMsgLength :=
      fun p hp => length_of_mem_full (n := 400) (by omega) hp
    rw [hcut, unlines] at h
    split_ifs at h with hmod
    · -- the letters that were sent are too few
      have hplus : (lit "+").length ≠ uMaxSASLMsgLength := by decide
      rw [reassemble_full hplus _ [] hfull, if_pos rfl, nil_append, flatten_full, Option.map_some] at h
      have hshort := length_base64Decode (l.take (5368710 * 400))
      rw [Option.some.inj h, length_take] at hshort
      omega
    · rw [append_nil, reassemble_none _ _ _ hfull] at h
      exact absurd h (by simp)
  · intro hshort
    rw [saslChallenge_eq (by omega), unlines_lines]

/-! ## Result -/

/-- **SASL messages in chunks**: in an exchange that waits for a message, the lines of one with at most 10240 letters deliver it,
once, and those of a longer one are refused, as is a line that is too long, with the buffer empty each time; and the lines of a
challenge are put together again if and only if it has at most 1610613000 bytes. -/
theorem sasl_chunks (s : CClient) (hs : s.Waiting) (hbuf : s.sSASLBuffer = []) (h : Hooks) (sMessage : CString)
    (hmax : sMessage.base64Encode.length < 2 ^ 63) :
    (sMessage.base64Encode.length ≤ 10 * 1024 →
      (s.feed h (lines sMessage)).deliveries = (s.sSASLMechanism, sMessage) :: s.deliveries ∧
        (s.feed h (lines sMessage)).sSASLBuffer = []) ∧
      (10 * 1024 < sMessage.base64Encode.length →
        (s.feed h ((lines sMessage).take 26)).deliveries = s.deliveries ∧
          (s.feed h ((lines sMessage).take 26)).sSASLBuffer = [] ∧
          (s.feed h ((lines sMessage).take 26)).sSASLMechanism = []) ∧
      (∀ sLine, uMaxSASLMsgLength < sLine.length →
        (s.onAuthenticateMessage h sLine).deliveries = s.deliveries ∧
          (s.onAuthenticateMessage h sLine).sSASLBuffer = [] ∧
          (s.onAuthenticateMessage h sLine).sSASLMechanism = []) ∧
      (unlines (saslChallenge sMessage) = some sMessage ↔ sMessage.length ≤ 1610613000) :=
  ⟨feed_frames hs hbuf h, feed_long hs hbuf h, fun _ => receive_overlong hs h, saslChallenge_iff hmax⟩

/-- a client that has chosen PLAIN -/
def waitingClient : CClient :=
  run (init [alice] (lit "192.0.2.1")) [sends .kept "CAP REQ :sasl", sends .kept "AUTHENTICATE PLAIN"]

/-- a message of three bytes -/
theorem sasl_chunks_short :
    let s := waitingClient
    (4 ≤ 10 * 1024 →
      (s.feed (plainHooks .kept) (lines (lit "abc"))).deliveries = (s.sSASLMechanism, lit "abc") :: s.deliveries ∧
        (s.feed (plainHooks .kept) (lines (lit "abc"))).sSASLBuffer = []) ∧
      (10 * 1024 < 4 →
        (s.feed (plainHooks .kept) ((lines (lit "abc")).take 26)).deliveries = s.deliveries ∧
          (s.feed (plainHooks .kept) ((lines (lit "abc")).take 26)).sSASLBuffer = [] ∧
          (s.feed (plainHooks .kept) ((lines (lit "abc")).take 26)).sSASLMechanism = []) ∧
      (∀ sLine, uMaxSASLMsgLength < sLine.length →
        (s.onAuthenticateMessage (plainHooks .kept) sLine).deliveries = s.deliveries ∧
          (s.onAuthenticateMessage (plainHooks .kept) sLine).sSASLBuffer = [] ∧
          (s.onAuthenticateMessage (plainHooks .kept) sLine).sSASLMechanism = []) ∧
      (unlines (saslChallenge (lit "abc")) = some (lit "abc") ↔ 3 ≤ 1610613000) :=
  sasl_chunks waitingClient ⟨by decide +kernel, by decide +kernel, by decide +kernel, by decide +kernel⟩
    (by decide +kernel)
    (plainHooks .kept) (lit "abc") (by decide)

/-- **A longer challenge is cut**: one of 1610613001 bytes. -/
theorem sasl_chunks_cut : ∃ sMessage : CString, sMessage.length = 1610613001 ∧
    unlines (saslChallenge sMessage) ≠ some sMessage := by
  have hlen : (List.replicate 1610613001 (0 : UInt8)).length = 1610613001 := length_replicate
  refine ⟨List.replicate 1610613001 0, hlen, fun h => ?_⟩
  rw [saslChallenge_iff (by rw [length_base64Encode, hlen]; decide), hlen] at h
  exact absurd h (by decide)

end CClient

end ZNC.Login
