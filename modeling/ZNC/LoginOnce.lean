/-
A client logs in once.

`m_spAuth` knows the last check only. A check that a module keeps while another one is started can no longer be invalidated:
it logs the client in a second time, or answers to a client that is gone.

Results:
- `login_once`: if no check is started, and no SASL login taken up, while a check is pending that may log the client in, then
  a client logs in once at most, stands in one list of clients once at most, and no check answers behind its destruction;
- `login_twice`: two PASS lines, whose checks are both accepted.
-/
import ZNC.ClientLogin

namespace ZNC.Login

open Journal List

/-! ## Statement -/

def Entry.isLogin : Entry → Bool
  | .login _ => true
  | _ => false

def Reaction.startsCheck : Reaction → Bool
  | .startPasswordCheck _ _ _ => true
  | _ => false

namespace CClient

def logins (s : CClient) : ℕ := s.log.countP Entry.isLogin

/-- a line starts no check while another one is pending, and takes up a SASL login only while none but SASL checks are -/
def Quiet (s : CClient) : Op → Prop
  | .line h Message =>
    (∀ t ∈ s.callsAuthUser h Message, t.mayLogin →
      if t.sSASLUser = [] then s.auths = [] else ∀ a ∈ s.auths, a.bSASL = true) ∧
    ∀ r ∈ s.reaction h Message, r.2.startsCheck → s.auths = []
  | _ => True

instance Quiet.decidable (s : CClient) : (op : Op) → Decidable (s.Quiet op)
  | .line h Message =>
    inferInstanceAs (Decidable ((∀ t ∈ s.callsAuthUser h Message, t.mayLogin →
      if t.sSASLUser = [] then s.auths = [] else ∀ a ∈ s.auths, a.bSASL = true) ∧
      ∀ r ∈ s.reaction h Message, r.2.startsCheck → s.auths = []))
  | .accept .. | .refuse .. | .challenge _ | .disconnect | .jumpNetwork _ | .bounce _ | .setNick .. | .addUser _ | .delUser _ =>
    isTrue trivial

/-! ## Lists of clients -/

/-- in no list, or in the one it belongs to, once -/
def Placed (s : CClient) : Prop := s.places = [] ∨ ∃ p, s.place = some p ∧ s.places = [p]

variable {s : CClient} {a : CAuth}

theorem leave_eq (h : s.Placed) : s.leave = { s with places := [] } := by
  unfold leave
  rcases h with h | ⟨p, hp, h⟩
  · split
    · rw [h]
      rfl
    · rw [← h]
  · rw [hp, h]
    simp only [erase_cons_head]

theorem setNetwork_false (h : s.Placed) (n : Option Place) :
    s.setNetwork n false = { s with pNetwork := n, places := [] } := by
  rw [setNetwork, leave_eq h]
  rfl

theorem setNetwork_true {User : CUser} (hUser : s.pUser = some User) (h : s.Placed) (n : Option Place) :
    ∃ p, { s with pNetwork := n }.place = some p ∧ s.setNetwork n true = { s with pNetwork := n, places := [p] } := by
  have hp : ∃ p, { s with pNetwork := n }.place = some p := by
    cases n with
    | none => exact ⟨⟨User, none⟩, by simp only [place, hUser]; rfl⟩
    | some p => exact ⟨p, rfl⟩
  obtain ⟨p, hp⟩ := hp
  have hp' : { s with pNetwork := n, places := [] }.place = some p := hp
  refine ⟨p, hp, ?_⟩
  rw [setNetwork, leave_eq h]
  simp only [if_pos, hp', connected]
  split <;> rfl

/-! ## Invariant -/

structure Inv (s : CClient) : Prop where
  logins : s.logins = if s.isAttached then 1 else 0
  network : s.isAttached = false → s.pNetwork = none
  placed : s.Placed
  one : s.auths.length ≤ 1
  last : ∀ a ∈ s.auths, s.spAuth = some a.uId
  /-- behind the login, only SASL checks are left -/
  sasl : s.isAttached = true → ∀ a ∈ s.auths, a.bSASL = true
  destroyed : s.bDestroyed = true → s.auths = []
  dangling : s.bDangling = false

theorem init_inv (vUsers : List CUser) (sRemoteIP : CString) : Inv (init vUsers sRemoteIP) :=
  ⟨rfl, fun _ => rfl, Or.inl rfl, Nat.zero_le _, fun _ ha => absurd ha List.not_mem_nil,
    fun _ _ ha => absurd ha List.not_mem_nil, fun _ => rfl, rfl⟩

/-- the fields of the invariant -/
structure SameLogin (s t : CClient) : Prop where
  pUser : t.pUser = s.pUser
  pNetwork : t.pNetwork = s.pNetwork
  places : t.places = s.places
  auths : t.auths = s.auths
  spAuth : t.spAuth = s.spAuth
  bDestroyed : t.bDestroyed = s.bDestroyed
  bDangling : t.bDangling = s.bDangling
  logins : t.logins = s.logins

namespace SameLogin

theorem refl (s : CClient) : SameLogin s s := ⟨rfl, rfl, rfl, rfl, rfl, rfl, rfl, rfl⟩

theorem trans {s t u : CClient} (h1 : SameLogin s t) (h2 : SameLogin t u) : SameLogin s u :=
  ⟨h2.pUser.trans h1.pUser, h2.pNetwork.trans h1.pNetwork, h2.places.trans h1.places, h2.auths.trans h1.auths,
    h2.spAuth.trans h1.spAuth, h2.bDestroyed.trans h1.bDestroyed, h2.bDangling.trans h1.bDangling,
      h2.logins.trans h1.logins⟩

theorem isAttached {s t : CClient} (h : SameLogin s t) : t.isAttached = s.isAttached := by
  rw [CClient.isAttached, h.pUser]
  rfl

theorem place {s t : CClient} (h : SameLogin s t) : t.place = s.place := by
  rw [CClient.place, h.pUser, h.pNetwork]
  rfl

theorem inv {s t : CClient} (h : SameLogin s t) (hs : Inv s) : Inv t where
  logins := by rw [h.logins, h.isAttached, hs.logins]
  network hatt := by rw [h.pNetwork, hs.network (h.isAttached.symm.trans hatt)]
  placed := by
    rw [Placed, h.places, h.place]
    exact hs.placed
  one := by rw [h.auths]; exact hs.one
  last := by rw [h.auths, h.spAuth]; exact hs.last
  sasl hatt := by rw [h.auths]; exact hs.sasl (h.isAttached.symm.trans hatt)
  destroyed hd := by rw [h.auths]; exact hs.destroyed (h.bDestroyed.symm.trans hd)
  dangling := by rw [h.bDangling, hs.dangling]

end SameLogin

theorem Puts.sameLogin {t : CClient} (h : Puts s t) : SameLogin s t := by
  obtain ⟨new, hnew, rfl⟩ := h
  refine ⟨rfl, rfl, rfl, rfl, rfl, rfl, rfl, ?_⟩
  have hzero : new.countP Entry.isLogin = 0 := by
    rw [countP_eq_zero]
    intro e he
    obtain ⟨sLine, rfl⟩ := hnew e he
    exact Bool.false_ne_true
  rw [logins, logins, countP_append, hzero, Nat.zero_add]

theorem Typed.sameLogin {t : CClient} (h : Typed s t) : SameLogin s t := by
  obtain ⟨_, _, _, _, _, _, _, _, _, _, rfl⟩ := h
  exact ⟨rfl, rfl, rfl, rfl, rfl, rfl, rfl, rfl⟩

theorem sameLogin_of_log {e : Entry} (he : e.isLogin = false) (sBuffer sMechanism sUser : CString)
    (ssFailed : List CString) :
    SameLogin s { s with
      log := e :: s.log, sSASLBuffer := sBuffer, sSASLMechanism := sMechanism,
      sSASLUser := sUser, ssFailed := ssFailed } := by
  refine ⟨rfl, rfl, rfl, rfl, rfl, rfl, rfl, ?_⟩
  rw [logins, logins, countP_cons, he]
  rfl

theorem refuseSASLLogin_sameLogin (s : CClient) (uExchange : ℕ) (sReason : CString) :
    SameLogin s (s.refuseSASLLogin uExchange sReason) := sameLogin_of_log rfl _ _ _ _

theorem acceptSASLLogin_sameLogin (s : CClient) (uExchange : ℕ) (User : CUser) :
    SameLogin s (s.acceptSASLLogin uExchange User) :=
  (Puts.put s _).sameLogin.trans (sameLogin_of_log rfl _ _ _ _)

theorem selectMechanism_sameLogin (s : CClient) (h : Hooks) (sMessage : CString) :
    SameLogin s (s.selectMechanism h sMessage) := by
  have hnew : SameLogin s { s with uExchange := s.uExchange + 1 } := ⟨rfl, rfl, rfl, rfl, rfl, rfl, rfl, rfl⟩
  have hfail (t : CClient) : SameLogin t t.failExchange := sameLogin_of_log rfl _ _ _ _
  unfold selectMechanism
  refine hnew.trans ?_
  dsimp only
  split
  · exact hfail _
  · split
    · split
      · exact (Puts.put _ _).sameLogin.trans (hfail _)
      · exact (Puts.put _ _).sameLogin.trans (hfail _)
    · have hmech : SameLogin { s with uExchange := s.uExchange + 1 }
          { s with uExchange := s.uExchange + 1, sSASLMechanism := sMessage } :=
            ⟨rfl, rfl, rfl, rfl, rfl, rfl, rfl, rfl⟩
      refine hmech.trans ?_
      split
      · exact (sendSASLChallenge_puts _ _).sameLogin
      · exact SameLogin.refl _

theorem setCap_sameLogin (s : CClient) (sToken : CString) : SameLogin s (s.setCap sToken) := by
  have hcap (t : CClient) (b : Bool) : SameLogin t { t with bSASLCap := b } := ⟨rfl, rfl, rfl, rfl, rfl, rfl, rfl, rfl⟩
  unfold setCap
  split
  dsimp only
  split
  · split
    · exact (sameLogin_of_log rfl _ _ _ _ : SameLogin s (s.abortSASL s.saslAborted)).trans (hcap _ _)
    · exact hcap _ _
  · exact SameLogin.refl s

theorem reqTokens_sameLogin (s : CClient) (vsTokens : VCString) : SameLogin s (vsTokens.foldl setCap s) := by
  induction vsTokens generalizing s with
  | nil => exact SameLogin.refl s
  | cons sToken vsTokens ih => exact (setCap_sameLogin s sToken).trans (ih _)

theorem endCap_sameLogin (s : CClient) : SameLogin s s.endCap := by
  have hin : SameLogin s { s with bInCap := false } := ⟨rfl, rfl, rfl, rfl, rfl, rfl, rfl, rfl⟩
  unfold endCap
  refine hin.trans ?_
  dsimp only
  split
  · exact sameLogin_of_log rfl _ _ _ _
  · exact SameLogin.refl _

/-! ## Logins -/

theorem Inv.noAuths (h : Inv s) : Inv { s with auths := [] } :=
  { h with
    one := Nat.zero_le _
    last := fun _ ha => nomatch ha
    sasl := fun _ _ ha => nomatch ha
    destroyed := fun _ => rfl }

/-- **The login of a client that is not attached.** -/
theorem acceptLogin_inv {s : CClient} (h : Inv s) (hatt : s.isAttached = false) (hsasl : ∀ a ∈ s.auths, a.bSASL = true)
    (User : CUser) : Inv (s.acceptLogin User) := by
  have hnet := h.network hatt
  have hplaces : s.places = [] := by
    rcases h.placed with hp | ⟨p, hp, -⟩
    · exact hp
    · have hUser : s.pUser = none :=
        Option.not_isSome_iff_eq_none.1 (by rw [← isAttached, hatt]; exact Bool.false_ne_true)
      rw [place, hnet, hUser] at hp
      exact absurd hp (by simp)
  have hone : (Entry.login User.sUsername :: s.log).countP Entry.isLogin = 1 := by
    have hzero : s.log.countP Entry.isLogin = 0 := by
      rw [← logins, h.logins, hatt]
      rfl
    rw [countP_cons, hzero]
    rfl
  unfold acceptLogin
  dsimp only
  generalize selectNetwork _ User = n
  obtain ⟨p, hp, heq⟩ := setNetwork_true (s := { s with
    sPass := [], pUser := some User, sSASLMechanism := [], sSASLBuffer := [], sSASLUser := []
    log := .login User.sUsername :: s.log, pNetwork := n }) rfl (.inl hplaces) n
  rw [heq]
  exact
    { logins := hone
      network := fun hno => absurd hno (by simp [isAttached])
      placed := .inr ⟨p, hp, rfl⟩
      one := h.one
      last := h.last
      sasl := fun _ => hsasl
      destroyed := h.destroyed
      dangling := h.dangling }

theorem auths_eq (h : Inv s) (ha : a ∈ s.auths) : s.auths = [a] := by
  obtain ⟨b, hb⟩ := length_eq_one_iff.1 (le_antisymm h.one (length_pos_of_mem ha))
  rw [hb] at ha ⊢
  rw [mem_singleton.1 ha]

theorem answer_sameLogin (s : CClient) (a : CAuth) (bAccepted : Bool) : SameLogin s (s.answer a bAccepted) := by
  unfold answer
  split
  · exact sameLogin_of_log rfl _ _ _ _
  · exact SameLogin.refl s

theorem over_inv (h : Inv s) (ha : a ∈ s.auths) :
    Inv { s with auths := s.auths.erase a } := by
  rw [auths_eq h ha, erase_cons_head]
  exact h.noAuths

theorem authAccept_inv (h : Inv s) (ha : a ∈ s.auths) (User : CUser) :
    Inv (s.authAccept a User) := by
  have hover := over_inv h ha
  refine (answer_sameLogin _ a true).inv ?_
  split
  · exact (acceptSASLLogin_sameLogin _ _ _).inv hover
  · rename_i hno
    refine acceptLogin_inv hover (Bool.eq_false_iff.2 fun hatt => hno (h.sasl hatt a ha)) (fun b hb => ?_) User
    have hb : b ∈ s.auths.erase a := hb
    rw [auths_eq h ha, erase_cons_head] at hb
    exact nomatch hb

theorem authRefuse_inv (h : Inv s) (ha : a ∈ s.auths) (sReason : CString) :
    Inv (s.authRefuse a sReason) := by
  have hover := over_inv h ha
  refine (answer_sameLogin _ a false).inv ?_
  split
  · exact (refuseSASLLogin_sameLogin _ _ _).inv hover
  · exact (Puts.put _ _).sameLogin.inv hover

theorem zncAuthUser_inv (h : Inv s) (ha : a ∈ s.auths) (r : Answer) :
    Inv (s.zncAuthUser a r) := by
  rcases zncAuthUser_cases s a r with ⟨-, heq⟩ | ⟨User, heq⟩ | ⟨sReason, heq⟩
  · rw [heq]
    exact h
  · rw [heq]
    exact authAccept_inv h ha User
  · rw [heq]
    exact authRefuse_inv h ha sReason

/-- **A check that is started while none is pending.** -/
theorem startCheck_inv (h : Inv s) (hd : s.bDestroyed = false) (hnone : s.auths = [])
    (ha : s.isAttached = true → a.bSASL = true) (r : Answer) : Inv ((s.makeAuth a).zncAuthUser a r) := by
  have hone : (s.makeAuth a).auths = [a] := by rw [makeAuth, hnone]
  refine zncAuthUser_inv ?_ (by rw [hone]; exact mem_singleton.2 rfl) r
  exact
    { h with
      one := by rw [hone]; exact le_rfl
      last := fun b hb => by
        rw [hone, mem_singleton] at hb
        rw [hb]
        rfl
      sasl := fun hatt b hb => by
        rw [hone, mem_singleton] at hb
        rw [hb]
        exact ha hatt
      destroyed := fun hno => absurd (hno.symm.trans hd) Bool.noConfusion }

theorem authUser_inv (h : Inv s) (hd : s.bDestroyed = false)
    (hq : s.mayLogin → if s.sSASLUser = [] then s.auths = [] else ∀ a ∈ s.auths, a.bSASL = true) (r : Answer) :
    Inv (s.authUser r) := by
  unfold authUser
  split
  · exact h
  · rename_i hmay
    have hmay : s.mayLogin = true := by simpa using hmay
    have hatt : s.isAttached = false := by
      unfold mayLogin at hmay
      simp only [Bool.not_or, Bool.and_eq_true] at hmay
      simpa using hmay.2
    have hq := hq hmay
    split
    · rename_i hnil
      rw [if_pos hnil] at hq
      exact startCheck_inv h hd hq (fun hyes => absurd (hyes.symm.trans hatt) Bool.noConfusion) r
    · rename_i hne
      rw [if_neg hne] at hq
      split
      · exact acceptLogin_inv h hatt hq _
      · exact (Puts.put _ _).sameLogin.inv h

/-! ## Lines -/

theorem startSASLPasswordCheck_inv (h : Inv s) (hd : s.bDestroyed = false) (hnone : s.auths = [])
    (sUser sPassword sAuthorizationId : CString) (r : Answer) :
    Inv (s.startSASLPasswordCheck sUser sPassword sAuthorizationId r) := by
  unfold startSASLPasswordCheck
  dsimp only
  have hparse := (parseUser_typed s sAuthorizationId).sameLogin
  have hsame : SameLogin s (if s.identitiesMatch sUser sAuthorizationId then s.parseUser sAuthorizationId
      else (s.parseUser sAuthorizationId).refuseSASLLogin (s.parseUser sAuthorizationId).uExchange
        (lit "No support for custom AuthzId")) := by
    split
    · exact hparse
    · exact hparse.trans (refuseSASLLogin_sameLogin _ _ _)
  revert hsame
  generalize (if s.identitiesMatch sUser sAuthorizationId then s.parseUser sAuthorizationId
    else (s.parseUser sAuthorizationId).refuseSASLLogin (s.parseUser sAuthorizationId).uExchange
      (lit "No support for custom AuthzId")) = t
  intro hsame
  have hlog : SameLogin s { t with
      log := .check t.uExchange s.sSASLMechanism (s.identitiesMatch sUser sAuthorizationId) :: t.log } :=
    hsame.trans (sameLogin_of_log rfl _ _ _ _)
  exact startCheck_inv (hlog.inv h) (hlog.bDestroyed.trans hd) (hlog.auths.trans hnone) (fun _ => rfl) r

theorem call_inv {s : CClient} (h : Inv s) (hd : s.bDestroyed = false) (a : Answer) (r : Reaction)
    (hr : r.startsCheck → s.auths = []) : Inv (s.call a r) := by
  cases r with
  | nothing => exact h
  | challenge sMessage => exact (sendSASLChallenge_puts s sMessage).sameLogin.inv h
  | refuse sReason => exact (refuseSASLLogin_sameLogin s _ sReason).inv h
  | accept User => exact (acceptSASLLogin_sameLogin s _ User).inv h
  | startPasswordCheck sUser sPassword sAuthorizationId =>
    exact startSASLPasswordCheck_inv h hd (hr rfl) sUser sPassword sAuthorizationId a

theorem receiveMessage_inv (h : Inv s) (hd : s.bDestroyed = false) (hooks : Hooks) (sMessage : CString)
    (hr : (hooks.onAuthenticate s.sSASLMechanism (s.decoded sMessage)).2.startsCheck → s.auths = []) :
    Inv (s.receiveMessage hooks sMessage) := by
  have hlog : SameLogin s { s with
      sSASLBuffer := s.decoded sMessage
      log := .authenticate s.uExchange s.sSASLMechanism (s.decoded sMessage) :: s.log } := sameLogin_of_log rfl _ _ _ _
  have hparse := hlog.trans
    (parseGiven_typed _ (hooks.onAuthenticate s.sSASLMechanism (s.decoded sMessage)).1).sameLogin
  have hcall := call_inv (hparse.inv h) (hparse.bDestroyed.trans hd) hooks.onLoginAttempt _ fun hyes =>
    hparse.auths.trans (hr hyes)
  exact (buffer_typed _ []).sameLogin.inv hcall

theorem onAuthenticateMessage_inv (h : Inv s) (hd : s.bDestroyed = false) (hooks : Hooks) (sMessage : CString)
    (hr : s.duringExchange sMessage → s.sSASLBuffer.length + sMessage.length ≤ 10 * 1024 →
      sMessage.length ≠ uMaxSASLMsgLength →
      (hooks.onAuthenticate s.sSASLMechanism (s.decoded sMessage)).2.startsCheck → s.auths = []) :
    Inv (s.onAuthenticateMessage hooks sMessage) := by
  unfold onAuthenticateMessage
  split_ifs with hcap hdone hstar hlong hduring hmax hfull
  · exact (Puts.put _ _).sameLogin.inv h
  · exact (Puts.put _ _).sameLogin.inv h
  · exact (sameLogin_of_log rfl _ _ _ _ : SameLogin s (s.abortSASL _)).inv h
  · exact (sameLogin_of_log rfl _ _ _ _ : SameLogin s (s.abortSASL _)).inv h
  · exact (selectMechanism_sameLogin s hooks sMessage).inv h
  · exact (sameLogin_of_log rfl _ _ _ _ : SameLogin s (s.abortSASL _)).inv h
  · exact (buffer_typed s _).sameLogin.inv h
  · refine receiveMessage_inv h hd hooks sMessage (hr ?_ (not_lt.1 hmax) hfull)
    simp only [not_or, Bool.not_eq_true] at hdone
    simp only [duringExchange, Bool.and_eq_true, decide_eq_true_eq, Bool.not_eq_true', not_lt] at *
    exact ⟨⟨⟨⟨⟨by simpa using hcap, by simpa using hdone.1⟩, hdone.2⟩, by simpa using hstar⟩, hlong⟩,
      by simpa using hduring⟩

theorem handleCap_inv (h : Inv s) (hd : s.bDestroyed = false) (hooks : Hooks) (Message : CMessage)
    (hq : ∀ t ∈ s.callsAuthUser hooks Message, t.mayLogin →
      if t.sSASLUser = [] then s.auths = [] else ∀ a ∈ s.auths, a.bSASL = true) (hhalt : hooks.bHalt = false)
    (hkind : s.kind Message = .capability) : Inv (s.handleCap hooks Message) := by
  have hin := (inCap_typed s true).sameLogin
  have hend := endCap_sameLogin s
  rcases handleCap_cases s hooks Message with heq | heq | ⟨hls, hEND, hputs | ⟨heq, hatt, hnotice⟩⟩ |
    ⟨_, _, _, _, heq⟩
  · rw [heq]
    exact h
  · rw [heq]
    exact hin.inv h
  · exact hputs.sameLogin.inv (hend.inv h)
  · rw [heq]
    refine authUser_inv (hend.inv h) (hend.bDestroyed.trans hd) (fun hmay => ?_) _
    rw [hend.auths]
    refine hq s.endCap ?_ hmay
    simp only [callsAuthUser, hhalt, hkind, Option.mem_def]
    simp [hls, hEND, hatt, hnotice]
  · rw [heq]
    exact (hin.trans (reqTokens_sameLogin _ _)).inv h

theorem readLine_inv (h : Inv s) (hd : s.bDestroyed = false) {hooks : Hooks} {Message : CMessage}
    (hq : s.Quiet (.line hooks Message)) : Inv (s.readLine hooks Message) := by
  obtain ⟨hlogin, hreact⟩ := hq
  unfold readLine
  split_ifs with hhalt
  · exact h
  · have hhalt : hooks.bHalt = false := by simpa using hhalt
    have hstart (t : CClient) (hsame : SameLogin s t) (hcalls : s.callsAuthUser hooks Message = some t) :
        Inv (t.authUser hooks.onLoginAttempt) := by
      refine authUser_inv (hsame.inv h) (hsame.bDestroyed.trans hd) (fun hmay => ?_) _
      rw [hsame.auths]
      exact hlogin t hcalls hmay
    cases hkind : s.kind Message with
    | pass => exact hstart _ (gotPass_typed s _).sameLogin (by simp [callsAuthUser, hhalt, hkind])
    | nick => exact hstart _ (gotNick_typed s _).sameLogin (by simp [callsAuthUser, hhalt, hkind])
    | user =>
      dsimp only
      split_ifs with hgot hcap
      · exact hstart _ (gotUser_typed s _).sameLogin (by
          rw [callsAuthUser, if_neg (by simp [hhalt]), hkind]
          exact if_pos hgot)
      · exact (sendRequiredPasswordNotice_puts _).sameLogin.inv ((gotUser_typed s _).sameLogin.inv h)
      · exact (gotUser_typed s _).sameLogin.inv h
    | capability => exact handleCap_inv h hd hooks Message hlogin hhalt hkind
    | authenticate =>
      refine onAuthenticateMessage_inv h hd hooks _ fun hdur hmax hfull => hreact _ ?_
      simp [reaction, hhalt, hkind, hdur, hmax, hfull]
    | other => exact h

/-! ## Runs -/

theorem destroy_inv (h : Inv s) : Inv s.destroy := by
  have hnone : s.auths.filter (fun a => some a.uId ≠ s.spAuth) = [] := by
    rw [filter_eq_nil_iff]
    intro a ha
    simp [h.last a ha]
  unfold destroy
  rw [setNetwork_false h.placed, hnone]
  exact
    { h.noAuths with
      network := fun _ => rfl
      placed := .inl rfl
      destroyed := fun _ => rfl }

theorem complete_inv {s : CClient} (h : Inv s) (uId : ℕ) (answered : CAuth → CClient)
    (hanswered : ∀ a ∈ s.auths, Inv (answered a)) : Inv (s.complete uId answered) := by
  rcases complete_cases s uId answered with heq | ⟨a, ha, ⟨hd, _⟩ | heq⟩
  · rw [heq]
    exact h
  · exact absurd ha (by simp [h.destroyed hd])
  · rw [heq]
    exact hanswered a ha

theorem exec_inv {op : Op} (h : Inv s) (hq : s.Quiet op) : Inv (s.exec op) := by
  cases op with
  | line hooks Message =>
    simp only [exec]
    split_ifs with hd
    · exact h
    · exact readLine_inv h (by simpa using hd) hq
  | accept uId User => exact complete_inv h uId _ fun a ha => authAccept_inv h ha User
  | refuse uId sReason => exact complete_inv h uId _ fun a ha => authRefuse_inv h ha sReason
  | challenge sMessage =>
    simp only [exec]
    split_ifs
    · exact h
    · exact (sendSASLChallenge_puts s sMessage).sameLogin.inv h
  | disconnect =>
    simp only [exec]
    split_ifs
    · exact h
    · exact destroy_inv h
  | jumpNetwork pNetwork =>
    simp only [exec]
    split
    · rename_i User hUser
      split_ifs
      · exact h
      · obtain ⟨p, hp, heq⟩ := setNetwork_true hUser h.placed (pNetwork.map fun sName => ⟨User, some sName⟩)
        rw [heq]
        exact { h with network := fun hno => absurd hno (by simp [isAttached, hUser]), placed := .inr ⟨p, hp, rfl⟩ }
    · exact h
  | bounce p =>
    simp only [exec]
    split_ifs
    · exact h
    · refine { h with placed := ?_ }
      rcases h.placed with hnil | ⟨q, hq, hone⟩
      · exact .inl (by simp [hnil])
      · by_cases hpq : q = p
        · exact .inl (by simp [hone, hpq])
        · exact .inr ⟨q, hq, by simp [hone, hpq]⟩
  | setNick sNick sIRCNick =>
    simp only [exec]
    split_ifs
    · exact { h with dangling := h.dangling }
    · exact h
  | addUser User =>
    simp only [exec]
    split_ifs
    · exact { h with dangling := h.dangling }
    · exact h
  | delUser sUsername =>
    have hdel : Inv { s with vUsers := s.vUsers.filter (·.sUsername ≠ sUsername) } :=
      { h with dangling := h.dangling }
    simp only [exec]
    split_ifs
    · exact destroy_inv hdel
    · exact hdel

/-- **A client logs in once**: if no line starts a check while another one is pending, or takes up a SASL login while a PASS
check is, then in every state of a run the client has logged in once at most, stands in one list of clients once at most, and
no check has answered to it behind its destruction. -/
theorem login_once (vUsers : List CUser) (sRemoteIP : CString) (ops : List Op)
    (hq : Along exec (fun _ => Quiet) ops (init vUsers sRemoteIP)) :
    let s := run (init vUsers sRemoteIP) ops
    s.logins ≤ 1 ∧ s.places.length ≤ 1 ∧ s.bDangling = false := by
  have hinv : Inv (run (init vUsers sRemoteIP) ops) :=
    @along_inv _ _ exec (fun _ => Inv) (fun _ => Quiet) (fun _ _ _ h hq => exec_inv h hq) ops _
      (init_inv vUsers sRemoteIP) hq
  refine ⟨?_, ?_, hinv.dangling⟩
  · rw [hinv.logins]
    split <;> decide
  · rcases hinv.placed with hnil | ⟨p, -, hone⟩
    · simp [hnil]
    · simp [hone]

/-! ## Examples -/

/-- a login whose check is kept, and accepted later -/
theorem login_once_kept :
    let s := run (init [alice] (lit "192.0.2.1"))
      [sends .kept "NICK al", sends .kept "USER al 0 * :al", sends .kept "PASS alice:pw", .accept 0 alice]
    s.logins ≤ 1 ∧ s.places.length ≤ 1 ∧ s.bDangling = false :=
  login_once [alice] (lit "192.0.2.1")
    [sends .kept "NICK al", sends .kept "USER al 0 * :al", sends .kept "PASS alice:pw", .accept 0 alice]
      (by decide +kernel)

/-- **Two PASS lines log in twice**, into the lists of two users; and a check whose pointer was overwritten answers to a client
that is gone. -/
theorem login_twice :
    let s := run (init [alice, bob] (lit "192.0.2.1"))
      [sends .kept "NICK al", sends .kept "USER al 0 * :al", sends .kept "PASS alice:pw", sends .kept "PASS bob:pw"]
    (s.run [.accept 0 alice, .accept 1 bob]).logins = 2 ∧
      (s.run [.accept 0 alice, .accept 1 bob]).places = [⟨alice, none⟩, ⟨bob, none⟩] ∧
      (s.run [.disconnect, .accept 0 alice]).bDangling = true := by
  decide +kernel

end CClient

end ZNC.Login
