/-
The retry guard of SASL: one password check at a time, and none under a mechanism that was refused.

The guard is the set of failed mechanisms, and the mechanism of the exchange goes into it when a check is refused. An exchange
that was left meanwhile has none: the refusal is then recorded for no mechanism, and the next exchange may start a check while
this one is pending.

Results:
- `retry_guard`: if the exchange of a pending check is not left, and ends no further message with a check or a refusal, then one
  check is pending at most, and none is started under a mechanism whose check was refused;
- `retry_unguarded`: an exchange left with '*' while its check is pending.
-/
import ZNC.SaslVerdict

namespace ZNC.Login

open Journal List

/-! ## Statement -/

def Entry.isCheck : Entry → Bool
  | .check _ _ _ => true
  | .answered _ _ _ => true
  | _ => false

/-- a check under a mechanism comes before every refusal under it -/
def Entry.Unrefused (e : Entry) (earlier : List Entry) : Prop :=
  match e with
  | .check _ sMechanism _ => ∀ x, .answered x sMechanism false ∉ earlier
  | _ => True

/-- the reaction leads to another check, or lets another exchange begin -/
def Reaction.retries : Reaction → Bool
  | .refuse _ => true
  | .startPasswordCheck _ _ _ => true
  | _ => false

namespace CClient

/-- SASL checks that are pending -/
def inFlight (s : CClient) : ℕ := s.auths.countP (·.bSASL)

/-- a line leaves the exchange: '*', too long a line or message, or the end of CAP or of the capability -/
def leavesExchange (s : CClient) (h : Hooks) (Message : CMessage) : Bool :=
  s.refusesExchange h Message ||
    !h.bHalt && s.kind Message = .authenticate && s.isDuringSASL && s.bSASLCap && s.sSASLUser = [] && !s.isAttached &&
      ((Message.getParam 0).equals (lit "*") || (Message.getParam 0).length > uMaxSASLMsgLength)

/-- the exchange of a pending check goes on without another one, and a check of another identity than the one that was asked for
is not kept -/
def Patient (s : CClient) : Op → Prop
  | .line h Message =>
    (s.inFlight ≠ 0 → s.leavesExchange h Message = false) ∧
    ∀ r ∈ s.reaction h Message, (s.inFlight ≠ 0 → r.2.retries = false) ∧
      (s.agrees r.2 = true ∨ h.onLoginAttempt ≠ .kept)
  | _ => True

instance Patient.decidable (s : CClient) : (op : Op) → Decidable (s.Patient op)
  | .line h Message =>
    inferInstanceAs (Decidable ((s.inFlight ≠ 0 → s.leavesExchange h Message = false) ∧
      ∀ r ∈ s.reaction h Message,
        (s.inFlight ≠ 0 → r.2.retries = false) ∧ (s.agrees r.2 = true ∨ h.onLoginAttempt ≠ .kept)))
  | .accept .. | .refuse .. | .challenge _ | .disconnect | .jumpNetwork _ | .bounce _ | .setNick .. | .addUser _ | .delUser _ =>
    isTrue trivial

/-! ## Invariant -/

/-- no exchange begins any more -/
def Blocked (s : CClient) : Prop := s.sSASLUser ≠ [] ∨ s.isAttached = true

structure Guard (s : CClient) : Prop where
  one : s.inFlight ≤ 1
  /-- a pending check is one of the exchange -/
  live : ∀ a ∈ s.auths, a.bSASL = true → s.Blocked ∨ (s.sSASLMechanism = a.sMechanism ∧ a.sMechanism ≠ [])
  failed : ∀ e m, .answered e m false ∈ s.log → s.Blocked ∨ m ∈ s.ssFailed
  current : s.sSASLMechanism ≠ [] → s.sSASLMechanism ∉ s.ssFailed
  guarded : Always Entry.Unrefused s.log

theorem init_guard (vUsers : List CUser) (sRemoteIP : CString) : Guard (init vUsers sRemoteIP) :=
  ⟨Nat.zero_le _, fun _ ha => absurd ha List.not_mem_nil, fun _ _ he => absurd he List.not_mem_nil,
    fun hne => absurd rfl hne, trivial⟩

/-- entries that are neither checks nor answers -/
abbrev Logs (s t : CClient) : Prop := Adds Entry.isCheck s t

variable {s t : CClient} {a : CAuth}

theorem Logs.guarded (h : Logs s t) (hs : Always Entry.Unrefused s.log) :
    Always Entry.Unrefused t.log := by
  obtain ⟨new, hlog, hnew⟩ := h
  rw [hlog]
  refine Always.append (fun e he earlier => ?_) hs
  have hno := hnew e he
  cases e with
  | check uExchange sMechanism bMatch => exact absurd hno (by simp [Entry.isCheck])
  | _ => exact trivial

theorem Puts.logs (h : Puts s t) : Logs s t := h.adds fun _ => rfl

/-- the exchange goes on, and the checks -/
structure Steady (s t : CClient) : Prop where
  auths : t.auths.Sublist s.auths
  mechanism : t.sSASLMechanism = s.sSASLMechanism
  ssFailed : t.ssFailed = s.ssFailed
  blocked : s.Blocked → t.Blocked
  logs : Logs s t

namespace Steady

theorem of_eq {s t : CClient} (hauths : t.auths = s.auths) (hmech : t.sSASLMechanism = s.sSASLMechanism)
    (hfailed : t.ssFailed = s.ssFailed) (hSASLUser : t.sSASLUser = s.sSASLUser) (hUser : t.pUser = s.pUser)
    (hlogs : Logs s t) : Steady s t := by
  refine ⟨hauths ▸ List.Sublist.refl _, hmech, hfailed, fun hb => ?_, hlogs⟩
  rwa [Blocked, hSASLUser, isAttached, hUser]

theorem trans {s t u : CClient} (h1 : Steady s t) (h2 : Steady t u) : Steady s u :=
  ⟨h2.auths.trans h1.auths, h2.mechanism.trans h1.mechanism, h2.ssFailed.trans h1.ssFailed,
    fun hb => h2.blocked (h1.blocked hb),
    h1.logs.trans h2.logs⟩

theorem inFlight {s t : CClient} (h : Steady s t) : t.inFlight ≤ s.inFlight := h.auths.countP_le

theorem guard {s t : CClient} (h : Steady s t) (hs : Guard s) : Guard t where
  one := h.inFlight.trans hs.one
  live a ha hsasl := by
    rw [h.mechanism]
    exact (hs.live a (h.auths.subset ha) hsasl).imp_left h.blocked
  failed e m hmem := by
    rw [h.ssFailed]
    exact (hs.failed e m (h.logs.mem rfl hmem)).imp_left h.blocked
  current hne := by
    rw [h.mechanism, h.ssFailed]
    exact hs.current (h.mechanism ▸ hne)
  guarded := Logs.guarded h.logs hs.guarded

end Steady

/-- **The exchange is over**, and so are its checks, or all exchanges. -/
theorem Guard.over (h : Guard s) (hauths : t.auths.Sublist s.auths) (hmech : t.sSASLMechanism = [])
    (hfailed : ∀ m ∈ s.ssFailed, m ∈ t.ssFailed) (hblocked : s.Blocked → t.Blocked) (hlogs : Logs s t)
    (hnone : t.inFlight = 0 ∨ t.Blocked) : Guard t where
  one := (hauths.countP_le).trans h.one
  live a ha hsasl := by
    rcases hnone with hnone | hb
    · exact absurd hsasl (countP_eq_zero.1 hnone a ha)
    · exact .inl hb
  failed e m hmem := (h.failed e m (hlogs.mem rfl hmem)).imp hblocked (hfailed m)
  current hne := absurd hmech hne
  guarded := Logs.guarded hlogs h.guarded

/-! ## Functions that leave the exchange alone -/

theorem Puts.steady (h : Puts s t) : Steady s t := by
  have hlogs := h.logs
  obtain ⟨new, -, rfl⟩ := h
  exact Steady.of_eq rfl rfl rfl rfl rfl hlogs

theorem Typed.steady (h : Typed s t) : Steady s t := by
  obtain ⟨_, _, _, _, _, _, _, _, _, _, rfl⟩ := h
  exact Steady.of_eq rfl rfl rfl rfl rfl (Adds.of_eq rfl)

theorem Beside.steady (h : Beside s t) : Steady s t := by
  obtain ⟨_, _, _, _, _, _, _, new, hauths, hnew, rfl⟩ := h
  have hnone : ∀ e ∈ new, Entry.isCheck e = false := by
    intro e he
    obtain ⟨sLine, rfl⟩ := hnew e he
    rfl
  exact ⟨hauths, rfl, rfl, id, ⟨new, rfl, hnone⟩⟩

/-! ## Logins and verdicts -/

theorem acceptLogin_guard (h : Guard s) (User : CUser) : Guard (s.acceptLogin User) := by
  obtain ⟨_, _, heq⟩ := acceptLogin_eq s User
  rw [heq]
  exact h.over (List.Sublist.refl _) rfl (fun _ => id) (fun _ => .inr rfl)
    (Adds.of_entry (e := .login User.sUsername) rfl rfl) (.inr (.inr rfl))

theorem acceptSASLLogin_guard (h : Guard s) (e : ℕ) (User : CUser) :
    Guard (s.acceptSASLLogin e User) := by
  have hput := (Puts.put s (s.numeric (lit "900") (ch ' ' :: s.getNick ++ lit "!" ++ User.sIdent ++
    lit "@" ++ s.sRemoteIP ++
    lit " " ++ User.sUsername ++ lit " :You are now logged in as " ++ User.sUsername))).logs
  have hblocked : (s.acceptSASLLogin e User).Blocked := .inl User.sUsername_ne
  exact h.over (List.Sublist.refl _) rfl (fun _ => id) (fun _ => hblocked)
    (hput.trans (Adds.of_entry (t := s.acceptSASLLogin e User) rfl rfl)) (.inr hblocked)

theorem refuseSASLLogin_guard (h : Guard s) (e : ℕ) (sReason : CString) (hnone : s.inFlight = 0 ∨ s.Blocked) :
    Guard (s.refuseSASLLogin e sReason) :=
  h.over (List.Sublist.refl _) rfl (fun _ => mem_cons_of_mem _) id (Adds.of_entry rfl rfl) hnone

theorem abortSASL_guard (h : Guard s) {e : Entry} (he : e.isCheck = false) (hnone : s.inFlight = 0) :
    Guard (s.abortSASL e) :=
  h.over (List.Sublist.refl _) rfl (fun _ => id) id (Adds.of_entry he rfl) (.inl hnone)

theorem answer_guard (h : Guard s) {b : Bool}
    (hfailed : a.bSASL = true → b = false → s.Blocked ∨ a.sMechanism ∈ s.ssFailed) : Guard (s.answer a b) := by
  unfold answer
  split
  · rename_i hsasl
    exact
      { h with
        failed := fun e m hmem => by
          rcases mem_cons.1 hmem with heq | hmem
          · obtain ⟨-, rfl, rfl⟩ := Entry.answered.inj heq
            exact hfailed hsasl rfl
          · exact h.failed e m hmem
        guarded := ⟨trivial, h.guarded⟩ }
  · exact h

/-- **A check is answered**: of the exchange, or under a mechanism that was recorded before. -/
theorem authRefuse_guard (h : Guard { s with auths := s.auths.erase a })
    (hnone : a.bSASL = true → { s with auths := s.auths.erase a }.inFlight = 0)
    (hm : a.bSASL = true → s.Blocked ∨ s.sSASLMechanism = a.sMechanism ∨ a.sMechanism ∈ s.ssFailed) (sReason : CString) :
    Guard (s.authRefuse a sReason) := by
  unfold authRefuse
  dsimp only
  split
  · rename_i hsasl
    refine answer_guard (refuseSASLLogin_guard h _ sReason (.inl (hnone hsasl))) fun _ _ => ?_
    rcases hm hsasl with hb | heq | hmem
    · exact .inl hb
    · exact .inr (heq ▸ mem_cons_self)
    · exact .inr (mem_cons_of_mem _ hmem)
  · rename_i hsasl
    exact answer_guard ((Puts.put _ _).steady.guard h) fun hyes => absurd hyes hsasl

theorem authAccept_guard (h : Guard { s with auths := s.auths.erase a }) (User : CUser) :
    Guard (s.authAccept a User) := by
  unfold authAccept
  dsimp only
  split
  · exact answer_guard (acceptSASLLogin_guard h _ User) fun _ hno => absurd hno.symm Bool.false_ne_true
  · exact answer_guard (acceptLogin_guard h User) fun _ hno => absurd hno.symm Bool.false_ne_true

theorem zncAuthUser_guard (h : Guard { s with auths := s.auths.erase a })
    (hnone : a.bSASL = true → { s with auths := s.auths.erase a }.inFlight = 0)
    (hm : a.bSASL = true → s.Blocked ∨ s.sSASLMechanism = a.sMechanism ∨ a.sMechanism ∈ s.ssFailed) (r : Answer)
    (hkept : r = .kept → Guard s) : Guard (s.zncAuthUser a r) := by
  rcases zncAuthUser_cases s a r with ⟨hr, heq⟩ | ⟨User, heq⟩ | ⟨sReason, heq⟩
  · rw [heq]
    exact hkept hr
  · rw [heq]
    exact authAccept_guard h User
  · rw [heq]
    exact authRefuse_guard h hnone hm sReason

theorem Guard.erase (h : Guard s) (ha : a ∈ s.auths) :
    Guard { s with auths := s.auths.erase a } ∧ (a.bSASL = true → { s with auths := s.auths.erase a }.inFlight = 0) ∧
      (a.bSASL = true → s.Blocked ∨ s.sSASLMechanism = a.sMechanism ∨ a.sMechanism ∈ s.ssFailed) := by
  refine ⟨Steady.guard ⟨erase_sublist, rfl, rfl, id, Adds.of_eq rfl⟩ h, fun hsasl => ?_, fun hsasl => ?_⟩
  · have hone := h.one
    have hpos : s.inFlight ≠ 0 := Nat.pos_iff_ne_zero.1 (countP_pos_iff.2 ⟨a, ha, hsasl⟩)
    have hless : (s.auths.erase a).countP (·.bSASL) = s.inFlight - 1 := by
      rw [countP_erase, if_pos ⟨ha, hsasl⟩]
      rfl
    rw [inFlight, hless]
    omega
  · exact (h.live a ha hsasl).imp_right fun hmech => .inl hmech.1

/-! ## Checks -/

theorem authUser_guard (h : Guard s) (r : Answer) : Guard (s.authUser r) := by
  unfold authUser
  split
  · exact h
  · split
    · -- a check that is none of SASL
      have hpass : Guard (s.makeAuth ⟨s.uNext, false, s.sUser, s.sPass, 0, []⟩) :=
        { h with
          one := by
            have hcount : (s.makeAuth ⟨s.uNext, false, s.sUser, s.sPass, 0, []⟩).inFlight = s.inFlight := by
              simp [inFlight, makeAuth]
            rw [hcount]
            exact h.one
          live := fun a ha hsasl => by
            rcases mem_cons.1 ha with rfl | ha
            · exact absurd hsasl Bool.false_ne_true
            · exact h.live a ha hsasl }
      obtain ⟨hover, hnone, hm⟩ := hpass.erase mem_cons_self
      exact zncAuthUser_guard hover hnone hm r fun _ => hpass
    · split
      · exact acceptLogin_guard h _
      · exact (Puts.put _ _).steady.guard h

theorem checked_guard (h : Guard s) (hdur : s.sSASLMechanism ≠ []) (hmech : a.sMechanism = s.sSASLMechanism)
    (hnone : s.inFlight = 0) (hunrefused : ∀ x, .answered x s.sSASLMechanism false ∉ s.log) :
    Guard { s.makeAuth a with log := .check s.uExchange s.sSASLMechanism true :: s.log } :=
  { h with
    one := by
      have hle : (s.makeAuth a).inFlight ≤ s.inFlight + 1 := by
        simp only [inFlight, makeAuth, countP_cons]
        split <;> omega
      exact hle.trans (by omega)
    live := fun b hb hsasl => by
      rcases mem_cons.1 hb with rfl | hb
      · exact .inr ⟨hmech.symm, hmech ▸ hdur⟩
      · exact h.live b hb hsasl
    failed := fun e m hmem => h.failed e m (by simpa using hmem)
    guarded := ⟨hunrefused, h.guarded⟩ }

/-- **A check of an exchange that goes on, while none is pending.** -/
theorem startSASLPasswordCheck_guard (h : Guard s) (hdur : s.sSASLMechanism ≠ []) (hfree : ¬s.Blocked)
    (hnone : s.inFlight = 0) {sUser sAuthorizationId : CString} {r : Answer}
    (hmatch : s.identitiesMatch sUser sAuthorizationId = true ∨ r ≠ .kept) (sPassword : CString) :
    Guard (s.startSASLPasswordCheck sUser sPassword sAuthorizationId r) := by
  have hunrefused (x : ℕ) : .answered x s.sSASLMechanism false ∉ s.log := fun hmem =>
    (h.failed x _ hmem).elim hfree (h.current hdur)
  obtain ⟨sName, _, _, heq⟩ := parseUser_eq s sAuthorizationId
  have hparse := (parseUser_typed s sAuthorizationId).steady.guard h
  unfold startSASLPasswordCheck
  dsimp only
  rw [heq] at hparse ⊢
  cases hid : s.identitiesMatch sUser sAuthorizationId with
  | true =>
    simp only [if_true]
    have hchecked := checked_guard
      (a := ⟨s.uNext, true, sName, sPassword, s.uExchange, s.sSASLMechanism⟩) hparse hdur rfl hnone
      hunrefused
    obtain ⟨hover, hzero, hm⟩ := hchecked.erase mem_cons_self
    exact zncAuthUser_guard hover hzero hm r fun _ => hchecked
  | false =>
    simp only [Bool.false_eq_true, if_false]
    have hrefused := refuseSASLLogin_guard hparse s.uExchange (lit "No support for custom AuthzId") (.inl hnone)
    refine zncAuthUser_guard ?_ (fun _ => ?_) (fun _ => .inr (.inr mem_cons_self)) r fun hk => ?_
    · simp only [makeAuth, erase_cons_head]
      exact
        { hrefused with
          failed := fun e m hmem => hrefused.failed e m (by simpa using hmem)
          guarded := ⟨fun x hmem => hunrefused x (by simpa [refuseSASLLogin] using hmem), hrefused.guarded⟩ }
    · simp only [makeAuth, erase_cons_head]
      exact hnone
    · exact absurd hk (hmatch.resolve_left (by simp [hid]))

theorem call_guard (h : Guard s) (hdur : s.sSASLMechanism ≠ []) (hfree : ¬s.Blocked) {a : Answer} {r : Reaction}
    (hnone : r.retries = true → s.inFlight = 0) (hmatch : s.agrees r = true ∨ a ≠ .kept) : Guard (s.call a r) := by
  cases r with
  | nothing => exact h
  | challenge sMessage => exact (sendSASLChallenge_puts s sMessage).steady.guard h
  | refuse sReason => exact refuseSASLLogin_guard h _ sReason (.inl (hnone rfl))
  | accept User => exact acceptSASLLogin_guard h _ User
  | startPasswordCheck sUser sPassword sAuthorizationId =>
    exact startSASLPasswordCheck_guard h hdur hfree (hnone rfl) hmatch sPassword

/-! ## AUTHENTICATE -/

theorem receiveMessage_guard (h : Guard s) (hdur : s.sSASLMechanism ≠ []) (hfree : ¬s.Blocked) (hooks : Hooks)
    (sMessage : CString)
    (hnone : (hooks.onAuthenticate s.sSASLMechanism (s.decoded sMessage)).2.retries = true → s.inFlight = 0)
    (hmatch : s.agrees (hooks.onAuthenticate s.sSASLMechanism (s.decoded sMessage)).2 = true ∨
      hooks.onLoginAttempt ≠ .kept) :
    Guard (s.receiveMessage hooks sMessage) := by
  unfold receiveMessage
  dsimp only
  revert hnone hmatch
  generalize hooks.onAuthenticate s.sSASLMechanism (s.decoded sMessage) = r
  intro hnone hmatch
  have hfreed : ¬{ s with
      sSASLBuffer := s.decoded sMessage
      log := .authenticate s.uExchange s.sSASLMechanism (s.decoded sMessage) :: s.log }.Blocked := hfree
  generalize ht : { s with
    sSASLBuffer := s.decoded sMessage
    log := .authenticate s.uExchange s.sSASLMechanism (s.decoded sMessage) :: s.log } = t
  have hlog : Steady s t := by
    rw [← ht]
    exact Steady.of_eq rfl rfl rfl rfl rfl (Adds.of_entry (e := .authenticate _ _ _) rfl rfl)
  rw [ht] at hfreed
  have hparse := (parseGiven_typed t r.1).steady
  have hsteady := hlog.trans hparse
  have hfree' : ¬(t.parseGiven r.1).Blocked := by
    cases r.1 with
    | none => exact hfreed
    | some sAuthzId =>
      obtain ⟨_, _, _, heq⟩ := parseUser_eq t sAuthzId
      rw [parseGiven, heq]
      exact hfreed
  refine (buffer_typed _ []).steady.guard
    (call_guard (hsteady.guard h) (hsteady.mechanism ▸ hdur) hfree' (fun hr => ?_) ?_)
  · have hle := hsteady.inFlight
    have := hnone hr
    omega
  · exact hmatch.imp_left (agrees_eq _ s r.2).trans

theorem Guard.idle (h : Guard s) (hdur : s.sSASLMechanism = []) (hfree : ¬s.Blocked) :
    s.inFlight = 0 := by
  rw [inFlight, countP_eq_zero]
  exact fun a ha hsasl => (h.live a ha hsasl).elim hfree fun hlive => hlive.2 (hlive.1.symm.trans hdur)

theorem selectMechanism_guard (h : Guard s) (hdur : s.sSASLMechanism = []) (hfree : ¬s.Blocked) (hooks : Hooks)
    (sMessage : CString) : Guard (s.selectMechanism hooks sMessage) := by
  have hnone := h.idle hdur hfree
  have hfail (t : CClient) (hput : Puts { s with uExchange := s.uExchange + 1 } t) : Guard t.failExchange := by
    have hnew : Guard { s with uExchange := s.uExchange + 1 } := { h with one := h.one }
    have ht := hput.steady
    exact (ht.guard hnew).over (t := t.failExchange) (List.Sublist.refl _) rfl (fun _ => id) id
      (Adds.of_entry (e := .verdict _ _ _) rfl rfl) (.inl (Nat.le_zero.1 (hnone ▸ ht.inFlight)))
  unfold selectMechanism
  dsimp only
  split_ifs with hfailed hknown
  · exact hfail _ (Puts.refl _)
  · have hbegin : Guard { s with uExchange := s.uExchange + 1, sSASLMechanism := sMessage } :=
      { h with
        live := fun a ha hsasl => absurd hsasl (countP_eq_zero.1 hnone a ha)
        current := fun _ => hfailed }
    split
    · exact (sendSASLChallenge_puts _ _).steady.guard hbegin
    · exact hbegin
  · exact hfail _ (Puts.put _ _)
  · exact hfail _ (Puts.put _ _)

theorem onAuthenticateMessage_guard (h : Guard s) (hooks : Hooks) (sMessage : CString)
    (hleave : s.bSASLCap = true → s.sSASLUser = [] → s.isAttached = false → s.isDuringSASL = true →
      sMessage.equals (lit "*") = true ∨ sMessage.length > uMaxSASLMsgLength → s.inFlight = 0)
    (hlong : s.duringExchange sMessage = true → s.sSASLBuffer.length + sMessage.length > 10 * 1024 → s.inFlight = 0)
    (hr : s.duringExchange sMessage = true → s.sSASLBuffer.length + sMessage.length ≤ 10 * 1024 →
      sMessage.length ≠ uMaxSASLMsgLength →
      ((hooks.onAuthenticate s.sSASLMechanism (s.decoded sMessage)).2.retries = true → s.inFlight = 0) ∧
        (s.agrees (hooks.onAuthenticate s.sSASLMechanism (s.decoded sMessage)).2 = true ∨
          hooks.onLoginAttempt ≠ .kept)) :
    Guard (s.onAuthenticateMessage hooks sMessage) := by
  unfold onAuthenticateMessage
  split_ifs with hcap hdone hstar hmax hduring hfar hfull
  · exact (Puts.put _ _).steady.guard h
  · exact (Puts.put _ _).steady.guard h
  all_goals
    simp only [not_or, Bool.not_eq_true, not_lt, Bool.not_eq_true', Bool.not_eq_false, ne_eq, not_not] at *
    have hfree : ¬s.Blocked :=
      fun hb => hb.elim (fun hne => hne hdone.1) fun hatt => absurd (hatt.symm.trans hdone.2) Bool.noConfusion
  · have hnone : s.inFlight = 0 := by
      by_cases hdur : s.sSASLMechanism = []
      · exact h.idle hdur hfree
      · exact hleave hcap hdone.1 hdone.2 (by simpa [isDuringSASL] using hdur) (.inl hstar)
    exact abortSASL_guard h rfl hnone
  · have hnone : s.inFlight = 0 := by
      by_cases hdur : s.sSASLMechanism = []
      · exact h.idle hdur hfree
      · exact hleave hcap hdone.1 hdone.2 (by simpa [isDuringSASL] using hdur) (.inr hmax)
    exact abortSASL_guard h rfl hnone
  · exact selectMechanism_guard h (by simpa [isDuringSASL] using hduring) hfree hooks sMessage
  all_goals
    have hex : s.duringExchange sMessage = true := by simp [duringExchange, *]
  · exact abortSASL_guard h rfl (hlong hex hfar)
  · exact (buffer_typed s _).steady.guard h
  · obtain ⟨hnone, hmatch⟩ := hr hex hfar hfull
    exact receiveMessage_guard h (by simpa [isDuringSASL] using hduring) hfree hooks sMessage hnone hmatch

/-! ## Lines -/

theorem guard_lasts : Lasts Guard fun auths _ => auths.countP (·.bSASL) where
  puts hputs h := hputs.steady.guard h
  typed htyped h := htyped.steady.guard h
  authUser r h := authUser_guard h r
  abort h _ hnone := abortSASL_guard h rfl hnone
  cap _ h := { h with one := h.one }

theorem readLine_guard {s : CClient} (h : Guard s) {hooks : Hooks} {Message : CMessage}
    (hok : s.Patient (.line hooks Message)) : Guard (s.readLine hooks Message) := by
  obtain ⟨hleave, hreact⟩ := hok
  have hrefuses (hne : s.inFlight ≠ 0) : s.refusesExchange hooks Message = false :=
    (Bool.or_eq_false_iff.1 (hleave hne)).1
  refine guard_lasts.readLine h hrefuses fun hhalt hkind hlong =>
    onAuthenticateMessage_guard h hooks _ (fun hcap hSASLUser hatt hdur hor => ?_) hlong fun hex hmax hfull => ?_
  · by_contra hne
    have hno := (Bool.or_eq_false_iff.1 (hleave hne)).2
    simp only [hhalt, hkind, hdur, hcap, hSASLUser, hatt, Bool.not_false, Bool.true_and, decide_true, Bool.and_true,
      Bool.or_eq_false_iff, decide_eq_false_iff_not] at hno
    rcases hor with hstar | hmax
    · exact absurd (hstar.symm.trans hno.1) Bool.noConfusion
    · exact hno.2 hmax
  · obtain ⟨hpend, hagree⟩ := hreact _ (mem_reaction hhalt hkind hex hmax hfull)
    refine ⟨fun hr => ?_, hagree⟩
    by_contra hne
    exact Bool.false_ne_true ((hpend hne).symm.trans hr)

/-! ## Runs -/

theorem complete_guard (h : Guard s) (uId : ℕ) (answered : CAuth → CClient)
    (hanswered : ∀ a ∈ s.auths, Guard (answered a)) : Guard (s.complete uId answered) := by
  rcases complete_cases s uId answered with heq | ⟨a, ha, ⟨_, heq⟩ | heq⟩
  · rw [heq]
    exact h
  · rw [heq]
    exact Steady.guard ⟨erase_sublist, rfl, rfl, id, Adds.of_eq rfl⟩ h
  · rw [heq]
    exact hanswered a ha

theorem exec_guard {op : Op} (h : Guard s) (hok : s.Patient op) : Guard (s.exec op) := by
  rcases exec_cases s op with ⟨hooks, Message, rfl⟩ | ⟨uId, User, rfl⟩ | ⟨uId, sReason, rfl⟩ | hbeside
  · simp only [exec]
    split_ifs
    · exact h
    · exact readLine_guard h hok
  · exact complete_guard h uId _ fun a ha => authAccept_guard (h.erase ha).1 User
  · refine complete_guard h uId _ fun a ha => ?_
    obtain ⟨hover, hnone, hm⟩ := h.erase ha
    exact authRefuse_guard hover hnone hm sReason
  · exact hbeside.steady.guard h

/-- **The retry guard**: if the exchange of a pending check is not left, and no further message of it is answered with a check or
a refusal, then one SASL check is pending at most in every state of a run, and no check is started under a mechanism of which a
check was refused before. -/
theorem retry_guard (vUsers : List CUser) (sRemoteIP : CString) (ops : List Op)
    (hok : Along exec (fun _ => Patient) ops (init vUsers sRemoteIP)) :
    let s := run (init vUsers sRemoteIP) ops
    s.inFlight ≤ 1 ∧
      ∀ pre e m b post, s.log = pre ++ .check e m b :: post → ∀ x, .answered x m false ∉ post := by
  have hguard : Guard (run (init vUsers sRemoteIP) ops) :=
    @along_inv _ _ exec (fun _ => Guard) (fun _ => Patient) (fun _ _ _ h hok => exec_guard h hok) ops _
      (init_guard vUsers sRemoteIP) hok
  exact ⟨hguard.one, fun pre e m b post hlog => always_iff.1 hguard.guarded pre (.check e m b) post hlog⟩

/-! ## Examples -/

/-- a refused check, and the next attempt, which starts none -/
theorem retry_guard_refused :
    let s := run (init [alice] (lit "192.0.2.1"))
      [sends .kept "CAP REQ :sasl", sends .kept "AUTHENTICATE PLAIN", sends .kept "AUTHENTICATE YWxpY2UAYWxpY2UAcHcx",
        .refuse 0 (lit "Invalid Password"), sends .kept "AUTHENTICATE PLAIN"]
    s.inFlight ≤ 1 ∧
      ∀ pre e m b post, s.log = pre ++ .check e m b :: post → ∀ x, .answered x m false ∉ post :=
  retry_guard [alice] (lit "192.0.2.1")
    [sends .kept "CAP REQ :sasl", sends .kept "AUTHENTICATE PLAIN", sends .kept "AUTHENTICATE YWxpY2UAYWxpY2UAcHcx",
      .refuse 0 (lit "Invalid Password"), sends .kept "AUTHENTICATE PLAIN"] (by decide +kernel)

/-- **The guard is passed**: with '*' the client leaves the exchange while its check is pending. Two checks are pending then; or
the first one is refused under no mechanism, and the next password is checked. -/
theorem retry_unguarded :
    let s := run (init [alice] (lit "192.0.2.1"))
      [sends .kept "CAP REQ :sasl", sends .kept "AUTHENTICATE PLAIN", sends .kept "AUTHENTICATE YWxpY2UAYWxpY2UAcHcx",
        sends .kept "AUTHENTICATE *"]
    let t := s.run [.refuse 0 (lit "Invalid Password"), sends .kept "AUTHENTICATE PLAIN",
      sends .kept "AUTHENTICATE YWxpY2UAYWxpY2UAcHcy"]
    (s.run [sends .kept "AUTHENTICATE PLAIN", sends .kept "AUTHENTICATE YWxpY2UAYWxpY2UAcHcy"]).inFlight = 2 ∧
      t.log.head? = some (.check 2 (lit "PLAIN") true) ∧ .answered 1 (lit "PLAIN") false ∈ t.log.tail := by
  decide +kernel

end CClient

end ZNC.Login
