/-
The verdict of a SASL exchange: 903 or 904, once.

A check is started even if the client asked for another identity than the one it names, behind a 904. The check then decides
again, for the identity that was asked for, and may log the client in.

Results:
- `sasl_verdict`: if the identities match in every check, and an exchange whose check is pending is neither refused, nor accepted,
  nor checked again, then it gets one verdict at most, and one when its check is answered;
- `sasl_mismatch`: a client that asks for another identity is refused, and accepted.
-/
import ZNC.ClientLogin

namespace ZNC.Login

open Journal List

/-! ## Entries of exchanges -/

def Entry.isSASL : Entry → Bool
  | .verdict _ _ _ => true
  | .check _ _ _ => true
  | .answered _ _ _ => true
  | _ => false

/-- a verdict of the exchange `uExchange` -/
def Entry.decides (uExchange : ℕ) : Entry → Bool
  | .verdict e _ _ => e = uExchange
  | _ => false

/-- a pending check of the exchange `uExchange` -/
def CAuth.isFor (uExchange : ℕ) (a : CAuth) : Bool := a.bSASL && a.uExchange = uExchange

/-- the reaction is a verdict, or a check that will have one -/
def Reaction.decides : Reaction → Bool
  | .refuse _ => true
  | .accept _ => true
  | .startPasswordCheck _ _ _ => true
  | _ => false

namespace CClient

def verdicts (s : CClient) (uExchange : ℕ) : ℕ := s.log.countP (Entry.decides uExchange)

def pending (s : CClient) (uExchange : ℕ) : ℕ := s.auths.countP (CAuth.isFor uExchange)

/-- a line ends the exchange with a 904 of its own: the end of CAP or of the capability, or too long a message -/
def refusesExchange (s : CClient) (h : Hooks) (Message : CMessage) : Bool :=
  !h.bHalt &&
    match s.kind Message with
    | .capability =>
      s.isDuringSASL &&
        if (Message.getParam 0).equals (lit "LS") then false
        else if (Message.getParam 0).equals (lit "END") then !s.isAttached
        else (Message.getParam 0).equals (lit "REQ") && h.bSupported &&
          (reqTokens Message).any fun sToken => capToken sToken = (lit "sasl", false)
    | .authenticate =>
      s.duringExchange (Message.getParam 0) && s.sSASLBuffer.length + (Message.getParam 0).length > 10 * 1024
    | _ => false

/-- a check that is asked for is one of the identity that is asked for -/
def agrees (s : CClient) : Reaction → Bool
  | .startPasswordCheck sUser _ sAuthorizationId => s.identitiesMatch sUser sAuthorizationId
  | _ => true

section Refuses

variable {s : CClient} {h : Hooks} {Message : CMessage}

theorem refusesExchange_end (hhalt : h.bHalt = false) (hkind : s.kind Message = .capability)
    (hls : (Message.getParam 0).equals (lit "LS") = false) (hEND : (Message.getParam 0).equals (lit "END") = true)
    (hdur : s.isDuringSASL = true) (hatt : s.isAttached = false) : s.refusesExchange h Message = true := by
  simp [refusesExchange, hhalt, hkind, hls, hEND, hdur, hatt]

theorem refusesExchange_off (hhalt : h.bHalt = false) (hkind : s.kind Message = .capability)
    (hls : (Message.getParam 0).equals (lit "LS") = false) (hEND : (Message.getParam 0).equals (lit "END") = false)
    (hreq : (Message.getParam 0).equals (lit "REQ") = true) (hsup : h.bSupported = true)
    (hdur : s.isDuringSASL = true) {sToken : CString} (hmem : sToken ∈ reqTokens Message)
    (hoff : capToken sToken = (lit "sasl", false)) : s.refusesExchange h Message = true := by
  have hany : ((reqTokens Message).any fun sToken => capToken sToken = (lit "sasl", false)) = true :=
    any_eq_true.2 ⟨sToken, hmem, decide_eq_true hoff⟩
  simp only [refusesExchange, hhalt, hkind, hls, hEND, hreq, hsup, hdur, hany, Bool.not_false, Bool.true_and,
    Bool.false_eq_true, if_false]

theorem refusesExchange_long (hhalt : h.bHalt = false) (hkind : s.kind Message = .authenticate)
    (hex : s.duringExchange (Message.getParam 0) = true)
    (hfar : s.sSASLBuffer.length + (Message.getParam 0).length > 10 * 1024) : s.refusesExchange h Message = true := by
  simp [refusesExchange, hhalt, hkind, hex, hfar]

theorem mem_reaction (hhalt : h.bHalt = false) (hkind : s.kind Message = .authenticate)
    (hex : s.duringExchange (Message.getParam 0) = true)
    (hmax : s.sSASLBuffer.length + (Message.getParam 0).length ≤ 10 * 1024)
    (hfull : (Message.getParam 0).length ≠ uMaxSASLMsgLength) :
    h.onAuthenticate s.sSASLMechanism (s.decoded (Message.getParam 0)) ∈ s.reaction h Message := by
  simp [reaction, hhalt, hkind, hex, hmax, hfull]

end Refuses

/-! ## Statement -/

/-- the identities of a check match, and the exchange of a pending check is left alone -/
def Orderly (s : CClient) : Op → Prop
  | .line h Message =>
    (s.pending s.uExchange ≠ 0 → s.refusesExchange h Message = false) ∧
    ∀ r ∈ s.reaction h Message, (s.pending s.uExchange ≠ 0 → r.2.decides = false) ∧ s.agrees r.2 = true
  | _ => True

instance Orderly.decidable (s : CClient) : (op : Op) → Decidable (s.Orderly op)
  | .line h Message =>
    inferInstanceAs (Decidable ((s.pending s.uExchange ≠ 0 → s.refusesExchange h Message = false) ∧
      ∀ r ∈ s.reaction h Message, (s.pending s.uExchange ≠ 0 → r.2.decides = false) ∧ s.agrees r.2 = true))
  | .accept .. | .refuse .. | .challenge _ | .disconnect | .jumpNetwork _ | .bounce _ | .setNick .. | .addUser _ | .delUser _ =>
    isTrue trivial

/-! ## Invariant -/

structure SaslInv (s : CClient) : Prop where
  once : ∀ e, s.verdicts e + s.pending e ≤ 1
  /-- no verdict yet in an exchange that goes on -/
  undecided : s.sSASLMechanism ≠ [] → s.verdicts s.uExchange = 0
  fresh : ∀ e, s.uExchange < e → s.verdicts e + s.pending e = 0
  answered : ∀ e m b, .answered e m b ∈ s.log → s.verdicts e = 1
  matching : ∀ e m, .check e m false ∉ s.log

theorem init_saslInv (vUsers : List CUser) (sRemoteIP : CString) : SaslInv (init vUsers sRemoteIP) :=
  ⟨fun _ => Nat.zero_le _, fun _ => rfl, fun _ _ => rfl, fun _ _ _ he => absurd he List.not_mem_nil,
    fun _ _ he => nomatch he⟩

/-- no exchange gets a verdict or a check, and none is started -/
structure Keeps (s t : CClient) : Prop where
  auths : t.auths.Sublist s.auths
  uExchange : t.uExchange = s.uExchange
  mechanism : t.sSASLMechanism ≠ [] → s.sSASLMechanism ≠ []
  log : Adds Entry.isSASL s t

variable {s t : CClient} {a : CAuth}

namespace Keeps

theorem of_eq (hauths : t.auths = s.auths) (hex : t.uExchange = s.uExchange)
    (hmech : t.sSASLMechanism = s.sSASLMechanism) (hlog : t.log = s.log) : Keeps s t :=
  ⟨hauths ▸ List.Sublist.refl _, hex, fun hne => hmech ▸ hne, Adds.of_eq hlog⟩

theorem of_entry {e : Entry} (he : e.isSASL = false) (hauths : t.auths = s.auths)
    (hex : t.uExchange = s.uExchange) (hmech : t.sSASLMechanism ≠ [] → s.sSASLMechanism ≠ [])
    (hlog : t.log = e :: s.log) :
    Keeps s t :=
  ⟨hauths ▸ List.Sublist.refl _, hex, hmech, Adds.of_entry he hlog⟩

theorem of_sublist (s : CClient) {auths : List CAuth} (h : auths.Sublist s.auths) : Keeps s { s with auths := auths } :=
  ⟨h, rfl, id, Adds.of_eq rfl⟩

theorem trans {s t u : CClient} (h1 : Keeps s t) (h2 : Keeps t u) : Keeps s u :=
  ⟨h2.auths.trans h1.auths, h2.uExchange.trans h1.uExchange, fun hne => h1.mechanism (h2.mechanism hne),
    h1.log.trans h2.log⟩

theorem verdicts (h : Keeps s t) (e : ℕ) : t.verdicts e = s.verdicts e := by
  have hfilter (log : List Entry) :
    log.countP (Entry.decides e) = (log.filter Entry.isSASL).countP (Entry.decides e) := by
    rw [countP_filter]
    congr 1
    funext x
    cases x <;> simp [Entry.decides, Entry.isSASL]
  rw [CClient.verdicts, CClient.verdicts, hfilter t.log, hfilter s.log, h.log.filter]

theorem pending (h : Keeps s t) (e : ℕ) : t.pending e ≤ s.pending e := h.auths.countP_le

theorem inv (h : Keeps s t) (hs : SaslInv s) : SaslInv t where
  once e := by
    have hv := h.verdicts e
    have hp := h.pending e
    have := hs.once e
    omega
  undecided hne := by rw [h.verdicts, h.uExchange, hs.undecided (h.mechanism hne)]
  fresh e he := by
    have hv := h.verdicts e
    have hp := h.pending e
    have := hs.fresh e (h.uExchange ▸ he)
    omega
  answered e m b hmem := by rw [h.verdicts, hs.answered e m b (h.log.mem rfl hmem)]
  matching e m hmem := hs.matching e m (h.log.mem rfl hmem)

end Keeps

theorem SaslInv.verdict (h : SaslInv s) {e : ℕ} {b : Bool} {sLine : CString}
    (hlog : t.log = .verdict e b sLine :: s.log) (hauths : t.auths = s.auths) (hex : t.uExchange = s.uExchange)
    (hmech : t.sSASLMechanism = []) (he : e ≤ s.uExchange) (hzero : s.verdicts e + s.pending e = 0) :
    SaslInv t ∧ t.verdicts e = 1 := by
  have hverdicts (e' : ℕ) : t.verdicts e' = s.verdicts e' + if e = e' then 1 else 0 := by
    rw [verdicts, hlog, countP_cons]
    simp only [verdicts, Entry.decides, decide_eq_true_eq]
  have hpending (e' : ℕ) : t.pending e' = s.pending e' := by rw [pending, hauths]; rfl
  refine ⟨?_, by rw [hverdicts, if_pos rfl]; omega⟩
  exact
    { once := fun e' => by
        have := h.once e'
        rw [hverdicts, hpending]
        split <;> rename_i hee
        · subst hee
          omega
        · omega
      undecided := fun hne => absurd hmech hne
      fresh := fun e' he' => by
        rw [hex] at he'
        rw [hverdicts, hpending, if_neg (by omega)]
        exact h.fresh e' he'
      answered := fun e' m b' hmem => by
        rw [hlog] at hmem
        have hmem : .answered e' m b' ∈ s.log := by simpa using hmem
        have hone := h.answered e' m b' hmem
        rw [hverdicts, hone, if_neg]
        rintro rfl
        omega
      matching := fun e' m hmem => by
        rw [hlog] at hmem
        exact h.matching e' m (by simpa using hmem) }

/-! ## Functions that keep -/

theorem Puts.keeps (h : Puts s t) : Keeps s t := by
  have hadds := h.adds (p := Entry.isSASL) fun _ => rfl
  obtain ⟨new, -, rfl⟩ := h
  exact ⟨List.Sublist.refl _, rfl, id, hadds⟩

theorem Typed.keeps (h : Typed s t) : Keeps s t := by
  obtain ⟨_, _, _, _, _, _, _, _, _, _, rfl⟩ := h
  exact Keeps.of_eq rfl rfl rfl rfl

theorem abortSASL_keeps (s : CClient) (sLine : CString) : Keeps s (s.abortSASL (.put sLine)) :=
  Keeps.of_entry (e := .put sLine) rfl rfl rfl (fun hne => absurd rfl hne) rfl

theorem acceptLogin_keeps (s : CClient) (User : CUser) : Keeps s (s.acceptLogin User) := by
  obtain ⟨_, _, heq⟩ := acceptLogin_eq s User
  rw [heq]
  exact Keeps.of_entry (e := .login User.sUsername) rfl rfl rfl (fun hne => absurd rfl hne) rfl

theorem Beside.keeps (h : Beside s t) : Keeps s t := by
  obtain ⟨_, _, _, _, _, _, _, new, hauths, hnew, rfl⟩ := h
  have hnone : ∀ e ∈ new, Entry.isSASL e = false := by
    intro e he
    obtain ⟨sLine, rfl⟩ := hnew e he
    rfl
  exact ⟨hauths, rfl, id, ⟨new, rfl, hnone⟩⟩

/-! ## Verdicts -/

theorem refuseSASLLogin_inv (h : SaslInv s) {e : ℕ} (he : e ≤ s.uExchange)
    (hzero : s.verdicts e + s.pending e = 0) (sReason : CString) :
    SaslInv (s.refuseSASLLogin e sReason) ∧ (s.refuseSASLLogin e sReason).verdicts e = 1 :=
  h.verdict rfl rfl rfl rfl he hzero

theorem acceptSASLLogin_inv (h : SaslInv s) {e : ℕ} (he : e ≤ s.uExchange)
    (hzero : s.verdicts e + s.pending e = 0) (User : CUser) :
    SaslInv (s.acceptSASLLogin e User) ∧ (s.acceptSASLLogin e User).verdicts e = 1 := by
  have hput := (Puts.put s (s.numeric (lit "900") (ch ' ' :: s.getNick ++ lit "!" ++ User.sIdent ++
    lit "@" ++ s.sRemoteIP ++
    lit " " ++ User.sUsername ++ lit " :You are now logged in as " ++ User.sUsername))).keeps
  exact (hput.inv h).verdict rfl rfl rfl rfl he (by rw [hput.verdicts]; exact hzero)

theorem answer_saslInv (h : SaslInv s)
    (hone : a.bSASL = true → s.verdicts a.uExchange = 1) (b : Bool) :
    SaslInv (s.answer a b) := by
  unfold answer
  split
  · rename_i hsasl
    have hverdicts (e : ℕ) : { s with log := .answered a.uExchange a.sMechanism b :: s.log }.verdicts e = s.verdicts e := by
      simp only [verdicts, countP_cons, Entry.decides, Bool.false_eq_true, if_false, Nat.add_zero]
    exact
      { once := fun e => by rw [hverdicts]; exact h.once e
        undecided := fun hne => by rw [hverdicts]; exact h.undecided hne
        fresh := fun e he => by rw [hverdicts]; exact h.fresh e he
        answered := fun e m b' hmem => by
          rw [hverdicts]
          rcases mem_cons.1 hmem with heq | hmem
          · obtain ⟨rfl, -, -⟩ := Entry.answered.inj heq
            exact hone hsasl
          · exact h.answered e m b' hmem
        matching := fun e m hmem => h.matching e m (by simpa using hmem) }
  · exact h

theorem over_saslInv (h : SaslInv s) (ha : a ∈ s.auths) :
    SaslInv { s with auths := s.auths.erase a } ∧ (a.bSASL = true → a.uExchange ≤ s.uExchange ∧
      { s with auths := s.auths.erase a }.verdicts a.uExchange + { s with auths := s.auths.erase a }.pending a.uExchange = 0) := by
  have hkeeps := Keeps.of_sublist s (erase_sublist (a := a))
  refine ⟨hkeeps.inv h, fun hsasl => ?_⟩
  have hfor : a.isFor a.uExchange = true := by simp [CAuth.isFor, hsasl]
  have hpos : s.pending a.uExchange ≠ 0 := by
    have := countP_pos_iff.2 ⟨a, ha, hfor⟩
    exact Nat.pos_iff_ne_zero.1 this
  have hone := h.once a.uExchange
  refine ⟨?_, ?_⟩
  · by_contra hlt
    have := h.fresh a.uExchange (not_le.1 hlt)
    omega
  · have hless : (s.auths.erase a).countP (CAuth.isFor a.uExchange) = s.pending a.uExchange - 1 := by
      rw [countP_erase, if_pos ⟨ha, hfor⟩]
      rfl
    rw [hkeeps.verdicts, pending, hless]
    omega

theorem authAccept_saslInv (h : SaslInv s) (ha : a ∈ s.auths) (User : CUser) :
    SaslInv (s.authAccept a User) := by
  obtain ⟨hover, hzero⟩ := over_saslInv h ha
  unfold authAccept
  dsimp only
  split
  · rename_i hsasl
    obtain ⟨hle, hzero⟩ := hzero hsasl
    obtain ⟨hinv, hone⟩ := acceptSASLLogin_inv hover hle hzero User
    exact answer_saslInv hinv (fun _ => hone) true
  · rename_i hsasl
    exact answer_saslInv ((acceptLogin_keeps _ User).inv hover) (fun hyes => absurd hyes hsasl) true

theorem authRefuse_saslInv (h : SaslInv s) (ha : a ∈ s.auths) (sReason : CString) :
    SaslInv (s.authRefuse a sReason) := by
  obtain ⟨hover, hzero⟩ := over_saslInv h ha
  unfold authRefuse
  dsimp only
  split
  · rename_i hsasl
    obtain ⟨hle, hzero⟩ := hzero hsasl
    obtain ⟨hinv, hone⟩ := refuseSASLLogin_inv hover hle hzero sReason
    exact answer_saslInv hinv (fun _ => hone) false
  · rename_i hsasl
    exact answer_saslInv ((Puts.put _ _).keeps.inv hover) (fun hyes => absurd hyes hsasl) false

theorem zncAuthUser_saslInv (h : SaslInv s) (ha : a ∈ s.auths) (r : Answer) :
    SaslInv (s.zncAuthUser a r) := by
  rcases zncAuthUser_cases s a r with ⟨-, heq⟩ | ⟨User, heq⟩ | ⟨sReason, heq⟩
  · rw [heq]
    exact h
  · rw [heq]
    exact authAccept_saslInv h ha User
  · rw [heq]
    exact authRefuse_saslInv h ha sReason

/-! ## Checks -/

theorem authUser_saslInv (h : SaslInv s) (r : Answer) : SaslInv (s.authUser r) := by
  unfold authUser
  split
  · exact h
  · split
    · refine zncAuthUser_saslInv ?_ mem_cons_self r
      have hpending (e : ℕ) :
          (s.makeAuth ⟨s.uNext, false, s.sUser, s.sPass, 0, []⟩).pending e = s.pending e := by
        simp only [pending, makeAuth, countP_cons, CAuth.isFor, Bool.false_and, Bool.false_eq_true,
          if_false, Nat.add_zero]
      exact
        { h with
          once := fun e => by rw [hpending]; exact h.once e
          fresh := fun e he => by rw [hpending]; exact h.fresh e he }
    · split
      · exact (acceptLogin_keeps s _).inv h
      · exact (Puts.put _ _).keeps.inv h

/-- **A check of the identity that was asked for, in an exchange without one.** -/
theorem startSASLPasswordCheck_saslInv (h : SaslInv s) (hdur : s.sSASLMechanism ≠ [])
    (hnone : s.pending s.uExchange = 0) {sUser sAuthorizationId : CString}
    (hmatch : s.identitiesMatch sUser sAuthorizationId = true) (sPassword : CString) (r : Answer) :
    SaslInv (s.startSASLPasswordCheck sUser sPassword sAuthorizationId r) := by
  have hparse := (parseUser_typed s sAuthorizationId).keeps
  obtain ⟨_, _, _, heq⟩ := parseUser_eq s sAuthorizationId
  unfold startSASLPasswordCheck
  rw [hmatch]
  simp only [if_true]
  refine zncAuthUser_saslInv ?_ mem_cons_self r
  have hinv := hparse.inv h
  rw [heq] at hinv ⊢
  dsimp only [makeAuth]
  have hzero := h.undecided hdur
  exact
    { once := fun e => by
        have := h.once e
        simp only [verdicts, pending, countP_cons, Entry.decides, CAuth.isFor, Bool.true_and, decide_eq_true_eq,
          Bool.false_eq_true, if_false, Nat.add_zero] at this hzero hnone ⊢
        split
        · rename_i hee
          subst hee
          omega
        · omega
      undecided := fun _ => by
        simpa only [verdicts, countP_cons, Entry.decides, Bool.false_eq_true, if_false, Nat.add_zero] using hzero
      fresh := fun e he => by
        have := h.fresh e he
        simp only [verdicts, pending, countP_cons, Entry.decides, CAuth.isFor, Bool.true_and, decide_eq_true_eq,
          Bool.false_eq_true, if_false, Nat.add_zero] at this ⊢
        rw [if_neg (Nat.ne_of_lt he)]
        omega
      answered := fun e m b hmem => by
        have := h.answered e m b (by simpa using hmem)
        simpa only [verdicts, countP_cons, Entry.decides, Bool.false_eq_true, if_false, Nat.add_zero] using this
      matching := fun e m hmem => h.matching e m (by simpa using hmem) }

theorem call_saslInv (h : SaslInv s) (hdur : s.sSASLMechanism ≠ []) (a : Answer) (r : Reaction)
    (hnone : r.decides = true → s.pending s.uExchange = 0)
    (hmatch : s.agrees r = true) : SaslInv (s.call a r) := by
  have hzero := h.undecided hdur
  cases r with
  | nothing => exact h
  | challenge sMessage => exact (sendSASLChallenge_puts s sMessage).keeps.inv h
  | refuse sReason => exact (refuseSASLLogin_inv h le_rfl (by rw [hzero, hnone rfl]) sReason).1
  | accept User => exact (acceptSASLLogin_inv h le_rfl (by rw [hzero, hnone rfl]) User).1
  | startPasswordCheck sUser sPassword sAuthorizationId =>
    exact startSASLPasswordCheck_saslInv h hdur (hnone rfl) hmatch sPassword a

theorem agrees_eq (s t : CClient) (r : Reaction) : s.agrees r = t.agrees r := by
  cases r with
  | startPasswordCheck sUser sPassword sAuthorizationId => exact identitiesMatch_eq s t sUser sAuthorizationId
  | _ => rfl

/-! ## AUTHENTICATE -/

theorem receiveMessage_saslInv (h : SaslInv s) (hdur : s.sSASLMechanism ≠ []) (hooks : Hooks)
    (sMessage : CString)
    (hnone : (hooks.onAuthenticate s.sSASLMechanism (s.decoded sMessage)).2.decides = true → s.pending s.uExchange = 0)
    (hmatch : s.agrees (hooks.onAuthenticate s.sSASLMechanism (s.decoded sMessage)).2 = true) :
    SaslInv (s.receiveMessage hooks sMessage) := by
  unfold receiveMessage
  dsimp only
  revert hnone hmatch
  generalize hooks.onAuthenticate s.sSASLMechanism (s.decoded sMessage) = r
  intro hnone hmatch
  -- the log and the identity that a module gave
  generalize ht : { s with
    sSASLBuffer := s.decoded sMessage
    log := .authenticate s.uExchange s.sSASLMechanism (s.decoded sMessage) :: s.log } = t
  have hlog : Keeps s t := by
    rw [← ht]
    exact Keeps.of_entry (e := .authenticate s.uExchange s.sSASLMechanism (s.decoded sMessage)) rfl rfl rfl id rfl
  have hkeeps := hlog.trans (parseGiven_typed t r.1).keeps
  have hmech : (t.parseGiven r.1).sSASLMechanism = s.sSASLMechanism := by
    rw [← ht]
    cases r.1 with
    | none => rfl
    | some sAuthzId =>
      obtain ⟨_, _, _, heq⟩ := parseUser_eq { s with
        sSASLBuffer := s.decoded sMessage
        log := .authenticate s.uExchange s.sSASLMechanism (s.decoded sMessage) :: s.log } sAuthzId
      rw [parseGiven, heq]
  refine (buffer_typed _ []).keeps.inv (call_saslInv (hkeeps.inv h) (hmech ▸ hdur) _ _ (fun hdec => ?_) ?_)
  · have hle := hkeeps.pending s.uExchange
    rw [hkeeps.uExchange]
    have := hnone hdec
    omega
  · exact (agrees_eq _ s r.2).trans hmatch

theorem selectMechanism_saslInv (h : SaslInv s) (hooks : Hooks) (sMessage : CString) :
    SaslInv (s.selectMechanism hooks sMessage) := by
  have hzero := h.fresh (s.uExchange + 1) (Nat.lt_succ_self _)
  have hnew (sMechanism : CString) : SaslInv { s with uExchange := s.uExchange + 1, sSASLMechanism := sMechanism } :=
    { h with
      undecided := fun _ => (Nat.add_eq_zero_iff.1 hzero).1
      fresh := fun e he => h.fresh e (Nat.lt_of_succ_lt he) }
  have hfail (t : CClient) (hput : Puts { s with uExchange := s.uExchange + 1 } t) : SaslInv t.failExchange := by
    have hkeeps := hput.keeps
    have hpend := hkeeps.pending (s.uExchange + 1)
    refine ((hkeeps.inv (hnew s.sSASLMechanism)).verdict (t := t.failExchange) (e := t.uExchange) rfl rfl rfl rfl le_rfl ?_).1
    rw [hkeeps.uExchange, hkeeps.verdicts]
    exact Nat.le_zero.1 (hzero ▸ Nat.add_le_add_left hpend _)
  unfold selectMechanism
  dsimp only
  split_ifs
  · exact hfail _ (Puts.refl _)
  · split
    · exact (sendSASLChallenge_puts _ _).keeps.inv (hnew sMessage)
    · exact hnew sMessage
  · exact hfail _ (Puts.put _ _)
  · exact hfail _ (Puts.put _ _)

theorem abortSASL_saslInv (h : SaslInv s) (hdur : s.isDuringSASL = true)
    (hnone : s.pending s.uExchange = 0)
    (sLine : CString) : SaslInv (s.abortSASL (.verdict s.uExchange false sLine)) := by
  have hdur : s.sSASLMechanism ≠ [] := by simpa [isDuringSASL] using hdur
  exact (h.verdict (t := s.abortSASL (.verdict s.uExchange false sLine)) rfl rfl rfl rfl le_rfl
    (by rw [h.undecided hdur, hnone])).1

theorem onAuthenticateMessage_saslInv (h : SaslInv s) (hooks : Hooks) (sMessage : CString)
    (hlong : s.duringExchange sMessage = true → s.sSASLBuffer.length + sMessage.length > 10 * 1024 →
      s.pending s.uExchange = 0)
    (hr : s.duringExchange sMessage = true → s.sSASLBuffer.length + sMessage.length ≤ 10 * 1024 →
      sMessage.length ≠ uMaxSASLMsgLength →
      ((hooks.onAuthenticate s.sSASLMechanism (s.decoded sMessage)).2.decides = true → s.pending s.uExchange = 0) ∧
        s.agrees (hooks.onAuthenticate s.sSASLMechanism (s.decoded sMessage)).2 = true) :
    SaslInv (s.onAuthenticateMessage hooks sMessage) := by
  unfold onAuthenticateMessage
  split_ifs with hcap hdone hstar hmax hduring hfar hfull
  · exact (Puts.put _ _).keeps.inv h
  · exact (Puts.put _ _).keeps.inv h
  · exact (abortSASL_keeps s _).inv h
  · exact (abortSASL_keeps s _).inv h
  · exact selectMechanism_saslInv h hooks sMessage
  all_goals
    simp only [not_or, Bool.not_eq_true, not_lt, Bool.not_eq_true', Bool.not_eq_false, ne_eq, not_not] at *
    have hex : s.duringExchange sMessage = true := by simp [duringExchange, *]
  · exact abortSASL_saslInv h hduring (hlong hex hfar) _
  · exact (buffer_typed s _).keeps.inv h
  · obtain ⟨hnone, hmatch⟩ := hr hex hfar hfull
    exact receiveMessage_saslInv h (by simpa [isDuringSASL] using hduring) hooks sMessage hnone hmatch

/-! ## CAP -/

/-- an invariant that lines and logins keep, and the end of an exchange of which none of the `pending` checks is -/
structure Lasts (I : CClient → Prop) (pending : List CAuth → ℕ → ℕ) : Prop where
  puts : ∀ {s t}, Puts s t → I s → I t
  typed : ∀ {s t}, Typed s t → I s → I t
  authUser : ∀ {s} r, I s → I (s.authUser r)
  abort : ∀ {s}, I s → s.isDuringSASL = true → pending s.auths s.uExchange = 0 → I (s.abortSASL s.saslAborted)
  cap : ∀ {s} bVal, I s → I { s with bSASLCap := bVal }

namespace Lasts

variable {I : CClient → Prop} {pending : List CAuth → ℕ → ℕ}

theorem setCap (h : Lasts I pending) (hs : I s) (sToken : CString)
    (hnone : s.isDuringSASL = true → capToken sToken = (lit "sasl", false) → pending s.auths s.uExchange = 0) :
    I (s.setCap sToken) ∧ (s.setCap sToken).auths = s.auths ∧ (s.setCap sToken).uExchange = s.uExchange ∧
      ((s.setCap sToken).isDuringSASL = true → s.isDuringSASL = true) := by
  unfold CClient.setCap
  rcases hcap : capToken sToken with ⟨sCap, bVal⟩
  rw [hcap] at hnone
  dsimp only
  split_ifs with hsasl habort
  · simp only [Bool.and_eq_true, Bool.not_eq_true'] at habort
    exact ⟨h.cap _ (h.abort hs habort.1 (hnone habort.1 (by rw [hsasl, habort.2]))), rfl, rfl, fun _ => habort.1⟩
  · exact ⟨h.cap _ hs, rfl, rfl, id⟩
  · exact ⟨hs, rfl, rfl, id⟩

theorem reqTokens (h : Lasts I pending) (hs : I s) (vsTokens : VCString)
    (hnone : s.isDuringSASL = true → (∃ sToken ∈ vsTokens, capToken sToken = (lit "sasl", false)) →
      pending s.auths s.uExchange = 0) :
    I (vsTokens.foldl CClient.setCap s) := by
  induction vsTokens generalizing s with
  | nil => exact hs
  | cons sToken vsTokens ih =>
    obtain ⟨hinv, hauths, hex, hdur⟩ := h.setCap hs sToken fun hd hc => hnone hd ⟨sToken, mem_cons_self, hc⟩
    refine ih hinv fun hd ⟨x, hx, hc⟩ => ?_
    rw [hauths, hex]
    exact hnone (hdur hd) ⟨x, mem_cons_of_mem _ hx, hc⟩

theorem endCap (h : Lasts I pending) (hs : I s)
    (hnone : s.isDuringSASL = true → s.isAttached = false → pending s.auths s.uExchange = 0) : I s.endCap := by
  have hin := h.typed (inCap_typed s false) hs
  unfold CClient.endCap
  dsimp only
  split_ifs with hab
  · simp only [Bool.and_eq_true, Bool.not_eq_true'] at hab
    exact h.abort hin hab.2 (hnone hab.2 hab.1)
  · exact hin

theorem handleCap (h : Lasts I pending) (hs : I s) {hooks : Hooks} {Message : CMessage} (hhalt : hooks.bHalt = false)
    (hkind : s.kind Message = .capability)
    (hrefuses : pending s.auths s.uExchange ≠ 0 → s.refusesExchange hooks Message = false) :
    I (s.handleCap hooks Message) := by
  have hnone (hno : s.refusesExchange hooks Message = true) : pending s.auths s.uExchange = 0 := by
    by_contra hne
    exact Bool.false_ne_true ((hrefuses hne).symm.trans hno)
  have hin := h.typed (inCap_typed s true) hs
  rcases handleCap_cases s hooks Message with heq | heq | ⟨hls, hEND, hputs | ⟨heq, _, _⟩⟩ |
    ⟨hls, hEND, hreq, hsup, heq⟩
  · rw [heq]
    exact hs
  · rw [heq]
    exact hin
  · exact h.puts hputs (h.endCap hs fun hdur hatt => hnone (refusesExchange_end hhalt hkind hls hEND hdur hatt))
  · rw [heq]
    exact h.authUser _ (h.endCap hs fun hdur hatt => hnone (refusesExchange_end hhalt hkind hls hEND hdur hatt))
  · rw [heq]
    exact h.reqTokens hin _ fun hdur ⟨sToken, hmem, hoff⟩ =>
      hnone (refusesExchange_off hhalt hkind hls hEND hreq hsup hdur hmem hoff)

/-- every line but AUTHENTICATE keeps such an invariant -/
theorem readLine (h : Lasts I pending) (hs : I s) {hooks : Hooks} {Message : CMessage}
    (hrefuses : pending s.auths s.uExchange ≠ 0 → s.refusesExchange hooks Message = false)
    (hauth : hooks.bHalt = false → s.kind Message = .authenticate →
      (s.duringExchange (Message.getParam 0) = true →
        s.sSASLBuffer.length + (Message.getParam 0).length > 10 * 1024 → pending s.auths s.uExchange = 0) →
      I (s.onAuthenticateMessage hooks (Message.getParam 0))) :
    I (s.readLine hooks Message) := by
  unfold CClient.readLine
  split_ifs with hhalt
  · exact hs
  · have hhalt : hooks.bHalt = false := by simpa using hhalt
    cases hkind : s.kind Message with
    | pass => exact h.authUser _ (h.typed (gotPass_typed s _) hs)
    | nick => exact h.authUser _ (h.typed (gotNick_typed s _) hs)
    | user =>
      have huser := h.typed (gotUser_typed s (Message.getParam 0)) hs
      dsimp only
      split_ifs
      · exact h.authUser _ huser
      · exact h.puts (sendRequiredPasswordNotice_puts _) huser
      · exact huser
    | capability => exact h.handleCap hs hhalt hkind hrefuses
    | authenticate =>
      refine hauth hhalt hkind fun hex hfar => ?_
      by_contra hne
      exact Bool.false_ne_true ((hrefuses hne).symm.trans (refusesExchange_long hhalt hkind hex hfar))
    | other => exact hs

end Lasts

/-! ## Lines -/

theorem saslInv_lasts : Lasts SaslInv fun auths e => auths.countP (CAuth.isFor e) where
  puts hputs h := hputs.keeps.inv h
  typed htyped h := htyped.keeps.inv h
  authUser r h := authUser_saslInv h r
  abort h hdur hnone := abortSASL_saslInv h hdur hnone _
  cap _ h := { h with once := h.once }

theorem readLine_saslInv (h : SaslInv s) {hooks : Hooks} {Message : CMessage}
    (hok : s.Orderly (.line hooks Message)) : SaslInv (s.readLine hooks Message) := by
  obtain ⟨hrefuses, hreact⟩ := hok
  refine saslInv_lasts.readLine h hrefuses fun hhalt hkind hlong =>
    onAuthenticateMessage_saslInv h hooks _ hlong fun hex hmax hfull => ?_
  obtain ⟨hpend, hagree⟩ := hreact _ (mem_reaction hhalt hkind hex hmax hfull)
  refine ⟨fun hdec => ?_, hagree⟩
  by_contra hne
  exact Bool.false_ne_true ((hpend hne).symm.trans hdec)

/-! ## Runs -/

theorem complete_saslInv (h : SaslInv s) (uId : ℕ) (answered : CAuth → CClient)
    (hanswered : ∀ a ∈ s.auths, SaslInv (answered a)) : SaslInv (s.complete uId answered) := by
  rcases complete_cases s uId answered with heq | ⟨a, ha, ⟨_, heq⟩ | heq⟩
  · rw [heq]
    exact h
  · have hgone := (Keeps.of_sublist s (erase_sublist (a := a))).inv h
    rw [heq]
    exact { hgone with once := hgone.once }
  · rw [heq]
    exact hanswered a ha

theorem exec_saslInv {op : Op} (h : SaslInv s) (hok : s.Orderly op) : SaslInv (s.exec op) := by
  rcases exec_cases s op with ⟨hooks, Message, rfl⟩ | ⟨uId, User, rfl⟩ | ⟨uId, sReason, rfl⟩ | hbeside
  · simp only [exec]
    split_ifs
    · exact h
    · exact readLine_saslInv h hok
  · exact complete_saslInv h uId _ fun a ha => authAccept_saslInv h ha User
  · exact complete_saslInv h uId _ fun a ha => authRefuse_saslInv h ha sReason
  · exact hbeside.keeps.inv h

/-- **A SASL exchange has one verdict**: if every check is one of the identity that was asked for, and an exchange whose check is
pending gets no other verdict or check, then in every state of a run each exchange has got 903 or 904 once at most, and once if
its check was answered; and no exchange that asked for another identity was accepted. -/
theorem sasl_verdict (vUsers : List CUser) (sRemoteIP : CString) (ops : List Op)
    (hok : Along exec (fun _ => Orderly) ops (init vUsers sRemoteIP)) :
    let s := run (init vUsers sRemoteIP) ops
    (∀ e, s.verdicts e ≤ 1) ∧ (∀ e m b, .answered e m b ∈ s.log → s.verdicts e = 1) ∧
      ∀ e m sLine, .check e m false ∈ s.log → .verdict e true sLine ∉ s.log := by
  have hinv : SaslInv (run (init vUsers sRemoteIP) ops) :=
    @along_inv _ _ exec (fun _ => SaslInv) (fun _ => Orderly) (fun _ _ _ h hok => exec_saslInv h hok) ops _
      (init_saslInv vUsers sRemoteIP) hok
  exact ⟨fun e => (Nat.le_add_right _ _).trans (hinv.once e), hinv.answered,
    fun e m _ hcheck => absurd hcheck (hinv.matching e m)⟩

/-! ## Examples -/

/-- the identity `alice`, checked as `alice`, by a module that accepts later -/
theorem sasl_verdict_alice :
    let s := run (init [alice] (lit "192.0.2.1"))
      [sends .kept "CAP REQ :sasl", sends .kept "AUTHENTICATE PLAIN", sends .kept "AUTHENTICATE YWxpY2UAYWxpY2UAcHc=",
        .accept 0 alice]
    (∀ e, s.verdicts e ≤ 1) ∧ (∀ e m b, .answered e m b ∈ s.log → s.verdicts e = 1) ∧
      ∀ e m sLine, .check e m false ∈ s.log → .verdict e true sLine ∉ s.log :=
  sasl_verdict [alice] (lit "192.0.2.1")
    [sends .kept "CAP REQ :sasl", sends .kept "AUTHENTICATE PLAIN", sends .kept "AUTHENTICATE YWxpY2UAYWxpY2UAcHc=",
      .accept 0 alice] (by decide +kernel)

/-- **Two verdicts, and the second one accepts**: `alice` asks for the identity `bob`, is told that this is not supported, and
logged in as `bob` when the check of `bob` is accepted. -/
theorem sasl_mismatch :
    let s := run (init [alice, bob] (lit "192.0.2.1"))
      [sends .kept "CAP REQ :sasl", sends .kept "AUTHENTICATE PLAIN",
        sends .kept "AUTHENTICATE Ym9iAGFsaWNlAHB3", .accept 0 bob]
    s.verdicts 1 = 2 ∧ .check 1 (lit "PLAIN") false ∈ s.log ∧
      .verdict 1 true (lit ":irc.znc.in 903 unknown-nick :SASL authentication successful") ∈ s.log ∧
      s.sSASLUser = lit "bob" := by
  decide +kernel

end CClient

end ZNC.Login
