/-
Requests without the token of the session, over the pages of `WebPages`.

The token is asked for when a request is a POST. A page that takes what it does from GET parameters does it for any request: the
channel of `delchan` and the key of `delete` are GET parameters. `del_listener` and `add` read POST parameters, but they do not
ask for a POST, and what they read is then empty.

Results:
- `route_page`: a POST without the token gets to no page;
- `Webadmin.onWebRequest_get`: which pages of webadmin do anything without a POST;
- `unchanged_iff`: the requests without the token that change nothing.
-/
import ZNC.WebPages

namespace ZNC.WebPages

open CString

variable {R : Rest}

/-! ## Statement -/

/-- a page does something for a request that is no POST -/
def Acts (z : CZNC R) (s : CWebSession) (r : CWebSock) (l : Located) : Prop :=
  -- a channel of a network that is named
  (l.sName = lit "webadmin" ∧ l.sPage = lit "delchan" ∧ ∃ pNetwork n, Webadmin.safeGetNetworkFromParam z r = some pNetwork ∧
    Webadmin.adminOrOwner z s (some pNetwork) = true ∧ z.getNetwork pNetwork = some n ∧
    r.getParam (lit "name") false ≠ [] ∧ ∃ c ∈ n.m_vChans, (r.getParam (lit "name") false).equals c.sName = true) ∨
  -- a listener without a path
  (l.sName = lit "webadmin" ∧ l.sPage = lit "del_listener" ∧ s.isAdmin z = true ∧
    ∃ listener ∈ z.m_vpListeners, CZNC.isUnixListener [] listener = true) ∨
  -- the empty key
  (l.sName = lit "certauth" ∧ l.sPage = lit "add" ∧
    ∃ sUser, s.pUser = some sUser ∧ [] ∉ MultiMap.values z.certauth.m_PubKeys sUser) ∨
  -- a key that is named
  (l.sName = lit "certauth" ∧ l.sPage = lit "delete" ∧ ∃ sUser, s.pUser = some sUser ∧
    (r.getParam (lit "key") false).asLower ∈ MultiMap.values z.certauth.m_PubKeys sUser)

/-! ## What a request carries -/

variable {r : CWebSock}

@[simp] theorem getParam_unposted (h : r.m_bPost = false) (sName : CString) : r.getParam sName true = [] := by
  have hempty : CWebSock.getRawParam sName r.m_msvsPOSTParams = [] := by
    rw [r.unposted h, CWebSock.getRawParam, OrdMap.find_empty]
    rfl
  rw [CWebSock.getParam, if_pos rfl, hempty]
  rfl

@[simp] theorem submitted_unposted (h : r.m_bPost = false) : r.submitted = false := by
  rw [CWebSock.submitted, getParam_unposted h]
  rfl

/-! ## Updates that change nothing -/

theorem CIRCNetwork.delChan_eq_self_iff (n : CIRCNetwork R) (sName : CString) :
    n.delChan sName = n ↔ ∀ c ∈ n.m_vChans, ¬ sName.equals c.sName = true := by
  rw [← List.eraseP_eq_self_iff]
  constructor
  · intro h
    exact congrArg CIRCNetwork.m_vChans h
  · intro h
    rw [CIRCNetwork.delChan, h]

theorem CUser.updateNetwork_eq_self_iff {u : CUser R} {pNetwork : ℕ} {n : CIRCNetwork R}
    (h : u.m_vIRCNetworks[pNetwork]? = some n) (f : CIRCNetwork R → CIRCNetwork R) :
    u.updateNetwork pNetwork f = u ↔ f n = n := by
  constructor
  · intro hu
    have hlist : (u.m_vIRCNetworks.modify pNetwork f)[pNetwork]? = u.m_vIRCNetworks[pNetwork]? :=
      congrArg (fun u : CUser R => u.m_vIRCNetworks[pNetwork]?) hu
    rw [List.getElem?_modify, h] at hlist
    simpa using hlist
  · intro hn
    have hlist : u.m_vIRCNetworks.modify pNetwork f = u.m_vIRCNetworks := by
      apply List.ext_getElem?
      intro i
      rw [List.getElem?_modify]
      by_cases hi : pNetwork = i
      · rw [← hi, h]
        simp [hn]
      · simp [hi]
    rw [CUser.updateNetwork, hlist]

theorem CUser.showEmptyNetwork_eq (u : CUser R) (n : CIRCNetwork R) : u.showEmptyNetwork n = u := by
  unfold CUser.showEmptyNetwork CUser.addNetwork
  split_ifs
  · rfl
  · simp

theorem CZNC.updateUser_eq_self_iff {z : CZNC R} {sUser : CString} {u : CUser R} (h : z.m_msUsers.find sUser = some u)
    (f : CUser R → CUser R) : z.updateUser sUser f = z ↔ f u = u := by
  have hupdate : z.updateUser sUser f = { z with m_msUsers := z.m_msUsers.insert sUser (f u) } := by
    rw [CZNC.updateUser, h]
  rw [hupdate]
  constructor
  · intro hz
    have hinsert : z.m_msUsers.insert sUser (f u) = z.m_msUsers := congrArg CZNC.m_msUsers hz
    rw [OrdMap.insert_eq_self_iff, h] at hinsert
    exact (Option.some.inj hinsert).symm
  · intro hu
    rw [(OrdMap.insert_eq_self_iff _ _ _).2 (h.trans (congrArg some hu.symm))]

theorem CZNC.updateUser_id {z : CZNC R} {sUser : CString} {f : CUser R → CUser R} (hf : ∀ u, f u = u) :
    z.updateUser sUser f = z := by
  cases h : z.m_msUsers.find sUser with
  | none => rw [CZNC.updateUser, h]
  | some u => exact (CZNC.updateUser_eq_self_iff h f).2 (hf u)

theorem CZNC.delListener_eq_self_iff (z : CZNC R) (p : Global.CListener → Bool) :
    z.delListener p = z ↔ ∀ listener ∈ z.m_vpListeners, ¬ p listener = true := by
  rw [← List.eraseP_eq_self_iff]
  constructor
  · intro h
    exact congrArg CZNC.m_vpListeners h
  · intro h
    rw [CZNC.delListener, h]

theorem ite_unchanged {c : Prop} [Decidable c] {page page' : CZNC R × WebReply} {z : CZNC R} (h : page.1 = z)
    (h' : page'.1 = z) : (if c then page else page').1 = z := by
  split_ifs
  · exact h
  · exact h'

/-! ## The pages of webadmin without a POST -/

namespace Webadmin

variable {E : Elsewhere R} {z : CZNC R} {s : CWebSession}

theorem ofNetwork_eq {page : CString × ℕ → CZNC R × WebReply} (h : ∀ pNetwork, (page pNetwork).1 = z) :
    (ofNetwork z s r page).1 = z := by
  unfold ofNetwork
  split_ifs
  · rfl
  · cases safeGetNetworkFromParam z r with
    | none => rfl
    | some pNetwork => exact h pNetwork

theorem forAdmins_eq {page : CZNC R × WebReply} (h : page.1 = z) : (forAdmins z s page).1 = z := by
  unfold forAdmins
  split_ifs
  · rfl
  · exact h

section Unposted

variable (h : r.m_bPost = false)

include h

theorem settingsPage_get : settingsPage E z r = (z, .acknowledged) := by
  rw [settingsPage, submitted_unposted h, if_neg Bool.false_ne_true]

theorem userPage_get (pUser : Option CString) : (userPage E z r pUser).1 = z := by
  rw [userPage, submitted_unposted h, if_neg Bool.false_ne_true]

theorem chanPage_get (pNetwork : CString × ℕ) (pChan : Option ℕ) :
    (chanPage E z r pNetwork pChan).1 = z := by
  rw [chanPage, submitted_unposted h, if_neg Bool.false_ne_true]

theorem networkPage_get (sUser : CString) (pNetwork : Option ℕ) :
    (networkPage E z s r sUser pNetwork).1 = z := by
  rw [networkPage, submitted_unposted h, if_neg Bool.false_ne_true]
  split_ifs
  · rfl
  · rfl
  · exact CZNC.updateUser_id fun u => u.showEmptyNetwork_eq _

theorem editChan_get (pNetwork : CString × ℕ) : (editChan E z r pNetwork).1 = z := by
  unfold editChan
  cases (z.getNetwork pNetwork).bind fun n => n.findChan (r.safeGetParam (lit "name")) with
  | none => rfl
  | some pChan => exact chanPage_get h _ _

theorem addNetwork_get : (addNetwork E z s r).1 = z := by
  unfold addNetwork
  cases safeGetUserFromParam z r with
  | none => split_ifs <;> rfl
  | some sUser =>
    dsimp only
    split_ifs
    · rfl
    · exact networkPage_get h _ _
    · rfl

theorem delNetwork_get (pUser : Option CString) : (delNetwork E z r pUser).1 = z := by
  unfold delNetwork
  cases pUser with
  | none => rfl
  | some sUser =>
    dsimp only
    split_ifs
    · rfl
    · rfl

theorem delNetworkOf_get : (delNetworkOf E z s r).1 = z := by
  unfold delNetworkOf
  split_ifs
  · rfl
  · exact delNetwork_get h _
  · rfl

theorem editUser_get : (editUser E z s r).1 = z := by
  unfold editUser
  dsimp only
  split_ifs
  all_goals
    first
    | rfl
    | split
      · rfl
      · exact userPage_get h _

theorem delUser_get : (delUser E z s r).1 = z := by
  rw [delUser, if_pos h]
  split_ifs
  · rfl
  · rfl

theorem addListener_get : (addListener E z r).1 = z := by
  have hnone : CString.toBool [] = false := rfl
  rw [addListener, getParam_unposted h, getParam_unposted h, if_pos ⟨hnone, hnone⟩, settingsPage_get h]

theorem delListener_get : (delListener E z r).1 = z.delListener (CZNC.isUnixListener []) := by
  rw [delListener, getParam_unposted h, if_neg (by decide), settingsPage_get h, getParam_unposted h]

end Unposted

theorem onWebRequest_delchan : onWebRequest E z s r (lit "delchan") = ofNetwork z s r (delChan E z r) := by
  rw [onWebRequest, if_neg (by decide), if_neg (by decide), if_neg (by decide), if_neg (by decide), if_neg (by decide),
    if_neg (by decide), if_neg (by decide), if_pos rfl]

theorem onWebRequest_del_listener :
    onWebRequest E z s r (lit "del_listener") = forAdmins z s (delListener E z r) := by
  rw [onWebRequest, if_neg (by decide), if_neg (by decide), if_neg (by decide), if_neg (by decide), if_neg (by decide),
    if_neg (by decide), if_neg (by decide), if_neg (by decide), if_neg (by decide), if_neg (by decide),
    if_neg (fun h => absurd h.1 (by decide)), if_neg (by decide), if_neg (by decide), if_neg (by decide), if_pos rfl]

theorem onWebRequest_get (h : r.m_bPost = false) {sPageName : CString} (hchan : sPageName ≠ lit "delchan")
    (hlistener : sPageName ≠ lit "del_listener") : (onWebRequest E z s r sPageName).1 = z := by
  unfold onWebRequest
  rw [if_neg hchan, if_neg hlistener]
  apply ite_unchanged (forAdmins_eq (congrArg Prod.fst (settingsPage_get h)))
  apply ite_unchanged (forAdmins_eq (userPage_get h none))
  apply ite_unchanged (addNetwork_get h)
  apply ite_unchanged (ofNetwork_eq fun pNetwork => networkPage_get h _ _)
  apply ite_unchanged (delNetworkOf_get h)
  apply ite_unchanged (ofNetwork_eq (editChan_get h))
  apply ite_unchanged (ofNetwork_eq fun pNetwork => chanPage_get h _ _)
  apply ite_unchanged (forAdmins_eq (delUser_get h))
  apply ite_unchanged (editUser_get h)
  apply ite_unchanged rfl
  apply ite_unchanged rfl
  apply ite_unchanged rfl
  exact ite_unchanged (forAdmins_eq (addListener_get h)) rfl

theorem getNetwork_of_safeGet {pNetwork : CString × ℕ} (h : safeGetNetworkFromParam z r = some pNetwork) :
    ∃ u n, z.m_msUsers.find pNetwork.1 = some u ∧ u.m_vIRCNetworks[pNetwork.2]? = some n := by
  obtain ⟨uNetwork, hfind, rfl⟩ := Option.map_eq_some_iff.1 h
  obtain ⟨u, hu, hidx⟩ := Option.bind_eq_some_iff.1 hfind
  obtain ⟨hlt, -, -⟩ := List.findIdx?_eq_some_iff_getElem.1 hidx
  exact ⟨u, u.m_vIRCNetworks[uNetwork], hu, List.getElem?_eq_getElem hlt⟩

theorem delChan_eq_self_iff {pNetwork : CString × ℕ} {n : CIRCNetwork R} (hn : z.getNetwork pNetwork = some n) :
    (delChan E z r pNetwork).1 = z ↔ ¬ (r.getParam (lit "name") false ≠ [] ∧
      ∃ c ∈ n.m_vChans, (r.getParam (lit "name") false).equals c.sName = true) := by
  obtain ⟨u, hu, hnet⟩ := Option.bind_eq_some_iff.1 hn
  unfold delChan
  by_cases hname : r.getParam (lit "name") false = []
  · simp [hname]
  · have hfst : (delChan E z r pNetwork).1 = z.updateUser pNetwork.1 fun u => u.updateNetwork pNetwork.2 fun n =>
        n.delChan (r.getParam (lit "name") false) := by
      rw [delChan, if_neg hname]
      dsimp only
      split_ifs <;> rfl
    change (delChan E z r pNetwork).1 = z ↔ _
    rw [hfst, CZNC.updateUser_eq_self_iff hu, CUser.updateNetwork_eq_self_iff hnet, CIRCNetwork.delChan_eq_self_iff]
    simp [hname]

/-- **When `delchan` changes nothing.** -/
theorem delchanPage_eq_self_iff : (ofNetwork z s r (delChan E z r)).1 = z ↔
    ¬ ∃ pNetwork n, safeGetNetworkFromParam z r = some pNetwork ∧ adminOrOwner z s (some pNetwork) = true ∧
      z.getNetwork pNetwork = some n ∧ r.getParam (lit "name") false ≠ [] ∧
      ∃ c ∈ n.m_vChans, (r.getParam (lit "name") false).equals c.sName = true := by
  unfold ofNetwork
  cases hget : safeGetNetworkFromParam z r with
  | none => split_ifs <;> simp
  | some pNetwork =>
    obtain ⟨u, n, hu, hnet⟩ := getNetwork_of_safeGet hget
    have hn : z.getNetwork pNetwork = some n := Option.bind_eq_some_iff.2 ⟨u, hu, hnet⟩
    split_ifs with hself
    · simp [hself]
    · dsimp only
      rw [delChan_eq_self_iff hn]
      simp [hn, hself]

/-- **When `del_listener` changes nothing**, without a POST. -/
theorem delListenerPage_eq_self_iff (h : r.m_bPost = false) : (forAdmins z s (delListener E z r)).1 = z ↔
    ¬ (s.isAdmin z = true ∧ ∃ listener ∈ z.m_vpListeners, CZNC.isUnixListener [] listener = true) := by
  unfold forAdmins
  split_ifs with hadmin
  · simp [hadmin]
  · rw [delListener_get h, CZNC.delListener_eq_self_iff]
    simp [hadmin]

end Webadmin

/-! ## The pages of certauth -/

namespace Certauth

open CertAuth CSSLClientCertMod

theorem addKey_eq_self_iff (m : CSSLClientCertMod) (User sKey : CString) :
    (m.addKey User sKey).1 = m ↔ sKey.asLower ∈ MultiMap.values m.m_PubKeys User := by
  unfold addKey
  dsimp only
  split_ifs with hkey
  · exact iff_of_true rfl hkey
  · refine iff_of_false (fun h => hkey ?_) hkey
    have hput : MultiMap.put m.m_PubKeys User sKey.asLower = m.m_PubKeys := congrArg CSSLClientCertMod.m_PubKeys h
    rw [← hput, MultiMap.mem_put]
    exact .inl ⟨rfl, rfl⟩

theorem delKey_eq_self_iff (m : CSSLClientCertMod) (User sKey : CString) :
    m.delKey User sKey = m ↔ sKey.asLower ∉ MultiMap.values m.m_PubKeys User := by
  unfold delKey
  dsimp only
  split_ifs with hkey
  · refine iff_of_false (fun h => ?_) (not_not_intro hkey)
    have hdrop : MultiMap.drop m.m_PubKeys User sKey.asLower = m.m_PubKeys := congrArg CSSLClientCertMod.m_PubKeys h
    rw [← hdrop, MultiMap.mem_drop] at hkey
    exact hkey.1 ⟨rfl, rfl⟩
  · exact iff_of_true rfl hkey

variable {z : CZNC R} {s : CWebSession}

theorem setCertauth_eq_self_iff (z : CZNC R) (m : CSSLClientCertMod) : { z with certauth := m } = z ↔ m = z.certauth := by
  constructor
  · intro h
    exact congrArg CZNC.certauth h
  · intro h
    rw [h]

/-- **When the pages of certauth change nothing**, without a POST. -/
theorem onWebRequest_eq_self_iff (h : r.m_bPost = false) (sPageName : CString) :
    (onWebRequest z s r sPageName).1 = z ↔
      ¬ ((sPageName = lit "add" ∧ ∃ sUser, s.pUser = some sUser ∧ [] ∉ MultiMap.values z.certauth.m_PubKeys sUser) ∨
        (sPageName = lit "delete" ∧ ∃ sUser, s.pUser = some sUser ∧
          (r.getParam (lit "key") false).asLower ∈ MultiMap.values z.certauth.m_PubKeys sUser)) := by
  unfold onWebRequest
  cases s.pUser with
  | none => simp
  | some sUser =>
    dsimp only
    by_cases hindex : sPageName = lit "index"
    · rw [if_pos hindex, hindex]
      simp [show lit "index" ≠ lit "add" by decide, show lit "index" ≠ lit "delete" by decide]
    · rw [if_neg hindex]
      by_cases hadd : sPageName = lit "add"
      · rw [if_pos hadd, hadd, setCertauth_eq_self_iff, getParam_unposted h, addKey_eq_self_iff]
        simp [show lit "add" ≠ lit "delete" by decide, show CString.asLower [] = [] from rfl]
      · rw [if_neg hadd]
        by_cases hdelete : sPageName = lit "delete"
        · rw [if_pos hdelete, hdelete, setCertauth_eq_self_iff, delKey_eq_self_iff]
          simp [show lit "delete" ≠ lit "add" by decide]
        · simp [hadd, hdelete]

end Certauth

/-! ## Where a request goes -/

section Route

variable {E : Elsewhere R} {z : CZNC R} {s : CWebSession}

theorem of_ite_eq {α : Type} {c : Prop} [Decidable c] {a b x : α} (h : (if c then a else b) = x) (ha : a ≠ x) :
    ¬ c ∧ b = x := by
  split_ifs at h with hc
  · exact absurd h ha
  · exact ⟨hc, h⟩

theorem routeModule_page {l l' : Located} (h : routeModule E z s r l' = .page l) :
    (l.sName = lit "webadmin" ∨ l.sName = lit "certauth") ∧
      ¬ (r.m_bPost && !r.m_bBasicAuth && !validateCSRFCheck E s r r.m_sURI) = true := by
  unfold routeModule at h
  obtain ⟨hown, h⟩ := of_ite_eq h (by simp)
  obtain ⟨hcsrf, h⟩ := of_ite_eq h (by simp)
  iterate 3 replace h := (of_ite_eq h (by simp)).2
  obtain rfl := Route.page.inj h
  refine ⟨?_, hcsrf⟩
  by_contra hname
  exact hown (.inr (not_or.1 hname))

theorem route_page {l : Located} (h : route E z s r = .page l) :
    (l.sName = lit "webadmin" ∨ l.sName = lit "certauth") ∧
      ¬ (r.m_bPost && !r.m_bBasicAuth && !validateCSRFCheck E s r r.m_sURI) = true := by
  unfold route at h
  dsimp only at h
  iterate 6 replace h := (of_ite_eq h (by simp)).2
  obtain ⟨-, h⟩ := of_ite_eq h (by split_ifs <;> simp)
  obtain ⟨-, h⟩ := of_ite_eq h (by simp)
  obtain ⟨-, h⟩ := of_ite_eq h (by split_ifs <;> simp)
  split_ifs at h
  cases hlocate : locate z s r with
  | error a =>
    rw [hlocate] at h
    simp at h
  | ok l' =>
    rw [hlocate] at h
    exact routeModule_page h

theorem routeModule_ne_login (l : Located) : routeModule E z s r l ≠ .login := by
  intro h
  unfold routeModule at h
  iterate 5 replace h := (of_ite_eq h (by simp)).2
  simp at h

theorem route_ne_login (hlogin : r.m_sURI ≠ lit "/login") : route E z s r ≠ .login := by
  intro h
  unfold route at h
  dsimp only at h
  rw [if_neg hlogin] at h
  iterate 7 replace h := (of_ite_eq h (by simp)).2
  obtain ⟨-, h⟩ := of_ite_eq h (by split_ifs <;> simp)
  split_ifs at h
  cases hlocate : locate z s r with
  | error a =>
    rw [hlocate] at h
    simp at h
  | ok l' =>
    rw [hlocate] at h
    exact routeModule_ne_login l' h

theorem onPageRequestInternal_eq_self_iff (hlogin : r.m_sURI ≠ lit "/login") (hother : ∀ l, route E z s r ≠ .other l) :
    (onPageRequestInternal E z s r).1 = z ↔ ∀ l, route E z s r = .page l → (onWebRequest E z s r l).1 = z := by
  unfold onPageRequestInternal
  cases hroute : route E z s r with
  | answered a => simp
  | login => exact absurd hroute (route_ne_login hlogin)
  | page l => simp
  | other l => exact absurd hroute (hother l)

theorem onWebRequest_eq_self_iff {l : Located} (h : r.m_bPost = false)
    (hname : l.sName = lit "webadmin" ∨ l.sName = lit "certauth") :
    (onWebRequest E z s r l).1 = z ↔ ¬ Acts z s r l := by
  unfold onWebRequest Acts
  cases hname with
  | inl hname =>
    rw [if_pos hname, hname]
    simp only [show lit "webadmin" ≠ lit "certauth" by decide, true_and, false_and, or_false]
    by_cases hchan : l.sPage = lit "delchan"
    · rw [hchan, Webadmin.onWebRequest_delchan, Webadmin.delchanPage_eq_self_iff]
      simp only [show lit "delchan" ≠ lit "del_listener" by decide, true_and, false_and, or_false]
    · by_cases hlistener : l.sPage = lit "del_listener"
      · rw [hlistener, Webadmin.onWebRequest_del_listener, Webadmin.delListenerPage_eq_self_iff h]
        simp only [show lit "del_listener" ≠ lit "delchan" by decide, true_and, false_and, false_or]
      · rw [Webadmin.onWebRequest_get h hchan hlistener]
        simp [hchan, hlistener]
  | inr hname =>
    rw [if_neg (by rw [hname]; decide), hname, Certauth.onWebRequest_eq_self_iff h]
    simp only [show lit "certauth" ≠ lit "webadmin" by decide, true_and, false_and, false_or]

/-- **A request without the token changes nothing exactly if it gets to none of the pages that act without a POST.** -/
theorem unchanged_iff (hbasic : r.m_bBasicAuth = false)
    (htoken : ¬ (r.m_bPost = true ∧ r.getParam (lit "_CSRF_Check") true = s.getCSRFCheck E))
    (hlogin : r.m_sURI ≠ lit "/login") (hother : ∀ l, route E z s r ≠ .other l) :
    (onPageRequestInternal E z s r).1 = z ↔ ∀ l, route E z s r = .page l → ¬ Acts z s r l := by
  rw [onPageRequestInternal_eq_self_iff hlogin hother]
  refine forall₂_congr fun l hroute => ?_
  obtain ⟨hname, hcsrf⟩ := route_page hroute
  have hpost : r.m_bPost = false := by
    by_contra hpost
    rw [Bool.not_eq_false] at hpost
    apply hcsrf
    have hwrong : r.getParam (lit "_CSRF_Check") true ≠ s.getCSRFCheck E := fun h => htoken ⟨hpost, h⟩
    have hcheck : validateCSRFCheck E s r r.m_sURI = false := by simp [validateCSRFCheck, hlogin, hwrong]
    rw [hpost, hbasic, hcheck]
    rfl
  exact onWebRequest_eq_self_iff hpost hname

end Route

/-! ## A link that deletes a channel -/

section Link

/-- nothing is saved, and the id of the session is "s" -/
def linkElsewhere : Elsewhere ⟨Unit, Unit, Unit, Unit⟩ where
  md5 := fun _ => lit "03c7c0ace395d80182db07ae2c30f034"
  newNetwork := ()
  writeConfig := fun _ => true
  save := fun _ _ z => (z, .acknowledged)
  onLogin := fun _ _ z => z
  otherPage := fun _ _ _ _ z => (z, .notFound)

def linkZNC : CZNC ⟨Unit, Unit, Unit, Unit⟩ where
  m_msUsers := OrdMap.empty.insert (lit "u") ⟨false, false, 1, [⟨lit "n", [⟨lit "#c", ()⟩], [], ()⟩], [], ()⟩
  m_vpListeners := []
  vsModules := [lit "webadmin", lit "certauth"]
  certauth := ⟨.empty, .empty, .empty⟩
  bProtectWebSessions := true
  rest := ()

def linkSession : CWebSession := ⟨lit "s", lit "127.0.0.1", some (lit "u")⟩

/-- `GET /mods/global/webadmin/delchan?user=u&network=n&name=#c` -/
def linkRequest : CWebSock where
  m_bPost := false
  m_bBasicAuth := false
  m_sURI := lit "/mods/global/webadmin/delchan"
  m_msvsPOSTParams := .empty
  m_msvsGETParams := ((OrdMap.empty.insert (lit "user") [lit "u"]).insert (lit "network") [lit "n"]).insert (lit "name")
    [lit "#c"]
  sRemoteIP := lit "127.0.0.1"
  unposted := fun _ => rfl

theorem route_link : route linkElsewhere linkZNC linkSession linkRequest =
    .page ⟨.GlobalModule, lit "webadmin", lit "webadmin", lit "delchan"⟩ := by decide +kernel

/-- the number of channels of each network -/
def chanCounts (z : CZNC R) (sUser : CString) : Option (List ℕ) :=
  (z.m_msUsers.find sUser).map fun u => u.m_vIRCNetworks.map fun n => n.m_vChans.length

/-- a link takes a channel away from the user who follows it -/
theorem link_deletes : linkSession.isLoggedIn linkZNC = true ∧ linkRequest.m_bBasicAuth = false ∧
    ¬ (linkRequest.m_bPost = true ∧
      linkRequest.getParam (lit "_CSRF_Check") true = linkSession.getCSRFCheck linkElsewhere) ∧
    linkRequest.m_sURI ≠ lit "/login" ∧ (∀ l, route linkElsewhere linkZNC linkSession linkRequest ≠ .other l) ∧
    (onPageRequestInternal linkElsewhere linkZNC linkSession linkRequest).1 ≠ linkZNC := by
  have hcount : chanCounts (onPageRequestInternal linkElsewhere linkZNC linkSession linkRequest).1 (lit "u") ≠
      chanCounts linkZNC (lit "u") := by decide +kernel
  refine ⟨by decide +kernel, rfl, by decide, by decide, ?_, ?_⟩
  · intro l hl
    rw [route_link] at hl
    simp at hl
  · intro h
    exact hcount (congrArg (chanCounts · (lit "u")) h)

/-- the theorem at the link -/
theorem unchanged_link : (onPageRequestInternal linkElsewhere linkZNC linkSession linkRequest).1 = linkZNC ↔
    ∀ l, route linkElsewhere linkZNC linkSession linkRequest = .page l → ¬ Acts linkZNC linkSession linkRequest l := by
  apply unchanged_iff rfl (by decide) (by decide)
  intro l hl
  rw [route_link] at hl
  simp at hl

end Link

end ZNC.WebPages
