/-
Users that are deleted, and the web sessions that refer to them.

`FinishUserSessions` takes the sessions of the user out of the cache. A session that a socket holds lives on, also one that has
left the cache before, and it keeps its pointer to the user.

Results:
- `handleUserDeletion_clean`: which deletions leave no session behind that refers to a deleted user;
- `users_unreachable_iff`: no session refers to a deleted user, and none is dereferenced, exactly in the runs in which no socket
  holds a session of a user that is deleted.
-/
import ZNC.WebSessions

namespace ZNC

open Option

namespace Web

namespace CSessionManager

/-! ## Statement -/

/-- no session in the cache and none held by a socket refers to a user that is gone -/
def Clean (s : CSessionManager) : Prop :=
  ∀ k, s.isCached k = true ∨ s.isHeld k = true → ∀ user, s.getUser k = some user → user ∈ s.users

/-- no socket holds a session of the user -/
def Unheld (s : CSessionManager) (user : ℕ) : Prop := ∀ k, s.isHeld k = true → s.getUser k ≠ some user

end CSessionManager

/-- a step after which no session refers to a deleted user, and in which none is dereferenced -/
structure Step.Clean (t : Step) : Prop where
  after : t.after.Clean
  users : ∀ user ∈ t.users, user ∈ t.before.users

/-- the users that a step deletes are not those of a session that a socket holds -/
def Step.DeletesUnheld (t : Step) : Prop :=
  match t.op with
  | .HandleUserDeletion msDelUsers => ∀ d ∈ msDelUsers, d.2 = false → t.before.Unheld d.1
  | _ => True

namespace CSessionManager

variable {s t : CSessionManager}

/-! ## Sessions and their users -/

/-- the users of the sessions are users of these sessions before -/
def UsersFrom (s t : CSessionManager) : Prop :=
  t.users = s.users ∧ ∀ k user, t.getUser k = some user → s.getUser k = some user

theorem UsersFrom.trans {u : CSessionManager} (h : UsersFrom s t) (h' : UsersFrom t u) : UsersFrom s u :=
  ⟨h'.1.trans h.1, fun k user hu => h.2 k user (h'.2 k user hu)⟩

theorem Less.usersFrom (h : Less s t) : UsersFrom s t := by
  refine ⟨h.users, fun k user hu => ?_⟩
  obtain ⟨session, hs, hp⟩ := bind_eq_some_iff.1 hu
  rw [getUser, h.sessions k session hs]
  exact hp

theorem isCached_or_isHeld (h : s.Valid) {k user : ℕ} (hu : s.getUser k = some user) :
    s.isCached k = true ∨ s.isHeld k = true := by
  obtain ⟨session, hs, -⟩ := bind_eq_some_iff.1 hu
  exact h.indexExact.alive k |>.1 ⟨session, hs⟩

theorem Clean.mono (hs : s.Valid) (h : s.Clean) (hfrom : UsersFrom s t) : t.Clean := by
  intro k _ user hu
  have hu' := hfrom.2 k user hu
  rw [hfrom.1]
  exact h k (isCached_or_isHeld hs hu') user hu'

theorem reuse_usersFrom (h : s.Valid) {uSock k : ℕ} {sock : CWebSock} {session : CWebSession} {r : Readings}
    {sId : CString} {u : ℕ}
    (he : s.mspSessions.find sId = some (u, k)) (hs : s.sessions.find k = some session) :
    UsersFrom s (s.reuse uSock sock k session r) := by
  obtain ⟨session', hs', hid⟩ := h.keyed sId _ he
  obtain rfl : session = session' := some.inj (hs.symm.trans hs')
  rw [← hid] at he
  rw [reuse_eq he rfl]
  refine ⟨rfl, fun k' user hu => ?_⟩
  simp only [getUser, OrdMap.find_insert] at hu ⊢
  split_ifs at hu with hk
  · rw [hk, hs]
    exact hu
  · exact hu

theorem create_usersFrom {uSock : ℕ} {sock : CWebSock} {sId : CString} (r : Readings)
    (hid : s.mspSessions.find sId = none) :
    UsersFrom s (s.create uSock sock sId r) := by
  rw [create_eq hid]
  refine ⟨rfl, fun k user hu => ?_⟩
  simp only [getUser, OrdMap.find_insert] at hu ⊢
  split_ifs at hu
  · exact absurd hu (by simp)
  · exact hu

theorem getSession_usersFrom (h : s.Valid) {uSock k : ℕ} {sock : CWebSock} {r : Readings}
    (hget : s.getSession uSock sock r = some (t, k)) : UsersFrom s t := by
  rcases getSession_cases hget with ⟨-, rfl⟩ | ⟨-, c, hc, hcase⟩
  · exact ⟨rfl, fun _ _ hu => hu⟩
  · have hvalid : c.Valid := hc ▸ h.cleanup r.uGetItem
    have hfrom : UsersFrom s c := hc ▸ (cleanup_less s r.uGetItem).usersFrom
    rcases hcase with ⟨u, session, he, hs, rfl⟩ | ⟨-, d, sId, hd, hid, rfl, -⟩
    · exact hfrom.trans (reuse_usersFrom hvalid he hs)
    · have hless : Less c d := hd ▸ (discard_less c sock.sRemoteIP).trans (cleanup_less _ _)
      exact (hfrom.trans hless.usersFrom).trans (create_usersFrom r hid)

theorem setUser_getUser (s : CSessionManager) (k k' : ℕ) (pUser : Option ℕ) (user : ℕ)
    (hu : (s.setUser k pUser).getUser k' = some user) : pUser = some user ∨ s.getUser k' = some user := by
  rw [getUser, setUser_find] at hu
  split_ifs at hu with hk
  · obtain ⟨session, hs, hp⟩ := bind_eq_some_iff.1 hu
    obtain ⟨w, -, rfl⟩ := map_eq_some_iff.1 hs
    exact .inl hp
  · exact .inr hu

theorem setUser_clean (ht : t.Valid) (h : t.Clean) (k : ℕ) {pUser : Option ℕ}
    (hp : ∀ user, pUser = some user → user ∈ t.users) :
    (t.setUser k pUser).Clean := by
  have husers : (t.setUser k pUser).users = t.users := by
    unfold setUser
    cases t.sessions.find k <;> rfl
  intro k' _ user hu
  rw [husers]
  rcases setUser_getUser t k k' pUser user hu with hu | hu
  · exact hp user hu
  · exact h k' (isCached_or_isHeld ht hu) user hu

/-! ## Deletions -/

theorem finishUserSessions_users (s : CSessionManager) (user : ℕ) : (s.finishUserSessions user).users = s.users :=
  (finishUserSessions_less s user).users

theorem finishUserSessions_held (s : CSessionManager) (user k : ℕ) :
    (s.finishUserSessions user).isHeld k = s.isHeld k := by
  unfold isHeld
  rw [(finishUserSessions_less s user).socks]

theorem finishUserSessions_getUser (h : s.Valid) (user : ℕ) {k : ℕ} (hk : s.isHeld k = true) :
    (s.finishUserSessions user).getUser k = s.getUser k := by
  have hheld : (s.finishUserSessions user).isHeld k = true := by rw [finishUserSessions_held, hk]
  obtain ⟨session, hs⟩ := ((h.finishUserSessions user).indexExact.alive k).2 (.inr hheld)
  rw [getUser, getUser, hs, (finishUserSessions_less s user).sessions k session hs]

theorem finishUserSessions_clean (h : s.Valid) (hclean : s.Clean) {user : ℕ} (hheld : s.Unheld user) :
    ({ s with users := s.users.filter (· ≠ user) }.finishUserSessions user).Clean := by
  have hvalid : ({ s with users := s.users.filter (· ≠ user) } : CSessionManager).Valid :=
    ⟨h.keyed, h.held, h.owned, h.index, h.fresh⟩
  have hless := finishUserSessions_less { s with users := s.users.filter (· ≠ user) } user
  intro k hk u hu
  have hu' : s.getUser k = some u := hless.usersFrom.2 k u hu
  rw [finishUserSessions_users]
  refine List.mem_filter.2 ⟨hclean k (isCached_or_isHeld h hu') u hu', decide_eq_true ?_⟩
  rintro rfl
  rcases hk with hk | hk
  · obtain ⟨sId, t, he⟩ := isCached_iff.1 hk
    exact finishUserSessions_cache _ u he hu'
  · rw [finishUserSessions_held] at hk
    exact hheld k hk hu'

theorem handleUserDeletion_cons (s : CSessionManager) (d : ℕ × Bool) (ds : List (ℕ × Bool)) :
    s.handleUserDeletion (d :: ds) =
      (if d.2 then s else { s with users := s.users.filter (· ≠ d.1) }.finishUserSessions d.1).handleUserDeletion ds := rfl

theorem handleUserDeletion_users (msDelUsers : List (ℕ × Bool)) (user : ℕ) : ∀ {s : CSessionManager},
    user ∈ (s.handleUserDeletion msDelUsers).users → user ∈ s.users ∧ ∀ d ∈ msDelUsers, d.2 = false → d.1 ≠ user := by
  induction msDelUsers with
  | nil => exact fun {s} hu => ⟨hu, by simp⟩
  | cons d ds ih =>
    intro s hu
    rw [handleUserDeletion_cons] at hu
    obtain ⟨hmem, hrest⟩ := ih hu
    rw [List.forall_mem_cons]
    cases hd : d.2 with
    | true =>
      rw [if_pos hd] at hmem
      exact ⟨hmem, fun hf => absurd hf (by simp), hrest⟩
    | false =>
      rw [if_neg (by simp [hd]), finishUserSessions_users] at hmem
      obtain ⟨hmem, hne⟩ := List.mem_filter.1 hmem
      exact ⟨hmem, fun _ he => of_decide_eq_true hne he.symm, hrest⟩

theorem handleUserDeletion_held (msDelUsers : List (ℕ × Bool)) :
    ∀ {s : CSessionManager}, s.Valid → ∀ {k : ℕ}, s.isHeld k = true →
    (s.handleUserDeletion msDelUsers).isHeld k = true ∧ (s.handleUserDeletion msDelUsers).getUser k = s.getUser k := by
  induction msDelUsers with
  | nil => exact fun _ _ hk => ⟨hk, rfl⟩
  | cons d ds ih =>
    intro s h k hk
    rw [handleUserDeletion_cons]
    cases hd : d.2 with
    | true =>
      rw [if_pos rfl]
      exact ih h hk
    | false =>
      have hvalid : ({ s with users := s.users.filter (· ≠ d.1) } : CSessionManager).Valid :=
        ⟨h.keyed, h.held, h.owned, h.index, h.fresh⟩
      have hk' : ({ s with users := s.users.filter (· ≠ d.1) }.finishUserSessions d.1).isHeld k = true := by
        rw [finishUserSessions_held]
        exact hk
      obtain ⟨hheld, huser⟩ := ih (hvalid.finishUserSessions d.1) hk'
      rw [finishUserSessions_getUser hvalid d.1 hk] at huser
      rw [if_neg Bool.false_ne_true]
      exact ⟨hheld, huser⟩

theorem handleUserDeletion_clean (h : s.Valid) (hclean : s.Clean) (msDelUsers : List (ℕ × Bool)) :
    (s.handleUserDeletion msDelUsers).Clean ↔ ∀ d ∈ msDelUsers, d.2 = false → s.Unheld d.1 := by
  constructor
  · intro hafter d hd hveto k hk huser
    obtain ⟨hheld, hkeep⟩ := handleUserDeletion_held msDelUsers h hk
    have hmem := hafter k (.inr hheld) d.1 (hkeep.trans huser)
    exact (handleUserDeletion_users msDelUsers d.1 hmem).2 d hd hveto rfl
  · intro hunheld
    induction msDelUsers generalizing s with
    | nil => exact hclean
    | cons d ds ih =>
      rw [List.forall_mem_cons] at hunheld
      rw [handleUserDeletion_cons]
      cases hd : d.2 with
      | true =>
        rw [if_pos rfl]
        exact ih h hclean hunheld.2
      | false =>
        have hvalid : ({ s with users := s.users.filter (· ≠ d.1) } : CSessionManager).Valid :=
          ⟨h.keyed, h.held, h.owned, h.index, h.fresh⟩
        have hrest : ∀ d' ∈ ds, d'.2 = false →
            ({ s with users := s.users.filter (· ≠ d.1) }.finishUserSessions d.1).Unheld d'.1 := by
          intro d' hd' hveto k hk
          rw [finishUserSessions_held] at hk
          rw [finishUserSessions_getUser hvalid d.1 hk]
          exact hunheld.2 d' hd' hveto k hk
        rw [if_neg Bool.false_ne_true]
        exact ih (hvalid.finishUserSessions d.1) (finishUserSessions_clean h hclean (hunheld.1 hd)) hrest

/-! ## Runs -/

theorem apply_clean_iff (h : s.Valid) (hclean : s.Clean) {op : Op} {a : CSessionManager × List ℕ}
    (hop : s.apply op = some a) :
    (⟨s, op, a.2, a.1⟩ : Step).Clean ↔ (⟨s, op, a.2, a.1⟩ : Step).DeletesUnheld := by
  -- what `GetSession` finds refers to users that exist
  have hget : ∀ {t : CSessionManager} {uSock r sock k}, s.socks.find uSock = some sock →
    s.getSession uSock sock r = some (t, k) →
      t.Valid ∧ t.Clean ∧ t.users = s.users ∧
        ∀ user ∈ (t.getUser k).toList, user ∈ s.users := by
    intro t uSock r sock k hsock hget
    obtain ⟨hvalid, sock', hsock', hk⟩ := getSession_valid h hsock hget
    have hfrom := getSession_usersFrom h hget
    have hclean' := hclean.mono h hfrom
    refine ⟨hvalid, hclean', hfrom.1, fun user hu => ?_⟩
    rw [← hfrom.1]
    exact hclean' k (.inr (isHeld_iff.2 ⟨uSock, sock', hsock', hk⟩)) user (by simpa using hu)
  have husers : ∀ {c : Bool} {l l' : List ℕ}, (∀ user ∈ l, user ∈ s.users) → (∀ user ∈ l', user ∈ s.users) →
      ∀ user ∈ (if c then l else []) ++ l', user ∈ s.users := by
    intro c l l' hl hl' user hu
    rcases List.mem_append.1 hu with hu | hu
    · split_ifs at hu
      · exact hl user hu
      · exact absurd hu (by simp)
    · exact hl' user hu
  cases op with
  | AddUser =>
    cases hop
    exact iff_of_true ⟨fun k hk user hu => List.mem_cons_of_mem _ (hclean k hk user hu), by simp⟩ trivial
  | OpenSock uSock sRemoteIP =>
    simp only [apply] at hop
    split_ifs at hop with hnew
    cases hop
    refine iff_of_true ⟨fun k _ user hu => ?_, by simp⟩ trivial
    exact hclean k (isCached_or_isHeld h hu) user hu
  | Request uSock r =>
    simp only [apply] at hop
    obtain ⟨sock, t, k, hsock, hs, rfl⟩ := useSession_cases hop
    obtain ⟨-, hclean', -, huser⟩ := hget hsock hs
    exact iff_of_true ⟨hclean', husers huser huser⟩ trivial
  | AcceptedLogin uSock r User =>
    simp only [apply] at hop
    split_ifs at hop with hmem
    obtain ⟨sock, t, k, hsock, hs, rfl⟩ := useSession_cases hop
    obtain ⟨hvalid, hclean', heq, huser⟩ := hget hsock hs
    refine iff_of_true ⟨setUser_clean hvalid hclean' k fun user hu => ?_, husers huser fun user hu => ?_⟩ trivial
    · rw [heq, ← some.inj hu]
      exact hmem
    · exact (List.mem_singleton.1 hu) ▸ hmem
  | RefusedLogin uSock r =>
    simp only [apply] at hop
    obtain ⟨sock, t, k, hsock, hs, rfl⟩ := useSession_cases hop
    obtain ⟨hvalid, hclean', -, huser⟩ := hget hsock hs
    exact iff_of_true ⟨setUser_clean hvalid hclean' k (by simp), husers huser (by simp)⟩ trivial
  | Logout uSock r =>
    simp only [apply] at hop
    obtain ⟨sock, t, k, hsock, hs, rfl⟩ := useSession_cases hop
    obtain ⟨hvalid, hclean', -, huser⟩ := hget hsock hs
    exact iff_of_true ⟨setUser_clean hvalid hclean' k (by simp), husers huser (by simp)⟩ trivial
  | CloseSock uSock r =>
    simp only [apply] at hop
    obtain ⟨sock, t, k, hsock, hs, rfl⟩ := useSession_cases hop
    obtain ⟨hvalid, hclean', -, huser⟩ := hget hsock hs
    refine iff_of_true ⟨fun k' _ user hu => ?_, husers huser huser⟩ trivial
    have hu' : t.getUser k' = some user := (closeSock_less t uSock k).usersFrom.2 k' user hu
    rw [(closeSock_less t uSock k).users]
    exact hclean' k' (isCached_or_isHeld hvalid hu') user hu'
  | Cleanup uNow =>
    cases hop
    exact iff_of_true ⟨hclean.mono h (cleanup_less s uNow).usersFrom, by simp⟩ trivial
  | HandleUserDeletion msDelUsers =>
    cases hop
    refine ⟨fun hstep => (handleUserDeletion_clean h hclean msDelUsers).1 hstep.after, fun hunheld => ⟨?_, by simp⟩⟩
    exact (handleUserDeletion_clean h hclean msDelUsers).2 hunheld

/-- **Deleted users.** In a run no session in the cache or of a socket ever refers to a deleted user, and none is dereferenced, exactly
if no socket holds a session of a user when it is deleted. -/
theorem users_unreachable_iff (ops : List Op) (ts : List Step) (hsteps : init.steps ops = some ts) :
    (∀ t ∈ ts, t.Clean) ↔ ∀ t ∈ ts, t.DeletesUnheld := by
  have hrun : ∀ {s : CSessionManager}, s.Valid → s.Clean → ∀ {ts : List Step}, s.steps ops = some ts →
      ((∀ t ∈ ts, t.Clean) ↔ ∀ t ∈ ts, t.DeletesUnheld) := by
    clear hsteps
    induction ops with
    | nil =>
      intro s _ _ ts hsteps
      cases hsteps
      simp
    | cons op ops ih =>
      intro s h hclean ts hsteps
      rw [steps, bind_eq_some_iff] at hsteps
      obtain ⟨a, ha, hrest⟩ := hsteps
      obtain ⟨ts, hts, rfl⟩ := map_eq_some_iff.1 hrest
      have hstep := apply_clean_iff h hclean ha
      rw [List.forall_mem_cons, List.forall_mem_cons]
      constructor
      · rintro ⟨hhead, htail⟩
        exact ⟨hstep.1 hhead, (ih (step_inv h ha) hhead.after hts).1 htail⟩
      · rintro ⟨hhead, htail⟩
        have hclean' := hstep.2 hhead
        exact ⟨hclean', (ih (step_inv h ha) hclean'.after hts).2 htail⟩
  exact hrun init_valid (by simp [Clean, getUser, init]) hsteps

/-- a user logs in, and its socket is closed before the user is deleted -/
def loginAndLeave : List Op :=
  [.AddUser, .OpenSock 0 (lit "10.0.0.1"), .AcceptedLogin 0 (firstVisit 1) 0, .CloseSock 0 (firstVisit 2),
    .HandleUserDeletion [(0, false)]]

theorem users_unreachable_leave :
    ∃ ts, init.steps loginAndLeave = some ts ∧ ((∀ t ∈ ts, t.Clean) ↔ ∀ t ∈ ts, t.DeletesUnheld) :=
  ⟨_, rfl, users_unreachable_iff loginAndLeave _ rfl⟩

/-- The socket of a user who is logged in stays open while the user is deleted: its destructor dereferences the user. -/
theorem users_reachable :
    ((init.steps [.AddUser, .OpenSock 0 (lit "10.0.0.1"), .AcceptedLogin 0 (firstVisit 1) 0,
      .HandleUserDeletion [(0, false)],
        .CloseSock 0 (firstVisit 2)]).map fun ts => ts.map fun t => (t.before.users, t.users)) =
      some [([], []), ([0], []), ([0], [0]), ([0], []), ([], [0])] := by
  decide

end CSessionManager

end Web

end ZNC
