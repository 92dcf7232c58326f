/-
Bans behind failed logins: `modules/fail2ban.cpp`, with `TCacheMap` of `include/znc/Utils.h`.

Failed logins are counted for each IP in a cache whose entries expire. A connection or a login from an IP with enough of them
is refused, which renews the entry as another failure does; a successful login removes it. The time that an entry lives is
configured in minutes and kept in milliseconds, in 32 bits.

Model: a hook is called at one instant, which has a reading of the clock of the cache and one of `time`. When a login is refused,
`RefuseLogin` calls `OnFailedLogin`, and over SASL `RefuseSASLLogin` calls it once more. `OnClientLogin` is called when a client
is let in, and never for a login over the web. Beside the module there is a journal of what happened to each IP since its last
successful login; the code does not read it. The commands Ban, Unban and List are left out.

Results:
- `step_inv`: the cache of an IP is the streak of its journal;
- `refuses_iff`: what a hook decides, by the journal;
- `ban_law_iff`: the law holds of every run for a configuration exactly if its milliseconds fit into 32 bits.
-/
import ZNC.ISupport
import ZNC.Lib.Runs
import ZNC.Lib.Streaks

namespace ZNC.Fail2Ban

open CString Streaks Option OrdMap Function

/-! ## The cache -/

structure TCacheMap (V : Type) where
  /-- the time at which an item expires, and the item -/
  mItems : OrdMap CString (ℕ × V)
  uTTL : UInt32

namespace TCacheMap

variable {V : Type}

def remItem (c : TCacheMap V) (sItem : CString) : TCacheMap V := { c with mItems := c.mItems.erase sItem }

def addItem (c : TCacheMap V) (uNow : ℕ) (sItem : CString) (Val : V) (uTTL : UInt32) : TCacheMap V :=
  if uTTL = 0 then c.remItem sItem else { c with mItems := c.mItems.insert sItem (uNow + uTTL.toNat, Val) }

def cleanup (c : TCacheMap V) (uNow : ℕ) : TCacheMap V :=
  { c with mItems := c.mItems.filter fun _ it => !decide (uNow > it.1) }

/-- `GetItem`, behind its `Cleanup` -/
def getItem (c : TCacheMap V) (sItem : CString) : Option V := (c.mItems.find sItem).map Prod.snd

def clear (c : TCacheMap V) : TCacheMap V := { c with mItems := .empty }

end TCacheMap

/-! ## The module -/

structure BanInfo where
  attempts : UInt32
  first_attempt : ℤ
  last_attempt : ℤ
  username : CString
deriving DecidableEq, Repr

structure CFailToBanMod where
  m_Cache : TCacheMap BanInfo
  m_uiAllowedFailed : UInt32
  /-- `GetArgs()` -/
  sArgs : CString

/-- "timeout * 60 * 1000" -/
def milliseconds (timeout : UInt32) : UInt32 := timeout * 60 * 1000

/-- who asks: `CClientAuth`, `CClientSASLAuth` or `CWebAuth` -/
inductive EAuth where
  | client
  | sasl
  | web
deriving DecidableEq, Repr

/-- an instant: the clock of the cache in milliseconds, and `time(nullptr)` -/
structure Instant where
  ms : ℕ
  now : ℤ

namespace CFailToBanMod

def onLoad (sArgs : CString) : Option CFailToBanMod :=
  let sTimeout := sArgs.token 0 false (ch ' ') false
  let sAttempts := sArgs.token 1 false (ch ' ') false
  let uiAllowedFailed := if sAttempts = [] then 2 else sAttempts.toUInt
  if sArgs = [] then some ⟨⟨.empty, milliseconds 1⟩, uiAllowedFailed, sArgs⟩
  else if sTimeout.toUInt = 0 ∨ uiAllowedFailed = 0 ∨ sArgs.token 2 true (ch ' ') false ≠ [] then none
  else some ⟨⟨.empty, milliseconds sTimeout.toUInt⟩, uiAllowedFailed, sArgs⟩

/-- `SetArgs` of both commands -/
def setArgs (m : CFailToBanMod) : CFailToBanMod :=
  { m with sArgs := lit (toString (m.m_Cache.uTTL / 60 / 1000)) ++ lit " " ++ lit (toString m.m_uiAllowedFailed) }

def onTimeoutCommand (bAdmin : Bool) (m : CFailToBanMod) (sCommand : CString) : CFailToBanMod :=
  let uTimeout := (sCommand.token 1 false (ch ' ') false).toUInt
  if bAdmin && uTimeout ≠ 0 then { m with m_Cache := { m.m_Cache with uTTL := milliseconds uTimeout } }.setArgs else m

def onAttemptsCommand (bAdmin : Bool) (m : CFailToBanMod) (sCommand : CString) : CFailToBanMod :=
  let uiAttempts := (sCommand.token 1 false (ch ' ') false).toUInt
  if bAdmin && uiAttempts ≠ 0 then { m with m_uiAllowedFailed := uiAttempts }.setArgs else m

def onPostRehash (m : CFailToBanMod) : CFailToBanMod := { m with m_Cache := m.m_Cache.clear }

/-- the item of an IP, if it is banned -/
def banned (m : CFailToBanMod) (sHost : CString) : Option BanInfo :=
  (m.m_Cache.getItem sHost).filter fun pInfo => !decide (pInfo.attempts < m.m_uiAllowedFailed)

/-- `m_Cache.AddItem(sHost, info, m_Cache.GetTTL())` -/
def addItem (m : CFailToBanMod) (t : Instant) (sHost : CString) (info : BanInfo) : CFailToBanMod :=
  { m with m_Cache := m.m_Cache.addItem t.ms sHost info m.m_Cache.uTTL }

/-- whether the connection is refused, and the module behind it -/
def onClientConnect (m : CFailToBanMod) (t : Instant) (sHost : CString) : Bool × CFailToBanMod :=
  let m := { m with m_Cache := m.m_Cache.cleanup t.ms }
  if sHost = [] then (false, m)
  else
    match m.banned sHost with
    | none => (false, m)
    | some pInfo => (true, m.addItem t sHost { pInfo with last_attempt := t.now })

def onFailedLogin (m : CFailToBanMod) (t : Instant) (sUsername sRemoteIP : CString) : CFailToBanMod :=
  let m := { m with m_Cache := m.m_Cache.cleanup t.ms }
  match m.m_Cache.getItem sRemoteIP with
  | some pInfo =>
    m.addItem t sRemoteIP
      { pInfo with attempts := pInfo.attempts + 1, last_attempt := t.now, username := sUsername }
  | none => m.addItem t sRemoteIP ⟨1, t.now, t.now, sUsername⟩

def onClientLogin (m : CFailToBanMod) (sRemoteIP : CString) : CFailToBanMod :=
  { m with m_Cache := m.m_Cache.remItem sRemoteIP }

/-- `Auth->RefuseLogin()` -/
def refuseLogin (m : CFailToBanMod) (t : Instant) (Auth : EAuth) (sUsername sRemoteIP : CString) : CFailToBanMod :=
  let m := m.onFailedLogin t sUsername sRemoteIP
  if Auth = .sasl then m.onFailedLogin t [] sRemoteIP else m

/-- whether the login is refused; "OnFailedLogin() will refresh their ban" -/
def onLoginAttempt (m : CFailToBanMod) (t : Instant) (Auth : EAuth) (sUsername sRemoteIP : CString) :
    Bool × CFailToBanMod :=
  if sRemoteIP = [] then (false, m)
  else
    let m := { m with m_Cache := m.m_Cache.cleanup t.ms }
    match m.banned sRemoteIP with
    | none => (false, m)
    | some _ => (true, m.refuseLogin t Auth sUsername sRemoteIP)

end CFailToBanMod

open CFailToBanMod

/-! ## Configurations -/

/-- the module is loaded with arguments that it accepts, and then there may be commands; `uMinutes` is the value that was
accepted last as the timeout -/
inductive Configured : UInt32 → CFailToBanMod → Prop where
  | empty {m : CFailToBanMod} (h : onLoad [] = some m) : Configured 1 m
  | args {sArgs : CString} {m : CFailToBanMod} (hargs : sArgs ≠ []) (h : onLoad sArgs = some m) :
      Configured (sArgs.token 0 false (ch ' ') false).toUInt m
  | timeout {uMinutes : UInt32} {m : CFailToBanMod} (sCommand : CString) (h : Configured uMinutes m)
      (haccepted : (sCommand.token 1 false (ch ' ') false).toUInt ≠ 0) :
      Configured (sCommand.token 1 false (ch ' ') false).toUInt (m.onTimeoutCommand true sCommand)
  | attempts {uMinutes : UInt32} {m : CFailToBanMod} (bAdmin : Bool) (sCommand : CString) (h : Configured uMinutes m) :
      Configured uMinutes (m.onAttemptsCommand bAdmin sCommand)
  | rehash {uMinutes : UInt32} {m : CFailToBanMod} (h : Configured uMinutes m) : Configured uMinutes m.onPostRehash

/-! ## Runs -/

/-- a mark in the journal of an IP: a failed login, or another attempt that was refused -/
inductive Mark where
  | failed
  | refused
deriving DecidableEq, Repr

/-- the module, the time of the last event, and the marks of each IP since its last successful login, newest first -/
structure World where
  mod : CFailToBanMod
  ms : ℕ
  marks : CString → List (ℕ × Mark)

inductive Event where
  | connect (sHost : CString)
  /-- a login, with the right password or not -/
  | login (Auth : EAuth) (sUsername sRemoteIP : CString) (bValid : Bool)
  /-- a client is let in whose login over SASL was valid -/
  | acceptLogin (sRemoteIP : CString)
  /-- a failure that no login attempt comes before -/
  | failed (sUsername sRemoteIP : CString)

/-- what the module says to a connection or a login -/
def refuses (m : CFailToBanMod) (t : Instant) : Event → Bool
  | .connect sHost => (m.onClientConnect t sHost).1
  | .login Auth sUsername sRemoteIP _ => (m.onLoginAttempt t Auth sUsername sRemoteIP).1
  | .acceptLogin _ | .failed _ _ => false

def mark (w : World) (t : Instant) (sIP : CString) (m : Mark) : CString → List (ℕ × Mark) :=
  update w.marks sIP ((t.ms, m) :: w.marks sIP)

/-- `AcceptedLogin()`; a client with SASL is let in later -/
def acceptedLogin (w : World) (t : Instant) (mod : CFailToBanMod) (sIP : CString) : EAuth → World
  | .client => ⟨mod.onClientLogin sIP, t.ms, update w.marks sIP []⟩
  | .sasl => ⟨mod, t.ms, w.marks⟩
  | .web => ⟨mod, t.ms, update w.marks sIP []⟩

def step (w : World) (ev : Instant × Event) : World :=
  match ev.2 with
  | .connect sHost =>
    let (bRefused, mod) := w.mod.onClientConnect ev.1 sHost
    ⟨mod, ev.1.ms, if bRefused then mark w ev.1 sHost .refused else w.marks⟩
  | .login Auth sUsername sRemoteIP bValid =>
    let (bRefused, mod) := w.mod.onLoginAttempt ev.1 Auth sUsername sRemoteIP
    if bRefused then ⟨mod, ev.1.ms, mark w ev.1 sRemoteIP .failed⟩
    else if bValid then acceptedLogin w ev.1 mod sRemoteIP Auth
    else ⟨mod.refuseLogin ev.1 Auth sUsername sRemoteIP, ev.1.ms, mark w ev.1 sRemoteIP .failed⟩
  | .acceptLogin sRemoteIP => ⟨w.mod.onClientLogin sRemoteIP, ev.1.ms, update w.marks sRemoteIP []⟩
  | .failed sUsername sRemoteIP =>
    ⟨w.mod.onFailedLogin ev.1 sUsername sRemoteIP, ev.1.ms, mark w ev.1 sRemoteIP .failed⟩

/-- the module with an empty journal -/
def World.start (m : CFailToBanMod) : World := ⟨m, 0, fun _ => []⟩

/-! ## What the module is for -/

def isFailure (m : ℕ × Mark) : Bool := m.2 = .failed

/-- since the last successful login there were `n` failures with no pause longer than `T` between consecutive failed or
refused attempts, and from the last of them up to `t` -/
def Deserved (T n t : ℕ) (marks : List (ℕ × Mark)) : Prop :=
  ∃ recent older, marks = recent ++ older ∧ Tight T t recent ∧ n ≤ recent.countP isFailure

/-- the IP of an event that may be refused -/
def askedBy : Event → Option CString
  | .connect sHost => some sHost
  | .login _ _ sRemoteIP _ => some sRemoteIP
  | .acceptLogin _ | .failed _ _ => none

/-- the law, of one step: the module refuses exactly those that deserve it -/
def Law (T n : ℕ) (w : World) (ev : Instant × Event) : Prop :=
  ∀ sIP ∈ askedBy ev.2, sIP ≠ [] → (refuses w.mod ev.1 ev.2 = true ↔ Deserved T n ev.1.ms (w.marks sIP))

/-- no login is miscounted: over SASL none fails, which would count twice, and over the web none succeeds while its IP has an
item, which would stay -/
def Counted (w : World) (ev : Instant × Event) : Prop :=
  match ev.2 with
  | .login .sasl _ _ bValid => bValid = true ∧ refuses w.mod ev.1 ev.2 = false
  | .login .web _ sRemoteIP bValid =>
    bValid = true → refuses w.mod ev.1 ev.2 = true ∨ (w.mod.m_Cache.cleanup ev.1.ms).getItem sRemoteIP = none
  | _ => True

/-- time does not run backwards, no IP has 2^32 failures since its last successful login, and no login is miscounted -/
def Timed (w : World) (ev : Instant × Event) : Prop :=
  w.ms ≤ ev.1.ms ∧ (∀ sIP, (w.marks sIP).countP isFailure < 2 ^ 32) ∧ Counted w ev

/-! ## The cache at a time -/

namespace TCacheMap

variable {V : Type} (c : TCacheMap V)

theorem getItem_cleanup (t : ℕ) (sItem : CString) :
    (c.cleanup t).getItem sItem = ((c.mItems.find sItem).filter fun it => decide (t ≤ it.1)).map Prod.snd := by
  have hsame : (fun it : ℕ × V => !decide (t > it.1)) = fun it => decide (t ≤ it.1) := by
    funext it
    rw [← decide_not]
    exact decide_eq_decide.2 not_lt
  simp only [cleanup, getItem, find_filter, hsame]

theorem cleanup_cleanup {t t' : ℕ} (h : t ≤ t') (sItem : CString) :
    ((c.cleanup t).cleanup t').getItem sItem = (c.cleanup t').getItem sItem := by
  rw [getItem_cleanup, getItem_cleanup]
  simp only [cleanup, find_filter, Option.filter_filter]
  congr 2
  funext it
  by_cases hit : t' ≤ it.1
  · simp [hit, h.trans hit]
  · simp [hit]

theorem cleanup_addItem {uTTL : UInt32} (httl : uTTL ≠ 0) (t t' : ℕ) (sItem sItem' : CString) (v : V) :
    ((c.addItem t sItem v uTTL).cleanup t').getItem sItem' =
      if sItem' = sItem then if t' ≤ t + uTTL.toNat then some v else none else (c.cleanup t').getItem sItem' := by
  rw [getItem_cleanup, getItem_cleanup, addItem, if_neg httl, find_insert]
  split_ifs with hitem hlive
  · simp [hlive]
  · simpa using Nat.lt_of_not_le hlive
  · rfl

theorem cleanup_remItem (t : ℕ) (sItem sItem' : CString) :
    ((c.remItem sItem).cleanup t).getItem sItem' = if sItem' = sItem then none else (c.cleanup t).getItem sItem' := by
  rw [getItem_cleanup, getItem_cleanup, remItem, find_erase]
  split_ifs
  · rfl
  · rfl

end TCacheMap

/-! ## The cache is the streak of the journal -/

/-- an item at the time `t` counts the failures of the streak, and there is none for an empty one -/
def Counts (T t : ℕ) (marks : List (ℕ × Mark)) : Option BanInfo → Prop
  | none => streak T t marks = []
  | some info => info.attempts = .ofNat ((streak T t marks).countP isFailure)

structure Inv (T n : ℕ) (w : World) : Prop where
  ttl : w.mod.m_Cache.uTTL.toNat = T
  allowed : w.mod.m_uiAllowedFailed.toNat = n
  counts : ∀ sIP t, w.ms ≤ t → Counts T t (w.marks sIP) ((w.mod.m_Cache.cleanup t).getItem sIP)

variable {T n : ℕ} {w : World} {t : Instant}

theorem Inv.cleanup (h : Inv T n w) (ht : w.ms ≤ t.ms) :
    Inv T n ⟨{ w.mod with m_Cache := w.mod.m_Cache.cleanup t.ms }, t.ms, w.marks⟩ where
  ttl := h.ttl
  allowed := h.allowed
  counts := fun sIP t' ht' => by
    rw [TCacheMap.cleanup_cleanup _ ht']
    exact h.counts sIP t' (ht.trans ht')

/-- **A new mark.** The item has to count it. -/
theorem Inv.push (h : Inv T n w) (ht : w.ms ≤ t.ms) (hT : 0 < T) (sIP : CString) (k : Mark) {info : BanInfo}
    (hinfo : info.attempts = .ofNat (((t.ms, k) :: streak T t.ms (w.marks sIP)).countP isFailure)) :
    Inv T n ⟨addItem { w.mod with m_Cache := w.mod.m_Cache.cleanup t.ms } t sIP info, t.ms,
      mark w t sIP k⟩ where
  ttl := by
    rw [← h.ttl, addItem, TCacheMap.addItem]
    split_ifs
    · rfl
    · rfl
  allowed := h.allowed
  counts := fun sIP' t' ht' => by
    have httl : (w.mod.m_Cache.cleanup t.ms).uTTL ≠ 0 := by
      intro hzero
      have hzero : w.mod.m_Cache.uTTL = 0 := hzero
      rw [← h.ttl, hzero] at hT
      exact absurd hT (by decide)
    simp only [addItem]
    rw [TCacheMap.cleanup_addItem _ httl, TCacheMap.cleanup_cleanup _ ht']
    simp only [mark, update_apply]
    split_ifs with hIP hlive
    · have hlive' : t' ≤ t.ms + T := h.ttl ▸ hlive
      rw [Counts, streak, if_pos hlive', hinfo]
    · have hdead : ¬t' ≤ t.ms + T := h.ttl ▸ hlive
      rw [Counts, streak, if_neg hdead]
    · exact h.counts sIP' t' (ht.trans ht')

theorem onFailedLogin_inv (h : Inv T n w) (ht : w.ms ≤ t.ms) (hT : 0 < T) (sUsername sIP : CString) :
    Inv T n ⟨w.mod.onFailedLogin t sUsername sIP, t.ms, mark w t sIP .failed⟩ := by
  have hcounts := h.counts sIP t.ms ht
  unfold onFailedLogin
  dsimp only
  cases hitem : (w.mod.m_Cache.cleanup t.ms).getItem sIP with
  | none =>
    rw [hitem, Counts] at hcounts
    apply h.push ht hT
    rw [hcounts]
    rfl
  | some info =>
    rw [hitem, Counts] at hcounts
    apply h.push ht hT
    rw [List.countP_cons_of_pos (by rfl), UInt32.ofNat_add, ← hcounts]
    rfl

/-- **What the module sees of an IP.** -/
theorem banned_iff (h : Inv T n w) (ht : w.ms ≤ t.ms) (hn : 0 < n) {sIP : CString}
    (hfew : (w.marks sIP).countP isFailure < 2 ^ 32) :
    (banned { w.mod with m_Cache := w.mod.m_Cache.cleanup t.ms } sIP).isSome = true ↔
      Deserved T n t.ms (w.marks sIP) := by
  have hcounts := h.counts sIP t.ms ht
  have hle : (streak T t.ms (w.marks sIP)).countP isFailure ≤ (w.marks sIP).countP isFailure :=
    (streak_front t.ms (w.marks sIP)).sublist.countP_le
  rw [Deserved, enough_iff, banned]
  dsimp only
  cases hitem : (w.mod.m_Cache.cleanup t.ms).getItem sIP with
  | none =>
    rw [hitem, Counts] at hcounts
    rw [hcounts]
    exact iff_of_false Bool.false_ne_true (Nat.not_le.2 hn)
  | some info =>
    rw [hitem, Counts] at hcounts
    have hcount : info.attempts.toNat = (streak T t.ms (w.marks sIP)).countP isFailure := by
      rw [hcounts, UInt32.toNat_ofNat_of_lt' (hle.trans_lt hfew)]
    rw [isSome_filter]
    simp only [any_some, Bool.not_eq_true', decide_eq_false_iff_not]
    rw [UInt32.lt_iff_toNat_lt, h.allowed, hcount, Nat.not_lt]

theorem onClientLogin_inv (h : Inv T n w) (ht : w.ms ≤ t.ms) (sIP : CString) :
    Inv T n ⟨w.mod.onClientLogin sIP, t.ms, update w.marks sIP []⟩ := by
  refine ⟨h.ttl, h.allowed, fun sIP' t' ht' => ?_⟩
  simp only [onClientLogin, TCacheMap.cleanup_remItem, update_apply]
  split_ifs
  · rfl
  · exact h.counts sIP' t' (ht.trans ht')

/-- **A login over the web** leaves the item of its IP, if there is one. -/
theorem webLogin_inv (h : Inv T n w) {sIP : CString} (hnone : (w.mod.m_Cache.cleanup w.ms).getItem sIP = none) :
    Inv T n ⟨w.mod, w.ms, update w.marks sIP []⟩ := by
  refine ⟨h.ttl, h.allowed, fun sIP' t' ht' => ?_⟩
  simp only [update_apply]
  split_ifs with hIP
  · rw [hIP, ← TCacheMap.cleanup_cleanup _ ht', TCacheMap.getItem_cleanup, map_eq_none_iff.1 hnone]
    rfl
  · exact h.counts sIP' t' ht'

/-- a login that the module does not refuse -/
theorem decided_inv {mod : CFailToBanMod} (h : Inv T n ⟨mod, t.ms, w.marks⟩) (hT : 0 < T) {Auth : EAuth} {bValid : Bool}
    {sIP : CString} (hsasl : Auth = .sasl → bValid = true)
    (hweb : Auth = .web → bValid = true → (mod.m_Cache.cleanup t.ms).getItem sIP = none) (sUsername : CString) :
    Inv T n (if bValid then acceptedLogin w t mod sIP Auth
      else ⟨mod.refuseLogin t Auth sUsername sIP, t.ms, mark w t sIP .failed⟩) := by
  cases bValid with
  | true =>
    cases Auth with
    | client => exact onClientLogin_inv h le_rfl sIP
    | sasl => exact h
    | web => exact webLogin_inv h (hweb rfl rfl)
  | false =>
    have hAuth : Auth ≠ .sasl := fun h0 => Bool.false_ne_true (hsasl h0)
    rw [if_neg Bool.false_ne_true, refuseLogin, if_neg hAuth]
    exact onFailedLogin_inv h le_rfl hT sUsername sIP

theorem refuses_iff (h : Inv T n w) (hn : 0 < n) {ev : Event} (htimed : Timed w (t, ev)) {sIP : CString}
    (hasked : sIP ∈ askedBy ev) (hIP : sIP ≠ []) :
    refuses w.mod t ev = true ↔ Deserved T n t.ms (w.marks sIP) := by
  rw [← banned_iff h htimed.1 hn (htimed.2.1 sIP)]
  cases ev with
  | connect sHost =>
    obtain rfl : sHost = sIP := some.inj hasked
    simp only [refuses, onClientConnect, if_neg hIP]
    split
    · rename_i hnone
      simp [hnone]
    · rename_i pInfo hsome
      simp [hsome]
  | login Auth sUsername sRemoteIP bValid =>
    obtain rfl : sRemoteIP = sIP := some.inj hasked
    simp only [refuses, onLoginAttempt, if_neg hIP]
    split
    · rename_i hnone
      simp [hnone]
    · rename_i pInfo hsome
      simp [hsome]
  | acceptLogin sRemoteIP => cases hasked
  | failed sUsername sRemoteIP => cases hasked

theorem step_inv (h : Inv T n w) (hT : 0 < T) {ev : Instant × Event} (ht : w.ms ≤ ev.1.ms)
    (hcounted : Counted w ev) : Inv T n (step w ev) := by
  obtain ⟨t, ev⟩ := ev
  cases ev with
  | connect sHost =>
    simp only [step, onClientConnect]
    by_cases hHost : sHost = []
    · rw [if_pos hHost]
      exact h.cleanup ht
    · rw [if_neg hHost]
      cases hbanned : banned { w.mod with m_Cache := w.mod.m_Cache.cleanup t.ms } sHost with
      | none => exact h.cleanup ht
      | some pInfo =>
        have hcounts := h.counts sHost t.ms ht
        have hitem : (w.mod.m_Cache.cleanup t.ms).getItem sHost = some pInfo := (filter_eq_some_iff.1 hbanned).1
        rw [hitem, Counts] at hcounts
        apply h.push ht hT
        rw [hcounts]
        rfl
  | login Auth sUsername sRemoteIP bValid =>
    have hsasl : Auth = .sasl → bValid = true ∧ (w.mod.onLoginAttempt t Auth sUsername sRemoteIP).1 = false := by
      rintro rfl
      exact hcounted
    have hweb : Auth = .web → bValid = true → (w.mod.onLoginAttempt t Auth sUsername sRemoteIP).1 = true ∨
        (w.mod.m_Cache.cleanup t.ms).getItem sRemoteIP = none := by
      rintro rfl
      exact hcounted
    simp only [step, onLoginAttempt] at hsasl hweb ⊢
    by_cases hIP : sRemoteIP = []
    · rw [if_pos hIP] at hsasl hweb ⊢
      have hmod : Inv T n ⟨w.mod, t.ms, w.marks⟩ :=
        ⟨h.ttl, h.allowed, fun sIP t' ht' => h.counts sIP t' (ht.trans ht')⟩
      exact decided_inv hmod hT (fun h0 => (hsasl h0).1)
        (fun h0 hvalid => (hweb h0 hvalid).resolve_left Bool.false_ne_true) sUsername
    · rw [if_neg hIP] at hsasl hweb ⊢
      cases hbanned : banned { w.mod with m_Cache := w.mod.m_Cache.cleanup t.ms } sRemoteIP with
      | none =>
        rw [hbanned] at hsasl hweb
        refine decided_inv (h.cleanup ht) hT (fun h0 => (hsasl h0).1) (fun h0 hvalid => ?_) sUsername
        rw [TCacheMap.cleanup_cleanup _ le_rfl]
        exact (hweb h0 hvalid).resolve_left Bool.false_ne_true
      | some pInfo =>
        rw [hbanned] at hsasl
        have hAuth : Auth ≠ .sasl := fun h0 => Bool.false_ne_true (hsasl h0).2.symm
        dsimp only
        rw [if_pos rfl, refuseLogin, if_neg hAuth]
        exact onFailedLogin_inv (h.cleanup ht) le_rfl hT sUsername sRemoteIP
  | acceptLogin sRemoteIP => exact onClientLogin_inv h ht sRemoteIP
  | failed sUsername sRemoteIP => exact onFailedLogin_inv h ht hT sUsername sRemoteIP

/-- **The law holds of a run** when the cache keeps its items as long as the law says. -/
theorem law_of_inv (hT : 0 < T) (hn : 0 < n) (evs : List (Instant × Event)) (h : Inv T n w)
    (htimed : Runs.Steps step Timed evs w) : Runs.Steps step (Law T n) evs w := by
  induction evs generalizing w with
  | nil => trivial
  | cons ev evs ih =>
    refine ⟨fun sIP hasked hIP => refuses_iff h hn htimed.1 hasked hIP, ?_⟩
    exact ih (step_inv h hT htimed.1.1 htimed.1.2.2) htimed.2

/-! ## What a configuration is -/

theorem toNat_milliseconds (uMinutes : UInt32) : (milliseconds uMinutes).toNat = uMinutes.toNat * 60000 % 2 ^ 32 := by
  have h60 : (60 : UInt32).toNat = 60 := rfl
  have h1000 : (1000 : UInt32).toNat = 1000 := rfl
  rw [milliseconds, UInt32.toNat_mul, UInt32.toNat_mul, h60, h1000]
  omega

/-- the module behind its configuration -/
structure Settled (uMinutes : UInt32) (m : CFailToBanMod) : Prop where
  cache : m.m_Cache.mItems = .empty
  ttl : m.m_Cache.uTTL = milliseconds uMinutes
  minutes : uMinutes ≠ 0
  allowed : m.m_uiAllowedFailed ≠ 0

variable {uMinutes : UInt32} {m : CFailToBanMod}

theorem Settled.setArgs (h : Settled uMinutes m) : Settled uMinutes m.setArgs :=
  ⟨h.cache, h.ttl, h.minutes, h.allowed⟩

theorem Configured.settled (h : Configured uMinutes m) :
    Settled uMinutes m := by
  induction h with
  | empty h =>
    obtain rfl := some.inj h
    exact ⟨rfl, rfl, by decide, by decide⟩
  | args hargs h =>
    simp only [onLoad, if_neg hargs] at h
    split_ifs at h with hattempts hrefused hrefused
    · obtain rfl := some.inj h
      exact ⟨rfl, rfl, fun hzero => hrefused (.inl hzero), fun hzero => hrefused (.inr (.inl hzero))⟩
    · obtain rfl := some.inj h
      exact ⟨rfl, rfl, fun hzero => hrefused (.inl hzero), fun hzero => hrefused (.inr (.inl hzero))⟩
  | timeout sCommand h haccepted ih =>
    have hbranch : (true && decide ((sCommand.token 1 false (ch ' ') false).toUInt ≠ 0)) = true := by
      rw [Bool.true_and]
      exact decide_eq_true haccepted
    simp only [onTimeoutCommand]
    rw [if_pos hbranch]
    exact Settled.setArgs ⟨ih.cache, rfl, haccepted, ih.allowed⟩
  | attempts bAdmin sCommand h ih =>
    simp only [onAttemptsCommand]
    split_ifs with hbranch
    · refine Settled.setArgs ⟨ih.cache, ih.ttl, ih.minutes, ?_⟩
      exact of_decide_eq_true ((Bool.and_eq_true _ _).mp hbranch).2
    · exact ih
  | rehash h ih => exact ⟨rfl, ih.ttl, ih.minutes, ih.allowed⟩

theorem Settled.inv (h : Settled uMinutes m) (hfits : uMinutes.toNat ≤ 71582) :
    Inv (uMinutes.toNat * 60 * 1000) m.m_uiAllowedFailed.toNat (.start m) where
  ttl := by
    have hlt : uMinutes.toNat * 60000 < 2 ^ 32 := by omega
    have hnow : (World.start m).mod.m_Cache.uTTL = milliseconds uMinutes := h.ttl
    rw [hnow, toNat_milliseconds, Nat.mod_eq_of_lt hlt]
    omega
  allowed := rfl
  counts := fun sIP t _ => by
    have hnone : (m.m_Cache.cleanup t).getItem sIP = none := by
      rw [TCacheMap.getItem_cleanup, h.cache]
      rfl
    have hnow : (World.start m).mod = m := rfl
    rw [hnow, hnone]
    rfl

/-! ## Too long a timeout -/

theorem onFailedLogin_live (m : CFailToBanMod) (t : Instant) (sUsername sIP : CString) :
    (m.onFailedLogin t sUsername sIP).m_Cache.uTTL = m.m_Cache.uTTL ∧
      (m.onFailedLogin t sUsername sIP).m_uiAllowedFailed = m.m_uiAllowedFailed ∧
      ∀ e, (m.onFailedLogin t sUsername sIP).m_Cache.mItems.find sIP = some e → e.1 = t.ms + m.m_Cache.uTTL.toNat := by
  obtain ⟨info, hafter⟩ : ∃ info, m.onFailedLogin t sUsername sIP =
      addItem { m with m_Cache := m.m_Cache.cleanup t.ms } t sIP info := by
    unfold onFailedLogin
    dsimp only
    split
    · exact ⟨_, rfl⟩
    · exact ⟨_, rfl⟩
  rw [hafter]
  by_cases hzero : (m.m_Cache.cleanup t.ms).uTTL = 0
  · simp only [addItem, TCacheMap.addItem, if_pos hzero, TCacheMap.remItem, find_erase, if_true]
    exact ⟨rfl, trivial, fun e he => by cases he⟩
  · simp only [addItem, TCacheMap.addItem, if_neg hzero, find_insert, if_true]
    exact ⟨rfl, trivial, fun e he => by rw [← some.inj he]; rfl⟩

/-- failures at the start of time -/
def failures (evs : ℕ) (sIP : CString) : List (Instant × Event) := List.replicate evs (⟨0, 0⟩, .failed [] sIP)

theorem failures_spec {sIP : CString} (evs : ℕ) (hms : w.ms = 0)
    (hmarks : ∀ s, (w.marks s).countP isFailure + evs < 2 ^ 32)
    (hlive : ∀ e, w.mod.m_Cache.mItems.find sIP = some e → e.1 = w.mod.m_Cache.uTTL.toNat) :
    Runs.Steps step Timed (failures evs sIP) w ∧
      ((failures evs sIP).foldl step w).mod.m_Cache.uTTL = w.mod.m_Cache.uTTL ∧
      ((failures evs sIP).foldl step w).mod.m_uiAllowedFailed = w.mod.m_uiAllowedFailed ∧
      ((failures evs sIP).foldl step w).ms = 0 ∧
      ((failures evs sIP).foldl step w).marks sIP = List.replicate evs (0, .failed) ++ w.marks sIP ∧
      (∀ s, (((failures evs sIP).foldl step w).marks s).countP isFailure < 2 ^ 32) ∧
      ∀ e, ((failures evs sIP).foldl step w).mod.m_Cache.mItems.find sIP = some e → e.1 = w.mod.m_Cache.uTTL.toNat := by
  induction evs generalizing w with
  | zero => exact ⟨trivial, rfl, rfl, hms, rfl, hmarks, hlive⟩
  | succ evs ih =>
    obtain ⟨httl, hallowed, hitem⟩ := onFailedLogin_live w.mod ⟨0, 0⟩ [] sIP
    have hmarked : ∀ s, (mark w ⟨0, 0⟩ sIP .failed s).countP isFailure ≤ (w.marks s).countP isFailure + 1 := by
      intro s
      simp only [mark, update_apply]
      split_ifs with hs
      · rw [hs, List.countP_cons_of_pos (by rfl)]
      · exact Nat.le_succ _
    have hroom : ∀ s, (mark w ⟨0, 0⟩ sIP .failed s).countP isFailure + evs < 2 ^ 32 := by
      intro s
      have hone := hmarked s
      have hall := hmarks s
      omega
    have hitem' : ∀ e, (w.mod.onFailedLogin ⟨0, 0⟩ [] sIP).m_Cache.mItems.find sIP = some e →
        e.1 = (w.mod.onFailedLogin ⟨0, 0⟩ [] sIP).m_Cache.uTTL.toNat := by
      intro e he
      rw [hitem e he, Nat.zero_add, httl]
    obtain ⟨hsteps, httl', hallowed', hms', hmarks', hfew, hlive'⟩ :=
      @ih (step w (⟨0, 0⟩, .failed [] sIP)) rfl hroom hitem'
    refine ⟨⟨⟨hms.le, fun s => ?_, trivial⟩, hsteps⟩, httl'.trans httl, hallowed'.trans hallowed, hms', ?_, hfew,
      fun e he => ?_⟩
    · have hall := hmarks s
      omega
    · have hhead : (step w (⟨0, 0⟩, .failed [] sIP)).marks sIP = (0, .failed) :: w.marks sIP := update_self ..
      have hfold : (failures (evs + 1) sIP).foldl step w =
          (failures evs sIP).foldl step (step w (⟨0, 0⟩, .failed [] sIP)) := rfl
      rw [hfold, hmarks', hhead, List.replicate_succ', List.append_assoc]
      rfl
    · rw [hlive' e he]
      exact congrArg UInt32.toNat httl

theorem replicate_tight (evs : ℕ) (b : Mark) {t : ℕ} (ht : t ≤ T) : Tight T t (List.replicate evs (0, b)) := by
  induction evs generalizing t with
  | zero => trivial
  | succ evs ih => exact ⟨by rwa [Nat.zero_add], ih (Nat.zero_le T)⟩

/-- **Milliseconds that do not fit into 32 bits** let a ban end too early. -/
theorem law_fails (h : Settled uMinutes m) (hlarge : 71582 < uMinutes.toNat) :
    ∃ evs, Runs.Steps step Timed evs (.start m) ∧
      ¬Runs.Steps step (Law (uMinutes.toNat * 60 * 1000) m.m_uiAllowedFailed.toNat) evs (.start m) := by
  have httl : m.m_Cache.uTTL.toNat = uMinutes.toNat * 60000 % 2 ^ 32 := by rw [h.ttl, toNat_milliseconds]
  have hshort : m.m_Cache.uTTL.toNat + 1 ≤ uMinutes.toNat * 60 * 1000 := by
    have hlt := m.m_Cache.uTTL.toNat_lt
    omega
  have hnone : (World.start m).mod.m_Cache.mItems.find (lit "10.0.0.1") = none := by
    have hempty : (World.start m).mod.m_Cache.mItems = .empty := h.cache
    rw [hempty, find_empty]
  have hroom : ∀ s, ((World.start m).marks s).countP isFailure + m.m_uiAllowedFailed.toNat < 2 ^ 32 := fun s =>
    (Nat.zero_add _).trans_lt m.m_uiAllowedFailed.toNat_lt
  obtain ⟨hsteps, httl', hallowed, hms, hmarks, hfew, hlive⟩ :=
    @failures_spec (World.start m) (lit "10.0.0.1") m.m_uiAllowedFailed.toNat rfl hroom
      (fun e he => nomatch hnone.symm.trans he)
  generalize hrun : (failures m.m_uiAllowedFailed.toNat (lit "10.0.0.1")).foldl step (World.start m) = w
    at hsteps httl' hallowed hms hmarks hfew hlive
  refine ⟨failures m.m_uiAllowedFailed.toNat (lit "10.0.0.1") ++
    [(⟨m.m_Cache.uTTL.toNat + 1, 0⟩, .connect (lit "10.0.0.1"))], ?_, fun hlaw => ?_⟩
  · rw [Runs.steps_append, hrun]
    exact ⟨hsteps, ⟨hms.trans_le (Nat.zero_le _), hfew, trivial⟩, trivial⟩
  · rw [Runs.steps_append, hrun] at hlaw
    have hlast := hlaw.2.1 (lit "10.0.0.1") rfl (by decide)
    have hdeserved : Deserved (uMinutes.toNat * 60 * 1000) m.m_uiAllowedFailed.toNat (m.m_Cache.uTTL.toNat + 1)
        (w.marks (lit "10.0.0.1")) := by
      refine ⟨_, _, hmarks, replicate_tight _ _ hshort, ?_⟩
      rw [List.countP_replicate]
      exact le_rfl
    have hrefused := hlast.2 hdeserved
    have hgone : (w.mod.m_Cache.cleanup (m.m_Cache.uTTL.toNat + 1)).getItem (lit "10.0.0.1") = none := by
      rw [TCacheMap.getItem_cleanup]
      cases hitem : w.mod.m_Cache.mItems.find (lit "10.0.0.1") with
      | none => rfl
      | some e =>
        have hexpires : e.1 = m.m_Cache.uTTL.toNat := hlive e hitem
        rw [filter_some, if_neg (by rw [hexpires, decide_eq_true_eq]; omega)]
        rfl
    simp only [refuses, onClientConnect, if_neg (by decide : lit "10.0.0.1" ≠ []), banned,
      hgone, filter_none, Bool.false_eq_true] at hrefused

/-- **The law of the bans holds of every run exactly if the milliseconds of the timeout fit into 32 bits**, that is, for up
to 71582 minutes. -/
theorem ban_law_iff {uMinutes : UInt32} {m : CFailToBanMod} (h : Configured uMinutes m) :
    (∀ evs, Runs.Steps step Timed evs (.start m) →
        Runs.Steps step (Law (uMinutes.toNat * 60 * 1000) m.m_uiAllowedFailed.toNat) evs (.start m)) ↔
      uMinutes.toNat ≤ 71582 := by
  have hsettled := h.settled
  constructor
  · intro hlaw
    by_contra hlarge
    obtain ⟨evs, htimed, hfails⟩ := law_fails hsettled (Nat.lt_of_not_le hlarge)
    exact hfails (hlaw evs htimed)
  · intro hfits evs htimed
    have hminutes : 0 < uMinutes.toNat := Nat.pos_of_ne_zero fun hzero => hsettled.minutes (UInt32.toNat_inj.1 hzero)
    have hallowed : 0 < m.m_uiAllowedFailed.toNat :=
      Nat.pos_of_ne_zero fun hzero => hsettled.allowed (UInt32.toNat_inj.1 hzero)
    exact law_of_inv (by omega) hallowed evs (hsettled.inv hfits) htimed

/-- the configuration without arguments: one minute, two failures -/
theorem ban_law_default : (∀ evs, Runs.Steps step Timed evs (.start ⟨⟨.empty, milliseconds 1⟩, 2, []⟩) →
      Runs.Steps step (Law ((1 : UInt32).toNat * 60 * 1000) (2 : UInt32).toNat) evs
        (.start ⟨⟨.empty, milliseconds 1⟩, 2, []⟩)) ↔ (1 : UInt32).toNat ≤ 71582 :=
  ban_law_iff (.empty rfl)

/-- 71583 minutes, and one failure -/
def almostFiftyDays : CFailToBanMod := ⟨⟨.empty, milliseconds 71583⟩, 1, lit "71583 1"⟩

/-- a failed login, and a connection 12.705 seconds later -/
def soon : List (Instant × Event) :=
  [(⟨0, 0⟩, .failed (lit "user") (lit "10.0.0.1")), (⟨12705, 12⟩, .connect (lit "10.0.0.1"))]

/-- **A ban for 71583 minutes is over after 12.704 seconds.** -/
theorem short_ban : onLoad (lit "71583 1") = some almostFiftyDays ∧
    ¬Runs.Steps step (Law (71583 * 60 * 1000) 1) soon (.start almostFiftyDays) := by
  refine ⟨rfl, fun hlaw => ?_⟩
  have hlast := hlaw.2.1 (lit "10.0.0.1") rfl (by decide)
  have hdeserved : Deserved (71583 * 60 * 1000) 1 12705 [(0, .failed)] :=
    ⟨[(0, .failed)], [], rfl, by decide, by decide⟩
  have hmarks : (step (.start almostFiftyDays) (⟨0, 0⟩, .failed (lit "user") (lit "10.0.0.1"))).marks (lit "10.0.0.1") =
      [(0, .failed)] := by decide
  have hrefused := hlast.2 (by rw [hmarks]; exact hdeserved)
  exact absurd hrefused (by decide)

end ZNC.Fail2Ban
