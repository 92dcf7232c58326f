/-
Ops by challenge and response: the queue of `modules/autoop.cpp`.

A nick that joins and matches a user is put into the queue with an empty challenge. Every 20 seconds the timer throws away the
challenges that were not answered, and sends one to each nick that is new in the queue. A nick that answers with the MD5 of the
key and the challenge gets ops. The answer is compared with the key of the first user whose hostmask matches.

Model: `md5` stands for `CString::MD5`, `rand` is given by its draws, and each event comes with the channels as they are then.
Commands may replace the users between two events. Beside the module there is a book of the challenges that were sent, which
follows a nick when it changes; the code does not read it.

Results:
- `accept_iff`: when a response is accepted;
- `auto_op_law`: the law of the responses holds of a run whose events meet `Meets`, and where nicks keep their challenges, of no
  other;
- `unchallenged`: a response to a challenge that was never sent.
-/
import ZNC.AutoOpUsers
import ZNC.Chan
import ZNC.Lib.Runs
import ZNC.Lib.Tickets

namespace ZNC.AutoOp

open CString Chan Option OrdMap List

/-! ## Model -/

/-- `CChan` with its name -/
structure Channel extends Chan.CChan where
  sName : CString

/-- the permission `CChan::Op` -/
def op : UInt8 := ch '@'

namespace Channel

/-- `HasPerm(CChan::Op)` of the channel: whether we are opped there -/
def opped (c : Channel) : Bool := c.nick.hasPerm op

end Channel

/-- the lines that go to the server -/
inductive IrcLine where
  | challenge (sNick sChallenge : CString)
  | response (sNick sResponse : CString)
  | mode (sChan sNick : CString)
deriving DecidableEq

def IrcLine.text : IrcLine → CString
  | .challenge sNick sChallenge => lit "NOTICE " ++ sNick ++ lit " :!ZNCAO CHALLENGE " ++ sChallenge
  | .response sNick sResponse => lit "NOTICE " ++ sNick ++ lit " :!ZNCAO RESPONSE " ++ sResponse
  | .mode sChan sNick => lit "MODE " ++ sChan ++ lit " +o " ++ sNick

/-- `PutIRC` and `PutModule` -/
inductive Out where
  | irc (line : IrcLine)
  | module (sLine : CString)
deriving DecidableEq

def randomChars : CString := lit "abcdefghijklmnopqrstuvwxyzABCDEFGHIJKLMNOPQRSTUVWXYZ0123456789!?.,:;/*-+_()"

/-- `RandomString(uLength)`, by the draws of `rand` -/
def randomString (uLength : ℕ) (draws : ℕ → Fin randomChars.length) : CString :=
  (List.range uLength).map fun a => randomChars.get (draws a)

def challengeLength : ℕ := 32

/-- the text that the response of a user is the MD5 of -/
def answer (u : CAutoOpUser) (sChallenge : CString) : CString := u.m_sUserKey ++ lit "::" ++ sChallenge

structure CAutoOpMod where
  m_msUsers : OrdMap CString CAutoOpUser
  m_msQueue : OrdMap CString CString

/-- what a notice is for the module -/
inductive Notice where
  | challenge (sChallenge : CString)
  | response (sResponse : CString)
  | other

/-- `OnPrivNotice` up to its calls -/
def noticeOf (sMessage : CString) : Notice :=
  if !(sMessage.token 0 false (ch ' ') false).equals (lit "!ZNCAO") then .other
  else
    let sCommand := sMessage.token 1 false (ch ' ') false
    if sCommand.equals (lit "CHALLENGE") then .challenge (sMessage.token 2 false (ch ' ') false)
    else if sCommand.equals (lit "RESPONSE") then .response (sMessage.token 2 false (ch ' ') false)
    else .other

namespace CAutoOpMod

def findUserByHost (m : CAutoOpMod) (sHostmask sChannel : CString) : Option CAutoOpUser :=
  (m.m_msUsers.entries.find? fun it =>
    it.2.hostMatches sHostmask && (sChannel = [] || it.2.channelMatches sChannel)).map Prod.snd

def checkAutoOp (m : CAutoOpMod) (Nick : ZNC.CNick) (c : Channel) : CAutoOpMod × List Out :=
  match m.findUserByHost Nick.getHostMask c.sName with
  | none => (m, [])
  | some pUser =>
    if pUser.m_sUserKey.equals (lit "__NOKEY__") then (m, [.irc (.mode c.sName Nick.sNick)])
    else
      -- "the timer does the rest"
      let sNick := Nick.sNick.asLower
      if m.m_msQueue.find sNick = none then ({ m with m_msQueue := m.m_msQueue.insert sNick [] }, []) else (m, [])

def onJoin (m : CAutoOpMod) (Nick : ZNC.CNick) (c : Channel) : CAutoOpMod × List Out :=
  if c.opped then m.checkAutoOp Nick c else (m, [])

/-- `OnOp2` for the nick `sCurNick` of the network -/
def onOp2 (m : CAutoOpMod) (sCurNick : CString) (Nick : ZNC.CNick) (c : Channel) : CAutoOpMod × List Out :=
  if Nick.sNick = sCurNick then
    c.msNicks.entries.foldl (fun r it =>
      if it.2.hasPerm op then r
      else
        let (m, out) := r.1.checkAutoOp it.2.toCNick c
        (m, r.2 ++ out)) (m, [])
  else (m, [])

def onQuit (m : CAutoOpMod) (Nick : ZNC.CNick) : CAutoOpMod :=
  { m with m_msQueue := m.m_msQueue.erase Nick.sNick.asLower }

def onNick (m : CAutoOpMod) (OldNick : ZNC.CNick) (sNewNick : CString) : CAutoOpMod :=
  match m.m_msQueue.find OldNick.sNick.asLower with
  | none => m
  | some it =>
    { m with m_msQueue := (m.m_msQueue.insert sNewNick.asLower it).erase OldNick.sNick.asLower }

/-- whether the nick is opped in a channel of the user -/
def opInChans (chans : List Channel) (Nick : ZNC.CNick) (u : CAutoOpUser) : Bool :=
  chans.any fun pChan => (pChan.findNick Nick.sNick).any fun pNick =>
    pNick.hasPerm op && u.channelMatches pChan.sName

def challengeRespond (md5 : CString → CString) (m : CAutoOpMod) (chans : List Channel) (Nick : ZNC.CNick)
    (sChallenge : CString) : List Out :=
  let sMask := Nick.getHostMask
  match m.m_msUsers.entries.find? fun it => it.2.hostMatches sMask && opInChans chans Nick it.2 with
  | none =>
    if m.m_msUsers.entries.any fun it => it.2.hostMatches sMask then
      [.module (lit "[" ++ sMask ++
        lit "] sent us a challenge but they are not opped in any defined channels.")]
    else [.module (lit "[" ++ sMask ++ lit "] sent us a challenge but they do not match a defined user.")]
  | some it =>
    if sChallenge.length ≠ challengeLength then
      [.module (lit "WARNING! [" ++ sMask ++ lit "] sent an invalid challenge.")]
    else [.irc (.response Nick.sNick (md5 (answer it.2 sChallenge)))]

def opUser (chans : List Channel) (Nick : ZNC.CNick) (User : CAutoOpUser) : List Out :=
  chans.flatMap fun pChan =>
    if pChan.opped && User.channelMatches pChan.sName then
      match pChan.findNick Nick.sNick with
      | none => []
      | some pNick => if pNick.hasPerm op then [] else [.irc (.mode pChan.sName Nick.sNick)]
    else []

/-- the first user of the map that matches the mask of the nick -/
def firstMatch (m : CAutoOpMod) (Nick : ZNC.CNick) : Option CAutoOpUser :=
  (m.m_msUsers.entries.find? fun it => it.2.hostMatches Nick.getHostMask).map Prod.snd

/-- whether the response is accepted, and what becomes of the module -/
def verifyResponse (md5 : CString → CString) (m : CAutoOpMod) (chans : List Channel) (Nick : ZNC.CNick)
    (sResponse : CString) : Bool × CAutoOpMod × List Out :=
  let sMask := Nick.getHostMask
  match m.m_msQueue.find Nick.sNick.asLower with
  | none =>
    (false, m, [.module (lit "[" ++ sMask ++
      lit "] sent an unchallenged response.  This could be due to lag.")])
  | some sChallenge =>
    let m := { m with m_msQueue := m.m_msQueue.erase Nick.sNick.asLower }
    match m.firstMatch Nick with
    | none =>
      (false, m, [.module (lit "WARNING! [" ++ sMask ++
        lit "] sent a response but did not match any defined users.")])
    | some pUser =>
      if sResponse = md5 (answer pUser sChallenge) then (true, m, opUser chans Nick pUser)
      else
        (false, m, [.module (lit "WARNING! [" ++ sMask ++
          lit "] sent a bad response.  Please verify that you have their correct password.")])

/-- "First remove any stale challenges": the passes of the loop take them out one by one -/
def removeStale (m : CAutoOpMod) : OrdMap CString CString := m.m_msQueue.filter fun _ s => s = []

/-- `ProcessQueue`; `draws` are those for the challenge of a nick -/
def processQueue (m : CAutoOpMod) (draws : CString → ℕ → Fin randomChars.length) : CAutoOpMod × List Out :=
  let sChallenge (sNick : CString) := randomString challengeLength (draws sNick)
  let sNicks := m.removeStale.keys
  ({ m with m_msQueue := sNicks.foldl (fun q sNick => q.insert sNick (sChallenge sNick)) m.removeStale },
    sNicks.map fun sNick => .irc (.challenge sNick (sChallenge sNick)))

end CAutoOpMod

open CAutoOpMod

/-! ## Runs -/

/-- the module, and the book of the challenges that were sent, by nicks in lower case -/
structure World where
  mod : CAutoOpMod
  book : Tickets CString CString

inductive Event where
  | join (Nick : ZNC.CNick) (c : Channel)
  /-- `OnOp2`, for the own nick of the network as it is then -/
  | opped (sCurNick : CString) (Nick : ZNC.CNick) (c : Channel)
  | quit (Nick : ZNC.CNick)
  | nick (OldNick : ZNC.CNick) (sNewNick : CString)
  | notice (Nick : ZNC.CNick) (sMessage : CString)
  | timer (draws : CString → ℕ → Fin randomChars.length)
  /-- commands changed the users -/
  | users (m_msUsers : OrdMap CString CAutoOpUser)

def Out.challenge? : Out → Option (CString × CString)
  | .irc (.challenge sNick sChallenge) => some (sNick.asLower, sChallenge)
  | _ => none

/-- the challenges among what was sent -/
def challenges (out : List Out) : List (CString × CString) := out.filterMap Out.challenge?

section Md5

variable (md5 : CString → CString)

/-- the next state, with the channels that there are -/
def step (w : World) (ev : List Channel × Event) : World :=
  match ev.2 with
  | .join Nick c => { w with mod := (w.mod.onJoin Nick c).1 }
  | .opped sCurNick Nick c => { w with mod := (w.mod.onOp2 sCurNick Nick c).1 }
  | .quit Nick => ⟨w.mod.onQuit Nick, w.book.drop Nick.sNick.asLower⟩
  | .nick OldNick sNewNick => ⟨w.mod.onNick OldNick sNewNick, w.book.hand OldNick.sNick.asLower sNewNick.asLower⟩
  | .notice Nick sMessage =>
    match noticeOf sMessage with
    | .response sResponse =>
      let (bAccepted, mod, _) := w.mod.verifyResponse md5 ev.1 Nick sResponse
      ⟨mod, if bAccepted then w.book.use Nick.sNick.asLower else w.book.drop Nick.sNick.asLower⟩
    | _ => w
  | .timer draws =>
    let (mod, out) := w.mod.processQueue draws
    ⟨mod, (challenges out).foldl (fun b e => b.issue e.1 e.2) w.book.expire⟩
  | .users m_msUsers => { w with mod := { w.mod with m_msUsers := m_msUsers } }

def World.start (m_msUsers : OrdMap CString CAutoOpUser) : World := ⟨⟨m_msUsers, .empty⟩, .empty⟩

/-! ## What the module is for -/

/-- the law of the responses, for one of them -/
structure Answered (w : World) (chans : List Channel) (Nick : ZNC.CNick) (sResponse : CString) : Prop where
  /-- ops are given to a nick that a challenge was sent to, which is pending, for the right response of a user that matches,
  in a channel of this user that the nick is on -/
  grants : ∀ sChan sNick, .irc (.mode sChan sNick) ∈ (w.mod.verifyResponse md5 chans Nick sResponse).2.2 →
    sNick = Nick.sNick ∧ ∃ t, w.book.pending Nick.sNick.asLower = some t ∧ t.2 ≠ [] ∧
      ∃ it ∈ w.mod.m_msUsers.entries, it.2.hostMatches Nick.getHostMask = true ∧ sResponse = md5 (answer it.2 t.2) ∧
        it.2.channelMatches sChan = true ∧ ∃ c ∈ chans, c.sName = sChan ∧ (c.findNick Nick.sNick).isSome = true
  /-- the right response of any user that matches is accepted -/
  accepts : ∀ t, w.book.pending Nick.sNick.asLower = some t → ∀ it ∈ w.mod.m_msUsers.entries,
    it.2.hostMatches Nick.getHostMask = true → sResponse = md5 (answer it.2 t.2) →
      (w.mod.verifyResponse md5 chans Nick sResponse).1 = true

def Law (w : World) (ev : List Channel × Event) : Prop :=
  match ev.2 with
  | .notice Nick sMessage =>
    match noticeOf sMessage with
    | .response sResponse => Answered md5 w ev.1 Nick sResponse
    | _ => True
  | _ => True

/-- no challenge was accepted twice -/
def Once (w : World) : Prop := w.book.used.Nodup

/-! ### When it holds -/

/-- there is a channel where the nick gets ops -/
def Opable (chans : List Channel) (Nick : ZNC.CNick) (u : CAutoOpUser) : Prop :=
  ∃ c ∈ chans, c.opped = true ∧ u.channelMatches c.sName = true ∧ ∃ n ∈ c.findNick Nick.sNick, n.hasPerm op = false

/-- a nick with a challenge does not change in letter case only, and no nick that waits for its challenge takes the name of one
that has one -/
def Renames (w : World) (ev : List Channel × Event) : Prop :=
  match ev.2 with
  | .nick OldNick sNewNick =>
    (OldNick.sNick.asLower = sNewNick.asLower → ∀ s, w.mod.m_msQueue.find OldNick.sNick.asLower = some s → s = []) ∧
      (w.mod.m_msQueue.find OldNick.sNick.asLower = some [] →
        ∀ s, w.mod.m_msQueue.find sNewNick.asLower = some s → s = [])
  | _ => True

/-- the first user that matches has the key of the response, if any that matches has; and a nick that waits for its challenge
does not answer with the key alone where it would get ops -/
structure Fair (w : World) (chans : List Channel) (Nick : ZNC.CNick) (sResponse : CString) : Prop where
  first : ∀ s, w.mod.m_msQueue.find Nick.sNick.asLower = some s → s ≠ [] → ∀ it ∈ w.mod.m_msUsers.entries,
    it.2.hostMatches Nick.getHostMask = true → sResponse = md5 (answer it.2 s) →
      ∀ u ∈ w.mod.firstMatch Nick, sResponse = md5 (answer u s)
  waits : w.mod.m_msQueue.find Nick.sNick.asLower = some [] → ∀ u ∈ w.mod.firstMatch Nick,
    sResponse = md5 (answer u []) → ¬Opable chans Nick u

def Answers (w : World) (ev : List Channel × Event) : Prop :=
  match ev.2 with
  | .notice Nick sMessage =>
    match noticeOf sMessage with
    | .response sResponse => Fair md5 w ev.1 Nick sResponse
    | _ => True
  | _ => True

def Meets (w : World) (ev : List Channel × Event) : Prop := Renames w ev ∧ Answers md5 w ev

end Md5

/-! ## What the parts do -/

theorem mem_opUser {chans : List Channel} {Nick : ZNC.CNick} {u : CAutoOpUser} {o : Out} :
    o ∈ opUser chans Nick u ↔ ∃ c ∈ chans, o = .irc (.mode c.sName Nick.sNick) ∧ c.opped = true ∧
      u.channelMatches c.sName = true ∧ ∃ n ∈ c.findNick Nick.sNick, n.hasPerm op = false := by
  rw [opUser, mem_flatMap]
  refine exists_congr fun c => and_congr_right fun _ => ?_
  by_cases hgate : (c.opped && u.channelMatches c.sName) = true
  · obtain ⟨hopped, hmatches⟩ := (Bool.and_eq_true _ _).mp hgate
    rw [if_pos hgate]
    cases hfind : c.findNick Nick.sNick with
    | none => simp
    | some n =>
      by_cases hop : n.hasPerm op = true
      · simp [hop]
      · simp [hop, hopped, hmatches]
  · rw [if_neg hgate]
    refine iff_of_false not_mem_nil ?_
    rintro ⟨-, hopped, hmatches, -⟩
    exact hgate ((Bool.and_eq_true _ _).mpr ⟨hopped, hmatches⟩)

theorem firstMatch_some {m : CAutoOpMod} {Nick : ZNC.CNick} {u : CAutoOpUser} (h : m.firstMatch Nick = some u) :
    ∃ it ∈ m.m_msUsers.entries, it.2 = u ∧ it.2.hostMatches Nick.getHostMask = true := by
  obtain ⟨it, hit, rfl⟩ := map_eq_some_iff.1 h
  exact ⟨it, mem_of_find?_eq_some hit, rfl,
    find?_some (p := fun it : CString × CAutoOpUser => it.2.hostMatches Nick.getHostMask) hit⟩

theorem firstMatch_isSome {m : CAutoOpMod} {Nick : ZNC.CNick} {it : CString × CAutoOpUser}
    (hit : it ∈ m.m_msUsers.entries) (hmatches : it.2.hostMatches Nick.getHostMask = true) :
    ∃ u, m.firstMatch Nick = some u := by
  have hsome : (m.m_msUsers.entries.find? fun it => it.2.hostMatches Nick.getHostMask).isSome = true := by
    rw [find?_isSome]
    exact ⟨it, hit, hmatches⟩
  obtain ⟨e, he⟩ := isSome_iff_exists.1 hsome
  exact ⟨e.2, by rw [firstMatch, he, map_some]⟩

section Md5

variable {md5 : CString → CString} {m : CAutoOpMod} {chans : List Channel} {Nick : ZNC.CNick} {sResponse : CString}

theorem accept_iff : (m.verifyResponse md5 chans Nick sResponse).1 = true ↔ ∃ s u,
    m.m_msQueue.find Nick.sNick.asLower = some s ∧ m.firstMatch Nick = some u ∧ sResponse = md5 (answer u s) := by
  unfold verifyResponse
  dsimp only
  cases hqueue : m.m_msQueue.find Nick.sNick.asLower with
  | none => simp
  | some s =>
    have hfirst : ({ m with m_msQueue := m.m_msQueue.erase Nick.sNick.asLower } : CAutoOpMod).firstMatch Nick =
        m.firstMatch Nick := rfl
    rw [hfirst]
    cases hmatch : m.firstMatch Nick with
    | none => simp
    | some u =>
      dsimp only
      split_ifs with hresponse
      · exact iff_of_true rfl ⟨s, u, rfl, rfl, hresponse⟩
      · refine iff_of_false not_false ?_
        rintro ⟨s', u', hs, hu, hright⟩
        rw [← some.inj hs, ← some.inj hu] at hright
        exact hresponse hright

theorem verify_sends {line : IrcLine} (h : .irc line ∈ (m.verifyResponse md5 chans Nick sResponse).2.2) :
    ∃ s u, m.m_msQueue.find Nick.sNick.asLower = some s ∧ m.firstMatch Nick = some u ∧ sResponse = md5 (answer u s) ∧
      .irc line ∈ opUser chans Nick u := by
  unfold verifyResponse at h
  dsimp only at h
  cases hqueue : m.m_msQueue.find Nick.sNick.asLower with
  | none => simp [hqueue] at h
  | some s =>
    have hfirst : ({ m with m_msQueue := m.m_msQueue.erase Nick.sNick.asLower } : CAutoOpMod).firstMatch Nick =
        m.firstMatch Nick := rfl
    rw [hqueue] at h
    dsimp only at h
    rw [hfirst] at h
    cases hmatch : m.firstMatch Nick with
    | none => simp [hmatch] at h
    | some u =>
      rw [hmatch] at h
      dsimp only at h
      split_ifs at h with hresponse
      · exact ⟨s, u, rfl, rfl, hresponse, h⟩
      · simp at h

theorem verify_accepts {s : CString} {u : CAutoOpUser} (hqueue : m.m_msQueue.find Nick.sNick.asLower = some s)
    (hmatch : m.firstMatch Nick = some u) (hresponse : sResponse = md5 (answer u s)) :
    (m.verifyResponse md5 chans Nick sResponse).2.2 = opUser chans Nick u := by
  have hfirst : ({ m with m_msQueue := m.m_msQueue.erase Nick.sNick.asLower } : CAutoOpMod).firstMatch Nick =
      m.firstMatch Nick := rfl
  unfold verifyResponse
  dsimp only
  rw [hqueue]
  dsimp only
  rw [hfirst, hmatch]
  dsimp only
  rw [if_pos hresponse]

theorem verify_queue : (m.verifyResponse md5 chans Nick sResponse).2.1.m_msUsers = m.m_msUsers ∧
    ∀ k s, (m.verifyResponse md5 chans Nick sResponse).2.1.m_msQueue.find k = some s ↔
      k ≠ Nick.sNick.asLower ∧ m.m_msQueue.find k = some s := by
  have herase : ∀ k s, (m.m_msQueue.erase Nick.sNick.asLower).find k = some s ↔
      k ≠ Nick.sNick.asLower ∧ m.m_msQueue.find k = some s := by
    intro k s
    rw [find_erase]
    split_ifs with hk
    · simp [hk]
    · simp [hk]
  unfold verifyResponse
  dsimp only
  cases hqueue : m.m_msQueue.find Nick.sNick.asLower with
  | none =>
    refine ⟨rfl, fun k s => ⟨fun hk => ⟨?_, hk⟩, fun hk => hk.2⟩⟩
    rintro rfl
    rw [hqueue] at hk
    cases hk
  | some s =>
    dsimp only
    split
    · exact ⟨rfl, herase⟩
    · split_ifs
      · exact ⟨rfl, herase⟩
      · exact ⟨rfl, herase⟩

end Md5

/-- nicks may come into the queue, to wait for their challenge -/
structure Queued (m m' : CAutoOpMod) : Prop where
  users : m'.m_msUsers = m.m_msUsers
  sent : ∀ k s, s ≠ [] → (m'.m_msQueue.find k = some s ↔ m.m_msQueue.find k = some s)
  lower : ∀ k s, m'.m_msQueue.find k = some s → m.m_msQueue.find k = some s ∨ k.asLower = k

theorem Queued.refl (m : CAutoOpMod) : Queued m m := ⟨rfl, fun _ _ _ => Iff.rfl, fun _ _ h => .inl h⟩

theorem Queued.trans {m m' m'' : CAutoOpMod} (h : Queued m m') (h' : Queued m' m'') : Queued m m'' where
  users := h'.users.trans h.users
  sent := fun k s hs => (h'.sent k s hs).trans (h.sent k s hs)
  lower := fun k s hk => by
    rcases h'.lower k s hk with hk | hk
    · exact h.lower k s hk
    · exact .inr hk

theorem checkAutoOp_queued (m : CAutoOpMod) (Nick : ZNC.CNick) (c : Channel) : Queued m (m.checkAutoOp Nick c).1 := by
  unfold checkAutoOp
  split
  · exact Queued.refl m
  · dsimp only
    split_ifs with hkey hnew
    · exact Queued.refl m
    · refine ⟨rfl, fun k s hs => ?_, fun k s hk => ?_⟩
      · rw [find_insert]
        split_ifs with hk
        · rw [hk, hnew]
          exact iff_of_false (fun h => hs (some.inj h).symm) nofun
        · exact Iff.rfl
      · rw [find_insert] at hk
        split_ifs at hk with hkey
        · exact .inr (by rw [hkey, asLower_asLower])
        · exact .inl hk
    · exact Queued.refl m

theorem onJoin_queued (m : CAutoOpMod) (Nick : ZNC.CNick) (c : Channel) : Queued m (m.onJoin Nick c).1 := by
  rw [onJoin]
  split_ifs
  · exact checkAutoOp_queued m Nick c
  · exact Queued.refl m

theorem onOp2_queued (m : CAutoOpMod) (sCurNick : CString) (Nick : ZNC.CNick) (c : Channel) :
    Queued m (m.onOp2 sCurNick Nick c).1 := by
  rw [onOp2]
  split_ifs
  · have hloop : ∀ (l : List (CString × Chan.CNick)) (r : CAutoOpMod × List Out), Queued r.1
        (l.foldl (fun r it =>
          if it.2.hasPerm op then r
          else
            let (m, out) := r.1.checkAutoOp it.2.toCNick c
            (m, r.2 ++ out)) r).1 := by
      intro l
      induction l with
      | nil => exact fun r => Queued.refl r.1
      | cons it l ih =>
        intro r
        rw [foldl_cons]
        refine Queued.trans ?_ (ih _)
        split_ifs
        · exact Queued.refl r.1
        · exact checkAutoOp_queued r.1 _ c
    exact hloop c.msNicks.entries (m, [])
  · exact Queued.refl m

theorem mem_waiting {m : CAutoOpMod} {k : CString} : k ∈ m.removeStale.keys ↔ m.m_msQueue.find k = some [] := by
  rw [← find_isSome_iff, removeStale, find_filter, isSome_iff_exists]
  constructor
  · rintro ⟨s, hs⟩
    obtain ⟨hs, hempty⟩ := filter_eq_some_iff.1 hs
    rw [hs, of_decide_eq_true hempty]
  · intro h
    exact ⟨[], filter_eq_some_iff.2 ⟨h, rfl⟩⟩

theorem randomString_ne (draws : ℕ → Fin randomChars.length) : randomString challengeLength draws ≠ [] := by
  intro h
  have hlength := congrArg List.length h
  rw [randomString, length_map, length_range] at hlength
  exact absurd hlength (by decide)

/-- **The timer** leaves those in the queue that it sends a challenge to. -/
theorem processQueue_find (m : CAutoOpMod) (draws : CString → ℕ → Fin randomChars.length) (k s : CString) :
    (m.processQueue draws).1.m_msQueue.find k = some s ↔
      m.m_msQueue.find k = some [] ∧ randomString challengeLength (draws k) = s := by
  simp only [processQueue]
  rw [find_foldl_insert (fun k => randomString challengeLength (draws k)), mem_waiting]
  refine or_iff_left ?_
  rintro ⟨hnot, hk⟩
  exact hnot (mem_waiting.1 ((find_isSome_iff _ _).1 (by rw [hk]; rfl)))

/-! ## Steps -/

/-- the book has the challenges of the queue -/
structure Inv (w : World) : Prop where
  sound : w.book.Sound
  lower : ∀ k s, w.mod.m_msQueue.find k = some s → k.asLower = k
  sync : ∀ k s, (∃ i, w.book.pending k = some (i, s)) ↔ w.mod.m_msQueue.find k = some s ∧ s ≠ []

variable {w : World}

theorem Inv.queued (h : Inv w) {mod : CAutoOpMod} (hq : Queued w.mod mod) : Inv { w with mod := mod } where
  sound := h.sound
  lower := fun k s hk => by
    rcases hq.lower k s hk with hk | hk
    · exact h.lower k s hk
    · exact hk
  sync := fun k s => by
    rw [h.sync]
    exact and_congr_left fun hs => (hq.sent k s hs).symm

theorem Inv.erase (h : Inv w) {mod : CAutoOpMod} {book : Tickets CString CString} {a : CString} (hsound : book.Sound)
    (hqueue : ∀ k s, mod.m_msQueue.find k = some s ↔ k ≠ a ∧ w.mod.m_msQueue.find k = some s)
    (hbook : ∀ k, book.pending k = if k = a then none else w.book.pending k) : Inv ⟨mod, book⟩ where
  sound := hsound
  lower := fun k s hk => h.lower k s ((hqueue k s).1 hk).2
  sync := fun k s => by
    rw [hqueue, hbook, and_assoc, ← h.sync]
    split_ifs with hk
    · simp [hk]
    · simp [hk]

theorem quit_inv (h : Inv w) (Nick : ZNC.CNick) :
    Inv ⟨w.mod.onQuit Nick, w.book.drop Nick.sNick.asLower⟩ := by
  refine h.erase (a := Nick.sNick.asLower) (h.sound.drop _) (fun k s => ?_) fun k => Function.update_apply ..
  rw [onQuit, find_erase]
  split_ifs with hk
  · simp [hk]
  · simp [hk]

theorem response_inv (md5 : CString → CString) (h : Inv w) (chans : List Channel) (Nick : ZNC.CNick)
    (sResponse : CString) :
    Inv ⟨(w.mod.verifyResponse md5 chans Nick sResponse).2.1,
      if (w.mod.verifyResponse md5 chans Nick sResponse).1 then w.book.use Nick.sNick.asLower
      else w.book.drop Nick.sNick.asLower⟩ := by
  refine h.erase (a := Nick.sNick.asLower) ?_ verify_queue.2 fun k => ?_
  · split_ifs
    · exact h.sound.use _
    · exact h.sound.drop _
  · by_cases haccepted : (w.mod.verifyResponse md5 chans Nick sResponse).1 = true
    · rw [if_pos haccepted]
      exact Tickets.pending_use w.book _ k
    · rw [if_neg haccepted]
      exact Tickets.pending_drop w.book _ k

theorem onNick_find {m : CAutoOpMod} {OldNick : ZNC.CNick} {sChallenge : CString}
    (hold : m.m_msQueue.find OldNick.sNick.asLower = some sChallenge) (sNewNick k s : CString) :
    (m.onNick OldNick sNewNick).m_msQueue.find k = some s ↔ k ≠ OldNick.sNick.asLower ∧
      ((k = sNewNick.asLower ∧ sChallenge = s) ∨ (k ≠ sNewNick.asLower ∧ m.m_msQueue.find k = some s)) := by
  rw [onNick, hold]
  dsimp only
  rw [find_erase, find_insert]
  by_cases hk : k = OldNick.sNick.asLower
  · simp [hk]
  · by_cases hnew : k = sNewNick.asLower
    · rw [if_neg hk, if_pos hnew]
      simp only [ne_eq, hnew, not_true_eq_false, true_and, false_and, or_false, some.injEq]
      exact (and_iff_right (hnew ▸ hk)).symm
    · rw [if_neg hk, if_neg hnew]
      simp [hk, hnew]

/-- **A nick changes**, and its challenge with it. -/
theorem nick_inv (h : Inv w) {chans : List Channel} {OldNick : ZNC.CNick} {sNewNick : CString}
    (hrenames : Renames w (chans, .nick OldNick sNewNick)) :
    Inv ⟨w.mod.onNick OldNick sNewNick, w.book.hand OldNick.sNick.asLower sNewNick.asLower⟩ := by
  obtain ⟨hcase, htaken⟩ := hrenames
  cases hold : w.mod.m_msQueue.find OldNick.sNick.asLower with
  | none =>
    have hnone : w.book.pending OldNick.sNick.asLower = none := by
      apply eq_none_iff_forall_ne_some.2
      intro t ht
      have hqueue := ((h.sync _ t.2).1 ⟨t.1, ht⟩).1
      rw [hold] at hqueue
      cases hqueue
    have hmod : w.mod.onNick OldNick sNewNick = w.mod := by rw [onNick, hold]
    have hbook : w.book.hand OldNick.sNick.asLower sNewNick.asLower = w.book := by rw [Tickets.hand, hnone]
    rw [hmod, hbook]
    exact h
  | some sChallenge =>
    have hfind := onNick_find hold sNewNick
    refine ⟨h.sound.hand _ _, fun k s hk => ?_, fun k s => ?_⟩
    · obtain ⟨-, ⟨rfl, -⟩ | ⟨-, hk⟩⟩ := (hfind k s).1 hk
      · exact asLower_asLower sNewNick
      · exact h.lower k s hk
    · rw [hfind, Tickets.pending_hand]
      by_cases hempty : sChallenge = []
      · subst hempty
        -- the nick waits, and nothing is pending under its new name
        have hnone : w.book.pending OldNick.sNick.asLower = none := by
          apply eq_none_iff_forall_ne_some.2
          intro t ht
          obtain ⟨hqueue, hne⟩ := (h.sync _ t.2).1 ⟨t.1, ht⟩
          rw [hold] at hqueue
          exact hne (some.inj hqueue).symm
        rw [hnone, if_neg (by decide), h.sync]
        constructor
        · rintro ⟨hk, hs⟩
          refine ⟨⟨?_, .inr ⟨?_, hk⟩⟩, hs⟩
          · rintro rfl
            rw [hold] at hk
            exact hs (some.inj hk).symm
          · rintro rfl
            exact hs (htaken hold s hk)
        · rintro ⟨⟨-, ⟨-, rfl⟩ | ⟨-, hk⟩⟩, hs⟩
          · exact absurd rfl hs
          · exact ⟨hk, hs⟩
      · -- the challenge goes to another name
        have hother : sNewNick.asLower ≠ OldNick.sNick.asLower := fun hsame => hempty (hcase hsame.symm _ hold)
        obtain ⟨i, hpending⟩ := (h.sync _ _).2 ⟨hold, hempty⟩
        rw [if_pos (by rw [hpending]; rfl)]
        by_cases hnew : k = sNewNick.asLower
        · subst hnew
          rw [if_pos rfl, h.sync, hold]
          simp [hother]
        · rw [if_neg hnew]
          by_cases hk : k = OldNick.sNick.asLower
          · simp [hk]
          · rw [if_neg hk, h.sync]
            simp [hnew, hk]

theorem challenges_processQueue (m : CAutoOpMod) (draws : CString → ℕ → Fin randomChars.length) :
    challenges (m.processQueue draws).2 =
      m.removeStale.keys.map fun sNick => (sNick.asLower, randomString challengeLength (draws sNick)) := by
  simp only [processQueue, challenges]
  induction m.removeStale.keys with
  | nil => rfl
  | cons sNick sNicks ih => exact congrArg (List.cons _) ih

/-- **The timer** lets every challenge go and sends new ones. -/
theorem timer_inv (h : Inv w) (draws : CString → ℕ → Fin randomChars.length) :
    Inv ⟨(w.mod.processQueue draws).1,
      (challenges (w.mod.processQueue draws).2).foldl (fun b e => b.issue e.1 e.2) w.book.expire⟩ := by
  have hwaits : ∀ k ∈ w.mod.removeStale.keys, k.asLower = k := fun k hk => h.lower k [] (mem_waiting.1 hk)
  have hsent : challenges (w.mod.processQueue draws).2 =
      w.mod.removeStale.keys.map fun sNick => (sNick, randomString challengeLength (draws sNick)) := by
    rw [challenges_processQueue]
    exact map_congr_left fun k hk => by rw [hwaits k hk]
  have hkeys : (challenges (w.mod.processQueue draws).2).map Prod.fst = w.mod.removeStale.keys := by
    rw [hsent, List.map_map]
    exact map_id _
  refine ⟨h.sound.expire.issueAll _, fun k s hk => ?_, fun k s => ?_⟩
  · exact h.lower k [] ((processQueue_find _ _ _ _).1 hk).1
  · rw [Tickets.pending_issueAll _ (by rw [hkeys]; exact keys_nodup _), processQueue_find, hsent, List.mem_map]
    constructor
    · rintro (⟨k', hk', heq⟩ | ⟨-, i, hi⟩)
      · obtain ⟨rfl, rfl⟩ := Prod.mk.inj heq
        exact ⟨⟨mem_waiting.1 hk', rfl⟩, randomString_ne _⟩
      · cases hi
    · rintro ⟨⟨hk, rfl⟩, -⟩
      exact .inl ⟨k, mem_waiting.2 hk, rfl⟩

section Md5

variable (md5 : CString → CString)

/-- **Every event keeps the book**, if nicks keep their challenges. -/
theorem step_inv (h : Inv w) {ev : List Channel × Event} (hrenames : Renames w ev) : Inv (step md5 w ev) := by
  obtain ⟨chans, e⟩ := ev
  cases e with
  | join Nick c => exact h.queued (onJoin_queued w.mod Nick c)
  | opped sCurNick Nick c => exact h.queued (onOp2_queued w.mod sCurNick Nick c)
  | quit Nick => exact quit_inv h Nick
  | nick OldNick sNewNick => exact nick_inv h hrenames
  | notice Nick sMessage =>
    simp only [step]
    cases noticeOf sMessage with
    | challenge sChallenge => exact h
    | response sResponse => exact response_inv md5 h chans Nick sResponse
    | other => exact h
  | timer draws => exact timer_inv h draws
  | users m_msUsers => exact ⟨h.sound, h.lower, h.sync⟩

variable {md5} {chans : List Channel} {Nick : ZNC.CNick} {sResponse : CString}

theorem Inv.pending (h : Inv w) {k : CString} {t : ℕ × CString} (ht : w.book.pending k = some t) :
    w.mod.m_msQueue.find k = some t.2 ∧ t.2 ≠ [] := (h.sync k t.2).1 ⟨t.1, ht⟩

/-- **The law of one response.** -/
theorem answered_iff (h : Inv w) : Answered md5 w chans Nick sResponse ↔ Fair md5 w chans Nick sResponse := by
  constructor
  · intro hlaw
    constructor
    · intro s hqueue hs it hit hmatches hright u hu
      obtain ⟨i, hpending⟩ := (h.sync _ s).2 ⟨hqueue, hs⟩
      obtain ⟨s', u', hqueue', hu', hright'⟩ := accept_iff.1 (hlaw.accepts _ hpending it hit hmatches hright)
      rw [hqueue] at hqueue'
      rw [hu] at hu'
      rwa [some.inj hqueue', some.inj hu']
    · rintro hqueue u hu hright ⟨c, hc, hopped, hchannel, n, hn, hop⟩
      have hsent : .irc (.mode c.sName Nick.sNick) ∈ (w.mod.verifyResponse md5 chans Nick sResponse).2.2 := by
        rw [verify_accepts hqueue hu hright]
        exact mem_opUser.2 ⟨c, hc, rfl, hopped, hchannel, n, hn, hop⟩
      obtain ⟨-, t, ht, hne, -⟩ := hlaw.grants _ _ hsent
      have hpending := (h.pending ht).1
      rw [hqueue] at hpending
      exact hne (some.inj hpending).symm
  · intro hfair
    constructor
    · intro sChan sNick hsent
      obtain ⟨s, u, hqueue, hu, hright, hop⟩ := verify_sends hsent
      obtain ⟨c, hc, hline, hopped, hchannel, n, hn, hnop⟩ := mem_opUser.1 hop
      obtain ⟨rfl, rfl⟩ : sChan = c.sName ∧ sNick = Nick.sNick := by simpa using hline
      have hs : s ≠ [] := by
        rintro rfl
        exact hfair.waits hqueue u hu hright ⟨c, hc, hopped, hchannel, n, hn, hnop⟩
      obtain ⟨i, hpending⟩ := (h.sync _ s).2 ⟨hqueue, hs⟩
      obtain ⟨it, hit, rfl, hmatches⟩ := firstMatch_some hu
      exact ⟨rfl, _, hpending, hs, it, hit, hmatches, hright, hchannel, c, hc, rfl, by rw [hn]; rfl⟩
    · intro t ht it hit hmatches hright
      obtain ⟨hqueue, hne⟩ := h.pending ht
      obtain ⟨u, hu⟩ := firstMatch_isSome hit hmatches
      exact accept_iff.2 ⟨t.2, u, hqueue, hu, hfair.first _ hqueue hne it hit hmatches hright u hu⟩

theorem law_iff (h : Inv w) {ev : List Channel × Event} : Law md5 w ev ↔ Answers md5 w ev := by
  obtain ⟨chans, e⟩ := ev
  cases e with
  | notice Nick sMessage =>
    simp only [Law, Answers]
    cases noticeOf sMessage with
    | challenge sChallenge => exact Iff.rfl
    | response sResponse => exact answered_iff h
    | other => exact Iff.rfl
  | join Nick c => exact Iff.rfl
  | opped sCurNick Nick c => exact Iff.rfl
  | quit Nick => exact Iff.rfl
  | nick OldNick sNewNick => exact Iff.rfl
  | timer draws => exact Iff.rfl
  | users m_msUsers => exact Iff.rfl

/-! ## Runs -/

theorem inv_start (m_msUsers : OrdMap CString CAutoOpUser) : Inv (.start m_msUsers) where
  sound := Tickets.sound_empty
  lower := fun k s hk => by cases hk
  sync := fun k s => iff_of_false (fun ⟨i, hi⟩ => by cases hi) fun hk => by cases hk.1

variable (md5)

theorem responses_iff (m_msUsers : OrdMap CString CAutoOpUser) (evs : List (List Channel × Event))
    (hrenames : Runs.Steps (step md5) Renames evs (.start m_msUsers)) :
    (Runs.States (step md5) Once evs (.start m_msUsers) ∧ Runs.Steps (step md5) (Law md5) evs (.start m_msUsers)) ↔
      Runs.Steps (step md5) (Answers md5) evs (.start m_msUsers) :=
  Runs.keeps_iff (fun _ h => h.sound.once)
    (fun _ _ h hrenames hanswers => ⟨step_inv md5 h hrenames, (law_iff h).2 hanswers⟩)
    (fun _ _ h _ _ hlaw => (law_iff h).1 hlaw) evs (inv_start m_msUsers) hrenames

/-- **The law of the responses** holds of every run whose events meet the condition; and where nicks keep their challenges it
holds of no other. -/
theorem auto_op_law (m_msUsers : OrdMap CString CAutoOpUser) (evs : List (List Channel × Event)) :
    (Runs.Steps (step md5) (Meets md5) evs (.start m_msUsers) →
      Runs.States (step md5) Once evs (.start m_msUsers) ∧ Runs.Steps (step md5) (Law md5) evs (.start m_msUsers)) ∧
    (Runs.Steps (step md5) Renames evs (.start m_msUsers) →
      Runs.States (step md5) Once evs (.start m_msUsers) ∧ Runs.Steps (step md5) (Law md5) evs (.start m_msUsers) →
        Runs.Steps (step md5) (Meets md5) evs (.start m_msUsers)) := by
  have hboth : Runs.Steps (step md5) (Meets md5) evs (.start m_msUsers) ↔
      Runs.Steps (step md5) Renames evs (.start m_msUsers) ∧
        Runs.Steps (step md5) (Answers md5) evs (.start m_msUsers) :=
    Runs.steps_and
  constructor
  · intro hmeets
    exact (responses_iff md5 m_msUsers evs (hboth.1 hmeets).1).2 (hboth.1 hmeets).2
  · intro hrenames hlaw
    exact hboth.2 ⟨hrenames, (responses_iff md5 m_msUsers evs hrenames).1 hlaw⟩

end Md5

/-! ## Examples -/

/-- the MD5 of some texts -/
def sums (s : CString) : CString :=
  if s = lit "secret::" then lit "f1bddd6abb21faf9be443a9cbcb65046"
  else if s = lit "secret::aaaaaaaaaaaaaaaaaaaaaaaaaaaaaaaa" then lit "46deefb9343ef5ecde2aeecf0825759d"
  else []

def alice : ZNC.CNick := ⟨lit "alice", lit "a", lit "example.org"⟩

/-- `alice` with the key "secret" for the channel #c -/
def aliceUser : CAutoOpUser :=
  ⟨lit "alice", lit "secret", OrdSet.empty.insert (lit "alice!a@example.org"), OrdSet.empty.insert (lit "#c")⟩

/-- we are opped in #c, and alice is there -/
def channelC : Channel :=
  { CChan.new with
    nick := { ZNC.CNick.empty with sChanPerms := [op], bNetwork := true }
    msNicks := OrdMap.empty.insert (lit "alice") { alice with sChanPerms := [], bNetwork := true }
    sName := lit "#c" }

/-- alice joins, is sent a challenge, and answers -/
def answeredRun : List (List Channel × Event) :=
  [([channelC], .join alice channelC), ([channelC], .timer fun _ _ => ⟨0, by decide⟩),
    ([channelC], .notice alice (lit "!ZNCAO RESPONSE 46deefb9343ef5ecde2aeecf0825759d"))]

theorem auto_op_alice : Runs.States (step sums) Once answeredRun
    (.start (OrdMap.empty.insert (lit "alice") aliceUser)) ∧
    Runs.Steps (step sums) (Law sums) answeredRun (.start (OrdMap.empty.insert (lit "alice") aliceUser)) := by
  refine (auto_op_law sums (OrdMap.empty.insert (lit "alice") aliceUser) answeredRun).1 ?_
  refine ⟨⟨trivial, trivial⟩, ⟨trivial, trivial⟩, ⟨trivial, ?_⟩, trivial⟩
  constructor
  · intro s hqueue hs it hit hmatches hright u hu
    obtain rfl : it = (lit "alice", aliceUser) := mem_singleton.1 hit
    obtain rfl : aliceUser = u := some.inj hu
    exact hright
  · intro hqueue
    exact absurd hqueue (by decide)

/-- alice joins, and answers before the timer runs -/
def hastyRun : List (List Channel × Event) :=
  [([channelC], .join alice channelC),
    ([channelC], .notice alice (lit "!ZNCAO RESPONSE f1bddd6abb21faf9be443a9cbcb65046"))]

/-- **A nick that waits for its challenge gets ops** for the MD5 of the key alone. -/
theorem unchallenged : ¬Runs.Steps (step sums) (Law sums) hastyRun
    (.start (OrdMap.empty.insert (lit "alice") aliceUser)) := by
  intro hlaw
  have hanswered : Answered sums (step sums (.start (OrdMap.empty.insert (lit "alice") aliceUser))
      ([channelC], .join alice channelC)) [channelC] alice (lit "f1bddd6abb21faf9be443a9cbcb65046") := hlaw.2.1
  obtain ⟨-, t, ht, -⟩ := hanswered.grants (lit "#c") (lit "alice") (by decide)
  have hnone : (none : Option (ℕ × CString)) = some t := ht
  cases hnone

end ZNC.AutoOp
