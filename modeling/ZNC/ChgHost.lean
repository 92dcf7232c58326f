/-
A change of user and host: `CIRCSock::OnChgHostMessage` of `src/IRCSock.cpp`.

The nick tables of the channels are updated. A client with the capability chghost is given the line as it came; for the others the
change is played as a QUIT, and then a JOIN and a MODE for each channel that they see.

The messages that are handed to `PutClient` are the lines of a client. The clock of `CUtils` is a parameter, since a message keeps
the time at which it was built.

Results:
- `modesOf_iff`: the modes that are granted in the MODE are those of the permissions;
- `chanLoop_spec`: the loop over the channels, for any channels and clients;
- `onChgHost_visible`: what a change does when the nick is seen in some attached channel;
- `onChgHost_hidden`: otherwise it does nothing.
-/
import ZNC.Chan

namespace ZNC.ChgHost

open CString CMessage List

/-! ## Model -/

/-- a channel of the network, with its nicks -/
structure CChan where
  sName : CString
  isDetached : Bool
  isDisabled : Bool
  msNicks : OrdMap CString Chan.CNick
deriving DecidableEq

def CChan.findNick (c : CChan) (sNick : CString) : Option Chan.CNick := c.msNicks.find sNick

/-- a client, with the messages that were put to it -/
structure CClient where
  hasChgHost : Bool
  lines : List CMessage
deriving DecidableEq

def CClient.putClient (client : CClient) (Message : CMessage) : CClient :=
  { client with lines := client.lines ++ [Message] }

/-- the socket with its tables and ZNC's own nick, and the channels and clients of its network -/
structure Network where
  t : ServerTables
  nick : ZNC.CNick
  vChans : List CChan
  vClients : List CClient

/-- `IsNickVisibleInAttachedChannels(sNick)` -/
def isNickVisible (net : Network) (sNick : CString) : Bool :=
  net.vChans.any fun pChan => !pChan.isDetached && (pChan.findNick sNick).isSome

def newIdent (Message : CMessage) : CString := Message.getParam 0

def newHost (Message : CMessage) : CString := Message.getParam 1

def newNick (Message : CMessage) : ZNC.CNick :=
  { Message.nick with sIdent := newIdent Message, sHost := newHost Message }

/-- an entry of a nick table after `SetIdent` and `SetHost` -/
def moved (Message : CMessage) (n : Chan.CNick) : Chan.CNick :=
  { n with sIdent := newIdent Message, sHost := newHost Message }

/-- the table of a channel after the change -/
def CChan.move (Message : CMessage) (pChan : CChan) : CChan :=
  match pChan.findNick Message.nick.sNick with
  | some n => { pChan with msNicks := pChan.msNicks.insert Message.nick.sNick (moved Message n) }
  | none => pChan

/-- the modes of the permissions of a nick -/
def modesOf (t : ServerTables) (n : Chan.CNick) : CString := ((n.getPermStr t).map t.getModeFromPerm).filter (· ≠ 0)

section Messages

variable (utils : CUtils) (Message : CMessage)

def quitMsg : CMessage := ofParts utils Message.nick (lit "QUIT") [lit "Changing hostname"] Message.mssTags

def joinMsg (sName : CString) : CMessage := ofParts utils (newNick Message) (lit "JOIN") [sName] Message.mssTags

def modeParams (sName sModes : CString) : VCString :=
  sName :: (lit "+" ++ sModes) :: List.replicate sModes.length (newNick Message).sNick

def modeMsg (sName sModes : CString) : CMessage :=
  let ModeMsg := { blank utils with nick := ZNC.CNick.empty.parse (lit ":irc.znc.in"), mssTags := Message.mssTags }
  (ModeMsg.setCommand (lit "MODE")).setParams (modeParams Message sName sModes)

/-- what a client without chghost is put for a channel in which the nick has the entry `n` -/
def joinLines (t : ServerTables) (sName : CString) (n : Chan.CNick) : List CMessage :=
  joinMsg utils Message sName ::
    if (modeMsg utils Message sName (modesOf t n)).vsParams.length > 2 then [modeMsg utils Message sName (modesOf t n)] else []

/-- the loop over the clients in front -/
def quitClients (vClients : List CClient) : List CClient :=
  vClients.map fun client => client.putClient (if client.hasChgHost then Message else quitMsg utils Message)

/-- the loop over the clients for one channel -/
def joinClients (t : ServerTables) (sName : CString) (n : Chan.CNick) (vClients : List CClient) : List CClient :=
  vClients.map fun client =>
    if client.hasChgHost then client else (joinLines utils Message t sName n).foldl CClient.putClient client

def chanLoop (t : ServerTables) (bNeedEmulate : Bool) : List CChan → List CClient → List CChan × List CClient
  | [], vClients => ([], vClients)
  | pChan :: vChans, vClients =>
    let pChan := pChan.move Message
    let vClients :=
      if !bNeedEmulate then vClients
      else if pChan.isDisabled then vClients
      else if pChan.isDetached then vClients
      else
        match pChan.findNick (newNick Message).sNick with
        | some n => joinClients utils Message t pChan.sName n vClients
        | none => vClients
    let r := chanLoop t bNeedEmulate vChans vClients
    (pChan :: r.1, r.2)

/-- `OnChgHostMessage(Message)`; it returns `true` -/
def onChgHost (net : Network) : Network :=
  if !isNickVisible net Message.nick.sNick then net
  else
    let r := chanLoop utils Message net.t (net.vClients.any fun client => !client.hasChgHost) net.vChans
      (quitClients utils Message net.vClients)
    { net with vChans := r.1, vClients := r.2 }

end Messages

/-! ## Permissions and their modes -/

theorem modesOf_iff {t : ServerTables} {n : Chan.CNick} {cMode : UInt8} : cMode ∈ modesOf t n ↔
    cMode ≠ 0 ∧ ∃ cPerm ∈ n.knownPerms t, n.hasPerm cPerm = true ∧ t.getModeFromPerm cPerm = cMode := by
  rw [modesOf, mem_filter, decide_eq_true_eq, mem_map]
  constructor
  · rintro ⟨⟨cPerm, hmem, hmode⟩, h0⟩
    rw [Chan.CNick.getPermStr, mem_filter] at hmem
    exact ⟨h0, cPerm, hmem.1, hmem.2, hmode⟩
  · rintro ⟨h0, cPerm, hknown, hperm, hmode⟩
    exact ⟨⟨cPerm, mem_filter.2 ⟨hknown, hperm⟩, hmode⟩, h0⟩

/-! ## The loops -/

section Loops

variable (utils : CUtils) (Message : CMessage)

/-- the channels of which clients without chghost are told -/
def shown (Message : CMessage) (pChan : CChan) : Bool :=
  !pChan.isDisabled && !pChan.isDetached && (pChan.findNick Message.nick.sNick).isSome

/-- what they are told of a channel: the JOIN, and the MODE unless the nick has no modes -/
def chanLines (t : ServerTables) (pChan : CChan) : List CMessage :=
  match pChan.findNick Message.nick.sNick with
  | some n =>
    joinMsg utils Message pChan.sName ::
      if modesOf t n = [] then [] else [modeMsg utils Message pChan.sName (modesOf t n)]
  | none => []

/-- what they are told of all channels -/
def allLines (t : ServerTables) (vChans : List CChan) : List CMessage :=
  (vChans.filter (shown Message)).flatMap (chanLines utils Message t)

theorem foldl_putClient (ls : List CMessage) (client : CClient) :
    ls.foldl CClient.putClient client = { client with lines := client.lines ++ ls } := by
  induction ls generalizing client with
  | nil => rw [append_nil]; rfl
  | cons l ls ih => simp [ih, CClient.putClient]

theorem findNick_move (pChan : CChan) (sNick : CString) : (pChan.move Message).findNick sNick =
    if sNick = Message.nick.sNick then (pChan.findNick sNick).map (moved Message) else pChan.findNick sNick := by
  unfold CChan.move
  split
  · case h_1 n hn =>
    have hinsert := pChan.msNicks.find_insert Message.nick.sNick sNick (moved Message n)
    rw [CChan.findNick, hinsert]
    by_cases hk : sNick = Message.nick.sNick
    · rw [if_pos hk, if_pos hk, hk, hn]
      rfl
    · rw [if_neg hk, if_neg hk]
      rfl
  · case h_2 hn =>
    by_cases hk : sNick = Message.nick.sNick
    · rw [if_pos hk, hk, hn]
      rfl
    · rw [if_neg hk]

theorem move_fields (pChan : CChan) : (pChan.move Message).sName = pChan.sName ∧
    (pChan.move Message).isDetached = pChan.isDetached ∧ (pChan.move Message).isDisabled = pChan.isDisabled := by
  unfold CChan.move
  split <;> exact ⟨rfl, rfl, rfl⟩

variable (t : ServerTables) (sName : CString)

theorem joinLines_moved (n : Chan.CNick) :
    joinLines utils Message t sName (moved Message n) = joinLines utils Message t sName n := rfl

theorem vsParams_modeMsg (sModes : CString) :
    (modeMsg utils Message sName sModes).vsParams = modeParams Message sName sModes := by
  rw [modeMsg, setParams]
  split <;> rfl

theorem joinLines_eq (n : Chan.CNick) : joinLines utils Message t sName n =
    joinMsg utils Message sName :: if modesOf t n = [] then [] else [modeMsg utils Message sName (modesOf t n)] := by
  have hlen : (modeMsg utils Message sName (modesOf t n)).vsParams.length = (modesOf t n).length + 2 := by
    rw [vsParams_modeMsg, modeParams, length_cons, length_cons, length_replicate]
  rw [joinLines, hlen]
  cases modesOf t n with
  | nil => rfl
  | cons cMode sModes => rw [if_pos (by simp), if_neg (cons_ne_nil _ _)]

/-- the clients without chghost are told something more -/
def tell (ls : List CMessage) (client : CClient) : CClient :=
  if client.hasChgHost then client else { client with lines := client.lines ++ ls }

theorem tell_nil : tell [] = id := by
  funext client
  rw [tell, append_nil]
  exact ite_self client

theorem tell_comp (ls ls' : List CMessage) : tell ls' ∘ tell ls = tell (ls ++ ls') := by
  funext client
  rw [Function.comp_apply, tell, tell, tell]
  cases h : client.hasChgHost with
  | true => rw [if_pos rfl, if_pos rfl, h, if_pos rfl]
  | false =>
    rw [if_neg Bool.false_ne_true, if_neg Bool.false_ne_true, if_neg (by simp), append_assoc]

theorem joinClients_eq (n : Chan.CNick) (vClients : List CClient) :
    joinClients utils Message t sName n vClients = vClients.map (tell (joinLines utils Message t sName n)) := by
  unfold joinClients
  congr 1
  funext client
  rw [foldl_putClient, tell]

theorem chanLoop_spec (bNeedEmulate : Bool) (vChans : List CChan) (vClients : List CClient) :
    chanLoop utils Message t bNeedEmulate vChans vClients =
      (vChans.map (CChan.move Message),
        if bNeedEmulate then vClients.map (tell (allLines utils Message t vChans)) else vClients) := by
  induction vChans generalizing vClients with
  | nil =>
    have hnone : allLines utils Message t [] = [] := rfl
    rw [chanLoop, hnone, tell_nil, map_id, ite_self]
    rfl
  | cons pChan vChans ih =>
    obtain ⟨hname, hdetached, hdisabled⟩ := move_fields Message pChan
    rw [chanLoop]
    simp only [ih, hdisabled, hdetached, hname, findNick_move, newNick, if_true]
    cases bNeedEmulate with
    | false => rfl
    | true =>
      have hshow : shown Message pChan =
          (!pChan.isDisabled && !pChan.isDetached && (pChan.findNick Message.nick.sNick).isSome) := rfl
      have hrest (hskip : shown Message pChan = false) :
          allLines utils Message t (pChan :: vChans) = allLines utils Message t vChans := by
        rw [allLines, filter_cons_of_neg (by simp [hskip])]
        rfl
      simp only [Bool.not_true, Bool.false_eq_true, if_false, if_true, map_cons, Prod.mk.injEq, true_and]
      by_cases hd : pChan.isDisabled = true
      · rw [if_pos hd, hrest (by simp [hshow, hd])]
      · rw [if_neg hd]
        by_cases ha : pChan.isDetached = true
        · rw [if_pos ha, hrest (by simp [hshow, ha])]
        · rw [if_neg ha]
          cases hn : pChan.findNick Message.nick.sNick with
          | none => simp only [Option.map_none]; rw [hrest (by simp [hshow, hn])]
          | some n =>
            have hall : allLines utils Message t (pChan :: vChans) =
                joinLines utils Message t pChan.sName n ++ allLines utils Message t vChans := by
              rw [allLines, filter_cons_of_pos (by simp [hshow, hd, ha, hn]), flatMap_cons,
                chanLines, hn, joinLines_eq]
              rfl
            simp only [Option.map_some]
            rw [joinClients_eq, joinLines_moved, map_map, tell_comp, hall]

end Loops

/-! ## The change -/

/-- a nick that is in no attached channel is passed over, its entries too -/
theorem onChgHost_hidden (utils : CUtils) (Message : CMessage) (net : Network)
    (h : isNickVisible net Message.nick.sNick = false) : onChgHost utils Message net = net := by
  rw [onChgHost, if_pos (by simp [h])]

/-- a channel after the change: the entry of the nick has the new user and host, the rest is as before -/
structure Moved (Message : CMessage) (pChan pChan' : CChan) : Prop where
  sName : pChan'.sName = pChan.sName
  isDetached : pChan'.isDetached = pChan.isDetached
  isDisabled : pChan'.isDisabled = pChan.isDisabled
  findNick : ∀ sNick, pChan'.findNick sNick =
    if sNick = Message.nick.sNick then (pChan.findNick sNick).map (moved Message) else pChan.findNick sNick

/-- a client after the change: the line as it came, or the QUIT and what is told of the channels -/
structure Told (utils : CUtils) (Message : CMessage) (net : Network) (client client' : CClient) : Prop where
  hasChgHost : client'.hasChgHost = client.hasChgHost
  lines : client'.lines = client.lines ++
    if client.hasChgHost then [Message] else quitMsg utils Message :: allLines utils Message net.t net.vChans

theorem forall₂_map {α : Type} {R : α → α → Prop} {f : α → α} (h : ∀ a, R a (f a)) (l : List α) :
    List.Forall₂ R l (l.map f) := by
  rw [forall₂_map_right_iff, forall₂_same]
  exact fun a _ => h a

/-- **A change of user and host that is seen.** Every table has the new user and host; each client with chghost gets the line, each
other one a QUIT, and for the channels that are attached, not disabled and hold the nick a JOIN and the MODE of its permissions. -/
theorem onChgHost_visible (utils : CUtils) (Message : CMessage) (net : Network)
    (h : isNickVisible net Message.nick.sNick = true) :
    (List.Forall₂ (Moved Message) net.vChans (onChgHost utils Message net).vChans ∧
        List.Forall₂ (Told utils Message net) net.vClients (onChgHost utils Message net).vClients) ∧
      ∀ n cMode, cMode ∈ modesOf net.t n ↔
        cMode ≠ 0 ∧ ∃ cPerm ∈ n.knownPerms net.t, n.hasPerm cPerm = true ∧ net.t.getModeFromPerm cPerm = cMode := by
  refine ⟨?_, fun n cMode => modesOf_iff⟩
  rw [onChgHost, if_neg (by simp [h]), chanLoop_spec]
  refine ⟨forall₂_map (fun pChan => ?_) _, ?_⟩
  · obtain ⟨hname, hdetached, hdisabled⟩ := move_fields Message pChan
    exact ⟨hname, hdetached, hdisabled, findNick_move Message pChan⟩
  · have htold : (if net.vClients.any (fun client => !client.hasChgHost) then
          (quitClients utils Message net.vClients).map (tell (allLines utils Message net.t net.vChans))
        else quitClients utils Message net.vClients) = net.vClients.map (fun client =>
          tell (allLines utils Message net.t net.vChans)
            (client.putClient (if client.hasChgHost then Message else quitMsg utils Message))) := by
      rw [quitClients, map_map]
      split
      · rfl
      · case isFalse hall =>
        refine map_congr_left fun client hclient => ?_
        have hhas : client.hasChgHost = true := by
          by_contra hno
          exact hall (any_eq_true.2 ⟨client, hclient, by simpa using hno⟩)
        simp only [hhas, if_true, tell, CClient.putClient]
    simp only [htold]
    refine forall₂_map (fun client => ?_) _
    cases hhas : client.hasChgHost with
    | true =>
      simp only [if_true, tell, CClient.putClient, hhas]
      exact ⟨hhas.symm, by rw [hhas, if_pos rfl]⟩
    | false =>
      simp only [Bool.false_eq_true, if_false, tell, CClient.putClient, hhas]
      exact ⟨hhas.symm, by rw [hhas, if_neg Bool.false_ne_true, append_assoc]; rfl⟩

/-- tables with the permission `@` of the mode `o` -/
def sampleTables : ServerTables := { ServerTables.initial (lit "#") with sPerms := lit "@", sPermModes := lit "o" }

/-- a channel in which the nick `n` is an operator -/
def sampleChan (sName : CString) (isDetached isDisabled : Bool) : CChan :=
  ⟨sName, isDetached, isDisabled, OrdMap.empty.insert (lit "n") ⟨⟨lit "n", lit "i", lit "h"⟩, lit "@", true⟩⟩

/-- a network with a client with chghost and one without -/
def sampleNet (sOwnNick : CString) (vChans : List CChan) : Network :=
  ⟨sampleTables, ⟨sOwnNick, lit "i", lit "h"⟩, vChans, [⟨true, []⟩, ⟨false, []⟩]⟩

/-- `:n!i@h CHGHOST j k` -/
def sampleLine : CMessage := ofParts stoppedClock ⟨lit "n", lit "i", lit "h"⟩ (lit "CHGHOST") [lit "j", lit "k"] .empty

/-- an operator is seen in a channel: the client without chghost gets QUIT, JOIN and MODE -/
theorem onChgHost_visible_op :
    (List.Forall₂ (Moved sampleLine) [sampleChan (lit "#c") false false]
          (onChgHost stoppedClock sampleLine (sampleNet (lit "me") [sampleChan (lit "#c") false false])).vChans ∧
        List.Forall₂ (Told stoppedClock sampleLine (sampleNet (lit "me") [sampleChan (lit "#c") false false]))
          [⟨true, []⟩, ⟨false, []⟩]
          (onChgHost stoppedClock sampleLine (sampleNet (lit "me") [sampleChan (lit "#c") false false])).vClients) ∧
      allLines stoppedClock sampleLine sampleTables [sampleChan (lit "#c") false false] =
        [joinMsg stoppedClock sampleLine (lit "#c"), modeMsg stoppedClock sampleLine (lit "#c") (lit "o")] := by
  have hrun := onChgHost_visible stoppedClock sampleLine
    (sampleNet (lit "me") [sampleChan (lit "#c") false false]) (by decide)
  exact ⟨hrun.1, by decide⟩

/-- The table of a detached channel stays, when the nick is in no attached one; ZNC's own mask stays; and nobody is told of an
attached channel that is disabled. -/
theorem onChgHost_exceptions :
    ((onChgHost stoppedClock sampleLine (sampleNet (lit "me") [sampleChan (lit "#d") true false])).vChans =
        [sampleChan (lit "#d") true false] ∧
      ((sampleChan (lit "#d") true false).findNick (lit "n")).map (fun n => n.sHost) = some (lit "h") ∧
      newHost sampleLine = lit "k") ∧
    (onChgHost stoppedClock sampleLine (sampleNet (lit "n") [sampleChan (lit "#c") false false])).nick =
      ⟨lit "n", lit "i", lit "h"⟩ ∧
    (onChgHost stoppedClock sampleLine
        (sampleNet (lit "me") [sampleChan (lit "#c") false false, sampleChan (lit "#x") false true])).vClients =
      [⟨true, [sampleLine]⟩, ⟨false, [quitMsg stoppedClock sampleLine, joinMsg stoppedClock sampleLine (lit "#c"),
        modeMsg stoppedClock sampleLine (lit "#c") (lit "o")]⟩] := by
  refine ⟨⟨?_, by decide, by decide⟩, by decide, by decide⟩
  rw [onChgHost_hidden stoppedClock sampleLine _ (by decide)]
  rfl

end ZNC.ChgHost
