/-
Detaching flooded channels: `modules/flooddetach.cpp`.

The messages of each attached channel are counted in a map of timeouts. With the threshold-th one the channel is detached, and
each message that follows starts the timeout anew. At every message `Cleanup` goes through the map, takes the timeouts out that
are over, and attaches the channels again that were detached.

The module belongs to a user, and there is one map for the channels of all the networks of the user, by their names. `Cleanup`
looks for the channels in the network that the message is from.

Model: every message has one reading of `time`, a 64-bit number that does not overflow. The networks are those of `JoinedChans`;
a `CChan &` is the place of its network and its place in `m_vChans`. The buffer that `ClearBuffer` empties is left out, as are the
commands. Beside the module there is a journal of the messages of each channel, a note which channels were detached for flooding,
and one which channel a timeout began for; the code reads none of them.

Results:
- `apart_iff`: an erasing loop that steps over the next entry misses none exactly if no two neighbours are to go;
- `flood_detach_iff`: the law of the floods holds of a run exactly if each message meets `Meets`;
- `stale_timeout`: a timeout that stays behind detaches a channel that is not flooded.
-/
import ZNC.ChanList
import ZNC.Lib.OrdMap
import ZNC.Lib.Runs
import ZNC.Lib.Windows

namespace ZNC.FloodDetach

open CString Windows List JoinedChans.CIRCNetwork Option

/-! ## Model -/

structure CFloodDetachMod where
  /-- for each channel, when its timeout began and the messages counted -/
  m_chans : OrdMap CString (ℤ × UInt32)
  m_iThresholdSecs : UInt32
  m_iThresholdMsgs : UInt32
  /-- `GetNV("silent").ToBool()` -/
  bSilent : Bool
  /-- the networks of the user -/
  nets : List JoinedChans.CIRCNetwork
  /-- what `PutModule` said, the newest first -/
  said : List CString

namespace CFloodDetachMod

/-- `(time_t)m_iThresholdSecs` -/
def secs (m : CFloodDetachMod) : ℤ := m.m_iThresholdSecs.toNat

/-- `PutModule`, if it is not "silent" -/
def tell (m : CFloodDetachMod) (sLine : CString) : CFloodDetachMod :=
  if m.bSilent then m else { m with said := sLine :: m.said }

def setLimit (m : CFloodDetachMod) (sName : CString) (it : ℤ × UInt32) : CFloodDetachMod :=
  { m with m_chans := m.m_chans.insert sName it }

def chan (m : CFloodDetachMod) (pChan : ℕ × ℕ) : Option JoinedChans.CChan :=
  m.nets[pChan.1]?.bind fun net => net.vChans[pChan.2]?

/-- `GetNetwork()->FindChan(sName)` -/
def findChan (m : CFloodDetachMod) (pNetwork : ℕ) (sName : CString) : Option ((ℕ × ℕ) × JoinedChans.CChan) :=
  m.nets[pNetwork]?.bind fun net => (net.findChan sName).map fun r => ((pNetwork, r.1), r.2)

def attachUser (m : CFloodDetachMod) (pChan : ℕ × ℕ) : CFloodDetachMod :=
  { m with nets := m.nets.modify pChan.1 fun net => net.attachUser pChan.2 none }

def detachUser (m : CFloodDetachMod) (pChan : ℕ × ℕ) : CFloodDetachMod :=
  { m with nets := m.nets.modify pChan.1 fun net => net.detachUser pChan.2 }

/-- "The channel is detached and it is over the messages limit" -/
def reattach (m : CFloodDetachMod) (pNetwork : ℕ) (e : CString × ℤ × UInt32) : CFloodDetachMod :=
  match m.findChan pNetwork e.1 with
  | none => m
  | some (pChan, chan) =>
    if e.2.2 ≥ m.m_iThresholdMsgs && chan.bDetached then
      (m.tell (lit "Flood in " ++ chan.sName ++ lit " is over, reattaching...")).attachUser pChan
    else m

/-- the body of the loop for an entry that is to go -/
def dropEntry (pNetwork : ℕ) (m : CFloodDetachMod) (e : CString × ℤ × UInt32) : CFloodDetachMod :=
  { m.reattach pNetwork e with m_chans := m.m_chans.erase e.1 }

/-- the loop of `Cleanup` over the entries from `it` on -/
def cleanupLoop (pNetwork : ℕ) (now : ℤ) : List (CString × ℤ × UInt32) → CFloodDetachMod → CFloodDetachMod
  | [], m => m
  | e :: it, m =>
    -- "The timeout for this channel did not expire yet?"
    if e.2.1 + m.secs ≥ now then cleanupLoop pNetwork now it m
    else
      -- `it2 = it++`, and then the `++it` of the loop
      match it with
      | [] => m.dropEntry pNetwork e
      | _ :: it => cleanupLoop pNetwork now it (m.dropEntry pNetwork e)

def cleanup (m : CFloodDetachMod) (pNetwork : ℕ) (now : ℤ) : CFloodDetachMod :=
  cleanupLoop pNetwork now m.m_chans.entries m

/-- `Message`, behind its `Cleanup` -/
def count (m : CFloodDetachMod) (now : ℤ) (pChan : ℕ × ℕ) : CFloodDetachMod :=
  match m.chan pChan with
  | none => m
  | some Channel =>
    match m.m_chans.find Channel.sName with
    -- "We don't track detached channels"
    | none => if Channel.bDetached then m else m.setLimit Channel.sName (now, 1)
    | some it =>
      -- "it is still being flooded, reset the timeout"
      if it.2 ≥ m.m_iThresholdMsgs then m.setLimit Channel.sName (now, it.2 + 1)
      else if it.2 + 1 < m.m_iThresholdMsgs then m.setLimit Channel.sName (it.1, it.2 + 1)
      else
        ((m.setLimit Channel.sName (now, it.2 + 1)).detachUser pChan).tell
          (lit "Channel " ++ Channel.sName ++ lit " was flooded, you've been detached")

def message (m : CFloodDetachMod) (now : ℤ) (pChan : ℕ × ℕ) : CFloodDetachMod := (m.cleanup pChan.1 now).count now pChan

def name (m : CFloodDetachMod) (pChan : ℕ × ℕ) : Option CString := (m.chan pChan).map JoinedChans.CChan.sName

def isDetached (m : CFloodDetachMod) (pChan : ℕ × ℕ) : Bool := (m.chan pChan).any JoinedChans.CChan.bDetached

end CFloodDetachMod

/-! ## Runs -/

/-- the module, the time, the messages of each channel, newest first, which channels were detached for flooding and not attached
since, and for which channel the timeout under a name began -/
structure World where
  mod : CFloodDetachMod
  time : ℤ
  journal : ℕ × ℕ → List ℤ
  flooded : ℕ × ℕ → Bool
  owner : CString → ℕ × ℕ

def World.cleaned (w : World) (ev : ℤ × ℕ × ℕ) : World :=
  ⟨w.mod.cleanup ev.2.1 ev.1, ev.1, w.journal,
    fun pChan => w.flooded pChan && (w.mod.cleanup ev.2.1 ev.1).isDetached pChan, w.owner⟩

/-- behind the rest of `Message` -/
def World.counted (w : World) (now : ℤ) (pChan : ℕ × ℕ) : World :=
  ⟨w.mod.count now pChan, now, Function.update w.journal pChan (now :: w.journal pChan),
    fun p => (w.flooded p || !w.mod.isDetached p) && (w.mod.count now pChan).isDetached p,
    fun sName => if w.mod.name pChan = some sName ∧ w.mod.m_chans.find sName = none then pChan else w.owner sName⟩

/-- a message comes for a channel -/
def step (w : World) (ev : ℤ × ℕ × ℕ) : World := (w.cleaned ev).counted ev.1 ev.2

/-- no message came yet -/
def World.start (m : CFloodDetachMod) (time : ℤ) : World := ⟨m, time, fun _ => [], fun _ => false, fun _ => (0, 0)⟩

/-- behind `Cleanup`, the timeout under the name of the channel is the one of the channel -/
def Owned (w : World) (ev : ℤ × ℕ × ℕ) : Prop :=
  ∀ sName ∈ w.mod.name ev.2, (w.cleaned ev).mod.m_chans.find sName ≠ none → w.owner sName = ev.2

/-- the channel is there, time does not run backwards, the count does not wrap, and it is the count of the channel -/
def Legal (w : World) (ev : ℤ × ℕ × ℕ) : Prop :=
  (w.mod.chan ev.2).isSome = true ∧ w.time ≤ ev.1 ∧ (w.journal ev.2).length + 1 < 2 ^ 32 ∧ Owned w ev

/-! ## What the module is for -/

/-- the law of the floods, of one message -/
structure Law (w : World) (ev : ℤ × ℕ × ℕ) : Prop where
  /-- an attached channel is detached only when its last messages, as many as the threshold says, are within one window -/
  floods : ∀ pChan, (w.cleaned ev).mod.isDetached pChan = false → (step w ev).mod.isDetached pChan = true →
    w.mod.m_iThresholdMsgs.toNat ≤ ((step w ev).journal pChan).length ∧
      Within w.mod.secs (((step w ev).journal pChan).take w.mod.m_iThresholdMsgs.toNat)
  /-- with the threshold-th message of a window the channel is detached -/
  detaches : (window w.mod.secs ((step w ev).journal ev.2)).length = w.mod.m_iThresholdMsgs.toNat →
    (step w ev).mod.isDetached ev.2 = true
  /-- `Cleanup` leaves no timeout that is over -/
  cleans : ∀ sName it, (w.cleaned ev).mod.m_chans.find sName = some it → ev.1 ≤ it.1 + w.mod.secs
  /-- `Cleanup` attaches the flooded channels again whose timeout is over -/
  attaches : ∀ pChan sName it, w.mod.name pChan = some sName → w.flooded pChan = true →
    w.mod.m_chans.find sName = some it → it.1 + w.mod.secs < ev.1 → (w.cleaned ev).mod.isDetached pChan = false

/-- the timeout is over -/
def CFloodDetachMod.expired (m : CFloodDetachMod) (now : ℤ) (e : CString × ℤ × UInt32) : Bool := e.2.1 + m.secs < now

/-- no two neighbours in the map are over -/
def CFloodDetachMod.Apart (m : CFloodDetachMod) (now : ℤ) : Prop :=
  m.m_chans.entries.IsChain fun e e' => ¬(m.expired now e = true ∧ m.expired now e' = true)

def World.timeout (w : World) (pChan : ℕ × ℕ) : Option (ℤ × UInt32) :=
  (w.mod.name pChan).bind fun sName => if w.owner sName = pChan then w.mod.m_chans.find sName else none

/-- the channel has a timeout that is over, with as many messages as the threshold says -/
def World.Due (w : World) (now : ℤ) (pChan : ℕ × ℕ) : Prop :=
  ∃ it ∈ w.timeout pChan, it.1 + w.mod.secs < now ∧ w.mod.m_iThresholdMsgs ≤ it.2

/-- where `FindChan` finds the name of the channel in this network -/
def CFloodDetachMod.foundAt (m : CFloodDetachMod) (pNetwork : ℕ) (pChan : ℕ × ℕ) : Option (ℕ × ℕ) :=
  (m.name pChan).bind fun sName => (m.findChan pNetwork sName).map Prod.fst

/-- `FindChan` finds each channel that is due in the network of the message, by the name of one that is due -/
def World.Found (w : World) (ev : ℤ × ℕ × ℕ) : Prop :=
  ∀ pChan, w.Due ev.1 pChan → ∃ p, w.Due ev.1 p ∧ w.mod.foundAt ev.2.1 p = some pChan

/-- what the law takes: no two neighbours in the map are over at one time, `FindChan` finds what is due, and the threshold is not
1, unless the channel is detached -/
structure Meets (w : World) (ev : ℤ × ℕ × ℕ) : Prop where
  apart : w.mod.Apart ev.1
  found : w.Found ev
  threshold : w.mod.m_iThresholdMsgs = 1 → w.mod.isDetached ev.2 = true

/-! ## An erasing loop -/

section Loop

variable {α : Type} (p : α → Bool)

/-- what is handled by a loop that steps over the entry behind each one it erases -/
def handled : List α → List α
  | [] => []
  | [e] => if p e then [e] else []
  | e :: e' :: it => if p e then e :: handled it else handled (e' :: it)

variable {p}

theorem handled_neg {e : α} (h : ¬p e = true) (l : List α) : handled p (e :: l) = handled p l := by
  cases l with
  | nil => exact if_neg h
  | cons e' l => exact if_neg h

theorem handled_sublist (l : List α) : (handled p l).Sublist (l.filter p) := by
  induction l using List.twoStepInduction with
  | nil => exact List.Sublist.refl _
  | singleton e =>
    by_cases he : p e = true
    · simp [handled, he]
    · simp [handled, he]
  | cons_cons e e' l ih ih' =>
    by_cases he : p e = true
    · rw [handled, if_pos he, filter_cons_of_pos he]
      refine List.Sublist.cons_cons e (ih.trans ?_)
      exact (sublist_cons_self e' l).filter p
    · rw [handled, if_neg he, filter_cons_of_neg he]
      exact ih' e'

theorem apart_iff {l : List α} (hl : l.Nodup) :
    (∀ e ∈ l, p e = true → e ∈ handled p l) ↔ l.IsChain fun e e' => ¬(p e = true ∧ p e' = true) := by
  induction l using List.twoStepInduction with
  | nil => exact iff_of_true (fun e he => nomatch he) List.IsChain.nil
  | singleton e =>
    refine iff_of_true (fun e' he' hp => ?_) (List.IsChain.singleton e)
    obtain rfl := mem_singleton.1 he'
    rw [handled, if_pos hp]
    exact mem_cons_self
  | cons_cons e e' l ih ih' =>
    have hrest := (nodup_cons.1 hl).2
    have hhead := (nodup_cons.1 hl).1
    rw [isChain_cons_cons]
    by_cases he : p e = true
    · have hhandled : handled p (e :: e' :: l) = e :: handled p l := by rw [handled, if_pos he]
      -- the neighbour is stepped over
      have hpassed : e' ∉ handled p (e :: e' :: l) := by
        rw [hhandled, mem_cons]
        rintro (rfl | hmem)
        · exact hhead mem_cons_self
        · exact (nodup_cons.1 hrest).1 (mem_of_mem_filter ((handled_sublist l).subset hmem))
      by_cases he' : p e' = true
      · refine iff_of_false (fun h => hpassed (h e' (by simp) he')) fun h => h.1 ⟨he, he'⟩
      · have hskip : handled p (e' :: l) = handled p l := handled_neg he' l
        rw [← ih' e' hrest, hskip, hhandled]
        constructor
        · intro h
          refine ⟨fun hboth => he' hboth.2, fun d hd hp => ?_⟩
          rcases mem_cons.1 (h d (mem_cons_of_mem e hd) hp) with rfl | hmem
          · exact absurd hd hhead
          · exact hmem
        · rintro ⟨-, h⟩ d hd hp
          rcases mem_cons.1 hd with rfl | hd
          · exact mem_cons_self
          · exact mem_cons_of_mem e (h d hd hp)
    · have hhandled : handled p (e :: e' :: l) = handled p (e' :: l) := handled_neg he _
      rw [← ih' e' hrest, hhandled]
      constructor
      · exact fun h => ⟨fun hboth => he hboth.1, fun d hd hp => h d (mem_cons_of_mem e hd) hp⟩
      · rintro ⟨-, h⟩ d hd hp
        rcases mem_cons.1 hd with rfl | hd
        · exact absurd hp he
        · exact h d hd hp

end Loop

/-! ## The channels -/

theorem attachUser_vChans (net : JoinedChans.CIRCNetwork) (pChan : ℕ) (pClient : Option ℕ) :
    (net.attachUser pChan pClient).vChans = net.vChans.modify pChan fun chan => { chan with bDetached := false } := by
  unfold attachUser
  cases hchan : net.vChans[pChan]? with
  | none => rw [modify_eq_self (getElem?_eq_none_iff.1 hchan)]
  | some chan => rfl

theorem detachUser_vChans (net : JoinedChans.CIRCNetwork) (pChan : ℕ) :
    (net.detachUser pChan).vChans = net.vChans.modify pChan fun chan => { chan with bDetached := true } := by
  unfold detachUser
  cases hchan : net.vChans[pChan]? with
  | none => rw [modify_eq_self (getElem?_eq_none_iff.1 hchan)]
  | some chan =>
    dsimp only
    split_ifs with hdetached
    · apply ext_getElem?
      intro p
      rw [getElem?_modify]
      split_ifs with hp
      · subst hp
        rw [hchan, Option.map_eq_map, map_some, ← hdetached]
      · exact (id_map net.vChans[p]?).symm
    · rfl

theorem attachUser_sStatusMsg (net : JoinedChans.CIRCNetwork) (pChan : ℕ) (pClient : Option ℕ) :
    (net.attachUser pChan pClient).sStatusMsg = net.sStatusMsg := by
  unfold attachUser
  cases net.vChans[pChan]? with
  | none => rfl
  | some chan => rfl

theorem detachUser_sStatusMsg (net : JoinedChans.CIRCNetwork) (pChan : ℕ) :
    (net.detachUser pChan).sStatusMsg = net.sStatusMsg := by
  unfold detachUser
  cases net.vChans[pChan]? with
  | none => rfl
  | some chan => exact apply_ite sStatusMsg .. |>.trans (ite_self _)

/-- the names of the channels, and where `FindChan` finds them, are as they were, and so are the limits -/
structure Kept (m m' : CFloodDetachMod) : Prop where
  name : ∀ pChan, m'.name pChan = m.name pChan
  found : ∀ pNetwork sName, (m'.findChan pNetwork sName).map Prod.fst = (m.findChan pNetwork sName).map Prod.fst
  secs : m'.m_iThresholdSecs = m.m_iThresholdSecs
  msgs : m'.m_iThresholdMsgs = m.m_iThresholdMsgs

theorem Kept.refl (m : CFloodDetachMod) : Kept m m := ⟨fun _ => rfl, fun _ _ => rfl, rfl, rfl⟩

theorem Kept.trans {m m' m'' : CFloodDetachMod} (h : Kept m m') (h' : Kept m' m'') : Kept m m'' :=
  ⟨fun pChan => (h'.name pChan).trans (h.name pChan), fun pNetwork sName => (h'.found pNetwork sName).trans (h.found _ _),
    h'.secs.trans h.secs, h'.msgs.trans h.msgs⟩

theorem findChan_place (net : JoinedChans.CIRCNetwork) (sName : CString) : (net.findChan sName).map Prod.fst =
    (net.vChans.map JoinedChans.CChan.sName).findIdx? fun sChan => (sName.trimLeft net.sStatusMsg).equals sChan := by
  rw [findChan, findIdx?_map]
  cases hplace : net.vChans.findIdx? fun chan => (sName.trimLeft net.sStatusMsg).equals chan.sName with
  | none => exact hplace.symm
  | some pChan =>
    obtain ⟨hlt, -, -⟩ := findIdx?_eq_some_iff_getElem.1 hplace
    rw [bind_some, getElem?_eq_getElem hlt]
    exact hplace.symm

theorem findChan_fst (m : CFloodDetachMod) (pNetwork : ℕ) (sName : CString) : (m.findChan pNetwork sName).map Prod.fst =
    m.nets[pNetwork]?.bind fun net => ((net.findChan sName).map Prod.fst).map (Prod.mk pNetwork) := by
  rw [CFloodDetachMod.findChan, Option.map_bind]
  refine congrArg _ (funext fun net => ?_)
  rw [Function.comp_apply, Option.map_map, Option.map_map]
  rfl

theorem findChan_chan {m : CFloodDetachMod} {pNetwork : ℕ} {sName : CString} {pChan : ℕ × ℕ} {chan : JoinedChans.CChan}
    (h : m.findChan pNetwork sName = some (pChan, chan)) : m.chan pChan = some chan := by
  obtain ⟨net, hnet, hfind⟩ := bind_eq_some_iff.1 h
  obtain ⟨⟨p, chan'⟩, hplace, heq⟩ := map_eq_some_iff.1 hfind
  obtain ⟨rfl, rfl⟩ := Prod.mk.inj heq
  rw [CFloodDetachMod.chan, hnet, bind_some]
  exact (findChan_some hplace).1

theorem names_modify (vChans : List JoinedChans.CChan) (pChan : ℕ) (bDetached : Bool) :
    (vChans.modify pChan fun chan => { chan with bDetached := bDetached }).map JoinedChans.CChan.sName =
      vChans.map JoinedChans.CChan.sName := by
  apply ext_getElem?
  intro p
  rw [getElem?_map, getElem?_map, getElem?_modify]
  cases vChans[p]? with
  | none => rfl
  | some chan => split_ifs <;> rfl

/-- a channel is attached or detached -/
theorem modify_spec (m : CFloodDetachMod) {pChan : ℕ × ℕ} {chan : JoinedChans.CChan} (hchan : m.chan pChan = some chan)
    {f : JoinedChans.CIRCNetwork → JoinedChans.CIRCNetwork} {b : Bool}
    (hvChans : ∀ net, (f net).vChans = net.vChans.modify pChan.2 fun chan => { chan with bDetached := b })
    (hstatus : ∀ net, (f net).sStatusMsg = net.sStatusMsg) : Kept m { m with nets := m.nets.modify pChan.1 f } ∧
      ∀ p, CFloodDetachMod.isDetached { m with nets := m.nets.modify pChan.1 f } p =
        if p = pChan then b else m.isDetached p := by
  have hat : ∀ p, CFloodDetachMod.chan { m with nets := m.nets.modify pChan.1 f } p =
      if p = pChan then some { chan with bDetached := b } else m.chan p := by
    intro p
    obtain ⟨net, hnet, hplace⟩ := bind_eq_some_iff.1 hchan
    by_cases hp : pChan.1 = p.1
    · have hold : m.chan p = net.vChans[p.2]? := by rw [CFloodDetachMod.chan, ← hp, hnet, bind_some]
      rw [CFloodDetachMod.chan, ← hp, getElem?_modify_eq, hnet, hold]
      show (f net).vChans[p.2]? = _
      rw [hvChans]
      by_cases hp' : pChan.2 = p.2
      · rw [if_pos (Prod.ext hp hp').symm, ← hp', getElem?_modify_eq, hplace]
        rfl
      · rw [if_neg fun h => hp' (congrArg Prod.snd h).symm, getElem?_modify_ne _ _ hp']
    · rw [if_neg fun h => hp (congrArg Prod.fst h).symm, CFloodDetachMod.chan, getElem?_modify_ne _ _ hp]
      rfl
  refine ⟨⟨fun p => ?_, fun pNetwork sName => ?_, rfl, rfl⟩, fun p => ?_⟩
  · rw [CFloodDetachMod.name, CFloodDetachMod.name, hat]
    split_ifs with hp
    · rw [hp, hchan]
      rfl
    · rfl
  · rw [findChan_fst, findChan_fst]
    by_cases hp : pChan.1 = pNetwork
    · rw [← hp, getElem?_modify_eq, Option.map_eq_map, bind_map]
      refine congrArg _ (funext fun net => ?_)
      rw [Function.comp_apply, findChan_place, findChan_place, hvChans, hstatus, names_modify]
    · rw [getElem?_modify_ne _ _ hp]
  · rw [CFloodDetachMod.isDetached, hat]
    split_ifs with hp
    · rfl
    · rfl

/-! ## Cleanup -/

/-- `FindChan` finds the channel by the name of an entry that has as many messages as the threshold says -/
def Hits (m : CFloodDetachMod) (pNetwork : ℕ) (pChan : ℕ × ℕ) (e : CString × ℤ × UInt32) : Prop :=
  m.m_iThresholdMsgs ≤ e.2.2 ∧ (m.findChan pNetwork e.1).map Prod.fst = some pChan

variable {pNetwork : ℕ}

theorem Kept.hits {m m' : CFloodDetachMod} (h : Kept m m') (pChan : ℕ × ℕ) (e : CString × ℤ × UInt32) :
    Hits m' pNetwork pChan e ↔ Hits m pNetwork pChan e := by
  rw [Hits, Hits, h.msgs, h.found]

theorem tell_spec (m : CFloodDetachMod) (sLine : CString) : ∃ said, m.tell sLine = { m with said } := by
  unfold CFloodDetachMod.tell
  split_ifs
  · exact ⟨_, rfl⟩
  · exact ⟨_, rfl⟩

theorem dropEntry_spec (m : CFloodDetachMod) (pNetwork : ℕ) (e : CString × ℤ × UInt32) : Kept m (m.dropEntry pNetwork e) ∧
    ∀ pChan, (m.dropEntry pNetwork e).isDetached pChan = true ↔
      m.isDetached pChan = true ∧ ¬Hits m pNetwork pChan e := by
  unfold CFloodDetachMod.dropEntry CFloodDetachMod.reattach
  cases hfind : m.findChan pNetwork e.1 with
  | none =>
    refine ⟨⟨fun _ => rfl, fun _ _ => rfl, rfl, rfl⟩, fun pChan => (and_iff_left fun hhit => ?_).symm⟩
    rw [Hits, hfind] at hhit
    cases hhit.2
  | some r =>
    obtain ⟨p, chan⟩ := r
    have hplace := findChan_chan hfind
    have hhits : ∀ pChan, Hits m pNetwork pChan e ↔ m.m_iThresholdMsgs ≤ e.2.2 ∧ pChan = p := by
      intro pChan
      rw [Hits, hfind, map_some, some_inj]
      exact and_congr_right fun _ => eq_comm
    dsimp only
    split_ifs with hover
    · obtain ⟨hmsgs, -⟩ := (Bool.and_eq_true _ _).mp hover
      obtain ⟨said, htell⟩ := tell_spec m (lit "Flood in " ++ chan.sName ++ lit " is over, reattaching...")
      obtain ⟨hkept, hdetached⟩ := modify_spec (b := false) { m with said } hplace
        (fun net => attachUser_vChans net p.2 none) (fun net => attachUser_sStatusMsg net p.2 none)
      rw [htell]
      refine ⟨⟨hkept.name, hkept.found, rfl, rfl⟩, fun pChan => ?_⟩
      rw [hhits]
      refine (Bool.eq_iff_iff.1 (hdetached pChan)).trans ?_
      split_ifs with hp
      · exact iff_of_false id fun h => h.2 ⟨of_decide_eq_true hmsgs, hp⟩
      · exact (and_iff_left fun h => hp h.2).symm
    · refine ⟨⟨fun _ => rfl, fun _ _ => rfl, rfl, rfl⟩, fun pChan => (and_iff_left_of_imp fun hdetached hhit => ?_).symm⟩
      obtain ⟨hmsgs, rfl⟩ := (hhits pChan).1 hhit
      have hdetached : m.isDetached pChan = true := hdetached
      rw [CFloodDetachMod.isDetached, hplace] at hdetached
      exact hover ((Bool.and_eq_true _ _).mpr ⟨decide_eq_true hmsgs, hdetached⟩)

theorem Kept.expired {m m' : CFloodDetachMod} (h : Kept m m') (now : ℤ) : m'.expired now = m.expired now := by
  funext e
  rw [CFloodDetachMod.expired, CFloodDetachMod.expired, CFloodDetachMod.secs, CFloodDetachMod.secs, h.secs]

theorem cleanupLoop_eq (now : ℤ) (l : List (CString × ℤ × UInt32)) (m : CFloodDetachMod) :
    CFloodDetachMod.cleanupLoop pNetwork now l m =
      (handled (m.expired now) l).foldl (CFloodDetachMod.dropEntry pNetwork) m := by
  have hover : ∀ e : CString × ℤ × UInt32, e.2.1 + m.secs ≥ now ↔ ¬m.expired now e = true := by
    intro e
    rw [CFloodDetachMod.expired, decide_eq_true_eq, not_lt]
  induction l using List.twoStepInduction generalizing m with
  | nil => rfl
  | singleton e =>
    by_cases he : m.expired now e = true
    · rw [CFloodDetachMod.cleanupLoop, if_neg (fun h => (hover e).1 h he), handled, if_pos he]
      rfl
    · rw [CFloodDetachMod.cleanupLoop, if_pos ((hover e).2 he), handled, if_neg he]
      rfl
  | cons_cons e e' l ih ih' =>
    by_cases he : m.expired now e = true
    · have hkept := (dropEntry_spec m pNetwork e).1
      have hsame : (m.dropEntry pNetwork e).expired now = m.expired now := hkept.expired now
      have hsecs : (m.dropEntry pNetwork e).secs = m.secs := congrArg (fun u : UInt32 => (u.toNat : ℤ)) hkept.secs
      rw [CFloodDetachMod.cleanupLoop, if_neg (fun h => (hover e).1 h he), handled, if_pos he, foldl_cons, ← hsame]
      exact ih _ fun d => by rw [hsame, hsecs, hover d]
    · rw [CFloodDetachMod.cleanupLoop, if_pos ((hover e).2 he), handled, if_neg he]
      exact ih' e' m hover

theorem dropEntries_spec (pNetwork : ℕ) (l : List (CString × ℤ × UInt32)) (m : CFloodDetachMod) :
    Kept m (l.foldl (CFloodDetachMod.dropEntry pNetwork) m) ∧
    (∀ pChan, (l.foldl (CFloodDetachMod.dropEntry pNetwork) m).isDetached pChan = true ↔
      m.isDetached pChan = true ∧ ∀ e ∈ l, ¬Hits m pNetwork pChan e) ∧
    ∀ sName it, (l.foldl (CFloodDetachMod.dropEntry pNetwork) m).m_chans.find sName = some it ↔
      m.m_chans.find sName = some it ∧ ∀ e ∈ l, sName ≠ e.1 := by
  induction l generalizing m with
  | nil => exact ⟨Kept.refl m, fun pChan => by simp, fun sName it => by simp⟩
  | cons e l ih =>
    obtain ⟨hkept, hdetached⟩ := dropEntry_spec m pNetwork e
    obtain ⟨hkept', hdetached', hfind'⟩ := ih (m.dropEntry pNetwork e)
    have hfind : ∀ sName it, (m.dropEntry pNetwork e).m_chans.find sName = some it ↔
        m.m_chans.find sName = some it ∧ sName ≠ e.1 := by
      intro sName it
      rw [CFloodDetachMod.dropEntry, OrdMap.find_erase]
      by_cases hname : sName = e.1
      · simp [hname]
      · simp [hname]
    rw [foldl_cons]
    refine ⟨hkept.trans hkept', fun pChan => ?_, fun sName it => ?_⟩
    · simp only [hdetached', hdetached, hkept.hits, forall_mem_cons, and_assoc]
    · rw [hfind', hfind, forall_mem_cons, and_assoc]

/-- **What `Cleanup` does.** -/
theorem cleanup_spec (m : CFloodDetachMod) (pNetwork : ℕ) (now : ℤ) : Kept m (m.cleanup pNetwork now) ∧
    (∀ pChan, (m.cleanup pNetwork now).isDetached pChan = true ↔
      m.isDetached pChan = true ∧ ∀ e ∈ handled (m.expired now) m.m_chans.entries, ¬Hits m pNetwork pChan e) ∧
    ∀ sName it, (m.cleanup pNetwork now).m_chans.find sName = some it ↔
      m.m_chans.find sName = some it ∧ (sName, it) ∉ handled (m.expired now) m.m_chans.entries := by
  obtain ⟨hkept, hdetached, hfind⟩ := dropEntries_spec pNetwork (handled (m.expired now) m.m_chans.entries) m
  rw [CFloodDetachMod.cleanup, cleanupLoop_eq]
  refine ⟨hkept, hdetached, fun sName it => ?_⟩
  rw [hfind]
  constructor
  · rintro ⟨hit, hnames⟩
    exact ⟨hit, fun hmem => hnames _ hmem rfl⟩
  · rintro ⟨hit, hnot⟩
    refine ⟨hit, fun e he hname => hnot ?_⟩
    have hentry : m.m_chans.find e.1 = some e.2 :=
      (m.m_chans.mem_entries_iff _ _).1 (mem_of_mem_filter ((handled_sublist _).subset he))
    rw [← hname, hit] at hentry
    rwa [Option.some.inj hentry, hname]

theorem mem_handled {m : CFloodDetachMod} {now : ℤ} (h : m.Apart now) {sName : CString} {it : ℤ × UInt32} :
    (sName, it) ∈ handled (m.expired now) m.m_chans.entries ↔
      m.m_chans.find sName = some it ∧ it.1 + m.secs < now := by
  rw [← m.m_chans.mem_entries_iff]
  have hnodup : m.m_chans.entries.Nodup := List.Nodup.of_map Prod.fst m.m_chans.keys_nodup
  constructor
  · intro hmem
    obtain ⟨hentry, hover⟩ := mem_filter.1 ((handled_sublist _).subset hmem)
    exact ⟨hentry, of_decide_eq_true hover⟩
  · exact fun hmem => (apart_iff hnodup).2 h _ hmem.1 (decide_eq_true hmem.2)

/-! ## What is due -/

theorem cover_exact {α β : Type} [DecidableEq β] {D : Finset α} {f g : α → β} (hg : Set.InjOn g D)
    (h : ∀ a ∈ D, ∃ b ∈ D, f b = g a) : ∀ b ∈ D, ∃ a ∈ D, g a = f b := by
  have hsub : D.image g ⊆ D.image f := by
    intro x hx
    obtain ⟨a, ha, rfl⟩ := Finset.mem_image.1 hx
    obtain ⟨b, hb, hf⟩ := h a ha
    exact Finset.mem_image.2 ⟨b, hb, hf⟩
  have hcard : (D.image f).card ≤ (D.image g).card := by
    rw [Finset.card_image_of_injOn hg]
    exact Finset.card_image_le
  intro b hb
  have hmem : f b ∈ D.image g := by
    rw [Finset.eq_of_subset_of_card_le hsub hcard]
    exact Finset.mem_image_of_mem f hb
  exact Finset.mem_image.1 hmem

theorem timeout_eq_some {w : World} {pChan : ℕ × ℕ} {it : ℤ × UInt32} : w.timeout pChan = some it ↔
    ∃ sName, w.mod.name pChan = some sName ∧ w.owner sName = pChan ∧ w.mod.m_chans.find sName = some it := by
  rw [World.timeout, bind_eq_some_iff]
  refine exists_congr fun sName => and_congr_right fun _ => ?_
  split_ifs with howner
  · exact (and_iff_right howner).symm
  · exact iff_of_false (fun h => nomatch h) fun h => howner h.1

theorem Found.exact {w : World} {ev : ℤ × ℕ × ℕ} (h : w.Found ev) {p pChan : ℕ × ℕ} (hp : w.Due ev.1 p)
    (hfound : w.mod.foundAt ev.2.1 p = some pChan) : w.Due ev.1 pChan := by
  classical
  -- each channel that is due has an entry of its own
  set D := ((w.mod.m_chans.entries.map fun e => w.owner e.1).toFinset).filter (w.Due ev.1) with hD
  have hmem : ∀ p, p ∈ D ↔ w.Due ev.1 p := by
    intro p
    rw [hD, Finset.mem_filter, and_iff_right_iff_imp]
    rintro ⟨it, hit, -⟩
    obtain ⟨sName, -, howner, hit⟩ := timeout_eq_some.1 hit
    rw [List.mem_toFinset, List.mem_map]
    exact ⟨(sName, it), (w.mod.m_chans.mem_entries_iff _ _).2 hit, howner⟩
  obtain ⟨q, hq, hsome⟩ := @cover_exact _ _ _ D (w.mod.foundAt ev.2.1) some (fun a _ b _ hab => Option.some.inj hab)
    (fun a ha => by
      obtain ⟨b, hb, hf⟩ := h a ((hmem a).1 ha)
      exact ⟨b, (hmem b).2 hb, hf⟩) p ((hmem p).2 hp)
  rw [hfound] at hsome
  rw [← Option.some.inj hsome]
  exact (hmem q).1 hq

/-! ## One channel -/

/-- where a channel is: its timeout, whether it is detached, and whether it was flooded, by the journal of its messages -/
inductive Watch (N : UInt32) (T time : ℤ) (J : List ℤ) : Option (ℤ × UInt32) → Bool → Bool → Prop where
  | idle (hover : ∀ s ∈ opened T J, s + T < time) : Watch N T time J none false false
  | untracked : Watch N T time J none true false
  | counting {st : ℤ} {n : UInt32} (hn : n < N) (hlength : (window T J).length = n.toNat)
      (hopened : opened T J = some st) :
      Watch N T time J (some (st, n)) false false
  | flooded {st s : ℤ} {n : UInt32} (hn : N ≤ n) (hle : n.toNat ≤ J.length) (hopened : opened T J = some s)
      (hst : s ≤ st) : Watch N T time J (some (st, n)) true true

/-- what `Message` makes of the timeout of its channel, and whether the channel is detached then -/
def tally (N : UInt32) (now : ℤ) : Option (ℤ × UInt32) → Bool → Option (ℤ × UInt32) × Bool
  | none, true => (none, true)
  | none, false => (some (now, 1), false)
  | some it, d =>
    if it.2 ≥ N then (some (now, it.2 + 1), d)
    else if it.2 + 1 < N then (some (it.1, it.2 + 1), d)
    else (some (now, it.2 + 1), true)

variable {N : UInt32} {T time now : ℤ} {J : List ℤ} {o : Option (ℤ × UInt32)} {d f : Bool}

theorem Watch.cleanup (h : Watch N T time J o d f) (ht : time ≤ now) {o' : Option (ℤ × UInt32)} {d' : Bool}
    (ho : ∀ it, o' = some it ↔ o = some it ∧ now ≤ it.1 + T)
    (hd : d' = true ↔ d = true ∧ ¬∃ it ∈ o, it.1 + T < now ∧ N ≤ it.2) : Watch N T now J o' d' (f && d') := by
  have hkeep : ∀ it, o = some it → now ≤ it.1 + T → o' = some it := fun it hit hlive => (ho it).2 ⟨hit, hlive⟩
  have hdrop : (∀ it, o = some it → it.1 + T < now) → o' = none := by
    intro hover
    apply eq_none_iff_forall_ne_some.2
    intro it hit
    obtain ⟨hit, hlive⟩ := (ho it).1 hit
    exact absurd (hover it hit) (not_lt.2 hlive)
  have hsame : (∀ it, o = some it → it.1 + T < now → it.2 < N) → d' = d := by
    intro hnot
    have hiff : d' = true ↔ d = true := by
      rw [hd]
      refine and_iff_left ?_
      rintro ⟨it, hit, hover, hmsgs⟩
      exact absurd (hnot it hit hover) (UInt32.not_lt.2 hmsgs)
    exact Bool.eq_iff_iff.2 hiff
  cases h with
  | idle hover =>
    rw [hdrop (fun it hit => by cases hit), hsame (fun it hit => by cases hit)]
    exact .idle fun s hs => (hover s hs).trans_le ht
  | untracked =>
    rw [hdrop (fun it hit => by cases hit), hsame (fun it hit => by cases hit)]
    exact .untracked
  | @counting st n hn hlength hopened =>
    rw [hsame (fun it hit _ => by rw [← Option.some.inj hit]; exact hn)]
    by_cases hlive : now ≤ st + T
    · rw [hkeep _ rfl hlive]
      exact .counting hn hlength hopened
    · rw [hdrop (fun it hit => by rw [← Option.some.inj hit]; exact not_le.1 hlive)]
      refine .idle fun s hs => ?_
      rw [hopened] at hs
      rw [← Option.some.inj hs]
      exact not_le.1 hlive
  | @flooded st s n hn hle hopened hst =>
    by_cases hlive : now ≤ st + T
    · have hlive' : ¬∃ it ∈ some (st, n), it.1 + T < now ∧ N ≤ it.2 := by
        rintro ⟨it, hit, hover, -⟩
        rw [← Option.some.inj hit] at hover
        exact absurd hover (not_lt.2 hlive)
      rw [hkeep _ rfl hlive, hd.2 ⟨rfl, hlive'⟩]
      exact .flooded hn hle hopened hst
    · have hover := not_le.1 hlive
      have hattached : d' = false := by
        rw [Bool.eq_false_iff, Ne, hd]
        exact fun h => h.2 ⟨_, rfl, hover, hn⟩
      rw [hattached, hdrop (fun it hit => by rw [← Option.some.inj hit]; exact hover)]
      refine .idle fun s' hs' => ?_
      rw [hopened] at hs'
      rw [← Option.some.inj hs']
      exact (Int.add_le_add_right hst T).trans_lt hover

theorem toNat_succ {n : UInt32} (h : n.toNat + 1 < 2 ^ 32) : (n + 1).toNat = n.toNat + 1 := by
  rw [UInt32.toNat_add]
  exact Nat.mod_eq_of_lt h

/-- **One message more.** -/
theorem Watch.message (h : Watch N T now J o d f) (hlive : ∀ it ∈ o, now ≤ it.1 + T) (hT : 0 ≤ T)
    (hfew : J.length + 1 < 2 ^ 32) (hone : N = 1 → d = true) (hzero : N ≠ 0) (hpast : ∀ t ∈ J, t ≤ now)
    (hsorted : J.Pairwise (· ≥ ·)) :
    Watch N T now (now :: J) (tally N now o d).1 (tally N now o d).2 ((f || !d) && (tally N now o d).2) ∧
      (d = false → (tally N now o d).2 = true →
        N.toNat ≤ (now :: J).length ∧ Within T ((now :: J).take N.toNat)) ∧
      ((window T (now :: J)).length = N.toNat → (tally N now o d).2 = true) := by
  cases h with
  | idle hover =>
    obtain ⟨hwindow, hopened⟩ := window_closed hover
    have hne : N ≠ 1 := fun h => absurd (hone h) Bool.false_ne_true
    refine ⟨.counting ?_ (by rw [hwindow]; rfl) hopened, fun _ h => absurd h Bool.false_ne_true, fun hlength => ?_⟩
    · rw [UInt32.lt_iff_toNat_lt]
      have h0 : N.toNat ≠ 0 := fun h => hzero (UInt32.toNat_inj.1 h)
      have h1 : N.toNat ≠ 1 := fun h => hne (UInt32.toNat_inj.1 h)
      have hvalue : (1 : UInt32).toNat = 1 := rfl
      omega
    · rw [hwindow] at hlength
      exact absurd (UInt32.toNat_inj.1 hlength.symm) hne
  | untracked => exact ⟨.untracked, fun h => absurd h Bool.noConfusion, fun _ => rfl⟩
  | @counting st n hn hlength hopened =>
    obtain ⟨hwindow, hopened'⟩ := window_open hopened (hlive _ rfl)
    have hle : n.toNat ≤ J.length := hlength ▸ (window_front J).length_le
    have hsucc : (n + 1).toNat = n.toNat + 1 := toNat_succ ((Nat.succ_le_succ hle).trans_lt hfew)
    have hlength' : (window T (now :: J)).length = (n + 1).toNat := by rw [hwindow, length_cons, hlength, hsucc]
    have hbelow : ¬n ≥ N := UInt32.not_le.2 hn
    by_cases hmore : n + 1 < N
    · rw [tally, if_neg hbelow, if_pos hmore]
      refine ⟨.counting hmore hlength' hopened', fun _ h => absurd h Bool.false_ne_true, fun hN => ?_⟩
      rw [hlength', UInt32.toNat_inj] at hN
      exact absurd hmore (hN ▸ UInt32.lt_irrefl _)
    · have hreached : N.toNat = (window T (now :: J)).length := by
        rw [UInt32.lt_iff_toNat_lt] at hn hmore
        omega
      rw [tally, if_neg hbelow, if_neg hmore]
      refine ⟨.flooded (UInt32.not_lt.1 hmore) (by rw [hsucc]; exact Nat.succ_le_succ hle) hopened' ?_, fun _ _ => ?_,
        fun _ => rfl⟩
      · exact hpast st ((window_front J).subset (mem_of_getLast? hopened))
      · have hfront := prefix_iff_eq_take.1 (window_front (T := T) (now :: J))
        rw [hreached, ← hfront]
        refine ⟨(window_front _).length_le, window_within (fun t => Int.le_add_of_nonneg_right hT) ?_⟩
        exact pairwise_cons.2 ⟨hpast, hsorted⟩
  | @flooded st s n hn hle hopened hst =>
    have hsucc : (n + 1).toNat = n.toNat + 1 := toNat_succ ((Nat.succ_le_succ hle).trans_lt hfew)
    obtain ⟨s', hopened', hs'⟩ : ∃ s', opened T (now :: J) = some s' ∧ s' ≤ now := by
      by_cases hopen : now ≤ s + T
      · exact ⟨s, (window_open hopened hopen).2, hpast s ((window_front J).subset (mem_of_getLast? hopened))⟩
      · refine ⟨now, (window_closed fun s' hs' => ?_).2, le_rfl⟩
        rw [hopened] at hs'
        rw [← Option.some.inj hs']
        exact not_le.1 hopen
    rw [tally, if_pos hn]
    refine ⟨.flooded ?_ (by rw [hsucc]; exact Nat.succ_le_succ hle) hopened' hs', fun h => absurd h Bool.noConfusion,
      fun _ => rfl⟩
    rw [UInt32.le_iff_toNat_le] at hn ⊢
    exact (Nat.le_succ_of_le hn).trans hsucc.ge

/-! ## The module -/

structure Inv (w : World) : Prop where
  msgs : w.mod.m_iThresholdMsgs ≠ 0
  one : w.mod.m_iThresholdMsgs = 1 → ∀ sName, w.mod.m_chans.find sName = none
  sorted : ∀ pChan, (w.journal pChan).Pairwise (· ≥ ·)
  past : ∀ pChan, ∀ t ∈ w.journal pChan, t ≤ w.time
  tracked : ∀ sName, w.mod.m_chans.find sName ≠ none → w.mod.name (w.owner sName) = some sName
  watch : ∀ pChan, (w.mod.name pChan).isSome = true →
    Watch w.mod.m_iThresholdMsgs w.mod.secs w.time (w.journal pChan) (w.timeout pChan)
      (w.mod.isDetached pChan) (w.flooded pChan)

variable {w : World} {pChan : ℕ × ℕ} {ev : ℤ × ℕ × ℕ}

theorem Inv.timeout_owner (h : Inv w) {sName : CString} {it : ℤ × UInt32} (hit : w.mod.m_chans.find sName = some it) :
    w.timeout (w.owner sName) = some it := by
  have hne : w.mod.m_chans.find sName ≠ none := by
    rw [hit]
    exact some_ne_none it
  exact timeout_eq_some.2 ⟨sName, h.tracked sName hne, rfl, hit⟩

theorem hit_iff (h : Inv w) (hapart : w.mod.Apart ev.1) (hfound : w.Found ev) :
    (∀ e ∈ handled (w.mod.expired ev.1) w.mod.m_chans.entries, ¬Hits w.mod ev.2.1 pChan e) ↔ ¬w.Due ev.1 pChan := by
  constructor
  · intro hnot hdue
    obtain ⟨p, ⟨it, hit, hover, hmsgs⟩, hplace⟩ := hfound pChan hdue
    obtain ⟨sName, hname, -, hit⟩ := timeout_eq_some.1 hit
    rw [CFloodDetachMod.foundAt, hname, bind_some] at hplace
    exact hnot (sName, it) ((mem_handled hapart).2 ⟨hit, hover⟩) ⟨hmsgs, hplace⟩
  · rintro hnot ⟨sName, it⟩ he ⟨hmsgs, hplace⟩
    obtain ⟨hit, hover⟩ := (mem_handled hapart).1 he
    have hown := h.timeout_owner hit
    obtain ⟨sName', hname, howner, -⟩ := timeout_eq_some.1 hown
    have hsame : sName' = sName := by
      have htracked := h.tracked sName (by rw [hit]; exact some_ne_none it)
      exact Option.some.inj (hname.symm.trans htracked)
    refine hnot (Found.exact hfound (p := w.owner sName) ⟨it, hown, hover, hmsgs⟩ ?_)
    rw [CFloodDetachMod.foundAt, hname, bind_some, hsame, hplace]

theorem Kept.secs_eq {m m' : CFloodDetachMod} (h : Kept m m') : m'.secs = m.secs :=
  congrArg (fun u : UInt32 => (u.toNat : ℤ)) h.secs

theorem cleaned_inv (h : Inv w) (ht : w.time ≤ ev.1) (hapart : w.mod.Apart ev.1) (hfound : w.Found ev) :
    Inv (w.cleaned ev) ∧ Kept w.mod (w.cleaned ev).mod ∧
      (∀ sName it, (w.cleaned ev).mod.m_chans.find sName = some it ↔
        w.mod.m_chans.find sName = some it ∧ ev.1 ≤ it.1 + w.mod.secs) ∧
      ∀ p, (w.cleaned ev).mod.isDetached p = true ↔ w.mod.isDetached p = true ∧ ¬w.Due ev.1 p := by
  obtain ⟨hkept, hdetached, hfind⟩ := cleanup_spec w.mod ev.2.1 ev.1
  have hdetached : ∀ p, (w.cleaned ev).mod.isDetached p = true ↔
      w.mod.isDetached p = true ∧ ¬w.Due ev.1 p := by
    intro p
    rw [← hit_iff h hapart hfound]
    exact hdetached p
  have hfind : ∀ sName it, (w.cleaned ev).mod.m_chans.find sName = some it ↔
      w.mod.m_chans.find sName = some it ∧ ev.1 ≤ it.1 + w.mod.secs := by
    intro sName it
    rw [← not_lt]
    refine (hfind sName it).trans (and_congr_right fun hit => not_congr ?_)
    rw [mem_handled hapart]
    exact and_iff_right hit
  have htimeout : ∀ p it, (w.cleaned ev).timeout p = some it ↔ w.timeout p = some it ∧ ev.1 ≤ it.1 + w.mod.secs := by
    intro p it
    simp only [timeout_eq_some, hfind]
    constructor
    · rintro ⟨sName, hname, howner, hit, hlive⟩
      exact ⟨⟨sName, (hkept.name p).symm.trans hname, howner, hit⟩, hlive⟩
    · rintro ⟨⟨sName, hname, howner, hit⟩, hlive⟩
      exact ⟨sName, (hkept.name p).trans hname, howner, hit, hlive⟩
  have hold : ∀ sName, (w.cleaned ev).mod.m_chans.find sName ≠ none → w.mod.m_chans.find sName ≠ none := by
    intro sName hne hnone
    obtain ⟨it, hit⟩ := ne_none_iff_exists'.1 hne
    rw [((hfind sName it).1 hit).1] at hnone
    cases hnone
  refine ⟨⟨?_, fun hone sName => ?_, h.sorted, fun p t hmem => (h.past p t hmem).trans ht, fun sName hne => ?_,
    fun p hname => ?_⟩, hkept, hfind, hdetached⟩
  · exact hkept.msgs.symm ▸ h.msgs
  · by_contra hne
    exact hold sName hne (h.one (hkept.msgs.symm.trans hone) sName)
  · exact (hkept.name _).trans (h.tracked sName (hold sName hne))
  · have hname' : (w.mod.name p).isSome = true := by rwa [← hkept.name p]
    have hmsgs : (w.cleaned ev).mod.m_iThresholdMsgs = w.mod.m_iThresholdMsgs := hkept.msgs
    have hsecs : (w.cleaned ev).mod.secs = w.mod.secs := hkept.secs_eq
    rw [hmsgs, hsecs]
    exact (h.watch p hname').cleanup ht (htimeout p) (hdetached p)

theorem setLimit_find (m : CFloodDetachMod) (sName : CString) (it : ℤ × UInt32) :
    (m.setLimit sName it).m_chans.find sName = some it ∧
      ∀ sName', sName' ≠ sName → (m.setLimit sName it).m_chans.find sName' = m.m_chans.find sName' := by
  rw [CFloodDetachMod.setLimit]
  refine ⟨by rw [OrdMap.find_insert, if_pos rfl], fun sName' hne => ?_⟩
  rw [OrdMap.find_insert, if_neg hne]

theorem setLimit_kept (m : CFloodDetachMod) (sName : CString) (it : ℤ × UInt32) : Kept m (m.setLimit sName it) :=
  ⟨fun _ => rfl, fun _ _ => rfl, rfl, rfl⟩

/-- **What the rest of `Message` does.** -/
theorem count_spec (m : CFloodDetachMod) (now : ℤ) {sName : CString} (hname : m.name pChan = some sName) :
    Kept m (m.count now pChan) ∧
      ((m.count now pChan).m_chans.find sName =
          (tally m.m_iThresholdMsgs now (m.m_chans.find sName) (m.isDetached pChan)).1 ∧
        ∀ sName', sName' ≠ sName → (m.count now pChan).m_chans.find sName' = m.m_chans.find sName') ∧
      (m.count now pChan).isDetached pChan =
          (tally m.m_iThresholdMsgs now (m.m_chans.find sName) (m.isDetached pChan)).2 ∧
        ∀ p, p ≠ pChan → (m.count now pChan).isDetached p = m.isDetached p := by
  obtain ⟨chan, hchan, rfl⟩ := map_eq_some_iff.1 hname
  have hdetached : m.isDetached pChan = chan.bDetached := by rw [CFloodDetachMod.isDetached, hchan, any_some]
  unfold CFloodDetachMod.count
  simp only [hchan]
  cases hit : m.m_chans.find chan.sName with
  | none =>
    dsimp only
    split_ifs with hdet
    · rw [hdetached, hdet]
      exact ⟨Kept.refl m, ⟨hit, fun _ _ => rfl⟩, rfl, fun _ _ => rfl⟩
    · have hdet := Bool.eq_false_iff.2 hdet
      rw [hdetached, hdet]
      exact ⟨setLimit_kept m _ _, setLimit_find m _ _, hdetached.trans hdet, fun _ _ => rfl⟩
  | some it =>
    dsimp only
    rw [tally]
    split_ifs with hover hmore
    · exact ⟨setLimit_kept m _ _, setLimit_find m _ _, rfl, fun _ _ => rfl⟩
    · exact ⟨setLimit_kept m _ _, setLimit_find m _ _, rfl, fun _ _ => rfl⟩
    · set m' := m.setLimit chan.sName (now, it.2 + 1)
      obtain ⟨said, htell⟩ := tell_spec (m'.detachUser pChan)
        (lit "Channel " ++ chan.sName ++ lit " was flooded, you've been detached")
      obtain ⟨hkept, hdetached'⟩ := modify_spec m' hchan (fun net => detachUser_vChans net pChan.2)
        (fun net => detachUser_sStatusMsg net pChan.2)
      rw [htell]
      refine ⟨⟨hkept.name, hkept.found, rfl, rfl⟩, setLimit_find m _ _, ?_, fun p hp => ?_⟩
      · exact (hdetached' pChan).trans (if_pos rfl)
      · exact (hdetached' p).trans (if_neg hp)

theorem Watch.of_flooded (h : Watch N T time J o d true) : ∃ it, o = some it := by
  cases h with
  | flooded _ _ _ _ => exact ⟨_, rfl⟩

theorem Watch.over {it : ℤ × UInt32} (h : Watch N T time J (some it) d true) : N ≤ it.2 := by
  cases h with
  | flooded hn _ _ _ => exact hn

theorem Watch.flooded_eq (h : Watch N T time J o d f) : ((f || !d) && d) = f := by
  cases h with
  | idle _ => rfl
  | untracked => rfl
  | counting _ _ _ => rfl
  | flooded _ _ _ _ => rfl

theorem secs_nonneg (m : CFloodDetachMod) : 0 ≤ m.secs := Int.natCast_nonneg _

theorem counted_timeout {sName : CString} (hname : w.mod.name pChan = some sName)
    (hown : w.mod.m_chans.find sName ≠ none → w.owner sName = pChan) :
    w.timeout pChan = w.mod.m_chans.find sName ∧
      (w.counted w.time pChan).timeout pChan = (w.counted w.time pChan).mod.m_chans.find sName ∧
      ∀ p, p ≠ pChan → (w.counted w.time pChan).timeout p = w.timeout p := by
  obtain ⟨hkept, ⟨-, hothers⟩, -⟩ := count_spec w.mod w.time hname
  have howner : (w.counted w.time pChan).owner sName = pChan := by
    rw [World.counted]
    dsimp only
    split_ifs with hnew
    · rfl
    · exact hown fun hnone => hnew ⟨hname, hnone⟩
  have hname' : (w.counted w.time pChan).mod.name pChan = some sName := (hkept.name pChan).trans hname
  refine ⟨?_, ?_, fun p hp => ?_⟩
  · rw [World.timeout, hname, bind_some]
    split_ifs with h0
    · rfl
    · by_contra hne
      exact h0 (hown fun hnone => hne hnone.symm)
  · rw [World.timeout, hname', bind_some, if_pos howner]
  · have hsame : (w.counted w.time pChan).mod.name p = w.mod.name p := hkept.name p
    rw [World.timeout, World.timeout, hsame]
    refine congrArg (Option.bind (w.mod.name p)) (funext fun sName' => ?_)
    by_cases hs : sName' = sName
    · -- the timeout under this name is not one of `p`
      rw [hs, if_neg fun h0 => hp (h0.symm.trans howner)]
      split_ifs with h0
      · by_contra hne
        exact hp (h0.symm.trans (hown fun hnone => hne hnone.symm))
      · rfl
    · have hother : (w.counted w.time pChan).owner sName' = w.owner sName' :=
        if_neg fun h0 => hs (Option.some.inj (h0.1.symm.trans hname))
      have hfind : (w.counted w.time pChan).mod.m_chans.find sName' = w.mod.m_chans.find sName' := hothers sName' hs
      rw [hother, hfind]

theorem counted_inv (h : Inv w) (hlive : ∀ sName it, w.mod.m_chans.find sName = some it → w.time ≤ it.1 + w.mod.secs)
    {sName : CString} (hname : w.mod.name pChan = some sName)
    (hown : w.mod.m_chans.find sName ≠ none → w.owner sName = pChan) (hfew : (w.journal pChan).length + 1 < 2 ^ 32)
    (hone : w.mod.m_iThresholdMsgs = 1 → w.mod.isDetached pChan = true) :
    Inv (w.counted w.time pChan) ∧
      (∀ p, w.mod.isDetached p = false → (w.counted w.time pChan).mod.isDetached p = true →
        w.mod.m_iThresholdMsgs.toNat ≤ ((w.counted w.time pChan).journal p).length ∧
          Within w.mod.secs (((w.counted w.time pChan).journal p).take w.mod.m_iThresholdMsgs.toNat)) ∧
      ((window w.mod.secs ((w.counted w.time pChan).journal pChan)).length = w.mod.m_iThresholdMsgs.toNat →
        (w.counted w.time pChan).mod.isDetached pChan = true) := by
  obtain ⟨hkept, ⟨hfind, hothers⟩, hdetached, hsame⟩ := count_spec w.mod w.time hname
  obtain ⟨htimeout, htimeout', htimeouts⟩ := counted_timeout hname hown
  have hwatch := h.watch pChan (by rw [hname]; rfl)
  rw [htimeout] at hwatch
  obtain ⟨hwatch, hfloods, hdetaches⟩ := hwatch.message (hlive sName) (secs_nonneg w.mod) hfew hone h.msgs (h.past pChan)
    (h.sorted pChan)
  have hjournal : (w.counted w.time pChan).journal pChan = w.time :: w.journal pChan := Function.update_self ..
  have hjournals : ∀ p, p ≠ pChan → (w.counted w.time pChan).journal p = w.journal p := fun p hp =>
    Function.update_of_ne hp ..
  have hfind' : (w.counted w.time pChan).mod.m_chans.find sName = _ := hfind
  rw [← hdetached] at hwatch hfloods hdetaches
  rw [← hfind', ← htimeout'] at hwatch
  refine ⟨⟨?_, fun h1 sName' => ?_, fun p => ?_, fun p t hmem => ?_, fun sName' hne => ?_, fun p hname' => ?_⟩, ?_, ?_⟩
  · exact hkept.msgs.symm ▸ h.msgs
  · have h1 : w.mod.m_iThresholdMsgs = 1 := hkept.msgs.symm.trans h1
    by_cases hs : sName' = sName
    · rw [hs]
      refine hfind.trans ?_
      rw [h.one h1, hone h1]
      rfl
    · exact (hothers sName' hs).trans (h.one h1 sName')
  · by_cases hp : p = pChan
    · rw [hp, hjournal]
      exact pairwise_cons.2 ⟨h.past pChan, h.sorted pChan⟩
    · rw [hjournals p hp]
      exact h.sorted p
  · by_cases hp : p = pChan
    · rw [hp, hjournal] at hmem
      rcases mem_cons.1 hmem with rfl | hmem
      · exact le_rfl
      · exact h.past pChan t hmem
    · rw [hjournals p hp] at hmem
      exact h.past p t hmem
  · refine (hkept.name _).trans ?_
    rw [World.counted]
    dsimp only
    split_ifs with hnew
    · exact hnew.1
    · by_cases hs : sName' = sName
      · rw [hs] at hnew ⊢
        exact h.tracked sName fun hnone => hnew ⟨hname, hnone⟩
      · exact h.tracked sName' fun hnone => hne ((hothers sName' hs).trans hnone)
  · have hold := h.watch p (by rwa [← hkept.name p])
    have hmsgs : (w.counted w.time pChan).mod.m_iThresholdMsgs = w.mod.m_iThresholdMsgs := hkept.msgs
    have hsecs : (w.counted w.time pChan).mod.secs = w.mod.secs := hkept.secs_eq
    rw [hmsgs, hsecs]
    by_cases hp : p = pChan
    · subst hp
      rw [hjournal]
      exact hwatch
    · have hdetached' : (w.counted w.time pChan).mod.isDetached p = w.mod.isDetached p := hsame p hp
      have hflooded : (w.counted w.time pChan).flooded p = w.flooded p :=
        (congrArg (fun b => (w.flooded p || !w.mod.isDetached p) && b) hdetached').trans hold.flooded_eq
      rw [hjournals p hp, htimeouts p hp, hdetached', hflooded]
      exact hold
  · intro p hattached hnow
    by_cases hp : p = pChan
    · subst hp
      rw [hjournal]
      exact hfloods hattached hnow
    · rw [← hsame p hp] at hattached
      exact absurd (hattached.symm.trans hnow) Bool.false_ne_true
  · rw [hjournal]
    exact hdetaches

theorem name_of_chan (h : (w.mod.chan pChan).isSome = true) : ∃ sName, w.mod.name pChan = some sName := by
  obtain ⟨chan, hchan⟩ := isSome_iff_exists.1 h
  exact ⟨chan.sName, congrArg (Option.map _) hchan⟩

theorem step_inv (h : Inv w) (hlegal : Legal w ev) (hmeets : Meets w ev) : Inv (step w ev) ∧ Law w ev := by
  obtain ⟨hplace, htime, hfew, hown⟩ := hlegal
  obtain ⟨sName, hname⟩ := name_of_chan hplace
  obtain ⟨hinv, hkept, hfind, hdetached⟩ := cleaned_inv h htime hmeets.apart hmeets.found
  have hsecs := hkept.secs_eq
  have hmsgs := hkept.msgs
  have hcleans : ∀ sName it, (w.cleaned ev).mod.m_chans.find sName = some it → ev.1 ≤ it.1 + w.mod.secs :=
    fun sName it hit => ((hfind sName it).1 hit).2
  have hone : (w.cleaned ev).mod.m_iThresholdMsgs = 1 → (w.cleaned ev).mod.isDetached ev.2 = true := by
    intro hone
    have hone := hmsgs.symm.trans hone
    refine (hdetached ev.2).2 ⟨hmeets.threshold hone, ?_⟩
    rintro ⟨it, hit, -⟩
    obtain ⟨sName, -, -, hit⟩ := timeout_eq_some.1 hit
    rw [h.one hone] at hit
    cases hit
  obtain ⟨hinv', hfloods, hdetaches⟩ := counted_inv hinv
    (fun sName it hit => by rw [hsecs]; exact hcleans sName it hit) ((hkept.name ev.2).trans hname) (hown sName hname)
    hfew hone
  refine ⟨hinv', ⟨?_, ?_, hcleans, fun pChan sName it hname hflooded hit hover => ?_⟩⟩
  · rw [hmsgs, hsecs] at hfloods
    exact hfloods
  · rw [hmsgs, hsecs] at hdetaches
    exact hdetaches
  · have hdue : w.Due ev.1 pChan := by
      have hwatch := h.watch pChan (by rw [hname]; rfl)
      rw [hflooded] at hwatch
      obtain ⟨it', hit'⟩ := hwatch.of_flooded
      obtain ⟨sName', hname', -, hfind'⟩ := timeout_eq_some.1 hit'
      obtain rfl : sName' = sName := Option.some.inj (hname'.symm.trans hname)
      obtain rfl : it' = it := Option.some.inj (hfind'.symm.trans hit)
      rw [hit'] at hwatch
      exact ⟨it', hit', hover, hwatch.over⟩
    rw [Bool.eq_false_iff, Ne, hdetached]
    exact fun hnow => hnow.2 hdue

theorem Watch.stopped {it : ℤ × UInt32} (h : Watch N T time J (some it) d f) (hmsgs : N ≤ it.2) :
    d = true ∧ f = true := by
  cases h with
  | counting hn _ _ => exact absurd hn (UInt32.not_lt.2 hmsgs)
  | flooded _ _ _ _ => exact ⟨rfl, rfl⟩

theorem Watch.closed (h : Watch N T time J none false f) : ∀ s ∈ opened T J, s + T < time := by
  cases h with
  | idle hover => exact hover

theorem step_exact (h : Inv w) (hlegal : Legal w ev) (hlaw : Law w ev) : Meets w ev := by
  obtain ⟨hplace, htime, hfew, -⟩ := hlegal
  obtain ⟨hkept, hdetached, hfind⟩ := cleanup_spec w.mod ev.2.1 ev.1
  have hapart : w.mod.Apart ev.1 := by
    have hnodup : w.mod.m_chans.entries.Nodup := List.Nodup.of_map Prod.fst w.mod.m_chans.keys_nodup
    apply (apart_iff hnodup).1
    rintro ⟨sName, it⟩ hmem hover
    by_contra hnot
    have hstays := (hfind sName it).2 ⟨(w.mod.m_chans.mem_entries_iff _ _).1 hmem, hnot⟩
    exact absurd (of_decide_eq_true hover) (not_lt.2 (hlaw.cleans sName it hstays))
  refine ⟨hapart, ?_, fun hone => ?_⟩
  · rintro pChan ⟨it, htimeout, hover, hmsgs⟩
    obtain ⟨sName, hname, -, hit⟩ := timeout_eq_some.1 htimeout
    have hwatch := h.watch pChan (by rw [hname]; rfl)
    rw [htimeout] at hwatch
    have hstate := hwatch.stopped hmsgs
    have hattached := hlaw.attaches pChan sName it hname hstate.2 hit hover
    have hhit : ∃ e ∈ handled (w.mod.expired ev.1) w.mod.m_chans.entries, Hits w.mod ev.2.1 pChan e := by
      by_contra hnot
      have hnow := (hdetached pChan).2 ⟨hstate.1, fun e he hhit => hnot ⟨e, he, hhit⟩⟩
      exact absurd (hattached.symm.trans hnow) Bool.false_ne_true
    obtain ⟨⟨sName', it'⟩, he, hmsgs', hplace'⟩ := hhit
    obtain ⟨hit', hover'⟩ := (mem_handled hapart).1 he
    have hname' := h.tracked sName' (by rw [hit']; exact some_ne_none it')
    refine ⟨w.owner sName', ⟨it', h.timeout_owner hit', hover', hmsgs'⟩, ?_⟩
    rw [CFloodDetachMod.foundAt, hname', bind_some, hplace']
  · by_contra hattached
    have hattached : w.mod.isDetached ev.2 = false := Bool.eq_false_iff.2 hattached
    obtain ⟨sName, hname⟩ := name_of_chan hplace
    have hwatch := h.watch ev.2 (by rw [hname]; rfl)
    have hidle : w.timeout ev.2 = none := by
      apply eq_none_iff_forall_ne_some.2
      intro it hit
      obtain ⟨sName, -, -, hit⟩ := timeout_eq_some.1 hit
      rw [h.one hone] at hit
      cases hit
    rw [hidle, hattached] at hwatch
    -- the message is the first of its window, and the first message is only counted
    have hjournal : (step w ev).journal ev.2 = ev.1 :: w.journal ev.2 := Function.update_self ..
    have hfirst : (window w.mod.secs ((step w ev).journal ev.2)).length = w.mod.m_iThresholdMsgs.toNat := by
      rw [hjournal, (window_closed fun s hs => (hwatch.closed s hs).trans_le htime).1, hone]
      rfl
    have hnow := hlaw.detaches hfirst
    have hattached' : (w.cleaned ev).mod.isDetached ev.2 = false := by
      rw [Bool.eq_false_iff]
      exact fun hnow => absurd (hattached.symm.trans ((hdetached ev.2).1 hnow).1) Bool.false_ne_true
    have hnone : (w.cleaned ev).mod.m_chans.find sName = none := by
      apply eq_none_iff_forall_ne_some.2
      intro it hit
      have hold := ((hfind sName it).1 hit).1
      rw [h.one hone] at hold
      cases hold
    have hcounted := (count_spec (w.cleaned ev).mod ev.1 ((hkept.name ev.2).trans hname)).2.2.1
    rw [hnone, hattached'] at hcounted
    exact absurd (hcounted.symm.trans hnow) Bool.false_ne_true

/-! ## Runs -/

theorem inv_start {m : CFloodDetachMod} (hempty : m.m_chans = .empty) (hmsgs : m.m_iThresholdMsgs ≠ 0) (time : ℤ) :
    Inv (.start m time) := by
  have hnone : ∀ sName, (World.start m time).mod.m_chans.find sName = none := fun sName => by
    rw [World.start, hempty, OrdMap.find_empty]
  refine ⟨hmsgs, fun _ => hnone, fun _ => List.Pairwise.nil, fun _ t ht => absurd ht not_mem_nil,
    fun sName hne => absurd (hnone sName) hne, fun pChan _ => ?_⟩
  have hidle : (World.start m time).timeout pChan = none := by
    apply eq_none_iff_forall_ne_some.2
    intro it hit
    obtain ⟨sName, -, -, hit⟩ := timeout_eq_some.1 hit
    rw [hnone sName] at hit
    cases hit
  rw [hidle]
  cases hdetached : (World.start m time).mod.isDetached pChan with
  | false => exact .idle fun s hs => by cases hs
  | true => exact .untracked

/-- **The law of the floods** holds of a run of messages exactly if each message meets the condition. -/
theorem flood_detach_iff {m : CFloodDetachMod} (hempty : m.m_chans = .empty) (hmsgs : m.m_iThresholdMsgs ≠ 0)
    (time : ℤ) (evs : List (ℤ × ℕ × ℕ)) (hlegal : Runs.Steps step Legal evs (.start m time)) :
    Runs.Steps step Law evs (.start m time) ↔ Runs.Steps step Meets evs (.start m time) :=
  Runs.steps_exact_iff (fun _ _ h hlegal hmeets => step_inv h hlegal hmeets)
    (fun _ _ h hlegal hlaw => step_exact h hlegal hlaw) evs (inv_start hempty hmsgs time) hlegal

/-- two networks, and two messages within a second are a flood -/
def threeChans : CFloodDetachMod :=
  ⟨.empty, 1, 2, false, [⟨lit "me", lit "@+", lit "#", true, [⟨lit "#a", true, false⟩, ⟨lit "#b", true, false⟩], []⟩,
    ⟨lit "me", lit "@+", lit "#", true, [⟨lit "#a", true, false⟩], []⟩], []⟩

instance Legal.decidable (w : World) (ev : ℤ × ℕ × ℕ) : Decidable (Legal w ev) :=
  inferInstanceAs (Decidable ((w.mod.chan ev.2).isSome = true ∧ w.time ≤ ev.1 ∧ (w.journal ev.2).length + 1 < 2 ^ 32 ∧
    ∀ sName ∈ w.mod.name ev.2, (w.cleaned ev).mod.m_chans.find sName ≠ none → w.owner sName = ev.2))

/-- a flood, and messages after it -/
theorem flood_detach_one : Runs.Steps step Law [(0, 0, 0), (1, 0, 0), (3, 0, 0), (5, 1, 0)] (.start threeChans 0) ↔
    Runs.Steps step Meets [(0, 0, 0), (1, 0, 0), (3, 0, 0), (5, 1, 0)] (.start threeChans 0) :=
  flood_detach_iff (m := threeChans) rfl (by decide) 0 [(0, 0, 0), (1, 0, 0), (3, 0, 0), (5, 1, 0)] (by decide)

/-- **Two timeouts are over at once, and one of them stays:** the channel is detached with its second message in five
seconds. -/
theorem stale_timeout : Runs.Steps step Legal [(0, 0, 0), (0, 0, 1), (5, 0, 1)] (.start threeChans 0) ∧
    ¬Runs.Steps step Law [(0, 0, 0), (0, 0, 1), (5, 0, 1)] (.start threeChans 0) := by
  refine ⟨by decide, fun hlaw => ?_⟩
  obtain ⟨-, s, hwithin⟩ := hlaw.2.2.1.floods (0, 1) (by decide) (by decide)
  have hlast : (5 : ℤ) ≤ s + 1 := (hwithin 5 (by decide)).2
  have hbefore : s ≤ 0 := (hwithin 0 (by decide)).1
  omega

end ZNC.FloodDetach
