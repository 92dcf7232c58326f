/-
The sticky channels of `modules/stickychan.cpp`.

The channels are the keys of the registry. Stick makes its key small, Unstick takes the name as it was typed, a change of the channel
key takes the name that the channel has, and the web pages take that one too.

Model: the parameters of a form are what `GetParam` has for a name; the channels of the network have different names. `stuck` has the
small names of the channels that were stuck and not unstuck since. `said` has what `PutModule` said, the newest first.

Results:
- `good_drop_iff`, `goodAt_submit_iff`: when a channel that is unstuck is gone;
- `good_step_iff`: the condition of each event is exact;
- `sticky_iff`: the same for runs;
- `key_change`: a channel that becomes sticky by its key.
-/
import ZNC.Lib.Runs
import ZNC.Cidr
import ZNC.UserConfig

namespace ZNC.StickyChan

open CString List OrdSet

/-! ## Model -/

/-- the names of the channels of the network: `AddChan` takes no name that is there -/
structure Channels where
  names : List CString
  distinct : names.Pairwise fun sName sOther => sName.equals sOther = false

structure CStickyChan where
  m_mssRegistry : MCString
  said : List CString

/-- the events; `GetParam` are the parameters of a form -/
inductive Event where
  | stick (sCommand : CString)
  | unstick (sCommand : CString)
  | mode (sChannel : CString) (uMode : UInt8) (sArg : CString) (bAdded : Bool)
  | numeric (uCode : ℕ) (sChannel : CString)
  | webIndex (chans : Channels) (GetParam : CString → CString)
  | webChannel (sAction sChan : CString) (GetParam : CString → CString)

namespace CStickyChan

def putModule (m : CStickyChan) (sLine : CString) : CStickyChan := { m with said := sLine :: m.said }

def setNV (m : CStickyChan) (sName sValue : CString) : CStickyChan :=
  { m with m_mssRegistry := m.m_mssRegistry.insert sName sValue }

def delNV (m : CStickyChan) (sName : CString) : CStickyChan := { m with m_mssRegistry := m.m_mssRegistry.erase sName }

/-- `FindNV(sName) != EndNV()` -/
def hasNV (m : CStickyChan) (sName : CString) : Bool := (m.m_mssRegistry.find sName).isSome

/-- `OnMode`, where `CChan::M_Key` is `k` -/
def onMode (m : CStickyChan) (sChannel : CString) (uMode : UInt8) (sArg : CString) (bAdded : Bool) : CStickyChan :=
  if uMode = ch 'k' then
    if bAdded then
      -- "We ignore channel key "*" because of some broken nets."
      if sArg ≠ lit "*" then m.setNV sChannel sArg else m
    else m.setNV sChannel []
  else m

def onStickCommand (m : CStickyChan) (sCommand : CString) : CStickyChan :=
  let sChannel := (sCommand.token 1 false (ch ' ') false).asLower
  if sChannel = [] then m.putModule (lit "Usage: Stick <#channel> [key]")
  else (m.setNV sChannel (sCommand.token 2 false (ch ' ') false)).putModule (lit "Stuck " ++ sChannel)

def onUnstickCommand (m : CStickyChan) (sCommand : CString) : CStickyChan :=
  let sChannel := sCommand.token 1 false (ch ' ') false
  if sChannel = [] then m.putModule (lit "Usage: Unstick <#channel>")
  else (m.delNV sChannel).putModule (lit "Unstuck " ++ sChannel)

/-- `OnNumericMessage`, where 479 is ERR_BADCHANNAME -/
def onNumericMessage (m : CStickyChan) (uCode : ℕ) (sChannel : CString) : CStickyChan :=
  if uCode = 479 then
    if m.m_mssRegistry.keys.any fun k => sChannel.equals k then
      (m.putModule (lit "Channel " ++ sChannel ++
        lit " cannot be joined, it is an illegal channel name. Unsticking.")).onUnstickCommand
        (lit "unstick " ++ sChannel)
    else m
  else m

/-- what a form does to one channel -/
def submit (m : CStickyChan) (sChan : CString) (bNewStick : Bool) : CStickyChan :=
  if bNewStick && !m.hasNV sChan then m.setNV sChan []
  else if !bNewStick && m.hasNV sChan then m.delNV sChan
  else m

def onWebRequest (m : CStickyChan) (chans : Channels) (GetParam : CString → CString) : CStickyChan :=
  if (GetParam (lit "submitted")).toInt ≠ 0 then
    chans.names.foldl (fun m sChan => m.submit sChan (GetParam (lit "stick_" ++ sChan)).toBool) m
  else m

/-- `OnEmbeddedWebRequest` of the page "webadmin/channel" -/
def onEmbeddedWebRequest (m : CStickyChan) (sAction sChan : CString) (GetParam : CString → CString) : CStickyChan :=
  if sAction.equals (lit "display") then m
  else if (GetParam (lit "embed_stickychan_presented")).toBool then
    m.submit sChan (GetParam (lit "embed_stickychan_sticky")).toBool
  else m

def step (m : CStickyChan) : Event → CStickyChan
  | .stick sCommand => m.onStickCommand sCommand
  | .unstick sCommand => m.onUnstickCommand sCommand
  | .mode sChannel uMode sArg bAdded => m.onMode sChannel uMode sArg bAdded
  | .numeric uCode sChannel => m.onNumericMessage uCode sChannel
  | .webIndex chans GetParam => m.onWebRequest chans GetParam
  | .webChannel sAction sChan GetParam => m.onEmbeddedWebRequest sAction sChan GetParam

/-- a channel of this small name is sticky -/
def Sticky (m : CStickyChan) (c : CString) : Prop := ∃ k ∈ m.m_mssRegistry.keys, k.asLower = c

/-- no other spelling of the name is in the registry -/
def Alone (m : CStickyChan) (sChan : CString) : Prop :=
  ∀ k ∈ m.m_mssRegistry.keys, k.asLower = sChan.asLower → k = sChan

end CStickyChan

/-! ## What should be sticky -/

/-- the small names of the channels that were stuck and not unstuck since -/
abbrev Stuck : Type := SCString

namespace Stuck

def submit (R : Stuck) (sChan : CString) (bNewStick : Bool) : Stuck :=
  if bNewStick then R.insert sChan.asLower else R.erase sChan.asLower

def step (R : Stuck) : Event → Stuck
  | .stick sCommand =>
    let sChannel := sCommand.token 1 false (ch ' ') false
    if sChannel = [] then R else R.insert sChannel.asLower
  | .unstick sCommand =>
    let sChannel := sCommand.token 1 false (ch ' ') false
    if sChannel = [] then R else R.erase sChannel.asLower
  | .mode _ _ _ _ => R
  | .numeric uCode sChannel => if uCode = 479 then R.erase sChannel.asLower else R
  | .webIndex chans GetParam =>
    if (GetParam (lit "submitted")).toInt ≠ 0 then
      chans.names.foldl (fun R sChan => R.submit sChan (GetParam (lit "stick_" ++ sChan)).toBool) R
    else R
  | .webChannel sAction sChan GetParam =>
    if sAction.equals (lit "display") then R
    else if (GetParam (lit "embed_stickychan_presented")).toBool then
      R.submit sChan (GetParam (lit "embed_stickychan_sticky")).toBool
    else R

end Stuck

/-- the module, and what should be sticky -/
structure Session where
  mod : CStickyChan
  stuck : Stuck

def Session.step (s : Session) (ev : Event) : Session := ⟨s.mod.step ev, s.stuck.step ev⟩

def Session.start : Session := ⟨⟨.empty, []⟩, .empty⟩

/-- the channel is sticky exactly if it should be -/
def GoodAt (s : Session) (c : CString) : Prop := s.mod.Sticky c ↔ c ∈ s.stuck

def Good (s : Session) : Prop := ∀ c, GoodAt s c

open CStickyChan

/-- what the events take: a key is changed only for a sticky channel; a channel that is unstuck is named as in the registry, where no
other spelling is; and a 479 names a channel that `Unstick` reads as one word -/
def Meets (s : Session) : Event → Prop
  | .stick _ => True
  | .unstick sCommand =>
    let sChannel := sCommand.token 1 false (ch ' ') false
    sChannel ≠ [] → s.mod.Alone sChannel
  | .mode sChannel uMode sArg bAdded =>
    uMode = ch 'k' → (bAdded = true → sArg ≠ lit "*") → s.mod.Sticky sChannel.asLower
  | .numeric uCode sChannel =>
    let sWord := (lit "unstick " ++ sChannel).token 1 false (ch ' ') false
    uCode = 479 → (∃ k ∈ s.mod.m_mssRegistry.keys, sChannel.equals k = true) →
      (∀ k ∈ s.mod.m_mssRegistry.keys, k.asLower = sChannel.asLower → sWord ≠ [] ∧ k = sWord) ∧
        (sWord ≠ [] → sWord ∈ s.mod.m_mssRegistry.keys → sWord.asLower = sChannel.asLower ∨
          ∃ k ∈ s.mod.m_mssRegistry.keys, k ≠ sWord ∧ k.asLower = sWord.asLower)
  | .webIndex chans GetParam =>
    (GetParam (lit "submitted")).toInt ≠ 0 →
      ∀ sChan ∈ chans.names, (GetParam (lit "stick_" ++ sChan)).toBool = false → s.mod.Alone sChan
  | .webChannel sAction sChan GetParam =>
    sAction.equals (lit "display") = false → (GetParam (lit "embed_stickychan_presented")).toBool = true →
      (GetParam (lit "embed_stickychan_sticky")).toBool = false → s.mod.Alone sChan

/-! ## The registry -/

section Registry

variable (m : CStickyChan) (sName sValue c : CString)

theorem sticky_setNV : (m.setNV sName sValue).Sticky c ↔ sName.asLower = c ∨ m.Sticky c := by
  simp only [Sticky, setNV, OrdMap.mem_keys_insert]
  constructor
  · rintro ⟨k, rfl | hk, hc⟩
    · exact .inl hc
    · exact .inr ⟨k, hk, hc⟩
  · rintro (hc | ⟨k, hk, hc⟩)
    · exact ⟨sName, .inl rfl, hc⟩
    · exact ⟨k, .inr hk, hc⟩

theorem sticky_delNV : (m.delNV sName).Sticky c ↔ ∃ k ∈ m.m_mssRegistry.keys, k ≠ sName ∧ k.asLower = c := by
  simp only [Sticky, delNV, OrdMap.mem_keys_erase]
  constructor
  · rintro ⟨k, ⟨hne, hk⟩, hc⟩
    exact ⟨k, hk, hne, hc⟩
  · rintro ⟨k, hk, hne, hc⟩
    exact ⟨k, ⟨hne, hk⟩, hc⟩

theorem hasNV_iff : m.hasNV sName = true ↔ sName ∈ m.m_mssRegistry.keys := m.m_mssRegistry.find_isSome_iff sName

theorem sticky_submit (bNewStick : Bool) : (m.submit sName bNewStick).Sticky c ↔
    if bNewStick then sName.asLower = c ∨ m.Sticky c else ∃ k ∈ m.m_mssRegistry.keys, k ≠ sName ∧ k.asLower = c := by
  by_cases hin : sName ∈ m.m_mssRegistry.keys
  · have hhas : m.hasNV sName = true := (hasNV_iff m sName).2 hin
    cases bNewStick with
    | true =>
      have hsame : m.submit sName true = m := by simp [submit, hhas]
      rw [hsame, if_pos rfl]
      refine ⟨.inr, ?_⟩
      rintro (hc | hc)
      · exact ⟨sName, hin, hc⟩
      · exact hc
    | false =>
      have hdel : m.submit sName false = m.delNV sName := by simp [submit, hhas]
      rw [hdel, if_neg Bool.false_ne_true, sticky_delNV]
  · have hhas : m.hasNV sName = false := Bool.eq_false_iff.2 fun hhas => hin ((hasNV_iff m sName).1 hhas)
    cases bNewStick with
    | true =>
      have hset : m.submit sName true = m.setNV sName [] := by simp [submit, hhas]
      rw [hset, if_pos rfl, sticky_setNV]
    | false =>
      have hsame : m.submit sName false = m := by simp [submit, hhas]
      rw [hsame, if_neg Bool.false_ne_true]
      constructor
      · rintro ⟨k, hk, hc⟩
        exact ⟨k, hk, fun hname => hin (hname ▸ hk), hc⟩
      · rintro ⟨k, hk, -, hc⟩
        exact ⟨k, hk, hc⟩

end Registry

/-! ## One change -/

variable {s : Session} {m : CStickyChan} {R : Stuck} {sName c : CString}

/-- **A name that becomes sticky** and should -/
theorem good_put (h : Good ⟨m, R⟩) (sName sValue : CString) : Good ⟨m.setNV sName sValue, R.insert sName.asLower⟩ := by
  intro c
  have hc := h c
  rw [GoodAt] at hc ⊢
  rw [sticky_setNV, mem_insert, hc, eq_comm]

theorem good_set_iff (h : Good ⟨m, R⟩) (sName sValue : CString) :
    Good ⟨m.setNV sName sValue, R⟩ ↔ m.Sticky sName.asLower := by
  constructor
  · intro hgood
    have hnew := (hgood sName.asLower).1 ((sticky_setNV m sName sValue _).2 (.inl rfl))
    exact (h sName.asLower).2 hnew
  · intro hsticky c
    have hc := h c
    rw [GoodAt] at hc ⊢
    rw [sticky_setNV, ← hc]
    refine ⟨?_, .inr⟩
    rintro (rfl | hin)
    · exact hsticky
    · exact hin

/-- **An entry that is deleted** for a name -/
theorem good_drop_iff (h : Good ⟨m, R⟩) (sWord c : CString) : Good ⟨m.delNV sWord, R.erase c⟩ ↔
    (∀ k ∈ m.m_mssRegistry.keys, k.asLower = c → k = sWord) ∧
      (sWord ∈ m.m_mssRegistry.keys → sWord.asLower = c ∨ ∃ k ∈ m.m_mssRegistry.keys, k ≠ sWord ∧
        k.asLower = sWord.asLower) := by
  constructor
  · intro hgood
    constructor
    · intro k hk hc
      by_contra hne
      have hsticky := (hgood c).1 ((sticky_delNV m sWord c).2 ⟨k, hk, hne, hc⟩)
      exact ((mem_erase R c c).1 hsticky).1 rfl
    · intro hword
      by_cases hc : sWord.asLower = c
      · exact .inl hc
      · right
        have hin : sWord.asLower ∈ R := (h sWord.asLower).1 ⟨sWord, hword, rfl⟩
        exact (sticky_delNV m sWord _).1 ((hgood sWord.asLower).2 ((mem_erase R c _).2 ⟨hc, hin⟩))
  · rintro ⟨halone, hword⟩ d
    have hd := h d
    rw [GoodAt] at hd ⊢
    rw [sticky_delNV, mem_erase, ← hd]
    constructor
    · rintro ⟨k, hk, hne, rfl⟩
      exact ⟨fun hc => hne (halone k hk hc), k, hk, rfl⟩
    · rintro ⟨hne, k, hk, rfl⟩
      by_cases hkw : k = sWord
      · subst hkw
        rcases hword hk with hc | hmore
        · exact absurd hc hne
        · exact hmore
      · exact ⟨k, hk, hkw, rfl⟩

theorem good_forget_iff (h : Good ⟨m, R⟩) (c : CString) :
    Good ⟨m, R.erase c⟩ ↔ ∀ k ∈ m.m_mssRegistry.keys, k.asLower ≠ c := by
  constructor
  · intro hgood k hk hc
    exact ((mem_erase R c c).1 ((hgood c).1 ⟨k, hk, hc⟩)).1 rfl
  · intro hnone d
    have hd := h d
    rw [GoodAt] at hd ⊢
    rw [mem_erase, ← hd]
    refine ⟨fun hsticky => ⟨?_, hsticky⟩, And.right⟩
    rintro rfl
    obtain ⟨k, hk, hc⟩ := hsticky
    exact hnone k hk hc

/-! ## Forms -/

theorem goodAt_submit_of_ne {sChan : CString} (bNewStick : Bool) (hne : sChan.asLower ≠ c) :
    GoodAt ⟨m.submit sChan bNewStick, R.submit sChan bNewStick⟩ c ↔ GoodAt ⟨m, R⟩ c := by
  rw [GoodAt, GoodAt, sticky_submit, Stuck.submit]
  cases bNewStick with
  | true => simp [hne, Ne.symm hne]
  | false =>
    have hsame : (∃ k ∈ m.m_mssRegistry.keys, k ≠ sChan ∧ k.asLower = c) ↔ m.Sticky c := by
      constructor
      · rintro ⟨k, hk, -, hc⟩
        exact ⟨k, hk, hc⟩
      · rintro ⟨k, hk, hc⟩
        exact ⟨k, hk, fun hname => hne (hname ▸ hc), hc⟩
    simp [hsame, Ne.symm hne]

/-- **A form at the name of its channel** -/
theorem goodAt_submit_iff {sChan : CString} (bNewStick : Bool) :
    GoodAt ⟨m.submit sChan bNewStick, R.submit sChan bNewStick⟩ sChan.asLower ↔
      (bNewStick = false → m.Alone sChan) := by
  rw [GoodAt, sticky_submit, Stuck.submit]
  cases bNewStick with
  | true => simp
  | false =>
    have hgone : sChan.asLower ∉ R.erase sChan.asLower := fun hin => ((mem_erase R _ _).1 hin).1 rfl
    simp only [Bool.false_eq_true, if_false, hgone, iff_false, forall_const]
    constructor
    · intro hnone k hk hc
      by_contra hne
      exact hnone ⟨k, hk, hne, hc⟩
    · rintro halone ⟨k, hk, hne, hc⟩
      exact hne (halone k hk hc)

theorem alone_submit {sChan sOther : CString} (bNewStick : Bool) (hne : sChan.asLower ≠ sOther.asLower) :
    (m.submit sChan bNewStick).Alone sOther ↔ m.Alone sOther := by
  have hkeys : ∀ k, k.asLower = sOther.asLower →
      (k ∈ (m.submit sChan bNewStick).m_mssRegistry.keys ↔ k ∈ m.m_mssRegistry.keys) := by
    intro k hk
    have hkne : k ≠ sChan := fun heq => hne (heq ▸ hk)
    unfold submit
    split_ifs
    · rw [setNV, OrdMap.mem_keys_insert, or_iff_right hkne]
    · rw [delNV, OrdMap.mem_keys_erase, and_iff_right hkne]
    · rfl
  constructor
  · intro halone k hk hc
    exact halone k ((hkeys k hc).2 hk) hc
  · intro halone k hk hc
    exact halone k ((hkeys k hc).1 hk) hc

theorem good_submits_iff (bNew : CString → Bool) {names : List CString}
    (hdistinct : names.Pairwise fun sName sOther => sName.asLower ≠ sOther.asLower) (m : CStickyChan) (R : Stuck) :
    Good ⟨names.foldl (fun m sChan => m.submit sChan (bNew sChan)) m,
        names.foldl (fun R sChan => R.submit sChan (bNew sChan)) R⟩ ↔
      (∀ c, (∀ sChan ∈ names, sChan.asLower ≠ c) → GoodAt ⟨m, R⟩ c) ∧
        ∀ sChan ∈ names, bNew sChan = false → m.Alone sChan := by
  induction names generalizing m R with
  | nil => exact ⟨fun h => ⟨fun c _ => h c, fun _ hn => nomatch hn⟩, fun h c => h.1 c (by simp)⟩
  | cons x names ih =>
    obtain ⟨hx, hdistinct⟩ := pairwise_cons.1 hdistinct
    rw [foldl_cons, foldl_cons, ih hdistinct]
    have hrest : ∀ sChan ∈ names, ((m.submit x (bNew x)).Alone sChan ↔ m.Alone sChan) := fun sChan hn =>
      alone_submit (bNew x) (hx sChan hn)
    constructor
    · rintro ⟨hother, halone⟩
      refine ⟨fun c hc => ?_, fun sChan hn => ?_⟩
      · have hgood := hother c fun sChan hn => hc sChan (mem_cons_of_mem x hn)
        exact (goodAt_submit_of_ne (bNew x) (hc x mem_cons_self)).1 hgood
      · rcases mem_cons.1 hn with rfl | hn
        · exact (goodAt_submit_iff (bNew sChan)).1 (hother sChan.asLower fun sOther ho => (hx sOther ho).symm)
        · exact fun hfalse => (hrest sChan hn).1 (halone sChan hn hfalse)
    · rintro ⟨hother, halone⟩
      refine ⟨fun c hc => ?_, fun sChan hn hfalse => ?_⟩
      · by_cases hxc : x.asLower = c
        · rw [← hxc]
          exact (goodAt_submit_iff (bNew x)).2 (halone x mem_cons_self)
        · refine (goodAt_submit_of_ne (bNew x) hxc).2 (hother c fun sChan hn => ?_)
          rcases mem_cons.1 hn with rfl | hn
          · exact hxc
          · exact hc sChan hn
      · exact (hrest sChan hn).2 (halone sChan (mem_cons_of_mem x hn) hfalse)

/-! ## Steps and runs -/

theorem good_step_iff (h : Good s) (ev : Event) : Good (s.step ev) ↔ Meets s ev := by
  obtain ⟨m, R⟩ := s
  cases ev with
  | stick sCommand =>
    refine iff_of_true ?_ trivial
    rw [Session.step, step, onStickCommand, Stuck.step]
    have hempty : (sCommand.token 1 false (ch ' ') false).asLower = [] ↔
      sCommand.token 1 false (ch ' ') false = [] := by
      rw [asLower, map_eq_nil_iff]
    by_cases hchan : sCommand.token 1 false (ch ' ') false = []
    · rw [if_pos (hempty.2 hchan), if_pos hchan]
      exact h
    · rw [if_neg (mt hempty.1 hchan), if_neg hchan]
      have hput := good_put h (sCommand.token 1 false (ch ' ') false).asLower (sCommand.token 2 false (ch ' ') false)
      rw [asLower_asLower] at hput
      exact hput
  | unstick sCommand =>
    rw [Session.step, step, onUnstickCommand, Stuck.step, Meets]
    by_cases hchan : sCommand.token 1 false (ch ' ') false = []
    · rw [if_pos hchan, if_pos hchan]
      exact iff_of_true h fun hne => absurd hchan hne
    · rw [if_neg hchan, if_neg hchan]
      refine (good_drop_iff h _ _).trans ⟨fun hboth _ => hboth.1, fun halone => ⟨halone hchan, fun _ => .inl rfl⟩⟩
  | mode sChannel uMode sArg bAdded =>
    rw [Session.step, step, onMode, Stuck.step, Meets]
    by_cases hkey : uMode = ch 'k'
    · rw [if_pos hkey]
      cases bAdded with
      | true =>
        rw [if_pos rfl]
        by_cases harg : sArg = lit "*"
        · rw [if_neg (not_not.2 harg)]
          exact iff_of_true h fun _ hne => absurd harg (hne rfl)
        · rw [if_pos harg, good_set_iff h]
          exact ⟨fun hsticky _ _ => hsticky, fun hsticky => hsticky hkey fun _ => harg⟩
      | false =>
        rw [if_neg Bool.false_ne_true, good_set_iff h]
        exact ⟨fun hsticky _ _ => hsticky, fun hsticky => hsticky hkey fun hfalse => absurd hfalse Bool.false_ne_true⟩
    · rw [if_neg hkey]
      exact iff_of_true h fun heq => absurd heq hkey
  | numeric uCode sChannel =>
    rw [Session.step, step, onNumericMessage, Stuck.step, Meets]
    by_cases hcode : uCode = 479
    · rw [if_pos hcode, if_pos hcode]
      by_cases hfound : ∃ k ∈ m.m_mssRegistry.keys, sChannel.equals k = true
      · rw [if_pos (any_eq_true.2 hfound), onUnstickCommand]
        dsimp only
        by_cases hword : (lit "unstick " ++ sChannel).token 1 false (ch ' ') false = []
        · rw [if_pos hword]
          refine (good_forget_iff h _).trans ⟨fun hnone _ _ => ⟨fun k hk hc => absurd hc (hnone k hk), ?_⟩, ?_⟩
          · exact fun hne => absurd hword hne
          · exact fun hboth k hk hc => ((hboth hcode hfound).1 k hk hc).1 hword
        · rw [if_neg hword]
          refine (good_drop_iff h _ _).trans ⟨fun hboth _ _ => ⟨fun k hk hc => ⟨hword, hboth.1 k hk hc⟩, ?_⟩, ?_⟩
          · exact fun _ => hboth.2
          · exact fun hall => ⟨fun k hk hc => ((hall hcode hfound).1 k hk hc).2, (hall hcode hfound).2 hword⟩
      · rw [if_neg fun hany => hfound (any_eq_true.1 hany)]
        refine iff_of_true ((good_forget_iff h _).2 fun k hk hc => ?_) fun _ hyes => absurd hyes hfound
        exact hfound ⟨k, hk, equals_of_asLower hc.symm⟩
    · rw [if_neg hcode, if_neg hcode]
      exact iff_of_true h fun heq => absurd heq hcode
  | webIndex chans GetParam =>
    rw [Session.step, step, onWebRequest, Stuck.step, Meets]
    by_cases hsubmitted : (GetParam (lit "submitted")).toInt ≠ 0
    · rw [if_pos hsubmitted, if_pos hsubmitted]
      have hdistinct : chans.names.Pairwise fun sName sOther => sName.asLower ≠ sOther.asLower :=
        chans.distinct.imp fun hne heq => by simp [equals_of_asLower heq] at hne
      rw [good_submits_iff (fun sChan => (GetParam (lit "stick_" ++ sChan)).toBool) hdistinct]
      exact ⟨fun hboth _ => hboth.2, fun halone => ⟨fun c _ => h c, halone hsubmitted⟩⟩
    · rw [if_neg hsubmitted, if_neg hsubmitted]
      exact iff_of_true h fun hyes => absurd hyes hsubmitted
  | webChannel sAction sChan GetParam =>
    rw [Session.step, step, onEmbeddedWebRequest, Stuck.step, Meets]
    by_cases hdisplay : sAction.equals (lit "display") = true
    · rw [if_pos hdisplay, if_pos hdisplay]
      exact iff_of_true h fun hno => by simp [hdisplay] at hno
    · rw [if_neg hdisplay, if_neg hdisplay]
      by_cases hpresented : (GetParam (lit "embed_stickychan_presented")).toBool = true
      · rw [if_pos hpresented, if_pos hpresented]
        have hone := good_submits_iff (fun _ => (GetParam (lit "embed_stickychan_sticky")).toBool)
          (pairwise_singleton _ sChan) m R
        refine hone.trans ⟨fun hboth _ _ => hboth.2 sChan mem_cons_self, fun halone => ⟨fun c _ => h c, ?_⟩⟩
        intro sOther hother
        rw [mem_singleton.1 hother]
        exact halone (Bool.eq_false_iff.2 hdisplay) hpresented
      · rw [if_neg hpresented, if_neg hpresented]
        exact iff_of_true h fun _ hyes => absurd hyes hpresented

theorem good_start : Good .start := by
  intro c
  refine iff_of_false ?_ (not_mem_empty c)
  rintro ⟨k, hk, -⟩
  exact nomatch hk

/-- **The sticky channels are those that were stuck and not unstuck since**, after every event of a run, exactly if each event meets
its condition. -/
theorem sticky_iff (evs : List Event) :
    Runs.States Session.step Good evs .start ↔ Runs.Steps Session.step Meets evs .start := by
  have htrue : Runs.Steps Session.step (fun _ _ => True) evs .start := Runs.steps_iff.2 fun _ _ _ _ => trivial
  have hto : ∀ s ev, Good s → True → Meets s ev → Good (s.step ev) ∧ True := fun s ev h _ hmeets =>
    ⟨(good_step_iff h ev).2 hmeets, trivial⟩
  have hfrom : ∀ s ev, Good s → True → Good (s.step ev) → True → Meets s ev := fun s ev h _ hgood _ =>
    (good_step_iff h ev).1 hgood
  exact (and_iff_left htrue).symm.trans (Runs.keeps_iff (fun s h => h) hto hfrom evs good_start htrue)

/-- **A channel key makes a channel sticky** that nobody stuck. -/
theorem key_change :
    let s := Session.start.step (.mode (lit "#znc") (ch 'k') (lit "secret") true)
    s.mod.m_mssRegistry.keys = [lit "#znc"] ∧ s.stuck = .empty ∧ ¬ Good s := by
  intro s
  have hkeys : s.mod.m_mssRegistry.keys = [lit "#znc"] := by decide
  have hstuck : s.stuck = .empty := rfl
  refine ⟨hkeys, hstuck, fun hgood => ?_⟩
  have hin := (hgood (lit "#znc")).1 ⟨lit "#znc", by rw [hkeys]; exact mem_singleton.2 rfl, by decide⟩
  rw [hstuck] at hin
  exact not_mem_empty _ hin

end ZNC.StickyChan
