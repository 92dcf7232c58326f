/-
The JOIN of a client: `CClient::OnJoinMessage`, which passes on the channels that are new, with their keys.

Channels and keys are two comma lists. They are split, and put together again without the channels that a module halts or that
are known already. A comma stands in front of a key only if a key came before it that is not empty, so empty keys at the start
are lost.

Model: a module may halt a channel, or change it and its key. Of the known channels, `AttachUser` and `JoinUser` do no more here
than in `JoinedChans`.

Results:
- `onJoinMessage_eq`: the message that is passed on;
- `join_keys_iff`: its channels have their own keys if and only if the first of them has a key, or none has;
- `join_keys_shift`: after an empty key the next key goes to the first channel.
-/
import ZNC.JoinedChans

namespace ZNC.JoinKeys

open CString JoinedChans List

/-! ## Model -/

/-- `OnUserJoinMessage` of the modules, for the channel at a place: nothing if it is halted -/
abbrev Hook : Type := ℕ → CString × CString → Option (CString × CString)

/-- `sChans += sChans.empty() ? sChannel : "," + sChannel` -/
def addTo (sList sItem : CString) : CString := if sList = [] then sItem else sList ++ lit "," ++ sItem

/-- the loop over the channels, from the place `a` on -/
def joinLoop (hook : Hook) (pClient : ℕ) (bConnected : Bool) (vsKeys : VCString) :
    ℕ → VCString → JoinedChans.CIRCNetwork → CString × CString → CString × CString
  | _, [], _, lists => lists
  | a, sChan :: vsChans, net, (sChans, sKeys) =>
    match hook a (sChan, if a < vsKeys.length then vsKeys.getD a [] else []) with
    | none => joinLoop hook pClient bConnected vsKeys (a + 1) vsChans net (sChans, sKeys)
    | some (sChannel, sKey) =>
      let net' := net.clientJoin pClient sChannel
      if (net.findChan sChannel).isSome then
        joinLoop hook pClient bConnected vsKeys (a + 1) vsChans net' (sChans, sKeys)
      else if sChannel ≠ [] ∧ bConnected then
        joinLoop hook pClient bConnected vsKeys (a + 1) vsChans net'
          (addTo sChans sChannel, if vsKeys ≠ [] then addTo sKeys sKey else sKeys)
      else joinLoop hook pClient bConnected vsKeys (a + 1) vsChans net' (sChans, sKeys)

/-- `OnJoinMessage`: the target and the key of the message that is passed on, if it is -/
def onJoinMessage (hook : Hook) (pClient : ℕ) (pNetwork : Option (JoinedChans.CIRCNetwork × Bool))
    (sChans sKeys : CString) :
    Option (CString × CString) :=
  match pNetwork with
  | none => none
  | some (net, bConnected) =>
    let lists := joinLoop hook pClient bConnected (sKeys.split (ch ',') true) 0
      (sChans.split (ch ',') false) net ([], [])
    if lists.1 = [] then none else some lists

/-! ## Statement -/

/-- a JOIN line as a server reads it: each channel with the key at its place -/
def pairs (sChans sKeys : CString) : List (CString × CString) :=
  (sChans.split (ch ',') false).mapIdx fun i sChan => (sChan, (sKeys.split (ch ',') true).getD i [])

/-- modules that halt some places -/
def haltAt (halts : ℕ → Bool) : Hook := fun a m => if halts a then none else some m

/-- the channels that are neither halted nor known when their turn comes, each with the key the client gave at its place -/
def remaining (halts : ℕ → Bool) (pClient : ℕ) (vsKeys : VCString) :
    ℕ → VCString → JoinedChans.CIRCNetwork → List (CString × CString)
  | _, [], _ => []
  | a, sChan :: vsChans, net =>
    if halts a then remaining halts pClient vsKeys (a + 1) vsChans net
    else if (net.findChan sChan).isSome then
      remaining halts pClient vsKeys (a + 1) vsChans (net.clientJoin pClient sChan)
    else (sChan, vsKeys.getD a []) :: remaining halts pClient vsKeys (a + 1) vsChans (net.clientJoin pClient sChan)

/-- the channels of a JOIN that have to be passed on; none while ZNC is not connected -/
def expected (halts : ℕ → Bool) (pClient : ℕ) (pNetwork : Option (JoinedChans.CIRCNetwork × Bool))
    (sChans sKeys : CString) :
    List (CString × CString) :=
  match pNetwork with
  | some (net, true) => remaining halts pClient (sKeys.split (ch ',') true) 0 (sChans.split (ch ',') false) net
  | _ => []

/-- what was passed on -/
def passed (halts : ℕ → Bool) (pClient : ℕ) (pNetwork : Option (JoinedChans.CIRCNetwork × Bool))
    (sChans sKeys : CString) :
    List (CString × CString) :=
  match onJoinMessage (haltAt halts) pClient pNetwork sChans sKeys with
  | some (sTarget, sKey) => pairs sTarget sKey
  | none => []

/-- the first channel has a key, or none has -/
def Leads (l : List (CString × CString)) : Prop := (∀ x ∈ l.head?, x.2 ≠ []) ∨ ∀ x ∈ l, x.2 = []

instance (l : List (CString × CString)) : Decidable (Leads l) := by unfold Leads; infer_instance

/-! ## Lists -/

theorem foldl_addTo (items : VCString) : items.foldl addTo [] = join (lit ",") (items.dropWhile (· = [])) := by
  have hgo (sList : CString) (hne : sList ≠ []) (items : VCString) :
      items.foldl addTo sList = sList ++ items.flatMap (lit "," ++ ·) := by
    induction items generalizing sList with
    | nil => rw [foldl_nil, flatMap_nil, append_nil]
    | cons sItem items ih =>
      rw [foldl_cons, addTo, if_neg hne, ih _ (by simp [hne]), flatMap_cons, append_assoc, append_assoc, append_assoc]
  induction items with
  | nil => rfl
  | cons sItem items ih =>
    by_cases hnil : sItem = []
    · rw [foldl_cons, addTo, if_pos rfl, hnil, ih]
      rfl
    · rw [foldl_cons, addTo, if_pos rfl, hgo sItem hnil, dropWhile_cons_of_neg (by simpa using hnil), join_cons]

theorem joinLoop_eq (halts : ℕ → Bool) (pClient : ℕ) (vsKeys : VCString) {vsChans : VCString}
    (hne : ∀ sChan ∈ vsChans, sChan ≠ []) (a : ℕ) (net : JoinedChans.CIRCNetwork) (lists : CString × CString) :
    joinLoop (haltAt halts) pClient true vsKeys a vsChans net lists =
      (((remaining halts pClient vsKeys a vsChans net).map (·.1)).foldl addTo lists.1,
        if vsKeys ≠ [] then ((remaining halts pClient vsKeys a vsChans net).map (·.2)).foldl addTo lists.2 else lists.2) := by
  induction vsChans generalizing a net lists with
  | nil => simp [joinLoop, remaining]
  | cons sChan vsChans ih =>
    have hrest (a : ℕ) (net : JoinedChans.CIRCNetwork) (lists : CString × CString) :=
      ih (fun c hc => hne c (mem_cons_of_mem _ hc)) a net lists
    have hkey : (if a < vsKeys.length then vsKeys.getD a [] else []) = vsKeys.getD a [] := by
      split
      · rfl
      · rename_i hlt
        rw [getD_eq_getElem?_getD, getElem?_eq_none (not_lt.1 hlt), Option.getD_none]
    obtain ⟨sChans, sKeys⟩ := lists
    rw [joinLoop, remaining, haltAt, hkey]
    by_cases hhalt : halts a = true
    · rw [if_pos hhalt, if_pos hhalt]
      exact hrest (a + 1) net (sChans, sKeys)
    · rw [if_neg hhalt, if_neg hhalt]
      dsimp only
      by_cases hknown : (net.findChan sChan).isSome = true
      · rw [if_pos hknown, if_pos hknown]
        exact hrest (a + 1) _ (sChans, sKeys)
      · rw [if_neg hknown, if_neg hknown, if_pos ⟨hne sChan mem_cons_self, rfl⟩]
        refine (hrest (a + 1) _ _).trans ?_
        rw [map_cons, map_cons, foldl_cons, foldl_cons]
        split <;> rfl

theorem joinLoop_disconnected (hook : Hook) (pClient : ℕ) (vsKeys : VCString) (a : ℕ) (vsChans : VCString)
    (net : JoinedChans.CIRCNetwork)
    (lists : CString × CString) : joinLoop hook pClient false vsKeys a vsChans net lists = lists := by
  induction vsChans generalizing a net with
  | nil => rfl
  | cons sChan vsChans ih =>
    rw [joinLoop]
    split
    · exact ih _ _
    · rename_i sChannel sKey _
      have hoff : ¬(sChannel ≠ [] ∧ false = true) := fun h => Bool.false_ne_true h.2
      dsimp only
      rw [if_neg hoff, ite_self]
      exact ih _ _

theorem mem_remaining {halts : ℕ → Bool} {pClient : ℕ} {vsKeys : VCString} {a : ℕ} {vsChans : VCString}
    {net : JoinedChans.CIRCNetwork}
    {x : CString × CString} (hx : x ∈ remaining halts pClient vsKeys a vsChans net) :
    x.1 ∈ vsChans ∧ (x.2 ∈ vsKeys ∨ x.2 = []) := by
  induction vsChans generalizing a net with
  | nil => exact nomatch hx
  | cons sChan vsChans ih =>
    rw [remaining] at hx
    split_ifs at hx
    · exact (ih hx).imp_left (mem_cons_of_mem _)
    · exact (ih hx).imp_left (mem_cons_of_mem _)
    · rcases mem_cons.1 hx with rfl | hx
      · refine ⟨mem_cons_self, ?_⟩
        rw [getD_eq_getElem?_getD]
        cases hkey : vsKeys[a]? with
        | none => exact .inr rfl
        | some sKey => exact .inl (mem_of_getElem? hkey)
      · exact (ih hx).imp_left (mem_cons_of_mem _)

/-! ## Keys at their places -/

theorem dropWhile_getD_iff (ks : VCString) :
    (∀ i < ks.length, (ks.dropWhile (· = [])).getD i [] = ks.getD i []) ↔
      (∀ k ∈ ks.head?, k ≠ []) ∨ ∀ k ∈ ks, k = [] := by
  constructor
  · intro h
    cases ks with
    | nil => exact .inl fun k hk => nomatch hk
    | cons k ks =>
      by_cases hk : k = []
      · refine .inr ?_
        -- the first key that is left would stand at the first place
        have hfirst := h 0 (by simp)
        rw [getD_cons_zero, hk] at hfirst
        by_contra hall
        push Not at hall
        obtain ⟨k', hk', hne⟩ := hall
        have hleft : (k :: ks).dropWhile (· = []) ≠ [] := by
          rw [ne_eq, dropWhile_eq_nil_iff]
          intro hno
          exact hne (by simpa using hno k' hk')
        have hhead := head_dropWhile_not (p := fun k : CString => decide (k = [])) (l := k :: ks) hleft
        obtain ⟨k'', ks'', heq⟩ := exists_cons_of_ne_nil hleft
        simp only [heq, head_cons, decide_eq_false_iff_not] at hhead
        rw [hk] at heq
        rw [heq, getD_cons_zero] at hfirst
        exact hhead hfirst
      · exact .inl fun k' hk' => by simpa [← Option.some.inj hk'] using hk
  · rintro (hfirst | hall) i hi
    · cases ks with
      | nil => rfl
      | cons k ks => rw [dropWhile_cons_of_neg (by simpa using hfirst k rfl)]
    · have hnil : ks.dropWhile (· = []) = [] := dropWhile_eq_nil_iff.2 fun k hk => by simpa using hall k hk
      have hkey : ks.getD i [] = [] := by
        rw [getD_eq_getElem?_getD, getElem?_eq_getElem hi, Option.getD_some, hall _ (getElem_mem hi)]
      rw [hnil, hkey]
      rfl

theorem pairs_join {sChans sKeys : VCString} (hchans : ∀ sChan ∈ sChans, sChan ≠ [] ∧ ch ',' ∉ sChan ∧ 0 ∉ sChan)
    (hkeys : ∀ sKey ∈ sKeys, ch ',' ∉ sKey ∧ 0 ∉ sKey) :
    pairs (join (lit ",") sChans) (join (lit ",") sKeys) = sChans.mapIdx fun i sChan => (sChan, sKeys.getD i []) := by
  have hcomma : ch ',' ≠ 0 := by decide
  have hread (i : ℕ) : ((join (lit ",") sKeys).split (ch ',') true).getD i [] = sKeys.getD i [] :=
    split_join_getD hcomma hkeys i
  have hwords : (join (lit ",") sChans).split (ch ',') false = sChans := split_join hcomma hchans
  rw [pairs, hwords]
  simp only [hread]

theorem onJoinMessage_eq (halts : ℕ → Bool) (pClient : ℕ) (pNetwork : Option (JoinedChans.CIRCNetwork × Bool))
    (sChans sKeys : CString) :
    passed halts pClient pNetwork sChans sKeys =
      (expected halts pClient pNetwork sChans sKeys).mapIdx fun i x =>
        (x.1, (((expected halts pClient pNetwork sChans sKeys).map (·.2)).dropWhile (· = [])).getD i []) := by
  cases pNetwork with
  | none => rfl
  | some p =>
    obtain ⟨net, bConnected⟩ := p
    cases bConnected with
    | false =>
      have hnone := joinLoop_disconnected (haltAt halts) pClient (sKeys.split (ch ',') true) 0
        (sChans.split (ch ',') false) net ([], [])
      simp [passed, onJoinMessage, hnone, expected]
    | true =>
      have hchans {sChan : CString} (hmem : sChan ∈ sChans.split (ch ',') false) := mem_split hmem
      have hkeys {sKey : CString} (hmem : sKey ∈ sKeys.split (ch ',') true) := mem_split hmem
      have hloop := joinLoop_eq halts pClient (sKeys.split (ch ',') true)
        (fun sChan hmem => (hchans hmem).2.2 rfl) 0 net ([], [])
      simp only [passed, onJoinMessage, expected, hloop, foldl_addTo]
      generalize hrem : remaining halts pClient (sKeys.split (ch ',') true) 0 (sChans.split (ch ',') false) net = rem
      have hof {x : CString × CString} (hx : x ∈ rem) :
        (x.1 ≠ [] ∧ ch ',' ∉ x.1 ∧ 0 ∉ x.1) ∧ ch ',' ∉ x.2 ∧ 0 ∉ x.2 := by
        obtain ⟨hchan, hkey⟩ := mem_remaining (hrem ▸ hx)
        refine ⟨⟨(hchans hchan).2.2 rfl, (hchans hchan).1, (hchans hchan).2.1⟩, ?_⟩
        rcases hkey with hkey | hkey
        · exact ⟨(hkeys hkey).1, (hkeys hkey).2.1⟩
        · rw [hkey]
          exact ⟨not_mem_nil, not_mem_nil⟩
      have hnames : (rem.map (·.1)).dropWhile (· = []) = rem.map (·.1) := by
        cases rem with
        | nil => rfl
        | cons x rem => rw [map_cons, dropWhile_cons_of_neg (by simpa using (hof mem_cons_self).1.1)]
      -- without keys the keys at the places are empty
      have hnokeys (hnil : sKeys.split (ch ',') true = []) : (rem.map (·.2)).dropWhile (· = []) = [] := by
        rw [dropWhile_eq_nil_iff]
        intro sKey hmem
        obtain ⟨x, hx, rfl⟩ := mem_map.1 hmem
        rcases (mem_remaining (hrem ▸ hx)).2 with hkey | hkey
        · rw [hnil] at hkey
          exact nomatch hkey
        · simpa using hkey
      have hkeyList : (if sKeys.split (ch ',') true ≠ [] then join (lit ",") ((rem.map (·.2)).dropWhile (· = [])) else []) =
          join (lit ",") ((rem.map (·.2)).dropWhile (· = [])) := by
        split
        · rfl
        · rename_i hno
          rw [hnokeys (not_not.1 hno)]
          rfl
      have hchans : ∀ sChan ∈ rem.map (·.1), sChan ≠ [] ∧ ch ',' ∉ sChan ∧ 0 ∉ sChan := by
        intro sChan hmem
        obtain ⟨x, hx, rfl⟩ := mem_map.1 hmem
        exact (hof hx).1
      have hkeys : ∀ sKey ∈ (rem.map (·.2)).dropWhile (· = []), ch ',' ∉ sKey ∧ 0 ∉ sKey := by
        intro sKey hmem
        obtain ⟨x, hx, rfl⟩ := mem_map.1 ((dropWhile_sublist _).subset hmem)
        exact (hof hx).2
      have hpairs := pairs_join hchans hkeys
      rw [hnames, hkeyList]
      cases rem with
      | nil => rfl
      | cons x rem =>
        have hsome : join (lit ",") ((x :: rem).map (·.1)) ≠ [] := by
          rw [map_cons, join_cons]
          exact append_ne_nil_of_left_ne_nil (hof mem_cons_self).1.1 _
        rw [if_neg hsome]
        dsimp only
        rw [hpairs, mapIdx_eq_iff]
        intro i
        rw [getElem?_mapIdx, getElem?_map, Option.map_map]
        rfl

/-- A JOIN pairs the channels with their own keys **if and only if** the first channel that is passed on has a key, or none of
those that are passed on has one. -/
theorem join_keys_iff (halts : ℕ → Bool) (pClient : ℕ) (pNetwork : Option (JoinedChans.CIRCNetwork × Bool))
    (sChans sKeys : CString) :
    passed halts pClient pNetwork sChans sKeys = expected halts pClient pNetwork sChans sKeys ↔
      Leads (expected halts pClient pNetwork sChans sKeys) := by
  rw [onJoinMessage_eq]
  generalize expected halts pClient pNetwork sChans sKeys = rem
  have hleads : Leads rem ↔ (∀ k ∈ (rem.map (·.2)).head?, k ≠ []) ∨ ∀ k ∈ rem.map (·.2), k = [] := by
    rw [Leads, forall_mem_map, head?_map]
    cases rem <;> simp
  rw [hleads, ← dropWhile_getD_iff, length_map]
  constructor
  · intro h i hi
    have hplace := congrArg (fun l : List (CString × CString) => (l.map (·.2)).getD i []) h
    simpa [hi] using hplace
  · intro h
    refine ext_getElem (by simp) fun i _ hi => ?_
    rw [getElem_mapIdx, h i hi]
    simp [hi]

/-- `JOIN #a,#b ,k2`, the key of the second channel only -/
theorem join_keys_shift :
    expected (fun _ => false) 1 (some (⟨lit "me", [], lit "#", true, [], []⟩, true)) (lit "#a,#b") (lit ",k2") =
        [(lit "#a", []), (lit "#b", lit "k2")] ∧
      passed (fun _ => false) 1 (some (⟨lit "me", [], lit "#", true, [], []⟩, true)) (lit "#a,#b") (lit ",k2") =
        [(lit "#a", lit "k2"), (lit "#b", [])] := by
  decide

end ZNC.JoinKeys
