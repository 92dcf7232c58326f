/-
The users of autoop: `CAutoOpUser` of `modules/autoop.cpp`.

A user has a key, hostmasks that are compared with the mask of a nick, and patterns of channels. It is saved as a line of four
fields between tabs, and the line is read with `Token`, which does not see empty fields.

Results:
- `split_set`: a joined set of words is split into the set again, but for the set of the empty word alone;
- `trim_split_iff`: so is the trimmed text exactly if nothing is trimmed;
- `saved_iff`: a user is read back from its line exactly if it meets `Fits`.
-/
import ZNC.Cidr
import ZNC.Config

namespace ZNC.AutoOp

open CString List OrdSet

/-! ## Model -/

/-- `WildCmp(sWild, sString, CaseInsensitive)` -/
def wildCmpNoCase (sWild sString : CString) : Bool := wildCmp sWild.asLower sString.asLower

structure CAutoOpUser where
  m_sUsername : CString
  m_sUserKey : CString
  m_ssHostmasks : SCString
  m_ssChans : SCString
deriving DecidableEq

namespace CAutoOpUser

def channelMatches (u : CAutoOpUser) (sChan : CString) : Bool :=
  u.m_ssChans.toList.any fun s => wildCmpNoCase s sChan.asLower

def hostMatches (u : CAutoOpUser) (sHostmask : CString) : Bool :=
  u.m_ssHostmasks.toList.any fun s => wildCmpNoCase s sHostmask

def getHostmasks (u : CAutoOpUser) : CString := join (lit ",") u.m_ssHostmasks.toList

def getChannels (u : CAutoOpUser) : CString := join (lit " ") u.m_ssChans.toList

/-- the user, and whether it has no hostmasks left -/
def delHostmasks (u : CAutoOpUser) (sHostmasks : CString) : CAutoOpUser × Bool :=
  let u := { u with m_ssHostmasks := (sHostmasks.split (ch ',') true).foldl OrdSet.erase u.m_ssHostmasks }
  (u, u.m_ssHostmasks.isEmpty)

def addHostmasks (u : CAutoOpUser) (sHostmasks : CString) : CAutoOpUser :=
  { u with m_ssHostmasks := (sHostmasks.split (ch ',') true).foldl OrdSet.insert u.m_ssHostmasks }

def delChans (u : CAutoOpUser) (sChans : CString) : CAutoOpUser :=
  { u with m_ssChans := (sChans.split (ch ' ') true).foldl (fun ss sChan => ss.erase sChan.asLower) u.m_ssChans }

def addChans (u : CAutoOpUser) (sChans : CString) : CAutoOpUser :=
  { u with m_ssChans := (sChans.split (ch ' ') true).foldl (fun ss sChan => ss.insert sChan.asLower) u.m_ssChans }

/-- `CAutoOpUser(sUsername, sUserKey, sHostmasks, sChannels)` -/
def new (sUsername sUserKey sHostmasks sChannels : CString) : CAutoOpUser :=
  ((⟨sUsername, sUserKey, .empty, .empty⟩ : CAutoOpUser).addHostmasks sHostmasks).addChans sChannels

def toString (u : CAutoOpUser) : CString :=
  u.m_sUsername ++ lit "\t" ++ u.getHostmasks ++ lit "\t" ++ u.m_sUserKey ++ lit "\t" ++ u.getChannels

/-- the user, and whether it has a key -/
def fromString (sLine : CString) : CAutoOpUser × Bool :=
  let u : CAutoOpUser := {
    m_sUsername := sLine.token 0 false (ch '\t') false
    -- "Trim because there was a bug which caused spaces in the hostname"
    m_ssHostmasks := .ofList ((Config.trim (sLine.token 1 false (ch '\t') false)).split (ch ',') true)
    m_sUserKey := sLine.token 2 false (ch '\t') false
    m_ssChans := .ofList ((sLine.token 3 false (ch '\t') false).split (ch ' ') true) }
  (u, u.m_sUserKey ≠ [])

/-- the words of the user come from `Split` -/
structure Split (u : CAutoOpUser) : Prop where
  masks : ∀ w ∈ u.m_ssHostmasks, ch ',' ∉ w ∧ 0 ∉ w
  chans : ∀ w ∈ u.m_ssChans, ch ' ' ∉ w ∧ 0 ∉ w

/-- what the line of a user takes to be read back: a name and a key without tabs, a hostmask that is not empty, no channel list
with the empty name alone, no tabs in them, and no blank at the ends of the hostmasks -/
structure Fits (u : CAutoOpUser) : Prop where
  name : u.m_sUsername ≠ [] ∧ ch '\t' ∉ u.m_sUsername
  key : u.m_sUserKey ≠ [] ∧ ch '\t' ∉ u.m_sUserKey
  masks : u.getHostmasks ≠ [] ∧ ∀ w ∈ u.m_ssHostmasks, ch '\t' ∉ w
  trimmed : Config.trim u.getHostmasks = u.getHostmasks
  chans : (u.getChannels = [] → u.m_ssChans = .empty) ∧ ∀ w ∈ u.m_ssChans, ch '\t' ∉ w

end CAutoOpUser

/-! ## Words of a set -/

variable {cDelim : UInt8}

theorem split_join_words (h0 : cDelim ≠ 0) {ws : VCString} (hws : ∀ w ∈ ws, cDelim ∉ w ∧ 0 ∉ w)
    (hlast : ws.getLast? ≠ some []) : (join [cDelim] ws).split cDelim true = ws := by
  have hloop : ∀ (ws : VCString) (w : CString), (∀ v ∈ ws, cDelim ∉ v) → (w :: ws).getLast? ≠ some [] →
      splitLoop cDelim true w (ws.flatMap ([cDelim] ++ ·)) = w :: ws := by
    intro ws
    induction ws with
    | nil =>
      intro w _ hlast
      have hne : w ≠ [] := fun h => hlast (by rw [h]; rfl)
      rw [flatMap_nil, splitLoop, if_neg hne]
    | cons v vs ih =>
      intro w hws hlast
      have hrest := ih v (fun u hu => hws u (mem_cons_of_mem v hu)) (by rwa [getLast?_cons_cons] at hlast)
      rw [flatMap_cons, append_assoc, singleton_append, splitLoop, if_pos rfl, Bool.true_or, if_pos rfl,
        splitLoop_append (hws v mem_cons_self), nil_append, hrest]
  cases ws with
  | nil => rfl
  | cons w ws =>
    have hdelim : 0 ∉ [cDelim] := fun h => h0 (mem_singleton.1 h).symm
    have hz := not_mem_join hdelim fun v hv => (hws v hv).2
    rw [split, cStr_eq_self hz, join_cons, splitLoop_append (hws w mem_cons_self).1, nil_append]
    exact hloop ws w (fun v hv => (hws v (mem_cons_of_mem w hv)).1) hlast

theorem split_lengths {s : CString} (cDelim : UInt8) (h0 : 0 ∉ s) :
    ((s.split cDelim true).map List.length).sum + s.count cDelim = s.length ∧
      (s.split cDelim true).length ≤ s.count cDelim + 1 := by
  have hloop : ∀ p w : CString,
      ((splitLoop cDelim true w p).map List.length).sum + p.count cDelim = w.length + p.length ∧
        (splitLoop cDelim true w p).length ≤ p.count cDelim + 1 := by
    intro p
    induction p with
    | nil =>
      intro w
      rw [splitLoop]
      split_ifs with hw
      · simp [hw]
      · simp
    | cons c p ih =>
      intro w
      rw [splitLoop]
      by_cases hc : c = cDelim
      · obtain ⟨hsum, hcount⟩ := ih []
        rw [if_pos hc, Bool.true_or, if_pos rfl, hc, count_cons_self, map_cons, sum_cons]
        simp only [length_cons, length_nil] at hsum ⊢
        omega
      · obtain ⟨hsum, hcount⟩ := ih (w ++ [c])
        rw [if_neg hc, count_cons_of_ne hc]
        simp only [length_append, length_cons, length_nil] at hsum ⊢
        omega
  rw [split, cStr_eq_self h0]
  simpa using hloop s []

theorem join_lengths {w : CString} {ws : VCString} (hws : ∀ v ∈ w :: ws, cDelim ∉ v) :
    (join [cDelim] (w :: ws)).length = ((w :: ws).map List.length).sum + ws.length ∧
      (join [cDelim] (w :: ws)).count cDelim = ws.length := by
  have hrest : (ws.flatMap ([cDelim] ++ ·)).length = (ws.map List.length).sum + ws.length ∧
      (ws.flatMap ([cDelim] ++ ·)).count cDelim = ws.length := by
    induction ws with
    | nil => exact ⟨rfl, rfl⟩
    | cons v vs ih =>
      obtain ⟨hlength, hcount⟩ := ih fun u hu => by
        rcases mem_cons.1 hu with rfl | hu
        · exact hws u mem_cons_self
        · exact hws u (by simp [hu])
      have hv : v.count cDelim = 0 := count_eq_zero.2 (hws v (by simp))
      simp only [flatMap_cons, length_append, count_append, hlength, hcount, hv, map_cons,
        sum_cons, length_cons, length_nil, count_singleton_self]
      omega
  have hw : w.count cDelim = 0 := count_eq_zero.2 (hws w mem_cons_self)
  rw [join_cons, length_append, count_append, hrest.1, hrest.2, hw, map_cons, sum_cons]
  omega

theorem trim_cut (s : CString) : ∃ a b : CString, s = a ++ Config.trim s ++ b ∧ (∀ c ∈ a ++ b, c ∈ Config.blanks) := by
  refine ⟨s.takeWhile (· ∈ Config.blanks), ((s.trimLeft Config.blanks).reverse.takeWhile (· ∈ Config.blanks)).reverse,
    ?_, ?_⟩
  · have hright : Config.trim s ++ ((s.trimLeft Config.blanks).reverse.takeWhile (· ∈ Config.blanks)).reverse =
        s.trimLeft Config.blanks := by
      rw [Config.trim, trimRight_n, ← reverse_append, takeWhile_append_dropWhile, reverse_reverse]
    rw [append_assoc, hright]
    exact takeWhile_append_dropWhile.symm
  · intro c hc
    rcases mem_append.1 hc with hc | hc
    · simpa using mem_takeWhile_imp hc
    · simpa using mem_takeWhile_imp (mem_reverse.1 hc)

theorem getLast_ne_nil {ws : SCString} (hne : join [cDelim] ws.toList ≠ []) :
    ws.toList.getLast? ≠ some [] := by
  intro hlast
  obtain ⟨init, hinit⟩ := getLast?_eq_some_iff.1 hlast
  have hsorted : ws.toList.Pairwise (· < ·) := pairwise_map.2 ws.map.sorted
  rw [hinit, pairwise_append] at hsorted
  have hnil : init = [] := by
    apply eq_nil_iff_forall_not_mem.2
    intro w hw
    exact not_lt_nil w (hsorted.2.2 w hw [] (mem_singleton.2 rfl))
  rw [hinit, hnil] at hne
  exact hne rfl

theorem split_set (h0 : cDelim ≠ 0) {ws : SCString} (hws : ∀ w ∈ ws, cDelim ∉ w ∧ 0 ∉ w)
    (hne : join [cDelim] ws.toList ≠ []) : OrdSet.ofList ((join [cDelim] ws.toList).split cDelim true) = ws := by
  have hsplit : (join [cDelim] ws.toList).split cDelim true = ws.toList :=
    split_join_words h0 (fun w hw => hws w hw) (getLast_ne_nil hne)
  apply ext_mem
  intro w
  rw [hsplit, mem_ofList, mem_toList]

theorem trim_split_iff {ws : SCString} (hws : ∀ w ∈ ws, ch ',' ∉ w ∧ 0 ∉ w) (hne : join (lit ",") ws.toList ≠ []) :
    OrdSet.ofList ((Config.trim (join (lit ",") ws.toList)).split (ch ',') true) = ws ↔
      Config.trim (join (lit ",") ws.toList) = join (lit ",") ws.toList := by
  have hdelim : (0 : UInt8) ∉ lit "," := by decide
  have h0 : (0 : UInt8) ∉ join (lit ",") ws.toList := not_mem_join hdelim fun w hw => (hws w hw).2
  constructor
  · intro hset
    obtain ⟨a, b, hcut, hblank⟩ := trim_cut (join (lit ",") ws.toList)
    have hkeep : ∀ c ∈ Config.trim (join (lit ",") ws.toList), c ∈ join (lit ",") ws.toList := by
      intro c hc
      rw [hcut]
      exact mem_append_left b (mem_append_right a hc)
    have hcomma : ch ',' ∉ a ∧ ch ',' ∉ b :=
      ⟨fun h => absurd (hblank _ (mem_append_left b h)) (by decide),
        fun h => absurd (hblank _ (mem_append_right a h)) (by decide)⟩
    obtain ⟨hsum, hcount⟩ := split_lengths (ch ',') fun h => h0 (hkeep 0 h)
    have hsame : (Config.trim (join (lit ",") ws.toList)).count (ch ',') =
      (join (lit ",") ws.toList).count (ch ',') := by
      conv_rhs => rw [hcut]
      rw [count_append, count_append, count_eq_zero.2 hcomma.1, count_eq_zero.2 hcomma.2, Nat.zero_add, Nat.add_zero]
    have hlength := congrArg List.length hcut
    rw [length_append, length_append] at hlength
    generalize Config.trim (join (lit ",") ws.toList) = t at *
    -- as many words as there were, none of them twice: the same words
    have hmem : ∀ w, w ∈ t.split (ch ',') true ↔ w ∈ ws.toList := fun w => by
      rw [mem_toList, ← hset, mem_ofList]
    cases hwords : ws.toList with
    | nil =>
      rw [hwords] at hne
      exact absurd rfl hne
    | cons w ws' =>
      have hplain : ∀ v ∈ w :: ws', ch ',' ∉ v := by
        intro v hv
        rw [← hwords] at hv
        exact (hws v hv).1
      obtain ⟨hjoin, hcommas⟩ := join_lengths hplain
      have hnodup : (w :: ws').Nodup := hwords ▸ ws.toList_nodup
      rw [hwords] at hmem hsame hlength hcut
      have hperm : (t.split (ch ',') true).Perm (w :: ws') := by
        have hsub : (w :: ws').Subperm (t.split (ch ',') true) := hnodup.subperm fun v hv => (hmem v).2 hv
        refine (hsub.perm_of_length_le ?_).symm
        rw [length_cons]
        have hc : t.count (ch ',') = ws'.length := hsame.trans hcommas
        omega
      have hsums : ((t.split (ch ',') true).map List.length).sum = ((w :: ws').map List.length).sum :=
        (hperm.map List.length).sum_eq
      have hc : t.count (ch ',') = ws'.length := hsame.trans hcommas
      have hj : (join (lit ",") (w :: ws')).length = ((w :: ws').map List.length).sum + ws'.length := hjoin
      have hab : a = [] ∧ b = [] := by
        rw [← length_eq_zero_iff, ← length_eq_zero_iff]
        omega
      rw [hcut, hab.1, hab.2, nil_append, append_nil]
  · intro htrim
    rw [htrim]
    exact split_set (by decide) hws hne

/-! ## A user and its line -/

/-- the fields of a line that are not empty -/
def kept (w : CString) : VCString := if w = [] then [] else [w]

theorem fields_line {name h key c : CString} (hname : ch '\t' ∉ name) (hh : ch '\t' ∉ h) (hkey : ch '\t' ∉ key)
    (hc : ch '\t' ∉ c) : Words.fields (ch '\t') (name ++ lit "\t" ++ h ++ lit "\t" ++ key ++ lit "\t" ++ c) =
      kept name ++ (kept h ++ (kept key ++ kept c)) := by
  have hline : name ++ lit "\t" ++ h ++ lit "\t" ++ key ++ lit "\t" ++ c =
      name ++ ch '\t' :: (h ++ ch '\t' :: (key ++ ch '\t' :: c)) := by
    simp [lit, ch]
  rw [hline, Words.fields_append hname, Words.fields_append hh, Words.fields_append hkey, Words.fields_of_not_mem hc]
  rfl

namespace CAutoOpUser

variable {u : CAutoOpUser}

theorem not_mem_getHostmasks {c : UInt8} (hc : c ≠ ch ',') (h : ∀ w ∈ u.m_ssHostmasks, c ∉ w) : c ∉ u.getHostmasks :=
  not_mem_join (fun hm => hc (mem_singleton.1 hm)) h

theorem not_mem_getChannels {c : UInt8} (hc : c ≠ ch ' ') (h : ∀ w ∈ u.m_ssChans, c ∉ w) : c ∉ u.getChannels :=
  not_mem_join (fun hm => hc (mem_singleton.1 hm)) h

theorem saved_iff (hsplit : u.Split) : fromString u.toString = (u, true) ↔ u.Fits := by
  constructor
  · intro hsaved
    obtain ⟨hu, hkey⟩ := Prod.mk.inj hsaved
    have hname : u.toString.token 0 false (ch '\t') false = u.m_sUsername := congrArg m_sUsername hu
    have hkeyToken : u.toString.token 2 false (ch '\t') false = u.m_sUserKey := congrArg m_sUserKey hu
    have hmasksOf := congrArg m_ssHostmasks hu
    have hmasks : OrdSet.ofList ((Config.trim (u.toString.token 1 false (ch '\t') false)).split (ch ',') true) =
        u.m_ssHostmasks := hmasksOf
    have hchansOf := congrArg m_ssChans hu
    have hchans : OrdSet.ofList ((u.toString.token 3 false (ch '\t') false).split (ch ' ') true) = u.m_ssChans := hchansOf
    have hkey : u.m_sUserKey ≠ [] := hkeyToken ▸ of_decide_eq_true hkey
    have htoken : ∀ i, ch '\t' ∉ u.toString.token i false (ch '\t') false := by
      intro i hmem
      rw [token, if_neg Bool.false_ne_true, if_neg Bool.false_ne_true] at hmem
      simpa using mem_takeWhile_imp hmem
    have hnameTab := hname ▸ htoken 0
    have hkeyTab := hkeyToken ▸ htoken 2
    have hmasksTab : ∀ w ∈ u.m_ssHostmasks, ch '\t' ∉ w := by
      intro w hw hmem
      rw [← hmasks, mem_ofList] at hw
      obtain ⟨a, b, hcut, -⟩ := trim_cut (u.toString.token 1 false (ch '\t') false)
      refine htoken 1 ?_
      rw [hcut]
      exact mem_append_left b (mem_append_right a (subset_of_mem_split hw hmem))
    have hchansTab : ∀ w ∈ u.m_ssChans, ch '\t' ∉ w := by
      intro w hw hmem
      rw [← hchans, mem_ofList] at hw
      exact htoken 3 (subset_of_mem_split hw hmem)
    have hchansText := not_mem_getChannels (u := u) (by decide) hchansTab
    have hfields : ∀ i, u.toString.token i false (ch '\t') false =
        (kept u.m_sUsername ++ (kept u.getHostmasks ++ (kept u.m_sUserKey ++ kept u.getChannels))).getD i [] := by
      intro i
      rw [token_eq_fields, toString,
        fields_line hnameTab (not_mem_getHostmasks (by decide) hmasksTab) hkeyTab hchansText]
    have hkeyKept : kept u.m_sUserKey = [u.m_sUserKey] := if_neg hkey
    have hnoChans : u.toString.token 3 false (ch '\t') false = [] → u.m_ssChans = .empty := by
      intro htoken
      rw [← hchans, htoken]
      rfl
    have hnameNe : u.m_sUsername ≠ [] := by
      intro hempty
      rw [hfields, hempty, hkeyKept] at hname
      by_cases hh : u.getHostmasks = []
      · rw [hh] at hname
        exact hkey hname
      · rw [kept, kept, if_pos rfl, if_neg hh] at hname
        exact hh hname
    have hnameKept : kept u.m_sUsername = [u.m_sUsername] := if_neg hnameNe
    have hmasksNe : u.getHostmasks ≠ [] := by
      intro hempty
      have hfour := hnoChans
      have hthree := hkeyToken
      rw [hfields, hnameKept, hempty, hkeyKept] at hthree hfour
      by_cases hc : u.getChannels = []
      · rw [hc] at hthree
        exact hkey hthree.symm
      · have hcKept : kept u.getChannels = [u.getChannels] := if_neg hc
        refine hc ?_
        have hnone := hfour (by rw [hcKept]; rfl)
        rw [getChannels, hnone]
        rfl
    have hmasksKept : kept u.getHostmasks = [u.getHostmasks] := if_neg hmasksNe
    refine ⟨⟨hnameNe, hnameTab⟩, ⟨hkey, hkeyTab⟩, ⟨hmasksNe, hmasksTab⟩, ?_, fun hempty => hnoChans ?_, hchansTab⟩
    · have hone : u.toString.token 1 false (ch '\t') false = u.getHostmasks := by
        rw [hfields, hnameKept, hmasksKept]
        rfl
      rw [hone] at hmasks
      exact (trim_split_iff hsplit.masks hmasksNe).1 hmasks
    · rw [hfields, hnameKept, hmasksKept, hkeyKept, hempty]
      rfl
  · intro hfits
    have hmasks : u.getHostmasks ≠ [] ∧ ch '\t' ∉ u.getHostmasks :=
      ⟨hfits.masks.1, not_mem_getHostmasks (by decide) hfits.masks.2⟩
    have hchans := not_mem_getChannels (by decide) hfits.chans.2
    have htoken : ∀ i, u.toString.token i false (ch '\t') false =
        (u.m_sUsername :: u.getHostmasks :: u.m_sUserKey :: kept u.getChannels).getD i [] := by
      intro i
      rw [token_eq_fields, toString, fields_line hfits.name.2 hmasks.2 hfits.key.2 hchans]
      simp only [kept, if_neg hfits.name.1, if_neg hmasks.1, if_neg hfits.key.1]
      rfl
    have hsetMasks : OrdSet.ofList ((Config.trim u.getHostmasks).split (ch ',') true) = u.m_ssHostmasks :=
      (trim_split_iff hsplit.masks hfits.masks.1).2 hfits.trimmed
    have hsetChans : OrdSet.ofList ((u.toString.token 3 false (ch '\t') false).split (ch ' ') true) = u.m_ssChans := by
      rw [htoken, kept]
      split_ifs with hempty
      · rw [hfits.chans.1 hempty]
        rfl
      · exact split_set (by decide) hsplit.chans hempty
    have hkey : decide (u.m_sUserKey ≠ []) = true := decide_eq_true hfits.key.1
    simp only [fromString, htoken 0, htoken 1, htoken 2, hsetChans]
    simp only [getD_cons_zero, getD_cons_succ, hsetMasks, hkey]

/-! ## Commands keep the words plain -/

theorem Split.addHostmasks (h : u.Split) (sHostmasks : CString) : (u.addHostmasks sHostmasks).Split where
  masks := fun w hw => by
    rcases (mem_foldl_insert _ _ _).1 hw with hw | hw
    · exact ⟨(mem_split hw).1, (mem_split hw).2.1⟩
    · exact h.masks w hw
  chans := h.chans

theorem mem_foldl_erase {l : VCString} {ss : SCString} {w : CString} (h : w ∈ l.foldl OrdSet.erase ss) : w ∈ ss := by
  induction l generalizing ss with
  | nil => exact h
  | cons v l ih => exact ((mem_erase ss v w).1 (ih h)).2

theorem Split.delHostmasks (h : u.Split) (sHostmasks : CString) : (u.delHostmasks sHostmasks).1.Split where
  masks := fun w hw => h.masks w (mem_foldl_erase hw)
  chans := h.chans

theorem Split.addChans (h : u.Split) (sChans : CString) : (u.addChans sChans).Split where
  masks := h.masks
  chans := fun w hw => by
    rw [CAutoOpUser.addChans, ← foldl_map] at hw
    rcases (mem_foldl_insert _ _ _).1 hw with hw | hw
    · obtain ⟨v, hv, rfl⟩ := mem_map.1 hw
      obtain ⟨hspace, hnul, -⟩ := mem_split hv
      exact ⟨mt (mem_asLower (by decide)).1 hspace, mt (mem_asLower (by decide)).1 hnul⟩
    · exact h.chans w hw

theorem Split.delChans (h : u.Split) (sChans : CString) : (u.delChans sChans).Split where
  masks := h.masks
  chans := fun w hw => by
    rw [CAutoOpUser.delChans, ← foldl_map] at hw
    exact h.chans w (mem_foldl_erase hw)

theorem split_new (sUsername sUserKey sHostmasks sChannels : CString) :
    (new sUsername sUserKey sHostmasks sChannels).Split := by
  apply Split.addChans
  apply Split.addHostmasks
  exact ⟨fun w hw => absurd hw (not_mem_empty w), fun w hw => absurd hw (not_mem_empty w)⟩

end CAutoOpUser

end ZNC.AutoOp
