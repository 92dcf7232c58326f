/-
The command Unban of `modules/fail2ban.cpp`.

The command takes hosts and numbers. A number is the place of a host in the list of bans, as List shows it. The places
are counted anew for each number of the line, in what the targets before it have left: behind one that removes a host,
the hosts after that host have moved up by one.

Model: a command is worked off at one instant. IDs are unsigned ints, and so they repeat in a list of 2^32 hosts. Of the
table that List shows, the columns ID and Host are kept.

Results:
- `hosts_unban`: one target as a strike from the list of the hosts that are banned;
- `unban_iff`: when a line removes exactly the hosts that it names;
- `meets_iff`: the same of the numbers on the line and what stands before them;
- `unban_two_ids`: two numbers.
-/
import ZNC.Fail2Ban
import ZNC.Lib.Strikes
import ZNC.ServerLine

namespace ZNC.Fail2Ban

open CString Strikes NetworkClone List

/-! ## Model -/

namespace CFailToBanMod

/-- the hosts of `m_Cache.GetItems()` -/
def hosts (m : CFailToBanMod) (t : Instant) : List CString := (m.m_Cache.cleanup t.ms).mItems.keys

/-- the rows of List, from an ID on -/
def listRows : UInt32 → List CString → List (UInt32 × CString)
  | _, [] => []
  | id, sHost :: hs => (id, sHost) :: listRows (id + 1) hs

def onListCommand (m : CFailToBanMod) (t : Instant) : List (UInt32 × CString) := listRows 1 (m.hosts t)

/-- the loop over the items: the host whose turn is `targetId` -/
def findById (targetId : UInt32) : UInt32 → List CString → Option CString
  | _, [] => none
  | currentId, sHost :: hs => if currentId = targetId then some sHost else findById targetId (currentId + 1) hs

/-- `Remove(sHost)`: whether it was there -/
def remove (m : CFailToBanMod) (sHost : CString) : Bool × CFailToBanMod :=
  ((m.m_Cache.mItems.find sHost).isSome, { m with m_Cache := m.m_Cache.remItem sHost })

/-- "trying to convert and validating" -/
def isId (sTarget : CString) : Bool := 0 < sTarget.toUInt && uintText sTarget.toUInt.toNat = sTarget

/-- one target, and what is said about it -/
def unban (t : Instant) (m : CFailToBanMod) (sTarget : CString) : CFailToBanMod × CString :=
  let sNot := sTarget ++ lit " is not banned."
  if isId sTarget then
    let m := { m with m_Cache := m.m_Cache.cleanup t.ms }
    match findById sTarget.toUInt 1 (m.hosts t) with
    | none => (m, sNot)
    | some sHost =>
      let (bUnbanned, m) := m.remove sHost
      let sUnbanned := lit "Unbanned ID " ++ uintText sTarget.toUInt.toNat ++ lit " (" ++ sHost ++ lit ")"
      (m, if bUnbanned then sUnbanned else sNot)
  else
    let (bUnbanned, m) := m.remove sTarget
    (m, if bUnbanned then lit "Unbanned: " ++ sTarget else sNot)

def unbanAll (t : Instant) (m : CFailToBanMod) (vsTargets : VCString) : CFailToBanMod × VCString :=
  vsTargets.foldl (fun (m, said) sTarget => let (m, sLine) := m.unban t sTarget; (m, said ++ [sLine])) (m, [])

def targets (sTargets : CString) : VCString :=
  let sTargets : CString := sTargets.cStr.map fun c => if c = ch ',' then ch ' ' else c
  (sTargets.split (ch ' ') false).map Config.trim

def onUnbanCommand (bAdmin : Bool) (t : Instant) (m : CFailToBanMod) (sCommand : CString) : CFailToBanMod × VCString :=
  let sTargets := sCommand.token 1 true (ch ' ') false
  if !bAdmin then (m, [lit "Access denied"])
  else if sTargets = [] then (m, [lit "Usage: Unban <hosts|IDs>"])
  else m.unbanAll t (targets sTargets)

end CFailToBanMod

open CFailToBanMod

/-! ## What the command is for -/

/-- the hosts of a list that a target names: those that List shows under the ID, or the host itself -/
def named (L : List CString) (sTarget : CString) : List CString :=
  if isId sTarget then ((listRows 1 L).filter fun row => row.1 = sTarget.toUInt).map Prod.snd
  else L.filter fun sHost => sHost = sTarget

/-- `m'` is `m` without the hosts that the targets name, and with all others -/
def Unbans (t : Instant) (m m' : CFailToBanMod) (vsTargets : VCString) : Prop :=
  ∀ sHost, sHost ∈ m'.hosts t ↔ sHost ∈ m.hosts t ∧ ∀ sTarget ∈ vsTargets, sHost ∉ named (m.hosts t) sTarget

/-- what a target removes from a list of hosts -/
def pick (sTarget : CString) (l : List CString) : Option CString :=
  if isId sTarget then l[sTarget.toUInt.toNat - 1]? else l.find? fun sHost => sHost = sTarget

/-- every target removes what it names of the hosts that no target before it names: a number counts to the host that List
showed under it -/
def Meets (L : List CString) (vsTargets : VCString) : Prop :=
  ∀ i (h : i < vsTargets.length), Fits (named L) pick (unnamed (named L) L (vsTargets.take i)) vsTargets[i]

/-- no target names two hosts, and no host is named twice -/
def NamedOnce (L : List CString) (vsTargets : VCString) : Prop :=
  (∀ sTarget ∈ vsTargets, (named L sTarget).length ≤ 1) ∧ (vsTargets.flatMap (named L)).Nodup

/-! ## Numbers -/

theorem findById_eq (targetId : UInt32) (currentId : UInt32) (hle : currentId ≤ targetId) (hs : List CString) :
    findById targetId currentId hs = hs[targetId.toNat - currentId.toNat]? := by
  have hnat := UInt32.le_iff_toNat_le.1 hle
  induction hs generalizing currentId with
  | nil => rfl
  | cons sHost hs ih =>
    rw [findById]
    split_ifs with heq
    · rw [heq, Nat.sub_self]
      rfl
    · have hne : currentId.toNat ≠ targetId.toNat := fun h => heq (UInt32.toNat_inj.1 h)
      have hlt := targetId.toNat_lt
      have hnext : (currentId + 1).toNat = currentId.toNat + 1 := by
        rw [UInt32.toNat_add, UInt32.toNat_one, Nat.mod_eq_of_lt (by omega)]
      have hplace : targetId.toNat - currentId.toNat = targetId.toNat - (currentId + 1).toNat + 1 := by omega
      rw [ih _ (UInt32.le_iff_toNat_le.2 (by omega)) (by omega), hplace, getElem?_cons_succ]

variable (t : Instant) (m : CFailToBanMod) {L : List CString} {sTarget : CString}

theorem isId_pos (h : isId sTarget = true) : 0 < sTarget.toUInt := by
  rw [isId, Bool.and_eq_true, decide_eq_true_eq] at h
  exact h.1

theorem mem_listRows {id row : UInt32} {sHost : CString} :
    (row, sHost) ∈ listRows id L ↔ ∃ i, L[i]? = some sHost ∧ row = id + UInt32.ofNat i := by
  induction L generalizing id with
  | nil => simp [listRows]
  | cons h L ih =>
    rw [listRows, mem_cons, ih, Prod.mk.injEq]
    refine ⟨fun hmem => ?_, fun ⟨i, hi, hrow⟩ => ?_⟩
    · rcases hmem with ⟨rfl, rfl⟩ | ⟨i, hi, hrow⟩
      · exact ⟨0, rfl, by simp⟩
      · exact ⟨i + 1, hi, by rw [hrow, UInt32.ofNat_add, UInt32.add_comm (UInt32.ofNat i), UInt32.add_assoc]; rfl⟩
    · cases i with
      | zero => exact .inl ⟨by simpa using hrow, (Option.some.inj hi).symm⟩
      | succ i =>
        refine .inr ⟨i, hi, ?_⟩
        rw [hrow, Nat.succ_eq_add_one, UInt32.ofNat_add, UInt32.add_comm (UInt32.ofNat i), UInt32.add_assoc]
        rfl

theorem mem_named_id {sHost : CString} (hid : isId sTarget = true) :
    sHost ∈ named L sTarget ↔ ∃ i, L[i]? = some sHost ∧ sTarget.toUInt = 1 + UInt32.ofNat i := by
  rw [named, if_pos hid, mem_map]
  refine ⟨fun ⟨⟨row, h⟩, hmem, hsnd⟩ => ?_, fun ⟨i, hi, hrow⟩ => ?_⟩
  · rw [mem_filter, decide_eq_true_eq] at hmem
    obtain ⟨i, hi, hrow⟩ := mem_listRows.1 hmem.1
    exact ⟨i, hsnd ▸ hi, hmem.2.symm.trans hrow⟩
  · refine ⟨(sTarget.toUInt, sHost), ?_, rfl⟩
    rw [mem_filter]
    exact ⟨mem_listRows.2 ⟨i, hi, hrow⟩, by simp⟩

theorem toUInt_eq_place (hid : isId sTarget = true) :
    sTarget.toUInt = 1 + UInt32.ofNat (sTarget.toUInt.toNat - 1) := by
  have hpos := UInt32.lt_iff_toNat_lt.1 (isId_pos hid)
  have hlt := sTarget.toUInt.toNat_lt
  apply UInt32.toNat_inj.1
  have hzero : (0 : UInt32).toNat = 0 := rfl
  rw [UInt32.toNat_add, UInt32.toNat_one, UInt32.toNat_ofNat', Nat.mod_eq_of_lt (by omega : _ < 2 ^ 32),
    Nat.mod_eq_of_lt (by omega)]
  omega

theorem mem_named {sHost : CString} (h : sHost ∈ named L sTarget) : sHost ∈ L := by
  by_cases hid : isId sTarget = true
  · obtain ⟨i, hi, -⟩ := (mem_named_id hid).1 h
    exact mem_of_getElem? hi
  · rw [named, if_neg hid] at h
    exact (mem_filter.1 h).1

/-! ## One target -/

/-- **No target removes a host in front of the one that it names.** -/
theorem pick_behind (hL : L.Nodup) : Behind L (named L) pick where
  mem sTarget l a h := by
    unfold pick at h
    split_ifs at h
    · exact mem_of_getElem? h
    · exact mem_of_find?_eq_some h
  inside sTarget b hb := mem_named hb
  behind sTarget l a hl h := by
    unfold pick at h
    by_cases hid : isId sTarget = true
    · rw [if_pos hid] at h
      obtain ⟨hlt, hle⟩ := idxOf_getElem_le hL hl h
      exact ⟨_, (mem_named_id hid).2 ⟨_, getElem?_eq_getElem hlt, toUInt_eq_place hid⟩, hle⟩
    · rw [if_neg hid] at h
      have ha : a = sTarget := by simpa using find?_some h
      have hmem : a ∈ L := hl.subset (mem_of_find?_eq_some h)
      refine ⟨a, ?_, le_refl _⟩
      rw [named, if_neg hid, mem_filter]
      exact ⟨hmem, decide_eq_true ha⟩

theorem hosts_nodup (t : Instant) : (m.hosts t).Nodup := OrdMap.keys_nodup _

theorem hosts_cleanup (t : Instant) :
    CFailToBanMod.hosts { m with m_Cache := m.m_Cache.cleanup t.ms } t = m.hosts t := by
  simp [CFailToBanMod.hosts, TCacheMap.cleanup, OrdMap.filter, OrdMap.keys, filter_filter]

theorem hosts_remove (t : Instant) (sHost : CString) :
    (m.remove sHost).2.hosts t = (m.hosts t).filter fun h => h ≠ sHost := by
  simp only [CFailToBanMod.hosts, remove, TCacheMap.remItem, TCacheMap.cleanup, OrdMap.filter, OrdMap.erase, OrdMap.keys,
    filter_filter, filter_map]
  congr 1
  refine filter_congr fun e _ => ?_
  simp [Bool.and_comm]

theorem hosts_unban (sTarget : CString) :
    (m.unban t sTarget).1.hosts t = strike pick (m.hosts t) sTarget := by
  unfold unban strike pick
  by_cases hid : isId sTarget = true
  · have hone : (1 : UInt32) ≤ sTarget.toUInt := by
      have hpos := UInt32.lt_iff_toNat_lt.1 (isId_pos hid)
      have hzero : (0 : UInt32).toNat = 0 := rfl
      exact UInt32.le_iff_toNat_le.2 (by rw [UInt32.toNat_one]; omega)
    rw [if_pos hid, if_pos hid]
    simp only [hosts_cleanup, findById_eq _ _ hone, UInt32.toNat_one]
    cases (m.hosts t)[sTarget.toUInt.toNat - 1]? with
    | none => exact hosts_cleanup m t
    | some sHost => rw [hosts_remove, hosts_cleanup]
  · rw [if_neg hid, if_neg hid]
    simp only
    rw [hosts_remove]
    cases hfind : (m.hosts t).find? fun sHost => sHost = sTarget with
    | none =>
      refine filter_eq_self.2 fun h hh => decide_eq_true ?_
      simpa using find?_eq_none.1 hfind h hh
    | some sHost =>
      have hsame : sHost = sTarget := by simpa using find?_some hfind
      rw [hsame]

/-! ## All targets -/

theorem hosts_unbanAll (t : Instant) (m : CFailToBanMod) (vsTargets : VCString) :
    (m.unbanAll t vsTargets).1.hosts t = vsTargets.foldl (strike pick) (m.hosts t) := by
  have hrun : ∀ (ts : VCString) (m : CFailToBanMod) (said : VCString),
      (ts.foldl (fun (m, said) sTarget => let (m, sLine) := m.unban t sTarget; (m, said ++ [sLine])) (m, said)).1.hosts t =
        ts.foldl (strike pick) (m.hosts t) := by
    intro ts
    induction ts with
    | nil => intro m said; rfl
    | cons sTarget ts ih =>
      intro m said
      rw [foldl_cons, foldl_cons, ← hosts_unban]
      exact ih _ _
  exact hrun vsTargets m []

theorem onUnbanCommand_eq (sCommand : CString) :
    (m.onUnbanCommand true t sCommand).1 = (m.unbanAll t (targets (sCommand.token 1 true (ch ' ') false))).1 := by
  unfold onUnbanCommand
  simp only [Bool.not_true, Bool.false_eq_true, if_false]
  split_ifs with hempty
  · have hnone : targets [] = [] := rfl
    rw [hempty, hnone]
    rfl
  · rfl

theorem unbans_iff (vsTargets : VCString) :
    Unbans t m (m.unbanAll t vsTargets).1 vsTargets ↔
      vsTargets.foldl (strike pick) (m.hosts t) = unnamed (named (m.hosts t)) (m.hosts t) vsTargets := by
  have hmem : ∀ sHost, sHost ∈ unnamed (named (m.hosts t)) (m.hosts t) vsTargets ↔
      sHost ∈ m.hosts t ∧ ∀ sTarget ∈ vsTargets, sHost ∉ named (m.hosts t) sTarget := by
    intro sHost
    rw [mem_unnamed, mem_flatMap]
    simp only [not_exists, not_and]
  have hsub := foldl_strike_sublist pick vsTargets (m.hosts t)
  have hnodup := hosts_nodup m t
  unfold Unbans
  simp only [hosts_unbanAll, ← hmem]
  refine ⟨fun h => ?_, fun h sHost => by rw [h]⟩
  -- both are sublists of the hosts, which has none twice
  have hset : (vsTargets.foldl (strike pick) (m.hosts t)).Perm (unnamed (named (m.hosts t)) (m.hosts t) vsTargets) :=
    (perm_ext_iff_of_nodup (hsub.nodup hnodup) (hnodup.filter _)).2 h
  have hsorted : (m.hosts t).Pairwise (· < ·) := pairwise_map.2 (m.m_Cache.cleanup t.ms).mItems.sorted
  exact List.Perm.eq_of_pairwise (fun a b _ _ hab hba => absurd (hab.trans hba) (lt_irrefl a))
    (hsorted.sublist hsub) (hsorted.sublist filter_sublist) hset

/-- **A line removes what it names.** It is enough that every number still stands for the host that List showed under
it. After every target, the hosts that are gone are those named so far exactly if that is so; where no host is named
twice, it is enough to look at the end of the line. -/
theorem unban_iff (t : Instant) (m : CFailToBanMod) (sCommand : CString) :
    let vsTargets := targets (sCommand.token 1 true (ch ' ') false)
    (Meets (m.hosts t) vsTargets → Unbans t m (m.onUnbanCommand true t sCommand).1 vsTargets) ∧
      ((∀ n, Unbans t m (m.unbanAll t (vsTargets.take n)).1 (vsTargets.take n)) ↔ Meets (m.hosts t) vsTargets) ∧
      (NamedOnce (m.hosts t) vsTargets →
        (Unbans t m (m.onUnbanCommand true t sCommand).1 vsTargets ↔ Meets (m.hosts t) vsTargets)) := by
  intro vsTargets
  have hall : (∀ n, Unbans t m (m.unbanAll t (vsTargets.take n)).1 (vsTargets.take n)) ↔ Meets (m.hosts t) vsTargets := by
    simp only [unbans_iff]
    exact run_iff (m.hosts t) vsTargets
  rw [onUnbanCommand_eq]
  refine ⟨fun h => ?_, hall, fun ⟨hone, honce⟩ => ?_⟩
  · have hend := hall.2 h vsTargets.length
    rwa [take_length] at hend
  · rw [unbans_iff]
    exact run_once_iff (pick_behind (hosts_nodup m t)) (hosts_nodup m t) vsTargets hone honce

/-! ### Numbers that still count -/

theorem mem_named_place (hfew : L.length < 2 ^ 32) (hid : isId sTarget = true) {sHost : CString} :
    sHost ∈ named L sTarget ↔ L[sTarget.toUInt.toNat - 1]? = some sHost := by
  rw [mem_named_id hid]
  refine ⟨fun ⟨i, hi, hplace⟩ => ?_, fun h => ⟨_, h, toUInt_eq_place hid⟩⟩
  have hlt := (List.getElem?_eq_some_iff.1 hi).1
  have hat : sTarget.toUInt.toNat = 1 + i := by
    rw [hplace, UInt32.toNat_add, UInt32.toNat_one, UInt32.toNat_ofNat_of_lt' (by omega : i < 2 ^ 32),
      Nat.mod_eq_of_lt (by omega)]
  rw [hat, Nat.add_sub_cancel_left]
  exact hi

theorem fits_host {l : List CString} (hl : ∀ a ∈ l, a ∈ L) (hid : isId sTarget = false) :
    Fits (named L) pick l sTarget := by
  have hid' : ¬isId sTarget = true := Bool.eq_false_iff.1 hid
  intro a ha
  rw [pick, if_neg hid', named, if_neg hid', mem_filter, decide_eq_true_eq]
  refine ⟨fun h => ⟨hl a ha, by simpa using find?_some h⟩, fun ⟨_, hsame⟩ => ?_⟩
  cases hfind : l.find? fun sHost => sHost = sTarget with
  | none => exact absurd hsame (by simpa using find?_eq_none.1 hfind a ha)
  | some b =>
    have hb : b = sTarget := by simpa using find?_some hfind
    rw [hsame, hb]

theorem fits_place_iff (hL : L.Nodup) (hfew : L.length < 2 ^ 32) (hid : isId sTarget = true) (vsTargets : VCString) :
    Fits (named L) pick (unnamed (named L) L vsTargets) sTarget ↔
      (sTarget.toUInt.toNat ≤ L.length ∧ ∀ a ∈ L.take sTarget.toUInt.toNat, a ∉ vsTargets.flatMap (named L)) ∨
      ((unnamed (named L) L vsTargets).length < sTarget.toUInt.toNat ∧
        ∀ a, L[sTarget.toUInt.toNat - 1]? = some a → a ∈ vsTargets.flatMap (named L)) := by
  have hpos : 0 < sTarget.toUInt.toNat := UInt32.lt_iff_toNat_lt.1 (isId_pos hid)
  obtain ⟨u, hu⟩ : ∃ u, sTarget.toUInt.toNat = u + 1 := ⟨_, (Nat.sub_add_cancel hpos).symm⟩
  have hfits : Fits (named L) pick (unnamed (named L) L vsTargets) sTarget ↔
      ∀ a ∈ unnamed (named L) L vsTargets, (unnamed (named L) L vsTargets)[u]? = some a ↔ L[u]? = some a := by
    refine forall₂_congr fun a _ => ?_
    rw [mem_named_place hfew hid, pick, if_pos hid, hu, Nat.add_sub_cancel]
  rw [hfits, hu, Nat.add_sub_cancel]
  constructor
  · intro h
    cases hat : (unnamed (named L) L vsTargets)[u]? with
    | none =>
      refine .inr ⟨Nat.lt_succ_of_le (getElem?_eq_none_iff.1 hat), fun a ha => ?_⟩
      by_contra hnot
      have hboth := (h a (mem_unnamed.2 ⟨mem_of_getElem? ha, hnot⟩)).2 ha
      rw [hat] at hboth
      cases hboth
    | some a =>
      have ha := (h a (mem_of_getElem? hat)).1 hat
      exact .inl ⟨(List.getElem?_eq_some_iff.1 ha).1, (getElem?_unnamed_iff hL ha).1 hat⟩
  · rintro (⟨hlt, hkept⟩ | ⟨hlen, hgone⟩) a ha
    · have hat : L[u]? = some L[u] := getElem?_eq_getElem hlt
      rw [hat, (getElem?_unnamed_iff hL hat).2 hkept]
    · rw [getElem?_eq_none (Nat.le_of_lt_succ hlen)]
      exact iff_of_false (fun h => nomatch h) fun h => (mem_unnamed.1 ha).2 (hgone a h)

/-- **Numbers that still count**: no target before it names the host of the number or one above it, or the host is gone and
nothing is left at its place. -/
theorem meets_iff (hL : L.Nodup) (hfew : L.length < 2 ^ 32) (vsTargets : VCString) :
    Meets L vsTargets ↔ ∀ i (h : i < vsTargets.length), isId vsTargets[i] = true →
      (vsTargets[i].toUInt.toNat ≤ L.length ∧
        ∀ a ∈ L.take vsTargets[i].toUInt.toNat, a ∉ (vsTargets.take i).flatMap (named L)) ∨
      ((unnamed (named L) L (vsTargets.take i)).length < vsTargets[i].toUInt.toNat ∧
        ∀ a, L[vsTargets[i].toUInt.toNat - 1]? = some a → a ∈ (vsTargets.take i).flatMap (named L)) := by
  refine forall₂_congr fun i h => ?_
  cases hid : isId vsTargets[i] with
  | true => exact (fits_place_iff hL hfew hid _).trans ⟨fun h _ => h, fun h => h rfl⟩
  | false => exact iff_of_true (fits_host (fun a ha => (mem_unnamed.1 ha).1) hid) fun h => nomatch h

/-! ## Two numbers -/

def threeHosts : CFailToBanMod :=
  let items : OrdMap CString (ℕ × BanInfo) := .ofList
    [(lit "10.0.0.1", 60000, ⟨2, 0, 0, []⟩), (lit "10.0.0.2", 60000, ⟨2, 0, 0, []⟩),
      (lit "10.0.0.3", 60000, ⟨2, 0, 0, []⟩)]
  ⟨⟨items, 60000⟩, 2, []⟩

/-- **Two numbers**: the second one removes the third host. -/
theorem unban_two_ids :
    (threeHosts.onListCommand ⟨0, 0⟩ = [(1, lit "10.0.0.1"), (2, lit "10.0.0.2"), (3, lit "10.0.0.3")]) ∧
      (threeHosts.onUnbanCommand true ⟨0, 0⟩ (lit "Unban 1 2")).1.hosts ⟨0, 0⟩ = [lit "10.0.0.2"] ∧
      ¬ Unbans ⟨0, 0⟩ threeHosts (threeHosts.onUnbanCommand true ⟨0, 0⟩ (lit "Unban 1 2")).1 [lit "1", lit "2"] := by
  have hleft : (threeHosts.onUnbanCommand true ⟨0, 0⟩ (lit "Unban 1 2")).1.hosts ⟨0, 0⟩ = [lit "10.0.0.2"] := by
    decide +kernel
  refine ⟨by decide +kernel, hleft, fun h => ?_⟩
  have hkept := (h (lit "10.0.0.3")).2 ⟨by decide +kernel, by decide +kernel⟩
  rw [hleft] at hkept
  exact absurd hkept (by decide)

end ZNC.Fail2Ban
