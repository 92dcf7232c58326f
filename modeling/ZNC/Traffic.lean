/-
Traffic: `CZNC::GetTrafficStats` and `CZNC::GetNetworkTrafficStats` of `src/znc.cpp`.

What closed sockets have read and written is stored with networks, users and ZNC; what open sockets have comes on top of it. The
statistics of the users add it up. Those of the networks assign the counters of a socket to the entry of its network, which the
loop over the networks has filled before, so the last socket alone counts there; their total is added up all the same.

Model: counters are pairs of 64-bit numbers, of bytes read and written. Users and networks stand for themselves by their names. A
socket is one of a network, of a client, or another one, as its name tells.

Results:
- `userStats`: the statistics of the users are right;
- `networkStats_iff`: when those of the networks are.
-/
import Mathlib.Data.UInt
import ZNC.CString
import ZNC.Lib.Shares

namespace ZNC.Traffic

open CString Shares List

/-! ## Model -/

/-- bytes read and bytes written -/
abbrev TrafficStatsPair : Type := UInt64 × UInt64

abbrev TrafficStatsMap : Type := OrdMap CString TrafficStatsPair

structure CIRCNetwork where
  sName : CString
  /-- `BytesRead()` and `BytesWritten()` -/
  bytes : TrafficStatsPair

structure CUser where
  /-- `m_uBytesRead` and `m_uBytesWritten` -/
  uBytes : TrafficStatsPair
  vIRCNetworks : List CIRCNetwork
  nodup : (vIRCNetworks.map CIRCNetwork.sName).Nodup

/-- `BytesRead()` and `BytesWritten()` -/
def CUser.bytes (pUser : CUser) : TrafficStatsPair :=
  pUser.vIRCNetworks.foldl (fun uBytes pNetwork => uBytes + pNetwork.bytes) pUser.uBytes

/-- what a socket is by its name -/
inductive SockKind where
  /-- `IRC::`: the network, with its user -/
  | IRC (pUser pNetwork : CString)
  /-- `USR::`: a client, with its user and its network if it has them -/
  | USR (pUser : Option (CString × Option CString))
  | other

structure Csock where
  kind : SockKind
  /-- `GetBytesRead()` and `GetBytesWritten()` -/
  bytes : TrafficStatsPair

/-- `pUser` of the loop over the sockets -/
def Csock.user (pSock : Csock) : Option CString :=
  match pSock.kind with
  | .IRC pUser _ => some pUser
  | .USR pUser => pUser.map Prod.fst
  | .other => none

/-- `pNetwork` of the loop over the sockets, with its user -/
def Csock.network (pSock : Csock) : Option (CString × CString) :=
  match pSock.kind with
  | .IRC pUser pNetwork => some (pUser, pNetwork)
  | .USR pUser => pUser.bind fun p => p.2.map (p.1, ·)
  | .other => none

structure CZNC where
  /-- `BytesRead()` and `BytesWritten()` -/
  bytes : TrafficStatsPair
  msUsers : OrdMap CString CUser
  manager : List Csock
  /-- users and networks of sockets exist -/
  users : ∀ pSock ∈ manager, ∀ sUsername, pSock.user = some sUsername → (msUsers.find sUsername).isSome
  networks : ∀ pSock ∈ manager, ∀ sUsername sName, pSock.network = some (sUsername, sName) →
    ∀ pUser, msUsers.find sUsername = some pUser → sName ∈ pUser.vIRCNetworks.map CIRCNetwork.sName

/-- the results of `GetTrafficStats` -/
structure TrafficStats where
  ret : TrafficStatsMap
  uiUsers : TrafficStatsPair
  uiZNC : TrafficStatsPair

namespace TrafficStats

def Total (st : TrafficStats) : TrafficStatsPair := st.uiUsers + st.uiZNC

/-- the loop over the users -/
def addUser (st : TrafficStats) (it : CString × CUser) : TrafficStats :=
  { st with ret := st.ret.insert it.1 it.2.bytes, uiUsers := st.uiUsers + it.2.bytes }

/-- the loop over the sockets -/
def addSock (st : TrafficStats) (pSock : Csock) : TrafficStats :=
  match pSock.user with
  | some pUser =>
    { st with ret := st.ret.insert pUser ((st.ret.find pUser).getD 0 + pSock.bytes), uiUsers := st.uiUsers + pSock.bytes }
  | none => { st with uiZNC := st.uiZNC + pSock.bytes }

end TrafficStats

namespace CZNC

def getTrafficStats (z : CZNC) : TrafficStats :=
  z.manager.foldl TrafficStats.addSock (z.msUsers.entries.foldl TrafficStats.addUser ⟨.empty, 0, z.bytes⟩)

/-- the networks of `GetNetworkTrafficStats`, and `Total` -/
abbrev NetworkStats : Type := TrafficStatsMap × TrafficStatsPair

/-- the loop over the networks -/
def addNetwork (st : NetworkStats) (pNetwork : CIRCNetwork) : NetworkStats :=
  (st.1.insert pNetwork.sName pNetwork.bytes, st.2 + pNetwork.bytes)

/-- the network of a socket, if it is one of the user -/
def networkOf (sUsername : CString) (pSock : Csock) : Option CString :=
  pSock.network.bind fun pNetwork => if pNetwork.1 = sUsername then some pNetwork.2 else none

/-- the loop over the sockets: the counters of the socket are assigned to the entry -/
def addNetworkSock (sUsername : CString) (st : NetworkStats) (pSock : Csock) : NetworkStats :=
  match networkOf sUsername pSock with
  | some sName => (st.1.insert sName pSock.bytes, st.2 + pSock.bytes)
  | none => st

def getNetworkTrafficStats (z : CZNC) (sUsername : CString) (Total : TrafficStatsPair) : NetworkStats :=
  match z.msUsers.find sUsername with
  | some pUser => z.manager.foldl (addNetworkSock sUsername) (pUser.vIRCNetworks.foldl addNetwork (.empty, Total))
  | none => (.empty, Total)

/-! ## Statement -/

/-- the sockets of a network, in the order of the list -/
def socksOf (z : CZNC) (sUsername sName : CString) : List Csock :=
  z.manager.filter fun pSock => networkOf sUsername pSock = some sName

/-- **The statistics of the users** are right. -/
structure UserStatsOk (z : CZNC) : Prop where
  /-- a user has what is stored and what its sockets have -/
  ret : ∀ sUsername pUser, z.msUsers.find sUsername = some pUser →
    z.getTrafficStats.ret.find sUsername = some (pUser.bytes + share Csock.user Csock.bytes sUsername z.manager)
  only : ∀ sUsername, (z.getTrafficStats.ret.find sUsername).isSome → (z.msUsers.find sUsername).isSome
  /-- each socket counts for the users or for ZNC -/
  uiUsers : z.getTrafficStats.uiUsers =
    (z.msUsers.entries.map fun it => it.2.bytes).sum + owned Csock.user Csock.bytes z.manager
  uiZNC : z.getTrafficStats.uiZNC = z.bytes + ((z.manager.filter fun pSock => pSock.user.isNone).map Csock.bytes).sum
  sum : z.getTrafficStats.uiUsers = (z.getTrafficStats.ret.entries.map Prod.snd).sum
  Total : z.getTrafficStats.Total = z.getTrafficStats.uiUsers + z.getTrafficStats.uiZNC

/-- **The statistics of the networks of a user** are right. -/
structure NetworkStatsOk (z : CZNC) (sUsername : CString) : Prop where
  /-- a network has what is stored and what its sockets have -/
  networks : ∀ pUser, z.msUsers.find sUsername = some pUser → ∀ pNetwork ∈ pUser.vIRCNetworks,
    (z.getNetworkTrafficStats sUsername 0).1.find pNetwork.sName =
      some (pNetwork.bytes + ((z.socksOf sUsername pNetwork.sName).map Csock.bytes).sum)
  Total : (z.getNetworkTrafficStats sUsername 0).2 =
    ((z.getNetworkTrafficStats sUsername 0).1.entries.map Prod.snd).sum

/-- of each network that has sockets nothing is stored, and all of them but the last have no traffic, or what there is adds up to
0 in the 64 bits -/
def LastOnly (z : CZNC) (sUsername : CString) : Prop :=
  ∀ pUser, z.msUsers.find sUsername = some pUser → ∀ pNetwork ∈ pUser.vIRCNetworks,
    z.socksOf sUsername pNetwork.sName ≠ [] →
      pNetwork.bytes + ((z.socksOf sUsername pNetwork.sName).dropLast.map Csock.bytes).sum = 0

end CZNC

/-! ## Users -/

theorem foldl_addUser (l : List (CString × CUser)) (st : TrafficStats) :
    let st' := l.foldl TrafficStats.addUser st
    st'.ret = l.foldl (fun ret it => ret.insert it.1 it.2.bytes) st.ret ∧
      st'.uiUsers = st.uiUsers + (l.map fun it => it.2.bytes).sum ∧ st'.uiZNC = st.uiZNC := by
  induction l generalizing st with
  | nil => exact ⟨rfl, (add_zero _).symm, rfl⟩
  | cons it l ih =>
    obtain ⟨hret, husers, hznc⟩ := ih (st.addUser it)
    refine ⟨hret, ?_, hznc⟩
    rw [foldl_cons, husers, map_cons, sum_cons, ← add_assoc]
    rfl

theorem foldl_addSock (socks : List Csock) (st : TrafficStats) :
    let st' := socks.foldl TrafficStats.addSock st
    st'.ret = socks.foldl (addTo Csock.user Csock.bytes) st.ret ∧
      st'.uiUsers = st.uiUsers + owned Csock.user Csock.bytes socks ∧
      st'.uiZNC = st.uiZNC + ((socks.filter fun pSock => pSock.user.isNone).map Csock.bytes).sum := by
  induction socks generalizing st with
  | nil => exact ⟨rfl, (add_zero _).symm, (add_zero _).symm⟩
  | cons pSock socks ih =>
    obtain ⟨hret, husers, hznc⟩ := ih (st.addSock pSock)
    rw [foldl_cons, foldl_cons, owned_cons, filter_cons]
    refine ⟨hret.trans ?_, husers.trans ?_, hznc.trans ?_⟩
    · rw [TrafficStats.addSock, addTo]
      cases pSock.user <;> rfl
    · rw [TrafficStats.addSock]
      cases pSock.user with
      | none => exact congrArg (st.uiUsers + ·) (zero_add _).symm
      | some pUser => exact add_assoc _ _ _
    · rw [TrafficStats.addSock]
      cases pSock.user with
      | none => exact add_assoc _ _ _
      | some pUser => rfl

theorem userStats (z : CZNC) : z.UserStatsOk := by
  obtain ⟨hfill, husers, hznc⟩ := foldl_addUser z.msUsers.entries ⟨.empty, 0, z.bytes⟩
  obtain ⟨hfind, hothers⟩ := find_fill (fun it : CString × CUser => it.2.bytes) z.msUsers.keys_nodup .empty
  rw [← hfill] at hfind hothers
  obtain ⟨hret, husers', hznc'⟩ :=
    foldl_addSock z.manager (z.msUsers.entries.foldl TrafficStats.addUser ⟨.empty, 0, z.bytes⟩)
  set st := z.msUsers.entries.foldl TrafficStats.addUser ⟨.empty, 0, z.bytes⟩ with hst
  have hstored (sUsername : CString) (pUser : CUser) (h : z.msUsers.find sUsername = some pUser) :
      st.ret.find sUsername = some pUser.bytes := hfind _ ((z.msUsers.mem_entries_iff _ _).2 h)
  have hsome (sUsername : CString) : (st.ret.find sUsername).isSome = (z.msUsers.find sUsername).isSome := by
    cases h : z.msUsers.find sUsername with
    | some pUser => rw [hstored _ _ h]; rfl
    | none =>
      rw [hothers]
      · rfl
      · intro hmem
        obtain ⟨it, hit, rfl⟩ := mem_map.1 hmem
        rw [(z.msUsers.mem_entries_iff it.1 it.2).1 hit] at h
        cases h
  have hknown : ∀ pSock ∈ z.manager, ∀ k, pSock.user = some k → (st.ret.find k).isSome := by
    intro pSock hsock k hk
    rw [hsome]
    exact z.users pSock hsock k hk
  have hentry (sUsername : CString) (pUser : CUser) (h : z.msUsers.find sUsername = some pUser) :
      z.getTrafficStats.ret.find sUsername = some (pUser.bytes + share Csock.user Csock.bytes sUsername z.manager) := by
    rw [CZNC.getTrafficStats, hret]
    exact find_foldl_add _ _ _ (hstored _ _ h)
  have honly (sUsername : CString) :
      (z.getTrafficStats.ret.find sUsername).isSome = (z.msUsers.find sUsername).isSome := by
    rw [CZNC.getTrafficStats, hret, isSome_foldl_add _ _ hknown, hsome]
  refine ⟨hentry, fun sUsername h => ?_, ?_, hznc'.trans (by rw [hznc]), ?_, rfl⟩
  · rwa [← honly]
  · rw [CZNC.getTrafficStats, husers', husers, zero_add]
  · have hsum := sum_entries (m := z.getTrafficStats.ret) (l := z.msUsers.entries) (f := Prod.fst)
      (g := fun it => it.2.bytes + share Csock.user Csock.bytes it.1 z.manager) z.msUsers.keys_nodup ?_
    · have hshares : (z.msUsers.entries.map fun it => share Csock.user Csock.bytes it.1 z.manager).sum =
          owned Csock.user Csock.bytes z.manager := by
        have hall := @sum_share _ _ _ _ _ Csock.user Csock.bytes _ z.msUsers.keys_nodup z.manager fun pSock hsock k hk =>
          (z.msUsers.find_isSome_iff k).1 (z.users pSock hsock k hk)
        rw [← hall, OrdMap.keys, map_map]
        rfl
      rw [hsum, sum_map_add, hshares, CZNC.getTrafficStats, husers', husers, zero_add]
    · intro k v
      constructor
      · intro hv
        have hk : (z.msUsers.find k).isSome = true := by
          rw [← honly, hv]
          rfl
        obtain ⟨pUser, hpUser⟩ := Option.isSome_iff_exists.1 hk
        have heq := hentry k pUser hpUser
        rw [hv] at heq
        exact ⟨(k, pUser), (z.msUsers.mem_entries_iff _ _).2 hpUser, rfl, (Option.some.inj heq).symm⟩
      · rintro ⟨it, hit, rfl, rfl⟩
        exact hentry _ _ ((z.msUsers.mem_entries_iff _ _).1 hit)

/-! ## Networks -/

section Networks

variable (z : CZNC) (sUsername : CString)

theorem foldl_addNetwork (l : List CIRCNetwork) (st : CZNC.NetworkStats) :
    let st' := l.foldl CZNC.addNetwork st
    st'.1 = l.foldl (fun Networks pNetwork => Networks.insert pNetwork.sName pNetwork.bytes) st.1 ∧
      st'.2 = st.2 + (l.map CIRCNetwork.bytes).sum := by
  induction l generalizing st with
  | nil => exact ⟨rfl, (add_zero _).symm⟩
  | cons pNetwork l ih =>
    obtain ⟨hnetworks, htotal⟩ := ih (CZNC.addNetwork st pNetwork)
    refine ⟨hnetworks, ?_⟩
    rw [foldl_cons, htotal, map_cons, sum_cons, ← add_assoc]
    rfl

theorem foldl_addNetworkSock (socks : List Csock) (st : CZNC.NetworkStats) :
    let st' := socks.foldl (CZNC.addNetworkSock sUsername) st
    st'.1 = socks.foldl (assignTo (CZNC.networkOf sUsername) Csock.bytes) st.1 ∧
      st'.2 = st.2 + owned (CZNC.networkOf sUsername) Csock.bytes socks := by
  induction socks generalizing st with
  | nil => exact ⟨rfl, (add_zero _).symm⟩
  | cons pSock socks ih =>
    obtain ⟨hnetworks, htotal⟩ := ih (CZNC.addNetworkSock sUsername st pSock)
    rw [foldl_cons, foldl_cons, owned_cons]
    refine ⟨hnetworks.trans ?_, htotal.trans ?_⟩
    · rw [CZNC.addNetworkSock, assignTo]
      cases CZNC.networkOf sUsername pSock <;> rfl
    · rw [CZNC.addNetworkSock]
      cases CZNC.networkOf sUsername pSock with
      | none => exact congrArg (st.2 + ·) (zero_add _).symm
      | some sName => exact add_assoc _ _ _

variable {z sUsername} {pUser : CUser}

theorem networkOf_mem (h : z.msUsers.find sUsername = some pUser) :
    ∀ pSock ∈ z.manager, ∀ sName, CZNC.networkOf sUsername pSock = some sName →
      sName ∈ pUser.vIRCNetworks.map CIRCNetwork.sName := by
  intro pSock hsock sName hname
  obtain ⟨pNetwork, hnetwork, hname⟩ := Option.bind_eq_some_iff.1 hname
  obtain ⟨huser, rfl⟩ := Option.ite_none_right_eq_some.1 hname |>.imp_right Option.some.inj
  exact z.networks pSock hsock sUsername pNetwork.2 (by rw [hnetwork, ← huser]) pUser h

/-- **What is reported for a network:** the last of its sockets, or what is stored if there is none. -/
theorem reported_eq (h : z.msUsers.find sUsername = some pUser) {pNetwork : CIRCNetwork}
    (hnetwork : pNetwork ∈ pUser.vIRCNetworks) (Total : TrafficStatsPair) :
    (z.getNetworkTrafficStats sUsername Total).1.find pNetwork.sName =
      some (((z.socksOf sUsername pNetwork.sName).getLast?.map Csock.bytes).getD pNetwork.bytes) := by
  obtain ⟨hfill, -⟩ := foldl_addNetwork pUser.vIRCNetworks (.empty, Total)
  obtain ⟨hfind, -⟩ := find_fill CIRCNetwork.bytes pUser.nodup .empty
  obtain ⟨hassign, -⟩ := foldl_addNetworkSock sUsername z.manager (pUser.vIRCNetworks.foldl CZNC.addNetwork (.empty, Total))
  rw [CZNC.getNetworkTrafficStats, h]
  dsimp only
  rw [hassign, find_foldl_last, hfill, hfind pNetwork hnetwork, CZNC.socksOf]
  cases (z.manager.filter fun pSock => CZNC.networkOf sUsername pSock = some pNetwork.sName).getLast? <;> rfl

theorem reported_mem (h : z.msUsers.find sUsername = some pUser) {sName : CString} {Total bytes : TrafficStatsPair}
    (hreported : (z.getNetworkTrafficStats sUsername Total).1.find sName = some bytes) :
    sName ∈ pUser.vIRCNetworks.map CIRCNetwork.sName := by
  by_contra hnot
  obtain ⟨hfill, -⟩ := foldl_addNetwork pUser.vIRCNetworks (.empty, Total)
  obtain ⟨-, hothers⟩ := find_fill CIRCNetwork.bytes pUser.nodup .empty
  obtain ⟨hassign, -⟩ := foldl_addNetworkSock sUsername z.manager (pUser.vIRCNetworks.foldl CZNC.addNetwork (.empty, Total))
  have hnone : z.manager.filter (fun pSock => CZNC.networkOf sUsername pSock = some sName) = [] := by
    refine filter_eq_nil_iff.2 fun pSock hsock hname => hnot ?_
    exact networkOf_mem h pSock hsock sName (by simpa using hname)
  rw [CZNC.getNetworkTrafficStats, h] at hreported
  dsimp only at hreported
  rw [hassign, find_foldl_last, hnone, hfill, hothers sName hnot] at hreported
  cases hreported

theorem networkTotal_eq (h : z.msUsers.find sUsername = some pUser) (Total : TrafficStatsPair) :
    (z.getNetworkTrafficStats sUsername Total).2 = Total + (pUser.vIRCNetworks.map fun pNetwork =>
      pNetwork.bytes + ((z.socksOf sUsername pNetwork.sName).map Csock.bytes).sum).sum := by
  obtain ⟨-, hstored⟩ := foldl_addNetwork pUser.vIRCNetworks (.empty, Total)
  obtain ⟨-, htotal⟩ := foldl_addNetworkSock sUsername z.manager (pUser.vIRCNetworks.foldl CZNC.addNetwork (.empty, Total))
  have hshares := sum_share (CZNC.networkOf sUsername) Csock.bytes pUser.nodup (networkOf_mem h)
  rw [map_map] at hshares
  rw [CZNC.getNetworkTrafficStats, h]
  dsimp only
  rw [htotal, hstored, sum_map_add, ← hshares, add_assoc]
  rfl

theorem reported_ok_iff (h : z.msUsers.find sUsername = some pUser) {pNetwork : CIRCNetwork}
    (hnetwork : pNetwork ∈ pUser.vIRCNetworks) :
    (z.getNetworkTrafficStats sUsername 0).1.find pNetwork.sName =
        some (pNetwork.bytes + ((z.socksOf sUsername pNetwork.sName).map Csock.bytes).sum) ↔
      (z.socksOf sUsername pNetwork.sName ≠ [] →
        pNetwork.bytes + ((z.socksOf sUsername pNetwork.sName).dropLast.map Csock.bytes).sum = 0) := by
  rw [reported_eq h hnetwork, Option.some.injEq]
  rcases eq_nil_or_concat (z.socksOf sUsername pNetwork.sName) with hnil | ⟨others, pSock, hsocks⟩
  · rw [hnil]
    simp
  · rw [hsocks, concat_eq_append, getLast?_concat, dropLast_concat, map_append, sum_append,
      map_singleton, sum_singleton, ← add_assoc]
    simp only [Option.map_some, Option.getD_some, right_eq_add, ne_eq, append_eq_nil_iff, cons_ne_self,
      and_false, not_false_eq_true, forall_const]

end Networks

/-- **The statistics of the networks** are right exactly if of each network with sockets nothing else counts but the last one. -/
theorem networkStats_iff (z : CZNC) (sUsername : CString) :
    z.UserStatsOk ∧ z.NetworkStatsOk sUsername ↔ z.LastOnly sUsername := by
  rw [and_iff_right (userStats z)]
  constructor
  · intro hok pUser h pNetwork hnetwork
    exact (reported_ok_iff h hnetwork).1 (hok.networks pUser h pNetwork hnetwork)
  · intro hlast
    have hnetworks := fun pUser h pNetwork hnetwork =>
      (@reported_ok_iff z sUsername pUser h pNetwork hnetwork).2 (hlast pUser h pNetwork hnetwork)
    refine ⟨hnetworks, ?_⟩
    cases h : z.msUsers.find sUsername with
    | none =>
      rw [CZNC.getNetworkTrafficStats, h]
      rfl
    | some pUser =>
      rw [networkTotal_eq h, zero_add]
      refine (sum_entries pUser.nodup fun k v => ?_).symm
      constructor
      · intro hv
        obtain ⟨pNetwork, hnetwork, rfl⟩ := mem_map.1 (reported_mem h hv)
        rw [hnetworks pUser h pNetwork hnetwork] at hv
        exact ⟨pNetwork, hnetwork, rfl, Option.some.inj hv⟩
      · rintro ⟨pNetwork, hnetwork, rfl, rfl⟩
        exact hnetworks pUser h pNetwork hnetwork

/-! ## A network with two clients -/

def oneNetwork : CUser := ⟨(0, 0), [⟨lit "net", (5, 7)⟩], by decide⟩

def twoClients : List Csock := [⟨.USR (some (lit "user", some (lit "net"))), (10, 20)⟩, ⟨.IRC (lit "user") (lit "net"), (30, 40)⟩]

theorem users_twoClients : ∀ pSock ∈ twoClients, ∀ sUsername, pSock.user = some sUsername →
    ((OrdMap.empty.insert (lit "user") oneNetwork).find sUsername).isSome := by
  intro pSock hsock sUsername huser
  have hall : ∀ pSock ∈ twoClients, pSock.user = some (lit "user") := by decide
  rw [hall pSock hsock] at huser
  obtain rfl := Option.some.inj huser
  rfl

theorem networks_twoClients : ∀ pSock ∈ twoClients, ∀ sUsername sName, pSock.network = some (sUsername, sName) →
    ∀ pUser, (OrdMap.empty.insert (lit "user") oneNetwork).find sUsername = some pUser →
      sName ∈ pUser.vIRCNetworks.map CIRCNetwork.sName := by
  intro pSock hsock sUsername sName hnetwork pUser huser
  have hall : ∀ pSock ∈ twoClients, pSock.network = some (lit "user", lit "net") := by decide
  rw [hall pSock hsock] at hnetwork
  obtain ⟨rfl, rfl⟩ := Prod.mk.inj (Option.some.inj hnetwork)
  obtain rfl := Option.some.inj huser
  exact mem_cons_self

def busy : CZNC := ⟨(0, 0), OrdMap.empty.insert (lit "user") oneNetwork, twoClients, users_twoClients, networks_twoClients⟩

/-- 45 bytes were read for the network, the statistics say 30, and in total 45 -/
theorem busy_not_ok : ¬busy.NetworkStatsOk (lit "user") ∧ busy.getNetworkTrafficStats (lit "user") 0 =
    (OrdMap.empty.insert (lit "net") (30, 40), (45, 67)) := by
  refine ⟨fun hok => ?_, by decide⟩
  have hone := hok.networks oneNetwork rfl ⟨lit "net", (5, 7)⟩ mem_cons_self
  exact absurd hone (by decide)

end ZNC.Traffic
