/-
The servers of a network: `AddServer`, `DelServer`, `GetNextServer` and `SetNextServer` of `src/IRCNetwork.cpp`.

`m_uServerIdx` is the place of the current server in `m_vServers` plus one, so the place of the next one; behind the end of
the list it stands for the first place. `DelServer` has to move it with the servers behind the deleted one.

Model: servers are told apart by their fields, since `AddServer` takes none that is in the list already.

Results:
- `delServer_upcoming`: the order in which the servers come next, before and after `DelServer`;
- `nextServers_eq`: what a round of `GetNextServer` returns;
- `server_rotation`: the next server after a deletion, the bounds of the index, and that each round visits every server once.
-/
import ZNC.CString
import ZNC.Lib.Rotation

namespace ZNC

open Rotation List

structure CServer where
  sName : CString
  uPort : UInt16
  sPass : CString
  bSSL : Bool
  bUnixSocket : Bool
deriving DecidableEq

def CServer.new (sName : CString) (uPort : UInt16) (sPass : CString) (bSSL bUnixSocket : Bool) : CServer :=
  ⟨sName, if uPort = 0 then 6667 else uPort, sPass, bSSL, bUnixSocket⟩

/-- the test of `DelServer`: `pServer` is one that `Server` names -/
def CServer.names (Server pServer : CServer) : Bool :=
  pServer.sName.equals Server.sName && !(!pServer.bUnixSocket && Server.bUnixSocket) &&
    !(Server.uPort ≠ 6667 && pServer.uPort ≠ Server.uPort) && !(Server.sPass ≠ [] && pServer.sPass ≠ Server.sPass)

/-- `m_vServers` and `m_uServerIdx` of a network -/
structure ServerList where
  vServers : List CServer
  uServerIdx : ℕ
  nodup : vServers.Nodup

/-- `n--` for a `size_t` -/
def decr (n : ℕ) : ℕ := if n = 0 then 2 ^ 64 - 1 else n - 1

namespace ServerList

def initial : ServerList := ⟨[], 0, nodup_nil⟩

/-- `AddServer(Server)`, with SSL compiled in -/
def addServer (s : ServerList) (Server : CServer) : ServerList :=
  if h : Server.sName = [] ∨ Server ∈ s.vServers then s
  else
    { s with
      vServers := s.vServers ++ [Server]
      nodup := (nodup_cons.2 ⟨fun hmem => h (.inr hmem), s.nodup⟩).perm (perm_append_singleton _ _).symm }

/-- `GetCurrentServer()`: its place -/
def currentServer (s : ServerList) : Option ℕ :=
  let uIdx := if s.uServerIdx ≠ 0 then s.uServerIdx - 1 else 0
  if uIdx < s.vServers.length then some uIdx else none

def delServer (s : ServerList) (Server : CServer) : ServerList :=
  match s.vServers.findIdx? Server.names with
  | none => s
  | some a =>
    let uServerIdx :=
      if s.currentServer = some a then if s.uServerIdx ≠ 0 then decr s.uServerIdx else s.uServerIdx
      -- `bSawCurrentServer`
      else if s.currentServer.any (· < a) then s.uServerIdx
      else decr s.uServerIdx
    ⟨s.vServers.eraseIdx a, uServerIdx, (eraseIdx_sublist s.vServers a).nodup s.nodup⟩

/-- `DelServer(sName, uPort, sPass)` -/
def delServerNamed (s : ServerList) (sName : CString) (uPort : UInt16) (sPass : CString) : ServerList :=
  if sName = [] then s else s.delServer (CServer.new sName uPort sPass false false)

def getNextServer (s : ServerList) (bAdvance : Bool) : ServerList × Option CServer :=
  if s.vServers = [] then (s, none)
  else
    let uServerIdx := if s.vServers.length ≤ s.uServerIdx then 0 else s.uServerIdx
    ({ s with uServerIdx := if bAdvance then uServerIdx + 1 else uServerIdx }, s.vServers[uServerIdx]?)

def setNextServer (s : ServerList) (pServer : CServer) : ServerList :=
  match s.vServers.findIdx? (· = pServer) with
  | none => s
  | some a => { s with uServerIdx := a }

inductive Op where
  | addServer (Server : CServer)
  | delServer (Server : CServer)
  | delServerNamed (sName : CString) (uPort : UInt16) (sPass : CString)
  | getNextServer (bAdvance : Bool)
  | setNextServer (pServer : CServer)

def exec (s : ServerList) : Op → ServerList
  | .addServer Server => s.addServer Server
  | .delServer Server => s.delServer Server
  | .delServerNamed sName uPort sPass => s.delServerNamed sName uPort sPass
  | .getNextServer bAdvance => (s.getNextServer bAdvance).1
  | .setNextServer pServer => s.setNextServer pServer

/-! ## Statement -/

def nextServer (s : ServerList) : Option CServer := (s.getNextServer true).2

/-- the server behind `x` in the list, which is the first behind the last one, unless `x` is the only one -/
def successor (s : ServerList) (x : CServer) : Option CServer :=
  s.vServers[(s.vServers.idxOf x + 1) % s.vServers.length]?.filter (· ≠ x)

/-- the servers that `n` calls of `GetNextServer()` return -/
def nextServers : ℕ → ServerList → List CServer
  | 0, _ => []
  | n + 1, s => (s.getNextServer true).2.toList ++ nextServers n (s.getNextServer true).1

/-- `s'` is `s` after `x` was deleted -/
structure Deleted (s : ServerList) (x : CServer) (s' : ServerList) : Prop where
  servers : s.vServers.Perm (x :: s'.vServers)
  same : s.nextServer ≠ some x → s'.nextServer = s.nextServer
  successor : s.nextServer = some x → s'.nextServer = s.successor x
  /-- the index does not wrap around, and stays in the list -/
  noUnderflow : s'.uServerIdx ≤ s.uServerIdx
  bound : s.uServerIdx ≤ s.vServers.length → s'.uServerIdx ≤ s'.vServers.length

/-! ## Rounds -/

/-- the servers in the order in which they come next -/
def round (s : ServerList) : List CServer := upcoming s.vServers s.uServerIdx

variable (s : ServerList)

theorem round_nodup : s.round.Nodup := s.nodup.perm (upcoming_perm _ _).symm

theorem getNextServer_round (bAdvance : Bool) :
    (s.getNextServer bAdvance).2 = s.round.head? ∧ (s.getNextServer bAdvance).1.vServers = s.vServers ∧
      (s.getNextServer bAdvance).1.round = if bAdvance then s.round.tail ++ s.round.head?.toList else s.round := by
  unfold getNextServer round
  by_cases hnil : s.vServers = []
  · rw [if_pos hnil]
    dsimp only
    rw [hnil, upcoming_of_le (Nat.zero_le _)]
    exact ⟨rfl, hnil.symm ▸ rfl, by cases bAdvance <;> rfl⟩
  · rw [if_neg hnil]
    dsimp only
    have hpos : 0 < s.vServers.length := length_pos_iff.2 hnil
    rw [← upcoming_wrap s.vServers s.uServerIdx]
    generalize hidx : (if s.vServers.length ≤ s.uServerIdx then 0 else s.uServerIdx) = uServerIdx
    have hlt : uServerIdx < s.vServers.length := by
      rw [← hidx]
      split_ifs <;> omega
    rw [head?_upcoming hlt, getElem?_eq_getElem hlt]
    refine ⟨rfl, rfl, ?_⟩
    cases bAdvance with
    | true => exact upcoming_succ hlt
    | false => rfl

theorem nextServer_eq : s.nextServer = s.round.head? := (s.getNextServer_round true).1

theorem nextServers_eq (n : ℕ) (s : ServerList) (hn : n ≤ s.vServers.length) : nextServers n s = s.round.take n := by
  induction n generalizing s with
  | zero => rfl
  | succ n ih =>
    obtain ⟨hserver, hservers, hround⟩ := s.getNextServer_round true
    have hlen : s.round.length = s.vServers.length := (upcoming_perm _ _).length_eq
    rw [nextServers, hserver, ih _ (by rw [hservers]; omega), hround, if_pos rfl]
    cases hs : s.round with
    | nil => rw [hs] at hlen; simp at hlen; omega
    | cons x l =>
      have hle : n ≤ l.length := by
        rw [hs, length_cons] at hlen
        omega
      rw [head?_cons, Option.toList_some, tail_cons, take_append_of_le_length hle]
      rfl

/-! ## Deletions -/

theorem delServer_index {a : ℕ} (ha : a < s.vServers.length) :
    (if s.currentServer = some a then if s.uServerIdx ≠ 0 then decr s.uServerIdx else s.uServerIdx
      else if s.currentServer.any (· < a) then s.uServerIdx
      else decr s.uServerIdx) =
      if a < s.uServerIdx then s.uServerIdx - 1 else s.uServerIdx := by
  unfold currentServer decr
  cases hidx : s.uServerIdx with
  | zero =>
    have hpos : 0 < s.vServers.length := Nat.zero_lt_of_lt ha
    rcases Nat.eq_zero_or_pos a with rfl | hapos
    · simp [hpos]
    · simp [hpos, hapos, hapos.ne]
  | succ i =>
    have hi : (if i + 1 ≠ 0 then i + 1 - 1 else 0) = i := rfl
    rw [hi]
    by_cases hcur : i < s.vServers.length
    · rcases Nat.lt_trichotomy i a with hlt | rfl | hgt
      · simp [hcur, hlt, hlt.ne, Nat.not_lt.2 (Nat.succ_le_of_lt hlt)]
      · simp [hcur]
      · simp [hcur, hgt.ne', Nat.not_lt.2 hgt.le, Nat.lt_succ_of_lt hgt]
    · have hgt : a < i := ha.trans_le (not_lt.1 hcur)
      simp [hcur, Nat.lt_succ_of_lt hgt]

/-- `DelServer` finds nothing, or takes the server it finds out of the round -/
theorem delServer_upcoming (Server : CServer) :
    (∀ x ∈ s.vServers, Server.names x = false) ∧ s.delServer Server = s ∨
      ∃ x, Server.names x ∧ s.vServers.Perm (x :: (s.delServer Server).vServers) ∧
        Drops x s.round (s.delServer Server).round ∧
        (s.delServer Server).uServerIdx ≤ s.uServerIdx ∧ (s.uServerIdx ≤ s.vServers.length →
          (s.delServer Server).uServerIdx ≤ (s.delServer Server).vServers.length) := by
  unfold delServer
  cases hfind : s.vServers.findIdx? Server.names with
  | none => exact .inl ⟨findIdx?_eq_none_iff.1 hfind, rfl⟩
  | some a =>
    right
    obtain ⟨ha, hnames, -⟩ := findIdx?_eq_some_iff_getElem.1 hfind
    refine ⟨s.vServers[a], hnames, ?_⟩
    have hl : s.vServers = s.vServers.take a ++ s.vServers[a] :: s.vServers.drop (a + 1) := by
      rw [← drop_eq_getElem_cons ha, take_append_drop]
    have hl' : s.vServers.eraseIdx a = s.vServers.take a ++ s.vServers.drop (a + 1) :=
      eraseIdx_eq_take_drop_succ _ _
    have hlen : (s.vServers.take a).length = a := length_take_of_le ha.le
    have hlen' : (s.vServers.eraseIdx a).length = s.vServers.length - 1 := length_eraseIdx_of_lt ha
    have hperm : s.vServers.Perm (s.vServers[a] :: s.vServers.eraseIdx a) := by
      rw [hl']
      exact (List.Perm.of_eq hl).trans perm_middle
    -- the index moves exactly if the deleted server stands in front of it
    have hmove : ∀ i, s.uServerIdx = i + 1 → a ≤ i →
        Drops s.vServers[a] s.round (upcoming (s.vServers.eraseIdx a) i) := by
      intro i hi hle
      rw [round, hi, hl']
      nth_rewrite 2 [hl]
      exact drops_upcoming_of_lt (hlen.trans_le hle)
    have hstay : s.uServerIdx ≤ a → Drops s.vServers[a] s.round (upcoming (s.vServers.eraseIdx a) s.uServerIdx) := by
      intro hle
      rw [round, hl']
      nth_rewrite 2 [hl]
      exact drops_upcoming_of_le (hle.trans_eq hlen.symm)
    dsimp only
    rw [s.delServer_index ha, hlen']
    refine ⟨hperm, ?_⟩
    split_ifs with hlt
    · obtain ⟨i, hi⟩ := Nat.exists_eq_succ_of_ne_zero (Nat.ne_zero_of_lt hlt)
      refine ⟨?_, Nat.sub_le _ _, fun h => Nat.sub_le_sub_right h 1⟩
      have hpred : s.uServerIdx - 1 = i := by rw [hi, Nat.succ_sub_one]
      rw [hpred]
      exact hmove i hi (by omega)
    · exact ⟨hstay (not_lt.1 hlt), le_rfl, fun _ => by omega⟩

theorem successor_eq {x : CServer} (hx : s.round.head? = some x) :
    s.successor x = s.round.tail.head? := by
  rw [round, ← upcoming_wrap] at hx ⊢
  generalize hidx : (if s.vServers.length ≤ s.uServerIdx then 0 else s.uServerIdx) = i at hx ⊢
  have hi : i < s.vServers.length := by
    by_contra hno
    have hnil : s.vServers = [] := by
      apply eq_nil_of_length_eq_zero
      split_ifs at hidx <;> omega
    rw [hnil, upcoming_of_le (Nat.zero_le _)] at hx
    cases hx
  rw [head?_upcoming hi, Option.some_inj] at hx
  have hof : s.vServers.idxOf x = i := by rw [← hx, s.nodup.idxOf_getElem i hi]
  -- another place of the list has another server
  have hother : ∀ j (hj : j < s.vServers.length), j ≠ i → s.vServers[j] ≠ x := by
    intro j hj hne heq
    rw [← hx] at heq
    exact hne (s.nodup.getElem_inj_iff.1 heq)
  rw [successor, hof, upcoming_of_lt hi, drop_eq_getElem_cons hi, cons_append, tail_cons]
  rcases Nat.lt_or_eq_of_le (Nat.succ_le_of_lt hi) with hlt | heq
  · have hmod : (i + 1) % s.vServers.length = i + 1 := Nat.mod_eq_of_lt hlt
    rw [hmod, getElem?_eq_getElem hlt, drop_eq_getElem_cons hlt]
    exact Option.filter_some_pos (by simpa using hother (i + 1) hlt (Nat.succ_ne_self i))
  · have hmod : (i + 1) % s.vServers.length = 0 := by rw [← heq, Nat.mod_self]
    have hpos : 0 < s.vServers.length := Nat.zero_lt_of_lt hi
    rw [hmod, getElem?_eq_getElem hpos, drop_eq_nil_of_le heq.ge, nil_append, head?_take]
    split_ifs with h0
    · have hx0 : s.vServers[0] = x := by
        rw [← hx]
        congr 1
        exact h0.symm
      rw [hx0]
      simp
    · rw [head?_eq_getElem?, getElem?_eq_getElem hpos]
      exact Option.filter_some_pos (by simpa using hother 0 hpos (Ne.symm h0))

theorem delServer_deleted (Server : CServer) :
    (∀ x ∈ s.vServers, Server.names x = false) ∧ s.delServer Server = s ∨
      ∃ x, Server.names x ∧ Deleted s x (s.delServer Server) := by
  refine (s.delServer_upcoming Server).imp_right fun h => ?_
  obtain ⟨x, hnames, hperm, hdrops, hidx, hbound⟩ := h
  obtain ⟨hsucc, hsame⟩ := hdrops.head? s.round_nodup
  refine ⟨x, hnames, hperm, fun hne => ?_, fun hx => ?_, hidx, hbound⟩
  · rw [nextServer_eq] at hne ⊢
    rw [nextServer_eq, hsame hne]
  · rw [nextServer_eq] at hx ⊢
    rw [hsucc hx, s.successor_eq hx]

theorem exec_index {s : ServerList} (h : s.uServerIdx ≤ s.vServers.length) (op : Op) :
    (s.exec op).uServerIdx ≤ (s.exec op).vServers.length := by
  have hdel : ∀ Server, (s.delServer Server).uServerIdx ≤ (s.delServer Server).vServers.length := by
    intro Server
    rcases s.delServer_upcoming Server with ⟨-, hsame⟩ | ⟨x, -, -, -, -, hbound⟩
    · rw [hsame]
      exact h
    · exact hbound h
  cases op with
  | addServer Server =>
    unfold exec addServer
    dsimp only
    split_ifs
    · exact h
    · exact h.trans (prefix_append _ _).length_le
  | delServer Server => exact hdel Server
  | delServerNamed sName uPort sPass =>
    unfold exec delServerNamed
    dsimp only
    split_ifs
    · exact h
    · exact hdel _
  | getNextServer bAdvance =>
    unfold exec getNextServer
    dsimp only
    by_cases hnil : s.vServers = []
    · rw [if_pos hnil]
      exact h
    · have hpos : 0 < s.vServers.length := length_pos_iff.2 hnil
      rw [if_neg hnil]
      dsimp only
      split_ifs <;> omega
  | setNextServer pServer =>
    unfold exec setNextServer
    dsimp only
    cases hfind : s.vServers.findIdx? (· = pServer) with
    | none => exact h
    | some a => exact (findIdx?_eq_some_iff_getElem.1 hfind).1.le

/-- **The rotation survives deletions.** `DelServer` finds no server, or the one it takes away is skipped by the next
`GetNextServer()` and nothing else changes; as many calls of `GetNextServer()` as there are servers return each of them once;
and the index stays in the list in every run. -/
theorem server_rotation (s : ServerList) (Server : CServer) :
    ((∀ x ∈ s.vServers, Server.names x = false) ∧ s.delServer Server = s ∨
        ∃ x, Server.names x ∧ Deleted s x (s.delServer Server)) ∧
      (nextServers s.vServers.length s).Perm s.vServers ∧ (nextServers s.vServers.length s).Nodup ∧
      ∀ ops : List Op, (ops.foldl exec initial).uServerIdx ≤ (ops.foldl exec initial).vServers.length := by
  have hround : nextServers s.vServers.length s = s.round := by
    rw [nextServers_eq _ s le_rfl]
    exact take_of_length_le (upcoming_perm _ _).length_eq.le
  rw [hround]
  refine ⟨s.delServer_deleted Server, upcoming_perm _ _, s.round_nodup, fun ops => ?_⟩
  induction ops using List.reverseRecOn with
  | nil => exact le_rfl
  | append_singleton ops op ih =>
    rw [foldl_append]
    exact exec_index ih op

end ServerList

end ZNC
