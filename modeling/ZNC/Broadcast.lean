/-
What a user's clients are sent: `PutUser`, `PutStatus`, `PutStatusNotice`, `PutModule` and `PutModNotice` of `src/User.cpp`
with `PutUser` of `src/IRCNetwork.cpp`.

Clients are in the list of one of the user's networks, or in the user's own. Each function sends to all of them but one, or to
a single one; its result says whether a client that was asked for was found.

Results:
- `putAll_spec`: four of the functions send to each client of `GetAllClients`;
- `putUser_target`, `putUser_count`: the fifth goes from network to network;
- `put_iff`: when each client is sent to as often as `GetAllClients` lists it.

Model: `C` is the type of pointers to clients; what is sent is a list of calls, one for each call of a function of a client.
-/
import ZNC.CString

namespace ZNC.Broadcast

open CString List

/-! ## Model -/

/-- what a client is sent -/
inductive Put where
  | client (sLine : CString)
  | status (sLine : CString)
  | statusNotice (sLine : CString)
  | module (sModule sLine : CString)
  | modNotice (sModule sLine : CString)
deriving DecidableEq, Repr

/-- the client and what it was sent -/
abbrev Call (C : Type) : Type := C × Put

structure CIRCNetwork (C : Type) where
  vClients : List C

structure CUser (C : Type) where
  vClients : List C
  vIRCNetworks : List (CIRCNetwork C)

section Functions

variable {C : Type} [DecidableEq C]

/-- the loop over a list of clients; it returns from the function if the client that was asked for is found -/
def putEach (put : Put) (pClient pSkipClient : Option C) : List C → List (Call C) × Bool
  | [] => ([], false)
  | pEachClient :: vClients =>
    if (pClient = none ∨ pClient = some pEachClient) ∧ pSkipClient ≠ some pEachClient then
      if pClient ≠ none then ([(pEachClient, put)], true)
      else
        let (calls, bReturned) := putEach put pClient pSkipClient vClients
        ((pEachClient, put) :: calls, bReturned)
    else putEach put pClient pSkipClient vClients

/-- a function that is such a loop -/
def putAll (put : Put) (pClient pSkipClient : Option C) (vClients : List C) : List (Call C) × Bool :=
  let (calls, bReturned) := putEach put pClient pSkipClient vClients
  (calls, bReturned || pClient = none)

namespace CIRCNetwork

def putUser (net : CIRCNetwork C) (sLine : CString) (pClient pSkipClient : Option C) : List (Call C) × Bool :=
  putAll (.client sLine) pClient pSkipClient net.vClients

end CIRCNetwork

/-- the loop of `CUser::PutUser` over the networks -/
def putNetworks (sLine : CString) (pClient pSkipClient : Option C) : List (CIRCNetwork C) → List (Call C) × Bool
  | [] => ([], pClient = none)
  | pNetwork :: vIRCNetworks =>
    let (calls, bReturned) := pNetwork.putUser sLine pClient pSkipClient
    if bReturned then (calls, true)
    else
      let (rest, bReturned) := putNetworks sLine pClient pSkipClient vIRCNetworks
      (calls ++ rest, bReturned)

namespace CUser

def getAllClients (user : CUser C) : List C := user.vIRCNetworks.flatMap (·.vClients) ++ user.vClients

def putUser (user : CUser C) (sLine : CString) (pClient pSkipClient : Option C) : List (Call C) × Bool :=
  let (calls, bReturned) := putEach (.client sLine) pClient pSkipClient user.vClients
  if bReturned then (calls, true)
  else
    let (rest, bReturned) := putNetworks sLine pClient pSkipClient user.vIRCNetworks
    (calls ++ rest, bReturned)

def putStatus (user : CUser C) (sLine : CString) (pClient pSkipClient : Option C) : List (Call C) × Bool :=
  putAll (.status sLine) pClient pSkipClient user.getAllClients

def putStatusNotice (user : CUser C) (sLine : CString) (pClient pSkipClient : Option C) : List (Call C) × Bool :=
  putAll (.statusNotice sLine) pClient pSkipClient user.getAllClients

def putModule (user : CUser C) (sModule sLine : CString) (pClient pSkipClient : Option C) : List (Call C) × Bool :=
  putAll (.module sModule sLine) pClient pSkipClient user.getAllClients

def putModNotice (user : CUser C) (sModule sLine : CString) (pClient pSkipClient : Option C) : List (Call C) × Bool :=
  putAll (.modNotice sModule sLine) pClient pSkipClient user.getAllClients

/-- the function for what is sent -/
def put (user : CUser C) (pClient pSkipClient : Option C) : Put → List (Call C) × Bool
  | .client sLine => user.putUser sLine pClient pSkipClient
  | .status sLine => user.putStatus sLine pClient pSkipClient
  | .statusNotice sLine => user.putStatusNotice sLine pClient pSkipClient
  | .module sModule sLine => user.putModule sModule sLine pClient pSkipClient
  | .modNotice sModule sLine => user.putModNotice sModule sLine pClient pSkipClient

end CUser

/-! ## Statements -/

/-- each client but the skipped one is sent it as often as it is listed, and nobody is sent anything else -/
def SentToAll (put : Put) (pSkipClient : Option C) (vClients : List C) (calls : List (Call C)) : Prop :=
  (∀ call ∈ calls, call.2 = put) ∧
    ∀ c, (calls.map Prod.fst).count c = if pSkipClient = some c then 0 else vClients.count c

/-- the client `t` is sent it once, if it is listed and not skipped, and nobody is sent anything else -/
def SentToOne (put : Put) (t : C) (pSkipClient : Option C) (vClients : List C) (calls : List (Call C)) : Prop :=
  calls = if t ∈ vClients ∧ pSkipClient ≠ some t then [(t, put)] else []

/-! ## The loop -/

variable (put : Put) (sLine : CString) (pSkipClient : Option C) (vClients : List C)

theorem putEach_all :
    putEach put none pSkipClient vClients =
      ((vClients.filter fun c => pSkipClient ≠ some c).map fun c => (c, put), false) := by
  induction vClients with
  | nil => rfl
  | cons c vClients ih =>
    by_cases hc : pSkipClient = some c
    · subst hc
      simp [putEach, ih]
    · simp [putEach, hc, ih]

theorem putEach_target (t : C) (pSkipClient : Option C) (vClients : List C) :
    putEach put (some t) pSkipClient vClients =
      if t ∈ vClients ∧ pSkipClient ≠ some t then ([(t, put)], true) else ([], false) := by
  induction vClients with
  | nil => simp [putEach]
  | cons c vClients ih =>
    by_cases hc : t = c
    · subst hc
      by_cases hskip : pSkipClient = some t
      · subst hskip
        simp [putEach, ih]
      · simp [putEach, hskip]
    · simp [putEach, hc, ih]

theorem sentToAll_filter :
    SentToAll put pSkipClient vClients ((vClients.filter fun c => pSkipClient ≠ some c).map fun c => (c, put)) := by
  refine ⟨fun call hcall => ?_, fun c => ?_⟩
  · obtain ⟨c, -, rfl⟩ := mem_map.1 hcall
    rfl
  · have hfst : ((vClients.filter fun c => pSkipClient ≠ some c).map fun c => (c, put)).map Prod.fst =
        vClients.filter fun c => pSkipClient ≠ some c := by
      rw [map_map]
      exact map_id _
    rw [hfst]
    split
    · rename_i hskip
      refine count_eq_zero.2 fun hmem => ?_
      exact of_decide_eq_true (mem_filter.1 hmem).2 hskip
    · rename_i hskip
      exact count_filter (decide_eq_true hskip)

theorem putAll_spec :
    SentToAll put pSkipClient vClients (putAll put none pSkipClient vClients).1 ∧
      ∀ t, SentToOne put t pSkipClient vClients (putAll put (some t) pSkipClient vClients).1 := by
  refine ⟨?_, fun t => ?_⟩
  · rw [putAll, putEach_all]
    exact sentToAll_filter put pSkipClient vClients
  · rw [putAll, putEach_target, SentToOne]
    by_cases ht : t ∈ vClients ∧ pSkipClient ≠ some t
    · rw [if_pos ht, if_pos ht]
    · rw [if_neg ht, if_neg ht]

/-! ## `PutUser` -/

theorem putNetworks_target (t : C) (pSkipClient : Option C) (vIRCNetworks : List (CIRCNetwork C)) :
    (putNetworks sLine (some t) pSkipClient vIRCNetworks).1 =
      if t ∈ vIRCNetworks.flatMap (·.vClients) ∧ pSkipClient ≠ some t then [(t, .client sLine)] else [] := by
  induction vIRCNetworks with
  | nil => simp [putNetworks]
  | cons net nets ih =>
    by_cases hskip : pSkipClient = some t
    · subst hskip
      simpa [putNetworks, CIRCNetwork.putUser, putAll, putEach_target] using ih
    · by_cases ht : t ∈ net.vClients
      · simp [putNetworks, CIRCNetwork.putUser, putAll, putEach_target, hskip, ht]
      · simp [putNetworks, CIRCNetwork.putUser, putAll, putEach_target, hskip, ht, ih]

theorem putUser_target (user : CUser C) (sLine : CString) (t : C) (pSkipClient : Option C) :
    SentToOne (.client sLine) t pSkipClient user.getAllClients (user.putUser sLine (some t) pSkipClient).1 := by
  have hnets := putNetworks_target sLine t pSkipClient user.vIRCNetworks
  rw [SentToOne, CUser.getAllClients, CUser.putUser, putEach_target]
  by_cases hskip : pSkipClient = some t
  · subst hskip
    simpa using hnets
  · by_cases ht : t ∈ user.vClients
    · simp [hskip, ht]
    · simp [hskip, ht, hnets]

theorem putNetworks_all (vIRCNetworks : List (CIRCNetwork C)) :
    (putNetworks sLine none pSkipClient vIRCNetworks).1 = ((vIRCNetworks.head?.toList.flatMap (·.vClients)).filter
      fun c => pSkipClient ≠ some c).map fun c => (c, .client sLine) := by
  cases vIRCNetworks with
  | nil => rfl
  | cons net nets => simp [putNetworks, CIRCNetwork.putUser, putAll, putEach_all]

theorem putUser_all (user : CUser C) (sLine : CString) (pSkipClient : Option C) :
    (user.putUser sLine none pSkipClient).1 =
      ((user.vClients ++ user.vIRCNetworks.head?.toList.flatMap (·.vClients)).filter fun c => pSkipClient ≠ some c).map
        fun c => (c, .client sLine) := by
  rw [CUser.putUser, putEach_all]
  simp only [Bool.false_eq_true, if_false, putNetworks_all, filter_append, map_append]

/-- **`PutUser` without a target** sends to every client listed exactly if the networks behind the first one have no client but
the skipped one. -/
theorem putUser_count (user : CUser C) (sLine : CString) (pSkipClient : Option C) :
    SentToAll (.client sLine) pSkipClient user.getAllClients (user.putUser sLine none pSkipClient).1 ↔
      ∀ net ∈ user.vIRCNetworks.tail, ∀ c ∈ net.vClients, pSkipClient = some c := by
  have hsent := sentToAll_filter (.client sLine) pSkipClient
    (user.vClients ++ user.vIRCNetworks.head?.toList.flatMap (·.vClients))
  rw [← putUser_all] at hsent
  have hsplit : ∀ c, user.getAllClients.count c =
      (user.vClients ++ user.vIRCNetworks.head?.toList.flatMap (·.vClients)).count c +
        (user.vIRCNetworks.tail.flatMap (·.vClients)).count c := by
    intro c
    unfold CUser.getAllClients
    cases user.vIRCNetworks with
    | nil => simp
    | cons net nets =>
      simp only [flatMap_cons, count_append, head?_cons, Option.toList_some, flatMap_nil, append_nil, tail_cons]
      omega
  constructor
  · intro h net hnet c hc
    by_contra hskip
    have hall := h.2 c
    rw [hsent.2 c, if_neg hskip, if_neg hskip, hsplit c] at hall
    have hzero : (user.vIRCNetworks.tail.flatMap (·.vClients)).count c = 0 := by omega
    exact count_eq_zero.1 hzero (mem_flatMap.2 ⟨net, hnet, hc⟩)
  · intro h
    refine ⟨hsent.1, fun c => ?_⟩
    rw [hsent.2 c, hsplit c]
    split
    · rfl
    · rename_i hskip
      have hzero : (user.vIRCNetworks.tail.flatMap (·.vClients)).count c = 0 := by
        refine count_eq_zero.2 fun hmem => ?_
        obtain ⟨net, hnet, hc⟩ := mem_flatMap.1 hmem
        exact hskip (h net hnet c hc)
      omega

/-! ## All five functions -/

/-- what is promised of the function for `put`: with and without a target -/
def Promised (user : CUser C) (put : Put) (pSkipClient : Option C) : Prop :=
  SentToAll put pSkipClient user.getAllClients (user.put none pSkipClient put).1 ∧
    ∀ t, SentToOne put t pSkipClient user.getAllClients (user.put (some t) pSkipClient put).1

/-- **When the functions send to everyone they should.** -/
theorem put_iff (user : CUser C) (put : Put) (pSkipClient : Option C) :
    Promised user put pSkipClient ↔
      ∀ sLine, put = .client sLine → ∀ net ∈ user.vIRCNetworks.tail, ∀ c ∈ net.vClients, pSkipClient = some c := by
  cases put with
  | client sLine =>
    constructor
    · intro h sLine' _
      exact (putUser_count user sLine pSkipClient).1 h.1
    · intro h
      exact ⟨(putUser_count user sLine pSkipClient).2 (h sLine rfl), fun t => putUser_target user sLine t pSkipClient⟩
  | status sLine => exact iff_of_true (putAll_spec _ pSkipClient user.getAllClients) fun _ h => nomatch h
  | statusNotice sLine => exact iff_of_true (putAll_spec _ pSkipClient user.getAllClients) fun _ h => nomatch h
  | module sModule sLine => exact iff_of_true (putAll_spec _ pSkipClient user.getAllClients) fun _ h => nomatch h
  | modNotice sModule sLine => exact iff_of_true (putAll_spec _ pSkipClient user.getAllClients) fun _ h => nomatch h

end Functions

/-- two networks with a client each: the second one hears nothing -/
theorem put_two_networks_fails : ¬Promised ⟨[], [⟨[1]⟩, ⟨[2]⟩]⟩ (.client (lit "hi")) none := by
  intro h
  have hcount : (0 : ℕ) = 1 := h.1.2 2
  exact absurd hcount (by decide)

end ZNC.Broadcast
