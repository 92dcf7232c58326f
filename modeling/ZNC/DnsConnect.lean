/-
Connecting with background name resolution: `CSockManager::Connect`, `SetTDNSThreadFinished`, `FinishConnect` and `DelSockByAddr`
of `src/Socket.cpp`.

A task waits for the addresses of the target and, with a bind host, for those of the bind host. While it waits, the map
`m_InFlightDnsSockets` says whether its socket was deleted. `FinishConnect` looks into the map and removes the entry. The exit that
reports an error does neither.

Results:
- `choose_isOk_iff`, `choose_fits`: when addresses are found, and that they belong together;
- `step_sound_iff`: a step does what is asked for exactly if it does not end a task whose addresses cannot be used;
- `completion_sound_iff`: the same of a run, in which every task ends once, when its last result arrives.
-/
import ZNC.CString

namespace ZNC

open List Option OrdMap

namespace Dns

open CString

/-! ## Addresses -/

inductive AddressFamily where
  | AF_INET
  | AF_INET6
  | other
deriving DecidableEq

/-- an entry of the list that the resolver returns, with the text that `getnameinfo` makes of it -/
structure addrinfo where
  ai_family : AddressFamily
  sHost : CString
deriving DecidableEq

/-- what the random engine answers -/
structure Random where
  bUseIPv6 : Bool
  uTarget : ℕ
  uBind : ℕ

/-- the hosts of a list of addresses, by family -/
structure Hosts where
  ss4 : SCString
  ss6 : SCString

def hostsOf (family : AddressFamily) (ai : List addrinfo) : SCString :=
  OrdSet.ofList ((ai.filter fun a => a.ai_family = family).map addrinfo.sHost)

/-- the loop over a list of addresses; `bHaveIPv6` is `HAVE_IPV6` -/
def Hosts.of (bHaveIPv6 : Bool) (ai : List addrinfo) : Hosts :=
  ⟨hostsOf .AF_INET ai, if bHaveIPv6 then hostsOf .AF_INET6 ai else .empty⟩

def randomFromSet (sSet : SCString) (u : ℕ) : CString := sSet.toList.getD (u % sSet.toList.length) []

def randomFrom2SetsWithBias (hosts : Hosts) (gen : Random) : CString × Bool :=
  let bUseIPv6 := if hosts.ss4.isEmpty then true else if hosts.ss6.isEmpty then false else gen.bUseIPv6
  (randomFromSet (if bUseIPv6 then hosts.ss6 else hosts.ss4) gen.uTarget, bUseIPv6)

/-- the target and the bind host that are connected with, or the error that is thrown -/
def choose (targets binds : Hosts) (sBindhost : CString) (gen : Random) : Except CString (CString × CString) :=
  if targets.ss4.isEmpty && targets.ss6.isEmpty then .error (lit "Can't resolve server hostname")
  else if sBindhost = [] then .ok ((randomFrom2SetsWithBias targets gen).1, [])
  else if binds.ss4.isEmpty && binds.ss6.isEmpty then
    .error (lit "Can't resolve bind hostname. Try /znc ClearBindHost and /znc ClearUserBindHost")
  else if binds.ss4.isEmpty then
    if targets.ss6.isEmpty then .error (lit "Server address is IPv4-only, but bindhost is IPv6-only")
    else .ok (randomFromSet targets.ss6 gen.uTarget, randomFromSet binds.ss6 gen.uBind)
  else if binds.ss6.isEmpty then
    if targets.ss4.isEmpty then .error (lit "Server address is IPv6-only, but bindhost is IPv4-only")
    else .ok (randomFromSet targets.ss4 gen.uTarget, randomFromSet binds.ss4 gen.uBind)
  else
    let target := randomFrom2SetsWithBias targets gen
    .ok (target.1, randomFromSet (if target.2 then binds.ss6 else binds.ss4) gen.uBind)

/-- there are addresses to connect with: a target, and with a bind host a target and a bind host of one family -/
def Usable (targets binds : Hosts) (sBindhost : CString) : Prop :=
  if sBindhost = [] then (∃ s, s ∈ targets.ss4) ∨ ∃ s, s ∈ targets.ss6
  else (∃ s, s ∈ targets.ss4) ∧ (∃ s, s ∈ binds.ss4) ∨ (∃ s, s ∈ targets.ss6) ∧ ∃ s, s ∈ binds.ss6

/-- a target and a bind host that belong together -/
def Fits (targets binds : Hosts) (sBindhost : CString) (r : CString × CString) : Prop :=
  if sBindhost = [] then (r.1 ∈ targets.ss4 ∨ r.1 ∈ targets.ss6) ∧ r.2 = []
  else r.1 ∈ targets.ss4 ∧ r.2 ∈ binds.ss4 ∨ r.1 ∈ targets.ss6 ∧ r.2 ∈ binds.ss6

theorem isEmpty_eq_false_iff (sSet : SCString) : sSet.isEmpty = false ↔ ∃ s, s ∈ sSet := by
  rw [← not_iff_not, Bool.not_eq_false, OrdSet.isEmpty_iff, not_exists]

theorem randomFromSet_mem {sSet : SCString} (h : sSet.isEmpty = false) (u : ℕ) : randomFromSet sSet u ∈ sSet := by
  obtain ⟨s, hs⟩ := (isEmpty_eq_false_iff sSet).1 h
  have hpos : 0 < sSet.toList.length := length_pos_of_mem hs
  rw [randomFromSet, getD_eq_getElem?_getD, getElem?_eq_getElem (Nat.mod_lt u hpos), getD_some]
  exact getElem_mem _

theorem randomFrom2SetsWithBias_mem {hosts : Hosts}
    (h : (hosts.ss4.isEmpty && hosts.ss6.isEmpty) = false) (gen : Random) :
    (randomFrom2SetsWithBias hosts gen).2 = false ∧ (randomFrom2SetsWithBias hosts gen).1 ∈ hosts.ss4 ∨
      (randomFrom2SetsWithBias hosts gen).2 = true ∧ (randomFrom2SetsWithBias hosts gen).1 ∈ hosts.ss6 := by
  unfold randomFrom2SetsWithBias
  cases h4 : hosts.ss4.isEmpty with
  | true =>
    have h6 : hosts.ss6.isEmpty = false := by simpa [h4] using h
    simpa using randomFromSet_mem h6 gen.uTarget
  | false =>
    cases h6 : hosts.ss6.isEmpty with
    | true => simpa using randomFromSet_mem h4 gen.uTarget
    | false =>
      cases hu : gen.bUseIPv6 with
      | false => simpa [hu] using randomFromSet_mem h4 gen.uTarget
      | true => simpa [hu] using randomFromSet_mem h6 gen.uTarget

theorem choose_fits {targets binds : Hosts} {sBindhost : CString} {gen : Random} {r : CString × CString}
    (h : choose targets binds sBindhost gen = .ok r) : Fits targets binds sBindhost r := by
  unfold choose at h
  unfold Fits
  split_ifs at h with ht hb hbe hb4 ht6 hb6 ht4
  · cases h
    have hmem := randomFrom2SetsWithBias_mem (Bool.eq_false_iff.2 ht) gen
    rw [if_pos hb]
    exact ⟨hmem.imp And.right And.right, rfl⟩
  · cases h
    have h6 : binds.ss6.isEmpty = false := by simpa [hb4] using hbe
    rw [if_neg hb]
    exact .inr ⟨randomFromSet_mem (Bool.eq_false_iff.2 ht6) _, randomFromSet_mem h6 _⟩
  · cases h
    rw [if_neg hb]
    exact .inl ⟨randomFromSet_mem (Bool.eq_false_iff.2 ht4) _, randomFromSet_mem (Bool.eq_false_iff.2 hb4) _⟩
  · obtain rfl := Except.ok.inj h
    rw [if_neg hb]
    rcases randomFrom2SetsWithBias_mem (Bool.eq_false_iff.2 ht) gen with ⟨h2, h1⟩ | ⟨h2, h1⟩
    · simp only [h2]
      exact .inl ⟨h1, randomFromSet_mem (Bool.eq_false_iff.2 hb4) _⟩
    · simp only [h2]
      exact .inr ⟨h1, randomFromSet_mem (Bool.eq_false_iff.2 hb6) _⟩

theorem Fits.usable {targets binds : Hosts} {sBindhost : CString} {r : CString × CString}
    (h : Fits targets binds sBindhost r) : Usable targets binds sBindhost := by
  unfold Fits at h
  unfold Usable
  split_ifs at h ⊢ with hb
  · exact h.1.imp (fun h => ⟨_, h⟩) fun h => ⟨_, h⟩
  · exact h.imp (fun h => ⟨⟨_, h.1⟩, _, h.2⟩) fun h => ⟨⟨_, h.1⟩, _, h.2⟩

theorem choose_isOk_iff (targets binds : Hosts) (sBindhost : CString) (gen : Random) :
    (∃ r, choose targets binds sBindhost gen = .ok r) ↔ Usable targets binds sBindhost := by
  constructor
  · rintro ⟨r, h⟩
    exact (choose_fits h).usable
  · intro h
    simp only [Usable, ← isEmpty_eq_false_iff] at h
    unfold choose
    split_ifs with ht hb hbe hb4 ht6 hb6 ht4
    · exact absurd h (by simp_all)
    · exact ⟨_, rfl⟩
    · exact absurd h (by simp_all)
    · exact absurd h (by simp_all)
    · exact ⟨_, rfl⟩
    · exact absurd h (by simp_all)
    · exact ⟨_, rfl⟩
    · exact ⟨_, rfl⟩

/-! ## Tasks -/

/-- the arguments of `Connect`; the socket is an address -/
structure Request where
  sHostname : CString
  iPort : UInt16
  sSockName : CString
  iTimeout : ℤ
  bSSL : Bool
  sBindhost : CString
  pcSock : ℕ
deriving DecidableEq

structure TDNSTask extends Request where
  bDoneTarget : Bool
  bDoneBind : Bool
  aiTarget : List addrinfo
  aiBind : List addrinfo

/-- what is done to a socket -/
inductive Effect where
  | setHostToVerifySSL (pcSock : ℕ) (sHostname : CString)
  | connect (pcSock : ℕ) (sHostname : CString) (iPort : UInt16) (iTimeout : ℤ) (sSockName : CString) (bSSL : Bool)
      (sBindHost : CString)
  | setSockName (pcSock : ℕ) (sSockName : CString)
  | sockError (pcSock : ℕ) (sDescription : CString)
  | delete (pcSock : ℕ)
  /-- `TSocketManager::DelSockByAddr` -/
  | delSockByAddr (pcSock : ℕ)
deriving DecidableEq

def Effect.sock : Effect → ℕ
  | .setHostToVerifySSL pcSock _ => pcSock
  | .connect pcSock _ _ _ _ _ _ => pcSock
  | .setSockName pcSock _ => pcSock
  | .sockError pcSock _ => pcSock
  | .delete pcSock => pcSock
  | .delSockByAddr pcSock => pcSock

def Effect.isConnect : Effect → Bool
  | .connect .. => true
  | _ => false

/-- `m_InFlightDnsSockets` and the tasks that wait. The other fields record what has happened: the calls of `Connect`, whose
places number the tasks, the results that arrived (`true` for the bind host), the tasks that were deleted, and the sockets whose
deletion was recorded. -/
structure CSockManager where
  inFlightDnsSockets : OrdMap ℕ Bool
  tasks : OrdMap ℕ TDNSTask
  requests : List Request
  arrived : List (ℕ × Bool)
  finished : List ℕ
  deleted : List ℕ

namespace TDNSTask

/-- the result is put into the task -/
def receive (task : TDNSTask) (bBind : Bool) (aiResult : List addrinfo) : TDNSTask :=
  if bBind then { task with aiBind := aiResult, bDoneBind := true }
  else { task with aiTarget := aiResult, bDoneTarget := true }

def isDone (task : TDNSTask) : Bool := task.bDoneBind && task.bDoneTarget

def choose (bHaveIPv6 : Bool) (task : TDNSTask) (gen : Random) : Except CString (CString × CString) :=
  Dns.choose (.of bHaveIPv6 task.aiTarget) (.of bHaveIPv6 task.aiBind) task.sBindhost gen

/-- the results of the task can be connected with -/
def Usable (bHaveIPv6 : Bool) (task : TDNSTask) : Prop :=
  Dns.Usable (.of bHaveIPv6 task.aiTarget) (.of bHaveIPv6 task.aiBind) task.sBindhost

end TDNSTask

namespace CSockManager

def init : CSockManager := ⟨.empty, .empty, [], [], [], []⟩

def connect (s : CSockManager) (args : Request) : CSockManager × List Effect :=
  ({ s with
      inFlightDnsSockets := s.inFlightDnsSockets.insert args.pcSock false
      tasks := s.tasks.insert s.requests.length ⟨args, false, args.sBindhost.isEmpty, [], []⟩
      requests := s.requests ++ [args] },
    [.setHostToVerifySSL args.pcSock args.sHostname])

def finishConnect (s : CSockManager) (sHostname : CString) (iPort : UInt16) (sSockName : CString)
    (iTimeout : ℤ) (bSSL : Bool)
    (sBindHost : CString) (pcSock : ℕ) : CSockManager × List Effect :=
  match s.inFlightDnsSockets.find pcSock with
  | some bSocketDeletedAlready =>
    ({ s with inFlightDnsSockets := s.inFlightDnsSockets.erase pcSock },
      if bSocketDeletedAlready then [] else [.connect pcSock sHostname iPort iTimeout sSockName bSSL sBindHost])
  | none => (s, [.connect pcSock sHostname iPort iTimeout sSockName bSSL sBindHost])

def deleteTask (s : CSockManager) (uTask : ℕ) : CSockManager :=
  { s with tasks := s.tasks.erase uTask, finished := uTask :: s.finished }

/-- what follows once both results of a task are there -/
def finishTask (bHaveIPv6 : Bool) (s : CSockManager) (uTask : ℕ) (task : TDNSTask) (gen : Random) :
    CSockManager × List Effect :=
  match task.choose bHaveIPv6 gen with
  | .ok (sTargetHost, sBindhost) =>
    let r := s.finishConnect sTargetHost task.iPort task.sSockName task.iTimeout task.bSSL sBindhost task.pcSock
    (r.1.deleteTask uTask, r.2)
  | .error sError =>
    (s.deleteTask uTask,
      [.setSockName task.pcSock task.sSockName, .sockError task.pcSock sError, .delete task.pcSock])

def setTDNSThreadFinished (bHaveIPv6 : Bool) (s : CSockManager) (uTask : ℕ) (task : TDNSTask) (bBind : Bool)
    (aiResult : List addrinfo) (gen : Random) : CSockManager × List Effect :=
  let s := { s with arrived := (uTask, bBind) :: s.arrived }
  let task := task.receive bBind aiResult
  if !task.isDone then ({ s with tasks := s.tasks.insert uTask task }, [])
  else s.finishTask bHaveIPv6 uTask task gen

def delSockByAddr (s : CSockManager) (pcSock : ℕ) : CSockManager × List Effect :=
  (match s.inFlightDnsSockets.find pcSock with
    | some _ =>
      { s with
        inFlightDnsSockets := s.inFlightDnsSockets.insert pcSock true
        deleted := pcSock :: s.deleted }
    | none => s,
    [.delSockByAddr pcSock])

end CSockManager

/-- what happens to the manager -/
inductive Op where
  | Connect (args : Request)
  | SetTDNSThreadFinished (uTask : ℕ) (bBind : Bool) (aiResult : List addrinfo) (gen : Random)
  | DelSockByAddr (pcSock : ℕ)

/-- a step: what it does to the sockets, and the state before and after it -/
structure Step where
  before : CSockManager
  op : Op
  effects : List Effect
  after : CSockManager

namespace CSockManager

/-- The state after a step. `Connect` is called with a socket of its own, and a thread that was started reports once. -/
def apply (bHaveIPv6 : Bool) (s : CSockManager) : Op → Option (CSockManager × List Effect)
  | .Connect args => if args.pcSock ∈ s.requests.map Request.pcSock then none else some (s.connect args)
  | .SetTDNSThreadFinished uTask bBind aiResult gen =>
    (s.tasks.find uTask).bind fun task =>
      if (uTask, bBind) ∈ s.arrived ∨ (bBind = true ∧ task.sBindhost = []) then none
      else some (s.setTDNSThreadFinished bHaveIPv6 uTask task bBind aiResult gen)
  | .DelSockByAddr pcSock => some (s.delSockByAddr pcSock)

def steps (bHaveIPv6 : Bool) (s : CSockManager) : List Op → Option (List Step)
  | [] => some []
  | op :: ops =>
    (s.apply bHaveIPv6 op).bind fun r => (r.1.steps bHaveIPv6 ops).map (⟨s, op, r.2, r.1⟩ :: ·)

/-- the state after a run -/
def run (bHaveIPv6 : Bool) (s : CSockManager) (ops : List Op) : Option CSockManager :=
  ops.foldlM (fun s op => (s.apply bHaveIPv6 op).map Prod.fst) s

/-- every task has ended once if all its results have arrived, and is waiting otherwise -/
def EndedOnce (s : CSockManager) : Prop :=
  ∀ uTask args, s.requests[uTask]? = some args →
    s.finished.count uTask =
      if (uTask, false) ∈ s.arrived ∧ (args.sBindhost = [] ∨ (uTask, true) ∈ s.arrived) then 1 else 0

end CSockManager

/-- the task that a step ends, with its results -/
def Step.ended (t : Step) : Option TDNSTask :=
  match t.op with
  | .SetTDNSThreadFinished uTask bBind aiResult _ =>
    ((t.before.tasks.find uTask).map fun task => task.receive bBind aiResult).filter TDNSTask.isDone
  | _ => none

/-- what is asked of a step -/
structure Step.Sound (bHaveIPv6 : Bool) (t : Step) : Prop where
  /-- the deletion of a socket that is waited for is recorded -/
  recorded : ∀ uTask task, t.before.tasks.find uTask = some task → t.op = .DelSockByAddr task.pcSock →
    task.pcSock ∈ t.after.deleted
  /-- a socket whose deletion was recorded is left alone -/
  untouched : ∀ task, t.ended = some task → ∀ e ∈ t.effects, e.sock ∉ t.before.deleted
  cleaned : ∀ task, t.ended = some task → t.after.inFlightDnsSockets.find task.pcSock = none
  /-- with addresses that belong together a connection is made, else none -/
  connects : ∀ task, t.ended = some task →
    (task.pcSock ∉ t.before.deleted → task.Usable bHaveIPv6 → ∃ r,
      Fits (.of bHaveIPv6 task.aiTarget) (.of bHaveIPv6 task.aiBind) task.sBindhost r ∧
        t.effects = [.connect task.pcSock r.1 task.iPort task.iTimeout task.sSockName task.bSSL r.2]) ∧
    (¬task.Usable bHaveIPv6 → ∀ e ∈ t.effects, e.isConnect = false)

/-! ## Invariant -/

namespace CSockManager

structure Inv (s : CSockManager) : Prop where
  /-- the map knows every socket that is waited for, and whether its deletion was recorded -/
  flags : ∀ k task, s.tasks.find k = some task →
    s.inFlightDnsSockets.find task.pcSock = some (decide (task.pcSock ∈ s.deleted))
  known : ∀ k task, s.tasks.find k = some task → s.requests[k]? = some task.toRequest
  socks : (s.requests.map Request.pcSock).Nodup
  waits : ∀ k task, s.tasks.find k = some task → task.isDone = false
  target : ∀ k task, s.tasks.find k = some task → (task.bDoneTarget = true ↔ (k, false) ∈ s.arrived)
  bind : ∀ k task, s.tasks.find k = some task → (task.bDoneBind = true ↔ task.sBindhost = [] ∨ (k, true) ∈ s.arrived)
  count : ∀ k task, s.tasks.find k = some task → s.finished.count k = 0
  closed : ∀ k args, s.requests[k]? = some args → s.tasks.find k = none →
    s.finished.count k = 1 ∧ (k, false) ∈ s.arrived ∧ (args.sBindhost = [] ∨ (k, true) ∈ s.arrived)
  old : (∀ k ∈ s.finished, k < s.requests.length) ∧ ∀ a ∈ s.arrived, a.1 < s.requests.length
  gone : ∀ pcSock ∈ s.deleted, pcSock ∈ s.requests.map Request.pcSock
  mapped : ∀ pcSock b, s.inFlightDnsSockets.find pcSock = some b → pcSock ∈ s.requests.map Request.pcSock

theorem init_inv : init.Inv where
  flags := by simp [init]
  known := by simp [init]
  socks := nodup_nil
  waits := by simp [init]
  target := by simp [init]
  bind := by simp [init]
  count := by simp [init]
  closed := by simp [init]
  old := by simp [init]
  gone := by simp [init]
  mapped := by simp [init]

variable {s : CSockManager}

theorem Inv.sock_inj (h : s.Inv) {k k' : ℕ} {args args' : Request} (hk : s.requests[k]? = some args)
    (hk' : s.requests[k']? = some args') (he : args.pcSock = args'.pcSock) : k = k' := by
  have hlt : k < (s.requests.map Request.pcSock).length := by
    rw [length_map]
    exact (List.getElem?_eq_some_iff.1 hk).1
  refine (getElem?_inj hlt h.socks).1 ?_
  rw [getElem?_map, getElem?_map, hk, hk']
  exact congrArg some he

theorem Inv.ended (h : s.Inv) : s.EndedOnce := by
  intro k args hk
  cases htask : s.tasks.find k with
  | none =>
    obtain ⟨hcount, hdone⟩ := h.closed k args hk htask
    rw [hcount, if_pos hdone]
  | some task =>
    have hargs : task.toRequest = args := some.inj ((h.known k task htask).symm.trans hk)
    rw [h.count k task htask, if_neg]
    rintro ⟨htarget, hbind⟩
    have hdone := h.waits k task htask
    rw [TDNSTask.isDone, (h.bind k task htask).2 (hargs ▸ hbind), (h.target k task htask).2 htarget] at hdone
    exact absurd hdone (by decide)

theorem Inv.next (h : s.Inv) :
    s.tasks.find s.requests.length = none ∧ s.finished.count s.requests.length = 0 ∧
      ∀ b, (s.requests.length, b) ∉ s.arrived := by
  refine ⟨?_, ?_, fun b hb => lt_irrefl _ (h.old.2 _ hb)⟩
  · cases htask : s.tasks.find s.requests.length with
    | none => rfl
    | some task =>
      have hknown := h.known _ _ htask
      rw [getElem?_eq_none le_rfl] at hknown
      exact absurd hknown (by simp)
  · exact count_eq_zero.2 fun hm => lt_irrefl _ (h.old.1 _ hm)

theorem Inv.connect (h : s.Inv) {args : Request} (hnew : args.pcSock ∉ s.requests.map Request.pcSock) :
    (s.connect args).1.Inv := by
  obtain ⟨hnone, hcount, harrived⟩ := h.next
  have htasks : ∀ k task, (s.connect args).1.tasks.find k = some task →
      k = s.requests.length ∧ task = ⟨args, false, args.sBindhost.isEmpty, [], []⟩ ∨
        k ≠ s.requests.length ∧ s.tasks.find k = some task := by
    intro k task hk
    simp only [CSockManager.connect, find_insert] at hk
    split_ifs at hk with he
    · exact .inl ⟨he, (some.inj hk).symm⟩
    · exact .inr ⟨he, hk⟩
  have hrequest : ∀ {k a}, s.requests[k]? = some a → (s.requests ++ [args])[k]? = some a :=
    fun hk => by rw [getElem?_append_left (getElem?_eq_some_iff.1 hk).1, hk]
  have hmap : (s.requests ++ [args]).map Request.pcSock = s.requests.map Request.pcSock ++ [args.pcSock] := by
    rw [map_append, map_singleton]
  have hlength : s.requests.length < (s.requests ++ [args]).length := by simp
  refine
    { flags := fun k task hk => ?_, known := fun k task hk => ?_, socks := ?_, waits := fun k task hk => ?_,
      target := fun k task hk => ?_, bind := fun k task hk => ?_, count := fun k task hk => ?_,
      closed := fun k a hk hk' => ?_, old := ?_, gone := fun p hp => ?_, mapped := fun p b hp => ?_ }
  · simp only [CSockManager.connect, find_insert]
    rcases htasks k task hk with ⟨-, rfl⟩ | ⟨-, hk⟩
    · have hnot : args.pcSock ∉ s.deleted := fun hm => hnew (h.gone _ hm)
      simp [hnot]
    · have hne : task.pcSock ≠ args.pcSock := by
        rintro he
        exact hnew (he ▸ mem_map_of_mem (mem_of_getElem? (h.known k task hk)))
      rw [if_neg hne]
      exact h.flags k task hk
  · rcases htasks k task hk with ⟨rfl, rfl⟩ | ⟨-, hk⟩
    · exact getElem?_concat_length ..
    · exact hrequest (h.known k task hk)
  · change ((s.requests ++ [args]).map Request.pcSock).Nodup
    rw [hmap]
    exact h.socks.append (nodup_singleton _) (disjoint_singleton.2 hnew)
  · rcases htasks k task hk with ⟨-, rfl⟩ | ⟨-, hk⟩
    · exact Bool.and_false _
    · exact h.waits k task hk
  · rcases htasks k task hk with ⟨rfl, rfl⟩ | ⟨-, hk⟩
    · exact ⟨fun hd => absurd hd Bool.false_ne_true, fun hm => absurd hm (harrived false)⟩
    · exact h.target k task hk
  · rcases htasks k task hk with ⟨rfl, rfl⟩ | ⟨-, hk⟩
    · exact isEmpty_iff.trans (or_iff_left (harrived true)).symm
    · exact h.bind k task hk
  · rcases htasks k task hk with ⟨rfl, rfl⟩ | ⟨-, hk⟩
    · exact hcount
    · exact h.count k task hk
  · have hne : k ≠ s.requests.length := by
      rintro rfl
      simp [CSockManager.connect, find_insert] at hk'
    simp only [CSockManager.connect, find_insert, if_neg hne] at hk'
    have hlt : k < s.requests.length := by
      have hlt := (List.getElem?_eq_some_iff.1 hk).1
      rw [CSockManager.connect, length_append, length_singleton] at hlt
      omega
    rw [CSockManager.connect, getElem?_append_left hlt] at hk
    exact h.closed k a hk hk'
  · exact ⟨fun k hk => (h.old.1 k hk).trans hlength, fun a ha => (h.old.2 a ha).trans hlength⟩
  · change p ∈ (s.requests ++ [args]).map Request.pcSock
    rw [hmap]
    exact mem_append_left _ (h.gone p hp)
  · change p ∈ (s.requests ++ [args]).map Request.pcSock
    rw [hmap]
    simp only [CSockManager.connect, find_insert] at hp
    split_ifs at hp with he
    · exact mem_append_right _ (mem_singleton.2 he)
    · exact mem_append_left _ (h.mapped p b hp)

theorem Inv.delSockByAddr (h : s.Inv) (pcSock : ℕ) : (s.delSockByAddr pcSock).1.Inv := by
  unfold CSockManager.delSockByAddr
  cases hp : s.inFlightDnsSockets.find pcSock with
  | none => exact h
  | some b =>
    have hknown := h.mapped pcSock b hp
    refine { h with flags := fun k task hk => ?_, gone := fun p hm => ?_, mapped := fun p b' hm => ?_ }
    · simp only [find_insert, mem_cons]
      split_ifs with he
      · simp [he]
      · simp only [he, false_or]
        exact h.flags k task hk
    · rcases mem_cons.1 hm with rfl | hm
      · exact hknown
      · exact h.gone p hm
    · simp only [find_insert] at hm
      split_ifs at hm with he
      · exact he ▸ hknown
      · exact h.mapped p b' hm

theorem receive_request (task : TDNSTask) (bBind : Bool) (aiResult : List addrinfo) :
    (task.receive bBind aiResult).toRequest = task.toRequest := by
  unfold TDNSTask.receive
  split_ifs <;> rfl

theorem Inv.receive (h : s.Inv) {k : ℕ} {task : TDNSTask} (hk : s.tasks.find k = some task) (bBind : Bool)
    (aiResult : List addrinfo) (hwaits : (task.receive bBind aiResult).isDone = false) :
    ({ s with arrived := (k, bBind) :: s.arrived,
              tasks := s.tasks.insert k (task.receive bBind aiResult) } : CSockManager).Inv := by
  have hargs := receive_request task bBind aiResult
  have htasks : ∀ k' task', (s.tasks.insert k (task.receive bBind aiResult)).find k' = some task' →
      k' = k ∧ task' = task.receive bBind aiResult ∨ k' ≠ k ∧ s.tasks.find k' = some task' := by
    intro k' task' hk'
    rw [find_insert] at hk'
    split_ifs at hk' with he
    · exact .inl ⟨he, (some.inj hk').symm⟩
    · exact .inr ⟨he, hk'⟩
  have hother : ∀ {k' : ℕ} (b : Bool), k' ≠ k → ((k', b) ∈ (k, bBind) :: s.arrived ↔ (k', b) ∈ s.arrived) := by
    intro k' b hne
    simp [hne]
  have hsock : (task.receive bBind aiResult).pcSock = task.pcSock := congrArg Request.pcSock hargs
  have hhost : (task.receive bBind aiResult).sBindhost = task.sBindhost := congrArg Request.sBindhost hargs
  refine
    { h with
      flags := fun k' task' hk' => ?_, known := fun k' task' hk' => ?_, waits := fun k' task' hk' => ?_,
      target := fun k' task' hk' => ?_, bind := fun k' task' hk' => ?_, count := fun k' task' hk' => ?_,
      closed := fun k' a hk' hnone => ?_, old := ⟨h.old.1, fun a ha => ?_⟩ }
  · rcases htasks k' task' hk' with ⟨rfl, rfl⟩ | ⟨-, hk'⟩
    · rw [hsock]
      exact h.flags _ _ hk
    · exact h.flags k' task' hk'
  · rcases htasks k' task' hk' with ⟨rfl, rfl⟩ | ⟨-, hk'⟩
    · rw [hargs]
      exact h.known _ _ hk
    · exact h.known k' task' hk'
  · rcases htasks k' task' hk' with ⟨rfl, rfl⟩ | ⟨-, hk'⟩
    · exact hwaits
    · exact h.waits k' task' hk'
  · rcases htasks k' task' hk' with ⟨rfl, rfl⟩ | ⟨hne, hk'⟩
    · cases bBind with
      | false => simp [TDNSTask.receive]
      | true => simpa [TDNSTask.receive] using h.target _ _ hk
    · simp only [hother false hne]
      exact h.target k' task' hk'
  · rcases htasks k' task' hk' with ⟨rfl, rfl⟩ | ⟨hne, hk'⟩
    · cases bBind with
      | false => simpa [TDNSTask.receive] using h.bind _ _ hk
      | true => simp [TDNSTask.receive]
    · simp only [hother true hne]
      exact h.bind k' task' hk'
  · rcases htasks k' task' hk' with ⟨rfl, rfl⟩ | ⟨-, hk'⟩
    · exact h.count _ _ hk
    · exact h.count k' task' hk'
  · have hne : k' ≠ k := by
      rintro rfl
      simp [find_insert] at hnone
    simp only [find_insert, if_neg hne] at hnone
    simp only [hother _ hne]
    exact h.closed k' a hk' hnone
  · rcases mem_cons.1 ha with rfl | ha
    · exact (List.getElem?_eq_some_iff.1 (h.known k task hk)).1
    · exact h.old.2 a ha

theorem Inv.finish (h : s.Inv) {k : ℕ} {task : TDNSTask} (hk : s.tasks.find k = some task) {bBind : Bool}
    {aiResult : List addrinfo} (hdone : (task.receive bBind aiResult).isDone = true) {inFlight : OrdMap ℕ Bool}
    (hmap : ∀ p b, inFlight.find p = some b → s.inFlightDnsSockets.find p = some b)
    (hkeep : ∀ p, p ≠ task.pcSock → inFlight.find p = s.inFlightDnsSockets.find p) :
    ({ s with
        arrived := (k, bBind) :: s.arrived, tasks := s.tasks.erase k, finished := k :: s.finished
        inFlightDnsSockets := inFlight } : CSockManager).Inv := by
  have hknown := h.known k task hk
  have hlt : k < s.requests.length := (List.getElem?_eq_some_iff.1 hknown).1
  have htasks : ∀ k' task', (s.tasks.erase k).find k' = some task' → k' ≠ k ∧ s.tasks.find k' = some task' := by
    intro k' task' hk'
    rw [find_erase] at hk'
    split_ifs at hk' with he
    exact ⟨he, hk'⟩
  have hother : ∀ {k' : ℕ} (b : Bool), k' ≠ k → ((k', b) ∈ (k, bBind) :: s.arrived ↔ (k', b) ∈ s.arrived) := by
    intro k' b hne
    simp [hne]
  refine
    { h with
      flags := fun k' task' hk' => ?_, known := fun k' task' hk' => ?_, waits := fun k' task' hk' => ?_,
      target := fun k' task' hk' => ?_, bind := fun k' task' hk' => ?_, count := fun k' task' hk' => ?_,
      closed := fun k' a hk' hnone => ?_, old := ⟨fun k' hk' => ?_, fun a ha => ?_⟩,
      mapped := fun p b hp => h.mapped p b (hmap p b hp) }
  · obtain ⟨hne, hk'⟩ := htasks k' task' hk'
    have hsock : task'.pcSock ≠ task.pcSock := fun he => hne (h.sock_inj (h.known k' task' hk') hknown he)
    exact (hkeep _ hsock).trans (h.flags k' task' hk')
  · exact h.known k' task' (htasks k' task' hk').2
  · exact h.waits k' task' (htasks k' task' hk').2
  · obtain ⟨hne, hk'⟩ := htasks k' task' hk'
    simp only [hother false hne]
    exact h.target k' task' hk'
  · obtain ⟨hne, hk'⟩ := htasks k' task' hk'
    simp only [hother true hne]
    exact h.bind k' task' hk'
  · obtain ⟨hne, hk'⟩ := htasks k' task' hk'
    simp only [count_cons_of_ne hne.symm]
    exact h.count k' task' hk'
  · by_cases hne : k' = k
    · subst hne
      obtain rfl : task.toRequest = a := some.inj (hknown.symm.trans hk')
      simp only [count_cons_self, h.count k' task hk]
      have htarget := h.target k' task hk
      have hbind := h.bind k' task hk
      refine ⟨trivial, ?_⟩
      cases bBind with
      | false =>
        have hb : task.bDoneBind = true := by simpa [TDNSTask.receive, TDNSTask.isDone] using hdone
        exact ⟨mem_cons_self .., (hbind.1 hb).imp_right (mem_cons_of_mem _)⟩
      | true =>
        have ht : task.bDoneTarget = true := by simpa [TDNSTask.receive, TDNSTask.isDone] using hdone
        exact ⟨mem_cons_of_mem _ (htarget.1 ht), .inr (mem_cons_self ..)⟩
    · simp only [find_erase, if_neg hne] at hnone
      simp only [count_cons_of_ne (Ne.symm hne), hother _ hne]
      exact h.closed k' a hk' hnone
  · rcases mem_cons.1 hk' with rfl | hk'
    · exact hlt
    · exact h.old.1 k' hk'
  · rcases mem_cons.1 ha with rfl | ha
    · exact hlt
    · exact h.old.2 a ha

/-! ## Steps and runs -/

variable {bHaveIPv6 : Bool}

theorem sound_of_not_ended {t : Step} (hended : t.ended = none)
    (hrecorded : ∀ uTask task, t.before.tasks.find uTask = some task → t.op = .DelSockByAddr task.pcSock →
      task.pcSock ∈ t.after.deleted) :
    t.Sound bHaveIPv6 ↔ ∀ task, t.ended = some task → task.Usable bHaveIPv6 := by
  simp only [hended]
  refine ⟨fun _ task ht => absurd ht (by simp), fun _ => ⟨hrecorded, ?_, ?_, ?_⟩⟩ <;>
    exact fun task ht => absurd (hended.symm.trans ht) (by simp)

theorem finishTask_ok {k : ℕ} {task : TDNSTask} {gen : Random} {r : CString × CString} {b : Bool}
    (hchoose : task.choose bHaveIPv6 gen = .ok r) (hflag : s.inFlightDnsSockets.find task.pcSock = some b) :
    s.finishTask bHaveIPv6 k task gen =
      ({ s with
          inFlightDnsSockets := s.inFlightDnsSockets.erase task.pcSock
          tasks := s.tasks.erase k
          finished := k :: s.finished },
        if b then [] else [.connect task.pcSock r.1 task.iPort task.iTimeout task.sSockName task.bSSL r.2]) := by
  simp only [finishTask, hchoose, finishConnect, hflag]
  rfl

theorem finishTask_error {k : ℕ} {task : TDNSTask} {gen : Random} {sError : CString}
    (hchoose : task.choose bHaveIPv6 gen = .error sError) :
    s.finishTask bHaveIPv6 k task gen =
      ({ s with tasks := s.tasks.erase k, finished := k :: s.finished },
        [.setSockName task.pcSock task.sSockName, .sockError task.pcSock sError, .delete task.pcSock]) := by
  simp only [finishTask, hchoose]
  rfl

theorem step_sound_iff (h : s.Inv) {op : Op} {r : CSockManager × List Effect} (hop : s.apply bHaveIPv6 op = some r) :
    r.1.Inv ∧ ((⟨s, op, r.2, r.1⟩ : Step).Sound bHaveIPv6 ↔
      ∀ task, (⟨s, op, r.2, r.1⟩ : Step).ended = some task → task.Usable bHaveIPv6) := by
  cases op with
  | Connect args =>
    simp only [apply] at hop
    split_ifs at hop with hm
    cases hop
    exact ⟨h.connect hm, sound_of_not_ended rfl fun k task _ he => Op.noConfusion he⟩
  | DelSockByAddr pcSock =>
    cases hop
    refine ⟨h.delSockByAddr pcSock, sound_of_not_ended rfl fun k task hk he => ?_⟩
    obtain rfl : pcSock = task.pcSock := Op.DelSockByAddr.inj he
    simp [delSockByAddr, h.flags k task hk]
  | SetTDNSThreadFinished uTask bBind aiResult gen =>
    simp only [apply, bind_eq_some_iff] at hop
    obtain ⟨task, htask, hop⟩ := hop
    split_ifs at hop with hguard
    cases hop
    have hended : ∀ effects after, (⟨s, .SetTDNSThreadFinished uTask bBind aiResult gen, effects, after⟩ : Step).ended =
        (some (task.receive bBind aiResult)).filter TDNSTask.isDone := by
      intro effects after
      simp only [Step.ended, htask, map_some]
    have hsock : (task.receive bBind aiResult).pcSock = task.pcSock :=
      congrArg Request.pcSock (receive_request task bBind aiResult)
    cases hdone : (task.receive bBind aiResult).isDone with
    | false =>
      simp only [setTDNSThreadFinished, hdone, Bool.not_false, if_true]
      refine ⟨h.receive htask bBind aiResult hdone, sound_of_not_ended ?_ fun k t _ he => Op.noConfusion he⟩
      rw [hended, filter_some, hdone, if_neg Bool.false_ne_true]
    | true =>
      have hsome : (some (task.receive bBind aiResult)).filter TDNSTask.isDone =
        some (task.receive bBind aiResult) := by
        rw [filter_some, if_pos hdone]
      simp only [setTDNSThreadFinished, hdone, Bool.not_true, Bool.false_eq_true, if_false]
      simp only [hsome] at hended
      have hflag := h.flags uTask task htask
      rw [← hsock] at hflag
      cases hchoose : (task.receive bBind aiResult).choose bHaveIPv6 gen with
      | ok addresses =>
        have hfits := choose_fits hchoose
        have hstep := finishTask_ok (s := { s with arrived := (uTask, bBind) :: s.arrived }) (k := uTask) hchoose hflag
        rw [hstep]
        refine ⟨?_, ⟨fun _ t ht => ?_, fun _ => ⟨fun k t _ he => Op.noConfusion he, ?_, ?_, ?_⟩⟩⟩
        · refine h.finish htask hdone (fun p b hp => ?_) fun p hp => ?_
          · rw [find_erase] at hp
            split_ifs at hp
            exact hp
          · rw [find_erase, if_neg (hsock ▸ hp)]
        · rw [hended] at ht
          exact some.inj ht ▸ hfits.usable
        · intro t _ e he
          -- it is left alone if its deletion was recorded
          split_ifs at he with hdel
          · exact absurd he (by simp)
          · rw [mem_singleton.1 he]
            exact of_decide_eq_false (Bool.eq_false_iff.2 hdel)
        · intro t ht
          rw [hended] at ht
          simp only [← some.inj ht, find_erase, if_true]
        · intro t ht
          rw [hended] at ht
          obtain rfl := some.inj ht
          refine ⟨fun hdel _ => ⟨addresses, hfits, ?_⟩, fun hnot => absurd hfits.usable hnot⟩
          rw [if_neg (by simpa using hdel)]
      | error sError =>
        have hstep := finishTask_error (s := { s with arrived := (uTask, bBind) :: s.arrived }) (k := uTask) hchoose
        rw [hstep]
        refine ⟨h.finish htask hdone (fun p b hp => hp) fun p hp => rfl, ⟨fun hsound => ?_, fun husable => ?_⟩⟩
        · -- the entry is still there
          have hcleaned := hsound.cleaned _ (hended _ _)
          exact absurd (hflag.symm.trans hcleaned) (by simp)
        · obtain ⟨r, hr⟩ := (choose_isOk_iff _ _ _ gen).2 (husable _ (hended _ _))
          exact absurd (hchoose.symm.trans hr) (by simp)

/-- **Completion of background name resolution.** In every run every task ends once, when its last result arrives, and not before.
A step records deletions, leaves a socket alone whose deletion was recorded, removes the entry of a task that ends, and connects to
addresses that belong together if there are any, exactly if the addresses of every task that ends can be used. -/
theorem completion_sound_iff (bHaveIPv6 : Bool) (ops : List Op) (ts : List Step) (s : CSockManager)
    (hsteps : init.steps bHaveIPv6 ops = some ts) (hrun : init.run bHaveIPv6 ops = some s) :
    (s.EndedOnce ∧ ∀ t ∈ ts, t.Sound bHaveIPv6) ↔ ∀ t ∈ ts, ∀ task, t.ended = some task → task.Usable bHaveIPv6 := by
  have hall : ∀ {s0 : CSockManager}, s0.Inv → ∀ {ts : List Step}, s0.steps bHaveIPv6 ops = some ts →
      s0.run bHaveIPv6 ops = some s →
      s.Inv ∧ ((∀ t ∈ ts, t.Sound bHaveIPv6) ↔ ∀ t ∈ ts, ∀ task, t.ended = some task → task.Usable bHaveIPv6) := by
    clear hsteps hrun
    induction ops with
    | nil =>
      intro s0 h ts hsteps hrun
      cases hsteps
      cases hrun
      exact ⟨h, by simp⟩
    | cons op ops ih =>
      intro s0 h ts hsteps hrun
      rw [steps, bind_eq_some_iff] at hsteps
      obtain ⟨r, hr, hrest⟩ := hsteps
      obtain ⟨ts, hts, rfl⟩ := map_eq_some_iff.1 hrest
      rw [run, foldlM_cons, hr, map_some, bind_eq_bind, bind_some] at hrun
      obtain ⟨hinv, hsound⟩ := step_sound_iff h hr
      obtain ⟨hinv', htail⟩ := ih hinv hts hrun
      refine ⟨hinv', ?_⟩
      rw [forall_mem_cons, forall_mem_cons, htail, hsound]
  obtain ⟨hinv, hiff⟩ := hall init_inv hsteps hrun
  rw [hiff, and_iff_right hinv.ended]

/-- two connections: one with a bind host, deleted between its results, and one without -/
def sampleOps : List Op :=
  [.Connect ⟨lit "irc.example", 6667, lit "IRC::a", 120, false, lit "vhost", 1⟩,
    .SetTDNSThreadFinished 0 true [⟨.AF_INET6, lit "::2"⟩] ⟨true, 0, 0⟩,
    .DelSockByAddr 1,
    .Connect ⟨lit "irc.example", 6667, lit "IRC::b", 120, true, [], 2⟩,
    .SetTDNSThreadFinished 1 false [⟨.AF_INET, lit "10.0.0.1"⟩] ⟨true, 3, 0⟩,
    .SetTDNSThreadFinished 0 false [⟨.AF_INET, lit "10.0.0.1"⟩, ⟨.AF_INET6, lit "::1"⟩] ⟨false, 5, 0⟩]

theorem completion_sound_sample :
    ∃ ts s, init.steps true sampleOps = some ts ∧ init.run true sampleOps = some s ∧
      ((s.EndedOnce ∧ ∀ t ∈ ts, t.Sound true) ↔ ∀ t ∈ ts, ∀ task, t.ended = some task → task.Usable true) :=
  ⟨_, _, rfl, rfl, completion_sound_iff true sampleOps _ _ rfl rfl⟩

/-- A socket is deleted while its name is resolved, and the name has no address: the socket is used and deleted all the same, and
its entry stays in the map. -/
theorem completion_not_sound :
    (init.steps true [.Connect ⟨lit "irc.example", 6667, lit "IRC::a", 120, false, [], 1⟩, .DelSockByAddr 1,
        .SetTDNSThreadFinished 0 false [] ⟨true, 0, 0⟩]).map
      (fun ts => ts.map fun t => (t.before.deleted, t.effects, t.after.inFlightDnsSockets.find 1)) =
      some [([], [.setHostToVerifySSL 1 (lit "irc.example")], some false), ([], [.delSockByAddr 1], some true),
        ([1], [.setSockName 1 (lit "IRC::a"), .sockError 1 (lit "Can't resolve server hostname"),
          .delete 1], some true)] := by
  rfl

end CSockManager

end Dns

end ZNC
